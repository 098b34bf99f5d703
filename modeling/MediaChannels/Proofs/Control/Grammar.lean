import MediaChannels.Control.Reading
import MediaChannels.Proofs.Text.Numeral

/-!
# The texts of control events

A text assigns to a kind of event: the name of the kind, in any case, and behind an equals sign a value, with blanks
around both. A rate is a number above zero, a flag one of four words, and a flag that is only named is set.

* `Assigns`: the grammar, without regard to how texts are read.
* `splitAssignment_eq_some_iff`, `splitAssignment_eq_none_iff`: a text is split at its first equals sign.
* `Text.trimBlanks_eq_iff`: trimming finds a word without blanks exactly if there are only blanks around it.
* `ofText?_eq_some_iff`: what is read is what the grammar says.
* `parse_accepts_grammar`: the same for users, and events are read again as they are written.
-/

namespace MediaChannels

/-! ## Blanks around words -/

namespace Text

variable {core s : List Char}

/-- A text with nothing but blanks before and after it. -/
def Around (core s : List Char) : Prop :=
  ∃ before after, (∀ c ∈ before, isBlank c) ∧ (∀ c ∈ after, isBlank c) ∧ s = before ++ core ++ after

theorem around_self (s : List Char) : Around s s := ⟨[], [], by simp, by simp, by simp⟩

/-- What trimming takes off are blanks. -/
theorem around_trimBlanks (s : List Char) : Around (trimBlanks s) s := by
  refine ⟨s.takeWhile isBlank, ((s.dropWhile isBlank).reverse.takeWhile isBlank).reverse, ?_, ?_, ?_⟩
  · intro c hc
    exact List.all_eq_true.1 List.all_takeWhile c hc
  · intro c hc
    exact List.all_eq_true.1 List.all_takeWhile c (List.mem_reverse.1 hc)
  · rw [trimBlanks, List.append_assoc, ← List.reverse_append, List.takeWhile_append_dropWhile, List.reverse_reverse,
      List.takeWhile_append_dropWhile]

theorem dropWhile_append_of_not_blank {c : Char} (hc : c ∈ core) (hcore : ∀ c ∈ core, isBlank c = false)
    (s : List Char) : (core ++ s).dropWhile isBlank = core ++ s := by
  cases core with
  | nil => cases hc
  | cons d r => rw [List.cons_append, List.dropWhile_cons_of_neg (by simp [hcore d])]

/-- Trimming finds a word without blanks exactly if there are only blanks around it. -/
theorem trimBlanks_eq_iff (hcore : ∀ c ∈ core, isBlank c = false) : trimBlanks s = core ↔ Around core s := by
  constructor
  · rintro rfl
    exact around_trimBlanks s
  · rintro ⟨before, after, hbefore, hafter, rfl⟩
    cases core with
    | nil =>
      have hall : ∀ c ∈ before ++ after, isBlank c := by
        intro c hc
        exact (List.mem_append.1 hc).elim (hbefore c) (hafter c)
      have hnone : (before ++ after ++ []).dropWhile isBlank = [].dropWhile isBlank :=
        List.dropWhile_append_of_pos hall
      rw [List.append_nil] at hnone
      rw [trimBlanks, List.append_nil, hnone]
      rfl
    | cons c r =>
      have hafter' : ∀ d ∈ after.reverse, isBlank d := fun d hd => hafter d (List.mem_reverse.1 hd)
      have hcore' : ∀ d ∈ (c :: r).reverse, isBlank d = false := fun d hd => hcore d (List.mem_reverse.1 hd)
      have hfront := dropWhile_append_of_not_blank (c := c) (by simp) hcore after
      have hback := dropWhile_append_of_not_blank (c := c) (by simp) hcore' []
      rw [List.append_nil] at hback
      rw [trimBlanks, List.append_assoc, List.dropWhile_append_of_pos hbefore, hfront, List.reverse_append,
        List.dropWhile_append_of_pos hafter', hback, List.reverse_reverse]

theorem isBlank_eq_false_of_isDigit {c : Char} (h : c.isDigit = true) : isBlank c = false := by
  rw [Char.isDigit_iff_toNat] at h
  simp only [isBlank]
  grind

/-- No blank stands in a numeral. -/
theorem Numeral.isBlank_eq_false {n : Nat} (h : Numeral s n) : ∀ c ∈ s, isBlank c = false := by
  cases h with
  | bare _ hdigits => exact fun c hc => isBlank_eq_false_of_isDigit (hdigits c hc)
  | plus _ hdigits =>
    intro c hc
    cases hc with
    | head => decide
    | tail _ hc => exact isBlank_eq_false_of_isDigit (hdigits c hc)

end Text

namespace ControlEvent

open Text (Around Numeral)

variable {s left right : List Char} {kind : ControlKind} {e : ControlEvent}

/-! ## The grammar -/

/-- The name of a kind, in any case of its letters. -/
def Names (kind : ControlKind) (name : List Char) : Prop := name.map Char.toLower = kind.name.toList

/-- The words of a flag. -/
inductive Flag : List Char → Bool → Prop
  | yes : Flag "true".toList true
  | one : Flag "1".toList true
  | no : Flag "false".toList false
  | zero : Flag "0".toList false

/-- The values that the kinds can be given, and what event that makes. -/
inductive Gives : ControlKind → List Char → ControlEvent → Prop
  | bitrate {value : List Char} {n : Nat} (hvalue : Numeral value n) (hpos : 1 ≤ n) (hlt : n ≤ 2147483647) :
    Gives .bitrate value (.bitrate (.ofNat n))
  | framerate {value : List Char} {n : Nat} (hvalue : Numeral value n) (hpos : 1 ≤ n) (hlt : n ≤ 2147483647) :
    Gives .framerate value (.framerate (.ofNat n))
  | pointer {value : List Char} {flag : Bool} (hvalue : Flag value flag) : Gives .pointer value (.pointer flag)
  | idr {value : List Char} {flag : Bool} (hvalue : Flag value flag) : Gives .idr value (.idr flag)

/-- The texts of an event: a flag that is only named, or a name and a value on either side of the first equals sign. -/
inductive Assigns : List Char → ControlEvent → Prop
  | pointer {name s : List Char} (hsign : '=' ∉ s) (hs : Around name s) (hname : Names .pointer name) :
    Assigns s (.pointer true)
  | idr {name s : List Char} (hsign : '=' ∉ s) (hs : Around name s) (hname : Names .idr name) : Assigns s (.idr true)
  | valued {kind : ControlKind} {name value left right : List Char} {e : ControlEvent} (hsign : '=' ∉ left)
    (hleft : Around name left) (hname : Names kind name) (hright : Around value right) (hvalue : Gives kind value e) :
    Assigns (left ++ '=' :: right) e

/-! ## Splitting and trimming -/

/-- A text without an equals sign is not split. -/
theorem splitAssignment_eq_none_iff : splitAssignment s = (left, none) ↔ s = left ∧ '=' ∉ s := by
  induction s generalizing left with
  | nil => simp [splitAssignment, eq_comm]
  | cons c r ih =>
    by_cases hc : c = '='
    · simp [splitAssignment, hc]
    · rw [splitAssignment, if_neg hc]
      rcases hr : splitAssignment r with ⟨name, value⟩
      cases value with
      | none =>
        obtain ⟨rfl, hsign⟩ := ih.1 hr
        simp [hsign, Ne.symm hc]
      | some value =>
        suffices '=' ∈ r by simp [this]
        refine Classical.byContradiction fun hsign => ?_
        rw [ih.2 ⟨rfl, hsign⟩] at hr
        cases hr

/-- Any other text is split at its first equals sign. -/
theorem splitAssignment_eq_some_iff :
    splitAssignment s = (left, some right) ↔ s = left ++ '=' :: right ∧ '=' ∉ left := by
  induction s generalizing left with
  | nil => simp [splitAssignment]
  | cons c r ih =>
    by_cases hc : c = '='
    · subst hc
      rw [splitAssignment, if_pos rfl]
      constructor
      · intro h
        cases h
        simp
      · rintro ⟨h, hsign⟩
        cases left with
        | nil => cases h; rfl
        | cons d l => cases h; simp at hsign
    · rw [splitAssignment, if_neg hc]
      rcases hr : splitAssignment r with ⟨name, value⟩
      constructor
      · intro h
        cases h
        obtain ⟨rfl, hsign⟩ := ih.1 hr
        simp [hsign, Ne.symm hc]
      · rintro ⟨h, hsign⟩
        cases left with
        | nil => cases h; exact absurd rfl hc
        | cons d l =>
          cases h
          rw [ih.2 ⟨rfl, fun hmem => hsign (List.mem_cons_of_mem _ hmem)⟩] at hr
          cases hr
          rfl

theorem toLower_of_isBlank {c : Char} (h : Text.isBlank c = true) : c.toLower = c := by
  unfold Char.toLower
  split
  · next hupper =>
    simp only [Text.isBlank, Bool.or_eq_true, Bool.and_eq_true, decide_eq_true_eq, beq_iff_eq] at h
    have hlow : 65 ≤ c.toNat := hupper.1
    have hhigh : c.toNat ≤ 90 := hupper.2
    omega
  · rfl

/-- No blank stands in a name: all letters of the names are. -/
theorem isBlank_eq_false_of_names {name : List Char} (h : Names kind name) :
    ∀ c ∈ name, Text.isBlank c = false := by
  intro c hc
  have hmem : c.toLower ∈ kind.name.toList := by
    rw [← h]
    exact List.mem_map_of_mem hc
  have hnames : ∀ d ∈ kind.name.toList, Text.isBlank d = false := by
    cases kind <;> exact Text.forall_mem_of_all (by decide)
  refine Bool.eq_false_iff.2 fun hblank => ?_
  rw [toLower_of_isBlank hblank] at hmem
  exact absurd hblank (by simp [hnames c hmem])

theorem isBlank_eq_false_of_gives {value : List Char} (h : Gives kind value e) :
    ∀ c ∈ value, Text.isBlank c = false := by
  cases h with
  | bitrate hvalue => exact hvalue.isBlank_eq_false
  | framerate hvalue => exact hvalue.isBlank_eq_false
  | pointer hvalue => cases hvalue <;> exact Text.forall_mem_of_all (by decide)
  | idr hvalue => cases hvalue <;> exact Text.forall_mem_of_all (by decide)

/-! ## Reading -/

/-- The event that a trimmed value makes of a kind. -/
def valueOfText? (kind : ControlKind) (value : Option (List Char)) : Option ControlEvent :=
  match kind with
  | .bitrate => (rateOfText? value).map bitrate
  | .framerate => (rateOfText? value).map framerate
  | .pointer => (flagOfText? value).map pointer
  | .idr => (flagOfText? value).map idr

theorem rateOfText?_eq_some_iff {value : List Char} {v : Int32} :
    rateOfText? (some value) = some v ↔ ∃ n : Nat, Numeral value n ∧ 1 ≤ n ∧ n ≤ 2147483647 ∧ v = .ofNat n := by
  rw [rateOfText?, Option.bind_some, Option.bind_eq_some_iff]
  constructor
  · rintro ⟨k, hk, hv⟩
    split at hv
    · next hpos =>
      cases hv
      obtain ⟨n, hnumeral, hlt, rfl⟩ := (Text.signed?_eq_some_iff_of_pos hpos).1 hk
      exact ⟨n, hnumeral, by omega, by omega, rfl⟩
    · cases hv
  · rintro ⟨n, hnumeral, hpos, hle, rfl⟩
    have hpos' : (0 : Int) < n := by omega
    exact ⟨n, (Text.signed?_eq_some_iff_of_pos hpos').2 ⟨n, hnumeral, by omega, rfl⟩, if_pos hpos'⟩

theorem flagOfText?_eq_some_iff {value : List Char} {flag : Bool} :
    flagOfText? (some value) = some flag ↔ Flag value flag := by
  simp only [flagOfText?]
  constructor
  · intro h
    split at h
    · next hyes =>
      cases h
      rcases hyes with rfl | rfl
      · exact .yes
      · exact .one
    split at h
    · next hno =>
      cases h
      rcases hno with rfl | rfl
      · exact .no
      · exact .zero
    cases h
  · intro h
    cases h with
    | yes => rfl
    | one => rfl
    | no => rfl
    | zero => rfl

theorem valueOfText?_eq_some_iff {value : List Char} :
    valueOfText? kind (some value) = some e ↔ Gives kind value e := by
  unfold valueOfText?
  constructor
  · intro h
    cases kind with
    | bitrate =>
      obtain ⟨v, hv, rfl⟩ := Option.map_eq_some_iff.1 h
      obtain ⟨n, hnumeral, hpos, hle, rfl⟩ := rateOfText?_eq_some_iff.1 hv
      exact .bitrate hnumeral hpos hle
    | framerate =>
      obtain ⟨v, hv, rfl⟩ := Option.map_eq_some_iff.1 h
      obtain ⟨n, hnumeral, hpos, hle, rfl⟩ := rateOfText?_eq_some_iff.1 hv
      exact .framerate hnumeral hpos hle
    | pointer =>
      obtain ⟨flag, hflag, rfl⟩ := Option.map_eq_some_iff.1 h
      exact .pointer (flagOfText?_eq_some_iff.1 hflag)
    | idr =>
      obtain ⟨flag, hflag, rfl⟩ := Option.map_eq_some_iff.1 h
      exact .idr (flagOfText?_eq_some_iff.1 hflag)
  · intro h
    cases h with
    | @bitrate value n hvalue hpos hle =>
      exact Option.map_eq_some_iff.2 ⟨.ofNat n, rateOfText?_eq_some_iff.2 ⟨n, hvalue, hpos, hle, rfl⟩, rfl⟩
    | @framerate value n hvalue hpos hle =>
      exact Option.map_eq_some_iff.2 ⟨.ofNat n, rateOfText?_eq_some_iff.2 ⟨n, hvalue, hpos, hle, rfl⟩, rfl⟩
    | @pointer value flag hvalue => exact Option.map_eq_some_iff.2 ⟨flag, flagOfText?_eq_some_iff.2 hvalue, rfl⟩
    | @idr value flag hvalue => exact Option.map_eq_some_iff.2 ⟨flag, flagOfText?_eq_some_iff.2 hvalue, rfl⟩

/-- A rate has to have a value, and a flag that is only named is set. -/
theorem valueOfText?_none_eq_some_iff :
    valueOfText? kind none = some e ↔ kind = .pointer ∧ e = .pointer true ∨ kind = .idr ∧ e = .idr true := by
  cases kind <;> simp [valueOfText?, rateOfText?, flagOfText?, eq_comm]

/-- The name decides on the kind, and the kind on what the value can be. -/
theorem ofText?_eq_some_iff_of_split {name : List Char} {value : Option (List Char)}
    (h : splitAssignment s = (name, value)) :
    ofText? s = some e ↔
      ∃ kind, Names kind (Text.trimBlanks name) ∧ valueOfText? kind (value.map Text.trimBlanks) = some e := by
  simp only [ofText?, h]
  constructor
  · intro he
    split at he
    · next hname => exact ⟨.bitrate, hname, he⟩
    split at he
    · next hname => exact ⟨.framerate, hname, he⟩
    split at he
    · next hname => exact ⟨.pointer, hname, he⟩
    split at he
    · next hname => exact ⟨.idr, hname, he⟩
    cases he
  · rintro ⟨kind, hname, he⟩
    rw [Names] at hname
    rw [hname]
    cases kind with
    | bitrate => exact he
    | framerate => exact he
    | pointer => exact he
    | idr => exact he

/-- What is read is what the grammar says. -/
theorem ofText?_eq_some_iff : ofText? s = some e ↔ Assigns s e := by
  rcases hsplit : splitAssignment s with ⟨name, value⟩
  rw [ofText?_eq_some_iff_of_split hsplit]
  constructor
  · rintro ⟨kind, hname, he⟩
    cases value with
    | none =>
      obtain ⟨rfl, hsign⟩ := splitAssignment_eq_none_iff.1 hsplit
      rcases valueOfText?_none_eq_some_iff.1 he with ⟨rfl, rfl⟩ | ⟨rfl, rfl⟩
      · exact .pointer hsign (Text.around_trimBlanks s) hname
      · exact .idr hsign (Text.around_trimBlanks s) hname
    | some value =>
      obtain ⟨rfl, hsign⟩ := splitAssignment_eq_some_iff.1 hsplit
      exact .valued hsign (Text.around_trimBlanks name) hname (Text.around_trimBlanks value)
        (valueOfText?_eq_some_iff.1 he)
  · intro h
    cases h with
    | pointer hsign hs hname =>
      cases (splitAssignment_eq_none_iff.2 ⟨rfl, hsign⟩).symm.trans hsplit
      refine ⟨.pointer, ?_, rfl⟩
      rwa [(Text.trimBlanks_eq_iff (isBlank_eq_false_of_names hname)).2 hs]
    | idr hsign hs hname =>
      cases (splitAssignment_eq_none_iff.2 ⟨rfl, hsign⟩).symm.trans hsplit
      refine ⟨.idr, ?_, rfl⟩
      rwa [(Text.trimBlanks_eq_iff (isBlank_eq_false_of_names hname)).2 hs]
    | @valued kind _ _ _ _ _ hsign hleft hname hright hvalue =>
      cases (splitAssignment_eq_some_iff.2 ⟨rfl, hsign⟩).symm.trans hsplit
      refine ⟨kind, ?_, ?_⟩
      · rwa [(Text.trimBlanks_eq_iff (isBlank_eq_false_of_names hname)).2 hleft]
      · rw [Option.map_some, (Text.trimBlanks_eq_iff (isBlank_eq_false_of_gives hvalue)).2 hright]
        exact valueOfText?_eq_some_iff.2 hvalue

/-! ## Writing -/

/-- The value of an event as text. -/
def valueText : ControlEvent → String
  | bitrate v | framerate v => toString v.toInt
  | pointer b | idr b => toString b

/-- An event as users write it. -/
def assignment (e : ControlEvent) : String := s!"{e.kind.name}={e.valueText}"

/-- A number above zero is written without a sign. -/
theorem exists_numeral_of_pos {v : Int32} (h : 0 < v) :
    ∃ n : Nat, Numeral (toString v.toInt).toList n ∧ 1 ≤ n ∧ n ≤ 2147483647 ∧ v = .ofNat n := by
  have hpos : 0 < v.toInt := Int32.lt_iff_toInt_lt.1 h
  have hle : v.toInt ≤ 2147483647 := v.toInt_le
  obtain ⟨n, hn⟩ := Int.eq_ofNat_of_zero_le (Int.le_of_lt hpos)
  refine ⟨n, ?_, by omega, by omega, ?_⟩
  · have htext : (toString v.toInt).toList = Nat.toDigits 10 n := by
      rw [hn]
      exact Nat.toList_repr
    rw [htext]
    exact Text.numeral_toDigits n
  · rw [← Int32.ofInt_toInt v, hn]
    rfl

theorem gives_valueText (h : e.WellFormed) : Gives e.kind e.valueText.toList e := by
  cases e with
  | bitrate v =>
    obtain ⟨n, hnumeral, hpos, hle, rfl⟩ := exists_numeral_of_pos h
    exact .bitrate hnumeral hpos hle
  | framerate v =>
    obtain ⟨n, hnumeral, hpos, hle, rfl⟩ := exists_numeral_of_pos h
    exact .framerate hnumeral hpos hle
  | pointer flag =>
    cases flag with
    | true => exact .pointer .yes
    | false => exact .pointer .no
  | idr flag =>
    cases flag with
    | true => exact .idr .yes
    | false => exact .idr .no

theorem names_name (kind : ControlKind) : '=' ∉ kind.name.toList ∧ Names kind kind.name.toList := by
  cases kind <;> exact ⟨by decide, by rfl⟩

/-- A well-formed event, as it is written, is a text of the grammar. -/
theorem assigns_assignment (h : e.WellFormed) : Assigns e.assignment.toList e := by
  obtain ⟨hsign, hname⟩ := names_name e.kind
  have hlist : e.assignment.toList = e.kind.name.toList ++ '=' :: e.valueText.toList := by
    simp only [assignment, toString, String.toList_append, List.append_assoc]
    rfl
  rw [hlist]
  exact .valued hsign (Text.around_self _) hname (Text.around_self _) (gives_valueText h)

/-- A text is read as an event exactly if the grammar says so, any other text is refused and quoted, and events are read
again as they are written. -/
theorem parse_accepts_grammar :
    (∀ s e, parse s = .ok e ↔ Assigns s.toList e) ∧
      (∀ s, (¬∃ e, Assigns s.toList e) → parse s = .error (.configuration s!"invalid control event '{s}'")) ∧
      ∀ e : ControlEvent, e.WellFormed → parse e.assignment = .ok e := by
  have hok : ∀ s e, parse s = .ok e ↔ Assigns s.toList e := by
    intro s e
    rw [← ofText?_eq_some_iff, parse]
    cases ofText? s.toList <;> simp
  refine ⟨hok, ?_, ?_⟩
  · intro s hs
    rw [parse]
    cases hread : ofText? s.toList with
    | none => rfl
    | some e => exact absurd ⟨e, ofText?_eq_some_iff.1 hread⟩ hs
  · intro e he
    exact (hok _ _).2 (assigns_assignment he)

/-- Blanks of all sorts, mixed case, a plus sign and zeros in front; a rate that is too large; an event as it is
written. -/
theorem parse_accepts_grammar_padded :
    (Assigns "\u2003BitRate =\t+0005000 ".toList (.bitrate 5000) ∧
        parse "\u2003BitRate =\t+0005000 " = .ok (.bitrate 5000)) ∧
      ((¬∃ e, Assigns "bitrate=2147483648".toList e) ∧
        parse "bitrate=2147483648" = .error (.configuration "invalid control event 'bitrate=2147483648'")) ∧
      (framerate 60).WellFormed ∧ parse "framerate=60" = .ok (.framerate 60) := by
  have hpadded : Assigns "\u2003BitRate =\t+0005000 ".toList (.bitrate 5000) := by
    have hleft : Around "BitRate".toList "\u2003BitRate ".toList :=
      ⟨['\u2003'], [' '], Text.forall_mem_of_all (by decide), Text.forall_mem_of_all (by decide), rfl⟩
    have hright : Around "+0005000".toList "\t+0005000 ".toList :=
      ⟨['\t'], [' '], Text.forall_mem_of_all (by decide), Text.forall_mem_of_all (by decide), rfl⟩
    have hnumeral : Numeral "+0005000".toList 5000 :=
      @Numeral.plus "0005000".toList (by decide) (Text.forall_mem_of_all (by decide))
    exact .valued (by decide) hleft (by rfl) hright (.bitrate hnumeral (by decide) (by decide))
  have hlarge : ¬∃ e, Assigns "bitrate=2147483648".toList e := by
    rintro ⟨e, he⟩
    have hnone : ofText? "bitrate=2147483648".toList = none := by rfl
    rw [← ofText?_eq_some_iff, hnone] at he
    cases he
  have hrate : (framerate 60).WellFormed := by decide
  exact ⟨⟨hpadded, (parse_accepts_grammar.1 _ _).2 hpadded⟩, ⟨hlarge, parse_accepts_grammar.2.1 _ hlarge⟩, hrate,
    parse_accepts_grammar.2.2 _ hrate⟩

end ControlEvent

end MediaChannels
