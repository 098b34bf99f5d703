import MediaChannels.Proofs.Toml.Quoting
import MediaChannels.Proofs.Toml.Words

/-!
# Documents are read again

A document of texts and integers, as it is written, is read as the same document: every line as its statement, and the
statements as the sections that they make.

* `key?_writeKey`, `keys?_writePath`: keys, in quotes or not, and dotted keys.
* `value?_write`: the values.
* `statement?_write`: the lines.
* `ofText?_write`: the document.
-/

namespace MediaChannels.Toml

variable {r : List Char} {c : Char}

/-! ## Keys -/

/-- The first character of a key, as it is written. -/
def LeadsKey (c : Char) : Prop := isKeyChar c = true ∨ c = '"'

instance (c : Char) : Decidable (LeadsKey c) := inferInstanceAs (Decidable (isKeyChar c = true ∨ c = '"'))

theorem LeadsKey.ne (h : LeadsKey c) {d : Char} (hd : ¬LeadsKey d) : c ≠ d := by
  rintro rfl
  exact hd h

theorem LeadsKey.isBlank_eq_false (h : LeadsKey c) : isBlank c = false := by
  have hspace : c ≠ ' ' := h.ne (by decide)
  have htab : c ≠ '\t' := h.ne (by decide)
  simp [isBlank, hspace, htab]

/-- A key is written as it is, or between quotes. -/
theorem writeKey_cases (key : String) :
    (key.toList ≠ [] ∧ (∀ c ∈ key.toList, isKeyChar c = true) ∧ writeKey key = key.toList) ∨
      writeKey key = '"' :: (escaped false 0 key.toList ++ ['"']) := by
  unfold writeKey
  dsimp only
  split
  · next h =>
    rw [Bool.and_eq_true, Bool.not_eq_true', List.isEmpty_eq_false_iff, List.all_eq_true] at h
    exact .inl ⟨h.1, h.2, rfl⟩
  · exact .inr rfl

theorem exists_writeKey_eq_cons (key : String) : ∃ c t, writeKey key = c :: t ∧ LeadsKey c := by
  rcases writeKey_cases key with ⟨hne, hall, hwrite⟩ | hwrite
  · obtain ⟨c, t, ht⟩ := List.exists_cons_of_ne_nil hne
    exact ⟨c, t, hwrite.trans ht, .inl (hall c (by rw [ht]; simp))⟩
  · exact ⟨'"', _, hwrite, .inr rfl⟩

theorem key?_of_isKeyChar {s : List Char} (hne : s ≠ []) (hs : ∀ c ∈ s, isKeyChar c = true)
    (hr : ∀ c ∈ r.head?, isKeyChar c = false) : key? (s ++ r) = some (String.ofList s, r) := by
  obtain ⟨htake, hdrop⟩ := span_append hs hr
  have hquote : ∀ quote ∈ ['"', '\''], ∀ t, s ++ r ≠ quote :: t := by
    intro quote hmem t ht
    obtain ⟨c, s', rfl⟩ := List.exists_cons_of_ne_nil hne
    have hall : ∀ quote ∈ ['"', '\''], isKeyChar quote = false := Text.forall_mem_of_all (by decide)
    have hc := hs c (by simp)
    rw [(List.cons.inj ht).1, hall quote hmem] at hc
    cases hc
  rw [key?]
  · simp only [htake, hdrop]
    rw [if_neg (by simpa using hne)]
  · exact hquote '"' (by decide)
  · exact hquote '\'' (by decide)

/-- A key without dots is read again. -/
theorem key?_writeKey (key : String) (hr : ∀ c ∈ r.head?, isKeyChar c = false) :
    key? (writeKey key ++ r) = some (key, r) := by
  rcases writeKey_cases key with ⟨hne, hall, hwrite⟩ | hwrite
  · rw [hwrite, key?_of_isKeyChar hne hall hr, String.ofList_toList]
  · rw [hwrite, List.cons_append, List.append_assoc, List.singleton_append, key?, quotedLine?, basic_escaped,
      Option.map_some]
    exact congrArg (fun key => some (key, r)) String.ofList_toList

theorem writePath_singleton (key : String) : writePath [key] = writeKey key := List.append_nil _

theorem writePath_cons (key next : String) (rest : List String) :
    writePath (key :: next :: rest) = writeKey key ++ '.' :: writePath (next :: rest) := rfl

theorem exists_writePath_eq_cons {path : List String} (h : path ≠ []) :
    ∃ c t, writePath path = c :: t ∧ LeadsKey c := by
  obtain ⟨key, rest, rfl⟩ := List.exists_cons_of_ne_nil h
  obtain ⟨c, t, ht, hc⟩ := exists_writeKey_eq_cons key
  cases rest with
  | nil => exact ⟨c, t, (writePath_singleton key).trans ht, hc⟩
  | cons next rest => exact ⟨c, t ++ '.' :: writePath (next :: rest), by rw [writePath_cons, ht, List.cons_append], hc⟩

/-- No blank stands before a dotted key. -/
theorem blanks_writePath {path : List String} (h : path ≠ []) (r : List Char) :
    blanks (writePath path ++ r) = writePath path ++ r := by
  obtain ⟨c, t, ht, hc⟩ := exists_writePath_eq_cons h
  rw [ht, List.cons_append, blanks_of_not_isBlank hc.isBlank_eq_false]

/-- A dotted key is read again, with the blanks behind it. -/
theorem keys?_writePath {path : List String} {room : Nat} (hne : path ≠ []) (hroom : path.length ≤ room)
    (hr : ∀ c ∈ r.head?, isKeyChar c = false) (hdot : (blanks r).head? ≠ some '.') :
    keys? room (writePath path ++ r) = some (path, blanks r) := by
  induction path generalizing room with
  | nil => exact absurd rfl hne
  | cons key rest ih =>
    obtain ⟨room, rfl⟩ : ∃ k, room = k + 1 := ⟨room - 1, by rw [List.length_cons] at hroom; omega⟩
    rw [keys?, blanks_writePath hne]
    cases rest with
    | nil =>
      rw [writePath_singleton, key?_writeKey key hr]
      dsimp only
      split
      · next h => exact absurd (by rw [h]; rfl) hdot
      · rfl
    | cons next rest =>
      have hlength : (next :: rest).length ≤ room := Nat.le_of_succ_le_succ hroom
      have hrest := ih (by simp) hlength
      have hkey := key?_writeKey key (r := '.' :: (writePath (next :: rest) ++ r)) (by simp [isKeyChar])
      have hdots := blanks_of_not_isBlank (c := '.') (by decide) (writePath (next :: rest) ++ r)
      rw [writePath_cons, List.append_assoc, List.cons_append]
      simp only [hkey, hdots, hrest, Option.map_some]

/-! ## Values -/

/-- The values that are read again as they are written: texts, and integers of 64 bits. -/
inductive Value.Plain : Value → Prop
  | text (s : String) : Plain (.text s)
  | integer {n : Int} (hmin : Int64.minValue.toInt ≤ n) (hmax : n ≤ Int64.maxValue.toInt) : Plain (.integer n)

/-- Quoted text begins with a quote. -/
theorem exists_quote_eq_cons (s : List Char) : ∃ c t, quote s = c :: t ∧ (c = '"' ∨ c = '\'') := by
  rw [quote]
  cases QuoteStyle.of s with
  | basic => exact ⟨'"', _, rfl, .inl rfl⟩
  | literal => exact ⟨'\'', _, rfl, .inr rfl⟩
  | multiBasic => exact ⟨'"', _, rfl, .inl rfl⟩
  | multiLiteral => exact ⟨'\'', _, rfl, .inr rfl⟩

theorem exists_toString_eq_cons (n : Int) : ∃ c t, (toString n).toList = c :: t ∧ (c.isDigit = true ∨ c = '-') := by
  cases h : (toString n).toList with
  | nil =>
    rw [toList_toString] at h
    split at h
    · exact absurd h Nat.toDigits_ne_nil
    · cases h
  | cons c t => exact ⟨c, t, rfl, isDigit_or_of_mem_toString (n := n) (by rw [h]; simp)⟩

/-- What can stand behind a value: nothing that could be part of a word or of quotes. -/
structure EndsValue (r : List Char) : Prop where
  word : ∀ c ∈ r.head?, Value.isWordChar c = false
  double : r.head? ≠ some '"'
  single : r.head? ≠ some '\''

theorem endsValue_newline (r : List Char) : EndsValue ('\n' :: r) := by
  constructor
  · simp [Value.isWordChar]
  · simp
  · simp

/-- **A value is read again.** -/
theorem value?_write {v : Value} (h : v.Plain) (room : Nat) (hr : EndsValue r) :
    value? room (v.write ++ r) = some (v, r) := by
  cases h with
  | text s =>
    obtain ⟨c, t, ht, hc⟩ := exists_quote_eq_cons s.toList
    have hquoted := quoted?_quote s.toList hr.double hr.single
    rw [Value.write, ht, List.cons_append] at *
    have hs := congrArg (fun s => some (Value.text s, r)) (String.ofList_toList (s := s))
    rcases hc with rfl | rfl
    · rw [value?, hquoted]
      exact hs
    · rw [value?, hquoted]
      exact hs
  | @integer n hmin hmax =>
    obtain ⟨c, t, ht, hc⟩ := exists_toString_eq_cons n
    have hword := word?_toString hmin hmax hr.word
    have hne : ∀ d ∈ ['"', '\'', '[', '{'], ∀ u, c :: t ++ r ≠ d :: u := by
      intro d hd u hu
      have hall : ∀ d ∈ ['"', '\'', '[', '{'], ¬(d.isDigit = true ∨ d = '-') := Text.forall_mem_of_all (by decide)
      exact hall d hd ((List.cons.inj hu).1 ▸ hc)
    rw [Value.write, ht] at *
    rw [value?]
    · exact hword
    · exact hne '"' (by decide)
    · exact hne '\'' (by decide)
    · exact hne '[' (by decide)
    · exact hne '{' (by decide)

/-- No blank stands in front of a value. -/
theorem blanks_write {v : Value} (h : v.Plain) (r : List Char) : blanks (v.write ++ r) = v.write ++ r := by
  cases h with
  | text s =>
    obtain ⟨c, t, ht, hc⟩ := exists_quote_eq_cons s.toList
    have hblank : isBlank c = false := by rcases hc with rfl | rfl <;> decide
    rw [Value.write, ht, List.cons_append, blanks_of_not_isBlank hblank]
  | @integer n =>
    obtain ⟨c, t, ht, hc⟩ := exists_toString_eq_cons n
    have hblank : isBlank c = false := by
      refine Bool.eq_false_iff.2 fun hblank => ?_
      simp only [isBlank, Bool.or_eq_true, beq_iff_eq] at hblank
      rcases hblank with rfl | rfl
      · exact absurd hc (by decide)
      · exact absurd hc (by decide)
    rw [Value.write, ht, List.cons_append, blanks_of_not_isBlank hblank]

/-! ## Lines -/

/-- A dotted key that can be read. -/
structure IsPath (path : List String) : Prop where
  ne_nil : path ≠ []
  length_le : path.length ≤ maxDepth

instance (path : List String) : Decidable (IsPath path) :=
  decidable_of_iff (path ≠ [] ∧ path.length ≤ maxDepth)
    ⟨fun ⟨hne, hlength⟩ => ⟨hne, hlength⟩, fun ⟨hne, hlength⟩ => ⟨hne, hlength⟩⟩

theorem isPath_singleton (key : String) : IsPath [key] := ⟨List.cons_ne_nil _ _, Nat.succ_le_succ (Nat.zero_le _)⟩

/-- An assignment that is read again as it is written. -/
structure Assignment.Writable (a : Assignment) : Prop where
  path : IsPath a.path
  value : a.value.Plain

theorem blanks_space (r : List Char) : blanks (' ' :: r) = blanks r := rfl

theorem path?_writePath {path : List String} (h : IsPath path) (hr : ∀ c ∈ r.head?, isKeyChar c = false)
    (hdot : (blanks r).head? ≠ some '.') : path? (writePath path ++ r) = some (path, blanks r) :=
  keys?_writePath h.ne_nil h.length_le hr hdot

theorem statement?_assignment {a : Assignment} (h : a.Writable) (r : List Char) :
    statement? (a.write ++ r) = some (.assign a, r) := by
  obtain ⟨c, t, ht, hc⟩ := exists_writePath_eq_cons h.path.ne_nil
  have hbracket : ∀ u, a.write ++ r ≠ '[' :: u := by
    intro u hu
    rw [Assignment.write, ht] at hu
    exact hc.ne (by decide) (List.cons.inj hu).1
  have hpath : path? (a.write ++ r) = some (a.path, '=' :: ' ' :: (a.value.write ++ '\n' :: r)) := by
    have hread := path?_writePath (r := ' ' :: '=' :: ' ' :: (a.value.write ++ '\n' :: r)) h.path
      (by simp [isKeyChar]) (by rw [blanks_space, blanks_of_not_isBlank (by decide)]; simp)
    rw [blanks_space, blanks_of_not_isBlank (by decide)] at hread
    simpa only [Assignment.write, List.append_assoc, List.cons_append, List.nil_append] using hread
  have hvalue : value? maxDepth (blanks (' ' :: (a.value.write ++ '\n' :: r))) = some (a.value, '\n' :: r) := by
    rw [blanks_space, blanks_write h.value]
    exact value?_write h.value _ (endsValue_newline r)
  rw [statement?]
  · simp only [assignment?, hpath, hvalue, lineEnd?_newline, Option.map_some]
  · intro u hu
    exact hbracket _ hu
  · exact hbracket

theorem statement?_header {h : Header} (hpath : IsPath h.path) (r : List Char) :
    statement? (h.write ++ r) = some (.header h, r) := by
  obtain ⟨path, element⟩ := h
  have hread : ∀ u, path? (writePath path ++ ']' :: u) = some (path, ']' :: u) := by
    intro u
    have hblanks : blanks (']' :: u) = ']' :: u := blanks_of_not_isBlank (by decide) u
    rw [path?_writePath hpath (by simp [isKeyChar]) (by rw [hblanks]; simp), hblanks]
  cases element with
  | true =>
    rw [Header.write, if_pos rfl]
    simp only [List.cons_append, List.nil_append, List.append_assoc, statement?, header?, hread, lineEnd?_newline,
      Option.map_some]
  | false =>
    obtain ⟨c, t, ht, hc⟩ := exists_writePath_eq_cons hpath.ne_nil
    have hbracket : ∀ u, writePath path ++ ']' :: '\n' :: r ≠ '[' :: u := by
      intro u hu
      rw [ht] at hu
      exact hc.ne (by decide) (List.cons.inj hu).1
    rw [Header.write, if_neg (by simp)]
    simp only [List.cons_append, List.nil_append, List.append_assoc]
    rw [statement?]
    · simp only [header?, hread, lineEnd?_newline, Option.map_some]
    · exact hbracket

/-- The line of a statement. -/
def Statement.write : Statement → List Char
  | assign a => a.write
  | header h => h.write

/-- A statement that is read again as it is written. -/
inductive Statement.Writable : Statement → Prop
  | assign {a : Assignment} (h : a.Writable) : Writable (.assign a)
  | header {h : Header} (hpath : IsPath h.path) : Writable (.header h)

/-- **A line is read as its statement.** -/
theorem statement?_write {statement : Statement} (h : statement.Writable) (r : List Char) :
    statement? (statement.write ++ r) = some (statement, r) := by
  cases h with
  | assign h => exact statement?_assignment h r
  | header hpath => exact statement?_header hpath r

/-- It begins with a bracket or a key, which is neither white space nor a mark of any kind. -/
theorem exists_statement_eq_cons {statement : Statement} (h : statement.Writable) :
    ∃ c t, statement.write = c :: t ∧ isBlank c = false ∧ ¬(c = '#' ∨ c = '\n' ∨ c = '\r') ∧ c ≠ '\uFEFF' := by
  have hbracket : ∀ {t : List Char}, ∃ c t', '[' :: t = c :: t' ∧ isBlank c = false ∧
      ¬(c = '#' ∨ c = '\n' ∨ c = '\r') ∧ c ≠ '\uFEFF' :=
    fun {t} => ⟨'[', t, rfl, by decide, by decide, by decide⟩
  cases h with
  | @assign a h =>
    obtain ⟨c, t, ht, hc⟩ := exists_writePath_eq_cons h.path.ne_nil
    have hwrite : (Statement.assign a).write = c :: (t ++ [' ', '=', ' '] ++ a.value.write ++ ['\n']) := by
      rw [Statement.write, Assignment.write, ht]
      rfl
    refine ⟨c, _, hwrite, hc.isBlank_eq_false, ?_, hc.ne (by decide)⟩
    rintro (h | h | h)
    · exact hc.ne (by decide) h
    · exact hc.ne (by decide) h
    · exact hc.ne (by decide) h
  | @header h hpath =>
    rw [Statement.write, Header.write]
    split
    · exact hbracket
    · exact hbracket

/-! ## Documents -/

/-- Empty lines say nothing. -/
theorem statements?_newline (r : List Char) : statements? ('\n' :: r) = statements? r := by
  have hblanks : blanks ('\n' :: r) = '\n' :: r := blanks_of_not_isBlank (by decide) r
  rw [statements?]
  split
  · next h =>
    rw [hblanks] at h
    cases h
  · next h =>
    rw [hblanks] at h
    cases h
    simp only [true_or, or_true, if_true, lineEnd?_newline, List.length_cons, Nat.lt_add_one]

/-- A line that is not blank begins with its statement. -/
theorem statements?_of_statement? {s t rest : List Char} {statement : Statement} (hs : blanks s = c :: t)
    (hc : ¬(c = '#' ∨ c = '\n' ∨ c = '\r')) (h : statement? (c :: t) = some (statement, rest))
    (hlt : rest.length < s.length) : statements? s = (statements? rest).map (statement :: ·) := by
  rw [statements?]
  split
  · next h' =>
    rw [hs] at h'
    cases h'
  · next h' =>
    rw [hs] at h'
    cases h'
    rw [if_neg hc, h]
    exact if_pos hlt

/-- **The line of a statement is read as the statement**, and the lines behind it as theirs. -/
theorem statements?_write {statement : Statement} (h : statement.Writable) (r : List Char) :
    statements? (statement.write ++ r) = (statements? r).map (statement :: ·) := by
  obtain ⟨c, t, ht, hblank, hmark, -⟩ := exists_statement_eq_cons h
  have hread := statement?_write h r
  rw [ht, List.cons_append] at hread ⊢
  refine statements?_of_statement? (blanks_of_not_isBlank hblank _) hmark hread ?_
  rw [List.length_cons, List.length_append]
  omega

theorem statements?_assignments {assignments : List Assignment} (h : ∀ a ∈ assignments, a.Writable) (r : List Char) :
    statements? (assignments.flatMap Assignment.write ++ r) =
      (statements? r).map (assignments.map Statement.assign ++ ·) := by
  induction assignments with
  | nil => simp
  | cons a rest ih =>
    have hfirst := statements?_write (.assign (h a (by simp))) (rest.flatMap Assignment.write ++ r)
    rw [List.flatMap_cons, List.append_assoc, List.map_cons]
    rw [Statement.write, ih fun b hb => h b (List.mem_cons_of_mem _ hb), Option.map_map] at hfirst
    exact hfirst

/-- The statements of a section. -/
def Section.statements (sec : Section) : List Statement := .header sec.header :: sec.assignments.map .assign

/-- A section that is read again as it is written. -/
structure Section.Writable (sec : Section) : Prop where
  path : IsPath sec.header.path
  assignments : ∀ a ∈ sec.assignments, a.Writable

theorem statements?_section {sec : Section} (h : sec.Writable) (r : List Char) :
    statements? (sec.write ++ r) = (statements? r).map (sec.statements ++ ·) := by
  have hfirst := statements?_write (.header h.path) (sec.assignments.flatMap Assignment.write ++ r)
  rw [Statement.write, statements?_assignments h.assignments, Option.map_map] at hfirst
  rw [Section.write, List.cons_append, List.cons_append, statements?_newline, List.append_assoc]
  exact hfirst

namespace Document

/-- The statements of a document, in their order. -/
def statements (d : Document) : List Statement := d.assignments.map .assign ++ d.sections.flatMap Section.statements

/-- A document that is read again as it is written. -/
structure Writable (d : Document) : Prop where
  assignments : ∀ a ∈ d.assignments, a.Writable
  sections : ∀ sec ∈ d.sections, sec.Writable

/-- The statements of a document make the document. -/
theorem ofStatements_statements (d : Document) : ofStatements d.statements = d := by
  have hassigns : ∀ (assignments : List Assignment) (r : List Statement),
      ofStatements (assignments.map .assign ++ r) =
        ⟨assignments ++ (ofStatements r).assignments, (ofStatements r).sections⟩ := by
    intro assignments r
    induction assignments with
    | nil => rfl
    | cons a rest ih => rw [List.map_cons, List.cons_append, ofStatements_assign, ih]; rfl
  have hsections : ∀ sections : List Section, ofStatements (sections.flatMap Section.statements) = ⟨[], sections⟩ := by
    intro sections
    induction sections with
    | nil => rfl
    | cons sec rest ih =>
      rw [List.flatMap_cons, Section.statements, List.cons_append, ofStatements_header, hassigns, ih]
      simp
  obtain ⟨assignments, sections⟩ := d
  rw [statements, hassigns, hsections, List.append_nil]

theorem statements?_write {d : Document} (h : d.Writable) : statements? d.write = some d.statements := by
  have hsections : ∀ sections : List Section, (∀ sec ∈ sections, sec.Writable) →
      statements? (sections.flatMap Section.write) = some (sections.flatMap Section.statements) := by
    intro sections hall
    induction sections with
    | nil =>
      rw [List.flatMap_nil, List.flatMap_nil, statements?]
      rfl
    | cons sec rest ih =>
      rw [List.flatMap_cons, List.flatMap_cons, statements?_section (hall sec (by simp)),
        ih fun other hother => hall other (List.mem_cons_of_mem _ hother), Option.map_some]
  rw [write, statements?_assignments h.assignments, hsections _ h.sections, Option.map_some, statements]

/-- A document does not begin with a byte order mark. -/
theorem head?_write_ne {d : Document} (h : d.Writable) : d.write.head? ≠ some '\uFEFF' := by
  obtain ⟨assignments, sections⟩ := d
  cases assignments with
  | cons a rest =>
    obtain ⟨c, t, ht, -, -, hmark⟩ := exists_statement_eq_cons (.assign (h.assignments a (by simp)))
    rw [Statement.write] at ht
    simpa [write, ht] using hmark
  | nil =>
    cases sections with
    | nil => simp [write]
    | cons sec rest => simp [write, Section.write]

/-- **A document of texts and integers is read again as it is written.** -/
theorem ofText?_write {d : Document} (h : d.Writable) : ofText? d.write = some d := by
  rw [ofText?]
  · rw [statements?_write h, Option.map_some, ofStatements_statements]
  · intro r hr
    exact head?_write_ne h (congrArg List.head? hr)

end Document

end MediaChannels.Toml
