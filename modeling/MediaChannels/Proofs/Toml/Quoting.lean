import MediaChannels.Proofs.Text.Numeral
import MediaChannels.Proofs.Words
import MediaChannels.Toml.Printer

/-!
# Quoted text is read again

However a text is quoted, the reader finds the same text between the quotes, and what stands behind them. What stands
behind must not begin with a quote: more quotes than three would belong to a text of many lines, and two double quotes
are an empty text only if no third one follows.

* `escape?_of_escapeSequence?`: an escape sequence is read as the character that it was written for.
* `basic_escaped`, `literal_append`: text in one line.
* `multiBasic_escaped`, `multiLiteral_append`: text of many lines, in which a run of up to two quotes stands as it is,
  also at the end, where the closing quotes follow it directly.
* `quoted?_quote`: every form that a text can be given.
-/

namespace MediaChannels.Toml

variable {s r t : List Char} {c : Char} {multi : Bool} {n : Nat}

/-! ## Escape sequences -/

theorem hexValue?_hexDigit (h : n < 16) : hexValue? (Text.hexDigit n) = some n := by
  have hall : ∀ n < 16, hexValue? (Text.hexDigit n) = some n := by decide
  exact hall n h

theorem hexNumber?_append_digit (acc : Nat) (h : n < 16) :
    hexNumber? acc (s ++ [Text.hexDigit n]) = (hexNumber? acc s).map (· * 16 + n) := by
  induction s generalizing acc with
  | nil => simp [hexNumber?, hexValue?_hexDigit h]
  | cons c s ih =>
    rw [List.cons_append, hexNumber?, hexNumber?]
    cases hexValue? c with
    | none => rfl
    | some d => exact ih _

theorem hexNumber?_hexDigits (width : Nat) (h : n < 16 ^ width) : hexNumber? 0 (Text.hexDigits width n) = some n := by
  induction width generalizing n with
  | zero =>
    rw [Nat.pow_zero] at h
    rw [Nat.lt_one_iff.1 h]
    rfl
  | succ width ih =>
    rw [Nat.pow_succ] at h
    rw [Text.hexDigits, hexNumber?_append_digit 0 (Nat.mod_lt _ (by decide)), ih (by omega), Option.map_some,
      Nat.div_add_mod']

/-- A character is found again by its number. -/
theorem numbered?_hexDigits (width : Nat) (h : c.toNat < 16 ^ width) (r : List Char) :
    numbered? width (Text.hexDigits width c.toNat ++ r) = some (c, r) := by
  have hlength := Text.length_hexDigits width c.toNat
  have hvalid : c.toNat.isValidChar := c.valid
  rw [numbered?, if_neg (by simp [hlength]), List.take_left' hlength, List.drop_left' hlength,
    hexNumber?_hexDigits width h, Option.bind_some, if_pos hvalid, Char.ofNat_toNat]

/-- The line does not end behind a letter of an escape sequence. -/
theorem joinedLine?_of_not_blank (hc : isBlank c = false) (hn : c ≠ '\n') (hr : c ≠ '\r') (r : List Char) :
    joinedLine? (c :: r) = none := by
  rw [joinedLine?, blanks_of_not_isBlank hc, newline?]
  · rfl
  · intro t ht
    cases ht
    exact absurd rfl hn
  · intro t ht
    cases ht
    exact absurd rfl hr

/-- **An escape sequence is read as the character that it was written for.** -/
theorem escape?_of_escapeSequence? {sequence : List Char} (h : escapeSequence? multi c = some sequence) :
    ∃ letters, sequence = '\\' :: letters ∧
      ∀ r, escape? (letters ++ r) = some (c, r) ∧ joinedLine? (letters ++ r) = none := by
  have one : ∀ letter ∈ ['b', 't', 'n', 'f', 'r', '\\'], (∀ r, escape? (letter :: r) = some (c, r)) →
      ∃ letters, ['\\', letter] = '\\' :: letters ∧
        ∀ r, escape? (letters ++ r) = some (c, r) ∧ joinedLine? (letters ++ r) = none := by
    intro letter hletter hescape
    have hall : ∀ d ∈ ['b', 't', 'n', 'f', 'r', '\\'], isBlank d = false ∧ d ≠ '\n' ∧ d ≠ '\r' :=
      Text.forall_mem_of_all (by decide)
    obtain ⟨hblank, hn, hr⟩ := hall letter hletter
    exact ⟨[letter], rfl, fun r => ⟨hescape r, joinedLine?_of_not_blank hblank hn hr r⟩⟩
  unfold escapeSequence? at h
  split at h
  · next hc =>
    cases h
    exact one 'b' (by decide) fun r => by rw [hc]; rfl
  split at h
  · next hc =>
    cases h
    exact one 't' (by decide) fun r => by rw [hc]; rfl
  split at h
  · next hc =>
    split at h
    · cases h
    · cases h
      exact one 'n' (by decide) fun r => by rw [hc]; rfl
  split at h
  · next hc =>
    cases h
    exact one 'f' (by decide) fun r => by rw [hc]; rfl
  split at h
  · next hc =>
    cases h
    exact one 'r' (by decide) fun r => by rw [hc]; rfl
  split at h
  · next hc =>
    cases h
    exact one '\\' (by decide) fun r => by rw [hc]; rfl
  split at h
  · next hescape =>
    -- The remaining control characters are written by their numbers.
    cases h
    refine ⟨'u' :: Text.hexDigits 4 c.toNat, rfl, fun r => ⟨?_, ?_⟩⟩
    · have hlt : c.toNat < 16 ^ 4 := by
        simp only [needsEscape, Bool.and_eq_true, Bool.or_eq_true, decide_eq_true_eq, beq_iff_eq] at hescape
        omega
      rw [List.cons_append, escape?]
      exact numbered?_hexDigits 4 hlt r
    · exact joinedLine?_of_not_blank (by decide) (by decide) (by decide) _
  · cases h

/-- What needs no escape sequence is printable, or a line feed. -/
theorem isPrintable_or_newline (h : needsEscape c = false) : isPrintable c = true ∨ c = '\n' := by
  by_cases hn : c = '\n'
  · exact .inr hn
  by_cases ht : c = '\t'
  · exact .inl (by rw [ht]; rfl)
  simp only [needsEscape, bne_iff_ne.2 hn, bne_iff_ne.2 ht, Bool.true_and, Bool.or_eq_false_iff,
    decide_eq_false_iff_not, beq_eq_false_iff_ne] at h
  left
  simp [isPrintable, Nat.le_of_not_lt h.1, h.2]

/-- A character without an escape sequence stands for itself. -/
theorem plain_of_escapeSequence? (h : escapeSequence? multi c = none) :
    c ≠ '\\' ∧ (isPrintable c = true ∨ multi = true ∧ c = '\n') := by
  unfold escapeSequence? at h
  split at h
  · cases h
  split at h
  · cases h
  split at h
  · next hc =>
    split at h
    · next hmulti => exact ⟨by rw [hc]; decide, .inr ⟨hmulti, hc⟩⟩
    · cases h
  next hnewline =>
  split at h
  · cases h
  split at h
  · cases h
  split at h
  · cases h
  next hbackslash =>
  split at h
  · cases h
  · next hescape =>
    exact ⟨hbackslash, .inl ((isPrintable_or_newline (Bool.not_eq_true _ ▸ hescape)).resolve_right hnewline)⟩

/-- Only a quote that stands as it is begins with a quote. -/
theorem head?_escaped_ne {run : Nat} (h : multi = false ∨ c ≠ '"' ∨ 2 ≤ run) (s r : List Char) :
    (escaped multi run (c :: s) ++ r).head? ≠ some '"' := by
  rw [escaped]
  split
  · next hc =>
    have hnot : ¬(multi = true ∧ run < 2) := by
      rintro ⟨hmulti, hrun⟩
      rcases h with h | h | h
      · exact Bool.false_ne_true (h.symm.trans hmulti)
      · exact h hc
      · omega
    rw [if_neg hnot]
    simp
  · next hc =>
    split
    · next hsequence =>
      obtain ⟨letters, rfl, -⟩ := escape?_of_escapeSequence? hsequence
      simp
    · simpa using hc

/-! ## One line -/

theorem basic_quote (r : List Char) : basic ('"' :: r) = some ([], r) := by rw [basic]

theorem basic_escape (h : escape? r = some (c, t)) : basic ('\\' :: r) = push c (basic t) := by
  rw [basic]
  split
  · next h' =>
    rw [h] at h'
    cases h'
    rfl
  · next h' =>
    rw [h] at h'
    cases h'

theorem basic_char (hquote : c ≠ '"') (hbackslash : c ≠ '\\') (h : isPrintable c = true) (r : List Char) :
    basic (c :: r) = push c (basic r) := by
  rw [basic]
  · rw [if_pos h]
  · exact hquote
  · exact hbackslash

/-- Text between double quotes. -/
theorem basic_escaped (run : Nat) (s r : List Char) : basic (escaped false run s ++ '"' :: r) = some (s, r) := by
  induction s generalizing run with
  | nil => exact basic_quote r
  | cons c s ih =>
    rw [escaped]
    split
    · next hc =>
      rw [if_neg (by simp), List.cons_append, List.cons_append, basic_escape rfl, ih 0, hc]
      rfl
    · next hc =>
      split
      · next hsequence =>
        obtain ⟨letters, rfl, hletters⟩ := escape?_of_escapeSequence? hsequence
        rw [List.cons_append, List.cons_append, List.append_assoc, basic_escape (hletters _).1, ih 0]
        rfl
      · next hnone =>
        obtain ⟨hbackslash, hplain⟩ := plain_of_escapeSequence? hnone
        have hprintable := hplain.resolve_right (by simp)
        rw [List.cons_append, basic_char hc hbackslash hprintable, ih 0]
        rfl

/-! ## Many lines -/

theorem multiBasic_close (r : List Char) : multiBasic ('"' :: '"' :: '"' :: r) = some (closing '"' r) := by
  rw [multiBasic]

theorem multiBasic_escape (hjoined : joinedLine? r = none) (h : escape? r = some (c, t)) :
    multiBasic ('\\' :: r) = push c (multiBasic t) := by
  rw [multiBasic]
  split
  · next h' =>
    rw [hjoined] at h'
    cases h'
  split
  · next h' =>
    rw [h] at h'
    cases h'
    rfl
  · next h' =>
    rw [h] at h'
    cases h'

theorem multiBasic_newline (r : List Char) : multiBasic ('\n' :: r) = push '\n' (multiBasic r) := by rw [multiBasic]

theorem multiBasic_char (hquote : c = '"' → ¬∃ t, r = '"' :: '"' :: t) (hbackslash : c ≠ '\\')
    (h : isPrintable c = true) : multiBasic (c :: r) = push c (multiBasic r) := by
  rw [multiBasic]
  · rw [if_pos h]
  · intro t hc hr
    exact hquote hc ⟨t, hr⟩
  · exact hbackslash
  · rintro rfl
    exact absurd h (by decide)
  · rintro t rfl
    exact absurd h (by decide)

theorem multiLiteral_close (r : List Char) : multiLiteral ('\'' :: '\'' :: '\'' :: r) = some (closing '\'' r) := by
  rw [multiLiteral]

theorem multiLiteral_newline (r : List Char) : multiLiteral ('\n' :: r) = push '\n' (multiLiteral r) := by
  rw [multiLiteral]

theorem multiLiteral_char (hquote : c = '\'' → ¬∃ t, r = '\'' :: '\'' :: t) (h : isPrintable c = true) :
    multiLiteral (c :: r) = push c (multiLiteral r) := by
  rw [multiLiteral]
  · rw [if_pos h]
  · intro t hc hr
    exact hquote hc ⟨t, hr⟩
  · rintro rfl
    exact absurd h (by decide)
  · rintro t rfl
    exact absurd h (by decide)

/-- Quotes directly before the closing ones belong to the text. -/
theorem closing_of_ne {quote : Char} (h : r.head? ≠ some quote) :
    closing quote r = ([], r) ∧ closing quote (quote :: r) = ([quote], r) ∧
      closing quote (quote :: quote :: r) = ([quote, quote], r) := by
  cases r with
  | nil => simp [closing]
  | cons a r =>
    have ha : a ≠ quote := fun he => h (by rw [he]; rfl)
    cases r with
    | nil => simp [closing, ha]
    | cons b r => simp [closing, ha]

/-- Three quotes can only come together where the text ends. -/
theorem escaped_eq_quotes {run : Nat} (h : escaped true (run + 1) s ++ '"' :: '"' :: '"' :: r = '"' :: '"' :: t) :
    s = [] ∨ s = ['"'] ∧ run = 0 := by
  cases s with
  | nil => exact .inl rfl
  | cons c s =>
    right
    have hhead := congrArg List.head? h
    by_cases hone : c ≠ '"' ∨ 2 ≤ run + 1
    · exact absurd hhead (head?_escaped_ne (.inr hone) s _)
    simp only [not_or, Decidable.not_not, Nat.not_le] at hone
    obtain ⟨rfl, hrun⟩ := hone
    refine ⟨?_, by omega⟩
    rw [escaped, if_pos rfl, if_pos ⟨rfl, by omega⟩, List.cons_append] at h
    cases s with
    | nil => rfl
    | cons d s =>
      have htail := congrArg List.head? (List.cons.inj h).2
      exact absurd htail (head?_escaped_ne (.inr (.inr (by omega))) s _)

/-- Text between three double quotes. -/
theorem multiBasic_escaped (hr : r.head? ≠ some '"') (run : Nat) (s : List Char) :
    multiBasic (escaped true run s ++ '"' :: '"' :: '"' :: r) = some (s, r) := by
  obtain ⟨hzero, hone, htwo⟩ := closing_of_ne hr
  induction s generalizing run with
  | nil => rw [escaped, List.nil_append, multiBasic_close, hzero]
  | cons c s ih =>
    rw [escaped]
    split
    · next hc =>
      subst hc
      split
      · next hrun =>
        rw [List.cons_append]
        by_cases hquotes : ∃ t, escaped true (run + 1) s ++ '"' :: '"' :: '"' :: r = '"' :: '"' :: t
        · -- The closing quotes follow this one, or one more.
          obtain ⟨t, ht⟩ := hquotes
          rcases escaped_eq_quotes ht with rfl | ⟨rfl, rfl⟩
          · rw [escaped, List.nil_append, multiBasic_close, hone]
          · rw [escaped, if_pos rfl, if_pos ⟨rfl, by decide⟩, escaped, List.cons_append, List.nil_append,
              multiBasic_close, htwo]
        · rw [multiBasic_char (fun _ => hquotes) (by decide) (by decide), ih]
          rfl
      · rw [List.cons_append, List.cons_append,
          multiBasic_escape (joinedLine?_of_not_blank (by decide) (by decide) (by decide) _) rfl, ih]
        rfl
    · next hc =>
      split
      · next hsequence =>
        obtain ⟨letters, rfl, hletters⟩ := escape?_of_escapeSequence? hsequence
        rw [List.cons_append, List.cons_append, List.append_assoc,
          multiBasic_escape (hletters _).2 (hletters _).1, ih]
        rfl
      · next hnone =>
        obtain ⟨hbackslash, hprintable | ⟨-, rfl⟩⟩ := plain_of_escapeSequence? hnone
        · rw [List.cons_append, multiBasic_char (fun he => absurd he hc) hbackslash hprintable, ih]
          rfl
        · rw [List.cons_append, multiBasic_newline, ih]
          rfl

theorem le_longestRun (c : Char) (current : Nat) (s : List Char) : current ≤ longestRun c current s := by
  induction s generalizing current with
  | nil => exact Nat.le_refl _
  | cons d s ih =>
    rw [longestRun]
    split
    · exact Nat.le_trans (Nat.le_succ _) (ih _)
    · exact Nat.le_max_left _ _

/-- Text between three single quotes. -/
theorem multiLiteral_append (hr : r.head? ≠ some '\'') {run : Nat} (hs : ∀ c ∈ s, needsEscape c = false)
    (hrun : longestRun '\'' run s ≤ 2) : multiLiteral (s ++ '\'' :: '\'' :: '\'' :: r) = some (s, r) := by
  obtain ⟨hzero, hone, htwo⟩ := closing_of_ne hr
  induction s generalizing run with
  | nil => rw [List.nil_append, multiLiteral_close, hzero]
  | cons c s ih =>
    have hs' : ∀ c ∈ s, needsEscape c = false := fun d hd => hs d (List.mem_cons_of_mem _ hd)
    rw [longestRun] at hrun
    split at hrun
    · next hc =>
      subst hc
      rw [List.cons_append]
      by_cases hquotes : ∃ t, s ++ '\'' :: '\'' :: '\'' :: r = '\'' :: '\'' :: t
      · -- The closing quotes follow this one, or one more: three quotes in the text would be too many.
        obtain ⟨t, ht⟩ := hquotes
        cases s with
        | nil => rw [List.nil_append, multiLiteral_close, hone]
        | cons d s =>
          obtain ⟨rfl, hrest⟩ := List.cons.inj ht
          cases s with
          | nil => rw [List.cons_append, List.nil_append, multiLiteral_close, htwo]
          | cons e s =>
            obtain ⟨rfl, -⟩ := List.cons.inj hrest
            rw [longestRun, if_pos rfl, longestRun, if_pos rfl] at hrun
            have hle := le_longestRun '\'' (run + 1 + 1 + 1) s
            omega
      · rw [multiLiteral_char (fun _ => hquotes) (by decide), ih hs' hrun]
        rfl
    · next hc =>
      have hrest : longestRun '\'' 0 s ≤ 2 := Nat.le_trans (Nat.le_max_right _ _) hrun
      rcases isPrintable_or_newline (hs c (by simp)) with hprintable | rfl
      · rw [List.cons_append, multiLiteral_char (fun he => absurd he hc) hprintable, ih hs' hrest]
        rfl
      · rw [List.cons_append, multiLiteral_newline, ih hs' hrest]
        rfl

/-! ## Every form -/

/-- What a text of each form must be like. -/
inductive QuoteStyle.Fits : QuoteStyle → List Char → Prop
  | basic (s : List Char) : Fits .basic s
  | literal {s : List Char} (hne : s ≠ []) (hs : ∀ c ∈ s, isPrintable c = true ∧ c ≠ '\'') : Fits .literal s
  | multiBasic (s : List Char) : Fits .multiBasic s
  | multiLiteral {s : List Char} (hs : ∀ c ∈ s, needsEscape c = false) (hrun : longestRun '\'' 0 s ≤ 2) :
    Fits .multiLiteral s

/-- The form that is chosen fits. -/
theorem QuoteStyle.fits_of (s : List Char) : (QuoteStyle.of s).Fits s := by
  have hcontrol : s.any needsEscape = false → ∀ c ∈ s, needsEscape c = false := by
    intro h c hc
    exact Bool.eq_false_iff.2 fun he => absurd (List.any_eq_true.2 ⟨c, hc, he⟩) (by simp [h])
  unfold QuoteStyle.of
  simp only [Bool.and_eq_true, Bool.not_eq_true']
  split
  · exact .basic s
  next hplain =>
  split
  · next h =>
    obtain ⟨⟨hany, hquote⟩, hlines⟩ := h
    refine .literal ?_ fun c hc => ⟨?_, ?_⟩
    · rintro rfl
      exact hplain (by decide)
    · refine (isPrintable_or_newline (hcontrol hany c hc)).resolve_right ?_
      rintro rfl
      exact Bool.false_ne_true (hlines.symm.trans (List.contains_iff_mem.2 hc))
    · rintro rfl
      exact Bool.false_ne_true (hquote.symm.trans (List.contains_iff_mem.2 hc))
  split
  · exact .multiBasic s
  split
  · next h => exact .multiLiteral (hcontrol h.1) (by simpa using h.2)
  split
  · exact .multiBasic s
  · exact .basic s

theorem quoted?_double (h : ¬∃ t, r = '"' :: '"' :: t) : quoted? ('"' :: r) = basic r := by
  rw [quoted?]
  · rfl
  · intro t ht
    exact h ⟨t, (List.cons.inj ht).2⟩
  · intro t ht
    cases ht

theorem quoted?_single (h : ¬∃ t, r = '\'' :: '\'' :: t) : quoted? ('\'' :: r) = literal r := by
  rw [quoted?]
  · rfl
  · intro t ht
    cases ht
  · intro t ht
    exact h ⟨t, (List.cons.inj ht).2⟩

/-- A line end directly behind the opening quotes is written if the text has line ends, and is not read. -/
theorem afterOpening_lead (h : '\n' ∈ s ∨ r.head? ≠ some '\n' ∧ r.head? ≠ some '\r') :
    afterOpening ((if s.contains '\n' then ['\n'] else []) ++ r) = r := by
  split
  · rfl
  · next hnone =>
    obtain ⟨hn, hr⟩ := h.resolve_left fun hmem => hnone (List.contains_iff_mem.2 hmem)
    rw [List.nil_append, afterOpening, newline?]
    · rfl
    · rintro t rfl
      exact hn rfl
    · rintro t rfl
      exact hr rfl

/-- Text in double quotes begins with a line end only if there is one in the text. -/
theorem head?_escaped_of_no_newline (h : '\n' ∉ s) (r : List Char) :
    (escaped true 0 s ++ '"' :: r).head? ≠ some '\n' ∧ (escaped true 0 s ++ '"' :: r).head? ≠ some '\r' := by
  cases s with
  | nil => simp [escaped]
  | cons c s =>
    rw [escaped]
    split
    · rw [if_pos (by simp)]
      next hc => simp [hc]
    · split
      · next hsequence =>
        obtain ⟨letters, rfl, -⟩ := escape?_of_escapeSequence? hsequence
        simp
      · next hnone =>
        obtain ⟨-, hprintable | ⟨-, rfl⟩⟩ := plain_of_escapeSequence? hnone
        · constructor
          · intro hc
            cases hc
            exact absurd hprintable (by decide)
          · intro hc
            cases hc
            exact absurd hprintable (by decide)
        · exact absurd (by simp) h

/-- So does text in single quotes. -/
theorem head?_append_of_no_newline (hs : ∀ c ∈ s, needsEscape c = false) (h : '\n' ∉ s) (r : List Char) :
    (s ++ '\'' :: r).head? ≠ some '\n' ∧ (s ++ '\'' :: r).head? ≠ some '\r' := by
  cases s with
  | nil => simp
  | cons c s =>
    constructor
    · intro hc
      cases hc
      exact h (by simp)
    · intro hc
      cases hc
      exact absurd (hs '\r' (by simp)) (by decide)

/-- Text is read again in every form that fits. -/
theorem quoted?_write {style : QuoteStyle} (h : style.Fits s) (hdouble : r.head? ≠ some '"')
    (hsingle : r.head? ≠ some '\'') : quoted? (style.write s ++ r) = some (s, r) := by
  cases h with
  | basic =>
    have hnot : ¬∃ t, escaped false 0 s ++ '"' :: r = '"' :: '"' :: t := by
      rintro ⟨t, ht⟩
      cases s with
      | nil =>
        obtain ⟨-, rfl⟩ := List.cons.inj ht
        exact hdouble rfl
      | cons c s => exact head?_escaped_ne (.inl rfl) s _ (congrArg List.head? ht)
    rw [QuoteStyle.write, List.append_assoc, List.cons_append, List.singleton_append, quoted?_double hnot,
      basic_escaped]
  | literal hne hs =>
    have hnot : ¬∃ t, s ++ '\'' :: r = '\'' :: '\'' :: t := by
      rintro ⟨t, ht⟩
      cases s with
      | nil => exact hne rfl
      | cons c s => exact (hs c (by simp)).2 (List.cons.inj ht).1
    rw [QuoteStyle.write, List.append_assoc, List.cons_append, List.singleton_append, quoted?_single hnot,
      literal_append hs]
  | multiBasic =>
    have hlead : '\n' ∈ s ∨ (escaped true 0 s ++ '"' :: '"' :: '"' :: r).head? ≠ some '\n' ∧ _ :=
      Decidable.or_iff_not_imp_left.2 fun hn => head?_escaped_of_no_newline hn _
    simp only [QuoteStyle.write, List.append_assoc, List.cons_append, List.nil_append, quoted?]
    rw [afterOpening_lead hlead, multiBasic_escaped hdouble]
  | multiLiteral hs hrun =>
    have hlead : '\n' ∈ s ∨ (s ++ '\'' :: '\'' :: '\'' :: r).head? ≠ some '\n' ∧ _ :=
      Decidable.or_iff_not_imp_left.2 fun hn => head?_append_of_no_newline hs hn _
    simp only [QuoteStyle.write, List.append_assoc, List.cons_append, List.nil_append, quoted?]
    rw [afterOpening_lead hlead, multiLiteral_append hsingle hs hrun]

/-- **Quoted text is read again**, up to its closing quotes. -/
theorem quoted?_quote (s : List Char) (hdouble : r.head? ≠ some '"') (hsingle : r.head? ≠ some '\'') :
    quoted? (quote s ++ r) = some (s, r) := quoted?_write (QuoteStyle.fits_of s) hdouble hsingle

end MediaChannels.Toml
