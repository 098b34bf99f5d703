import Mathlib.Data.List.TakeWhile
import MediaChannels.Proofs.Text.Numeral
import MediaChannels.Toml.Value

/-!
# Integers are read again

An integer is written in decimal digits, with a minus sign in front if it is below zero. Among the words of a document
it is none of the others: no truth value, no date and no float.

* `integer?_toString`: the digits are read as the number.
* `isDateTime_eq_false`, `isFloat_eq_false`: they are no date, no time and no float.
* `word?_toString`: so the word is the integer, up to the first character that could not be part of it.
-/

namespace MediaChannels.Toml

variable {s r digits : List Char} {c : Char} {n : Int}

/-! ## What is written -/

/-- The decimal digits of a number, with its sign. -/
theorem toList_toString (n : Int) :
    (toString n).toList = if 0 ≤ n then Nat.toDigits 10 n.natAbs else '-' :: Nat.toDigits 10 n.natAbs := by
  cases n with
  | ofNat k => exact Nat.toList_repr
  | negSucc k =>
    rw [if_neg (Int.not_le.2 (Int.negSucc_lt_zero k))]
    show ("-" ++ (k + 1).repr).toList = _
    rw [String.toList_append, Nat.toList_repr]
    rfl

theorem isDigit_of_mem_toDigits {k : Nat} (h : c ∈ Nat.toDigits 10 k) : c.isDigit = true :=
  Nat.isDigit_of_mem_toDigits (by decide) (by decide) h

/-- A number above zero has no zero in front. -/
theorem head?_toDigits_ne {k : Nat} (hk : 0 < k) : (Nat.toDigits 10 k).head? ≠ some '0' := by
  induction k using Nat.strongRecOn with
  | ind k ih =>
    rw [Nat.toDigits_eq_if (by decide)]
    split
    · next hlt =>
      have hall : ∀ d < 10, 0 < d → [d.digitChar].head? ≠ some '0' := by decide
      exact hall k hlt hk
    · next hge =>
      obtain ⟨d, rest, hrest⟩ := List.exists_cons_of_ne_nil (Nat.toDigits_ne_nil (n := k / 10) (b := 10))
      have hhead := ih (k / 10) (by omega) (by omega)
      rw [hrest] at hhead ⊢
      exact hhead

theorem hasNoLeadingZero_toDigits (k : Nat) : hasNoLeadingZero (Nat.toDigits 10 k) = true := by
  rcases Nat.eq_zero_or_pos k with rfl | hk
  · decide
  · unfold hasNoLeadingZero
    split
    · next h => exact absurd (by rw [h]; rfl) (head?_toDigits_ne hk)
    · rfl

/-! ## What is read -/

/-- Digits without an underscore are a group. -/
theorem digitGroup?_of_isDigit (hne : s ≠ []) (h : ∀ c ∈ s, c.isDigit) : digitGroup? Char.isDigit s = some s := by
  induction s with
  | nil => exact absurd rfl hne
  | cons c r ih =>
    have hc : c.isDigit = true := h c (by simp)
    cases r with
    | nil => rw [digitGroup?, if_pos hc]
    | cons d r =>
      have hrest := ih (by simp) fun e he => h e (List.mem_cons_of_mem _ he)
      rw [digitGroup?, if_pos hc, hrest, Option.map_some]
      · intro he
        cases he
      · rintro r' he
        cases he
        exact absurd (h '_' (by simp)) (by decide)

theorem wholeDigits?_toDigits (k : Nat) : wholeDigits? (Nat.toDigits 10 k) = some (Nat.toDigits 10 k) := by
  rw [wholeDigits?, digitGroup?_of_isDigit Nat.toDigits_ne_nil fun _ => isDigit_of_mem_toDigits, Option.filter_some,
    if_pos (hasNoLeadingZero_toDigits k)]

/-- A sign in front is told from the digits. -/
theorem signed_toString (n : Int) : signed (toString n).toList = (decide (n < 0), Nat.toDigits 10 n.natAbs) := by
  rw [toList_toString]
  split
  · next hpos =>
    rw [decide_eq_false (by omega)]
    obtain ⟨d, rest, hrest⟩ := List.exists_cons_of_ne_nil (Nat.toDigits_ne_nil (n := n.natAbs) (b := 10))
    have hd : d.isDigit = true := isDigit_of_mem_toDigits (k := n.natAbs) (by rw [hrest]; simp)
    obtain ⟨hplus, hminus⟩ := Text.ne_of_isDigit hd
    rw [hrest, signed]
    · intro t ht
      exact hminus (List.cons.inj ht).1
    · intro t ht
      exact hplus (List.cons.inj ht).1
  · next hneg =>
    rw [decide_eq_true (by omega)]
    rfl

theorem decimal?_toString (hmin : Int64.minValue.toInt ≤ n) (hmax : n ≤ Int64.maxValue.toInt) :
    decimal? (toString n).toList = some n := by
  rw [Int64.toInt_minValue] at hmin
  rw [Int64.toInt_maxValue] at hmax
  simp only [decimal?, signed_toString, wholeDigits?_toDigits, Option.bind_some, Text.digits?_toDigits]
  by_cases hneg : n < 0
  · rw [decide_eq_true hneg, if_pos rfl, if_pos (by omega), Option.some.injEq]
    omega
  · rw [decide_eq_false hneg, if_neg (by simp), if_pos (by omega), Option.some.injEq]
    omega

/-- Nothing but digits and a sign is written. -/
theorem isDigit_or_of_mem_toString (h : c ∈ (toString n).toList) : c.isDigit = true ∨ c = '-' := by
  rw [toList_toString] at h
  split at h
  · exact .inl (isDigit_of_mem_toDigits h)
  · rcases List.mem_cons.1 h with rfl | h
    · exact .inr rfl
    · exact .inl (isDigit_of_mem_toDigits h)

/-- **An integer of 64 bits is read as the same number.** -/
theorem integer?_toString (hmin : Int64.minValue.toInt ≤ n) (hmax : n ≤ Int64.maxValue.toInt) :
    integer? (toString n).toList = some n := by
  have hbase : ∀ d ∈ ['x', 'o', 'b'], ∀ t, (toString n).toList ≠ '0' :: d :: t := by
    intro d hd t ht
    have hall : ∀ d ∈ ['x', 'o', 'b'], ¬(d.isDigit = true ∨ d = '-') := Text.forall_mem_of_all (by decide)
    exact hall d hd (isDigit_or_of_mem_toString (n := n) (by rw [ht]; simp))
  rw [integer?]
  · exact decimal?_toString hmin hmax
  · exact hbase 'x' (by decide)
  · exact hbase 'o' (by decide)
  · exact hbase 'b' (by decide)

/-! ## What it is not read as -/

theorem mem_of_after? (h : after? c s = some r) : c ∈ s := by
  cases s with
  | nil => cases h
  | cons d s =>
    rw [after?] at h
    split at h
    · next hd =>
      rw [hd]
      exact List.mem_cons_self
    · cases h

theorem rest_of_digitField? {count k : Nat} (h : digitField? count s = some (k, r)) : r = s.drop count := by
  unfold digitField? at h
  split at h
  · cases h
  · obtain ⟨_, -, he⟩ := Option.map_eq_some_iff.1 h
    cases he
    rfl

/-- In a time there is a colon. -/
theorem time?_eq_none (h : ':' ∉ s) : time? s = none := by
  have hminute : hourMinute? s = none := by
    simp only [hourMinute?, Option.bind_eq_bind, Option.bind_eq_none_iff, Prod.forall]
    intro hour t ht after hafter
    refine absurd (mem_of_after? hafter) fun hmem => h ?_
    rw [rest_of_digitField? ht] at hmem
    exact List.mem_of_mem_drop hmem
  rw [time?, hminute]
  rfl

/-- In a date there is a minus sign behind the first character. -/
theorem date?_eq_none (h : '-' ∉ s.tail) : date? s = none := by
  simp only [date?, Option.bind_eq_bind, Option.bind_eq_none_iff, Prod.forall]
  intro year t ht after hafter
  refine absurd (mem_of_after? hafter) fun hmem => h ?_
  rw [rest_of_digitField? ht] at hmem
  cases s with
  | nil => cases hmem
  | cons d s => exact List.mem_of_mem_drop hmem

theorem not_mem_tail_toString (n : Int) : ':' ∉ (toString n).toList ∧ '-' ∉ (toString n).toList.tail := by
  have hdigit : ∀ {d : Char}, d.isDigit = false → d ∉ Nat.toDigits 10 n.natAbs := by
    intro d hd hmem
    exact Bool.false_ne_true (hd.symm.trans (isDigit_of_mem_toDigits hmem))
  rw [toList_toString]
  split
  · exact ⟨hdigit (by decide), fun hmem => hdigit (d := '-') (by decide) (List.mem_of_mem_tail hmem)⟩
  · refine ⟨?_, hdigit (by decide)⟩
    rw [List.mem_cons, not_or]
    exact ⟨by decide, hdigit (by decide)⟩

theorem isDate_eq_false (n : Int) : isDate (toString n).toList = false := by
  rw [isDate, date?_eq_none (not_mem_tail_toString n).2]
  rfl

theorem isDateTime_eq_false (n : Int) : isDateTime (toString n).toList = false := by
  obtain ⟨hcolon, hminus⟩ := not_mem_tail_toString n
  rw [isDateTime, time?_eq_none hcolon, date?_eq_none hminus]
  rfl

/-- In a float there is a point, or a letter in front of an exponent. -/
theorem decimalParts?_eq_none (h : ∀ c ∈ s, c.isDigit) : decimalParts? s = none := by
  have hmantissa : s.takeWhile (fun c => !isExponentMark c) = s := by
    refine List.takeWhile_eq_self_iff.2 fun c hc => ?_
    have hmark : isExponentMark c = false := by
      refine Bool.eq_false_iff.2 fun hmark => ?_
      simp only [isExponentMark, Bool.or_eq_true, beq_iff_eq] at hmark
      rcases hmark with rfl | rfl
      · exact absurd (h _ hc) (by decide)
      · exact absurd (h _ hc) (by decide)
    rw [hmark]
    rfl
  have hwhole : s.takeWhile (· != '.') = s := by
    refine List.takeWhile_eq_self_iff.2 fun c hc => ?_
    rw [bne_iff_ne]
    rintro rfl
    exact absurd (h _ hc) (by decide)
  simp only [decimalParts?, hmantissa, hwhole, List.drop_length]
  cases wholeDigits? s with
  | none => rfl
  | some _ => rfl

theorem isFloat_eq_false (n : Int) : isFloat (toString n).toList = false := by
  have hdigits : ∀ c ∈ Nat.toDigits 10 n.natAbs, c.isDigit := fun _ => isDigit_of_mem_toDigits
  have hword : ¬(Nat.toDigits 10 n.natAbs = "inf".toList ∨ Nat.toDigits 10 n.natAbs = "nan".toList) := by
    rintro (h | h)
    · exact absurd (hdigits 'n' (by rw [h]; decide)) (by decide)
    · exact absurd (hdigits 'n' (by rw [h]; decide)) (by decide)
  simp only [isFloat, signed_toString, if_neg hword, decimalParts?_eq_none hdigits]

/-! ## Up to where it is read -/

/-- Reading stops at the first character that could not be part of what is read. -/
theorem span_append {p : Char → Bool} (hs : ∀ c ∈ s, p c = true) (hr : ∀ c ∈ r.head?, p c = false) :
    (s ++ r).takeWhile p = s ∧ (s ++ r).dropWhile p = r := by
  rw [List.takeWhile_append_of_pos hs, List.dropWhile_append_of_pos hs]
  cases r with
  | nil => simp
  | cons c r =>
    have hc : p c = false := hr c rfl
    simp [hc]

theorem isWordChar_of_mem_toString (h : c ∈ (toString n).toList) : Value.isWordChar c = true := by
  rcases isDigit_or_of_mem_toString h with hdigit | rfl
  · simp [Value.isWordChar, Char.isAlphanum, hdigit]
  · decide

/-- **An integer of 64 bits is the word that its digits are.** -/
theorem word?_toString (hmin : Int64.minValue.toInt ≤ n) (hmax : n ≤ Int64.maxValue.toInt)
    (hr : ∀ c ∈ r.head?, Value.isWordChar c = false) :
    Value.word? ((toString n).toList ++ r) = some (.integer n, r) := by
  obtain ⟨htake, hdrop⟩ := span_append (fun _ => isWordChar_of_mem_toString (n := n)) hr
  have htruth : (toString n).toList ≠ "true".toList ∧ (toString n).toList ≠ "false".toList := by
    constructor
    · intro h
      have ht := isDigit_or_of_mem_toString (n := n) (c := 't') (by rw [h]; decide)
      exact absurd ht (by decide)
    · intro h
      have hf := isDigit_or_of_mem_toString (n := n) (c := 'f') (by rw [h]; decide)
      exact absurd hf (by decide)
  have hword := Value.ofWord?_integer htruth (isDateTime_eq_false n) (isFloat_eq_false n) (integer?_toString hmin hmax)
  simp only [Value.word?, htake, hdrop, hword, isDate_eq_false, Bool.false_and, Bool.false_eq_true, if_false]
  cases r with
  | nil => rfl
  | cons c r =>
    split
    · rfl
    · rfl

end MediaChannels.Toml
