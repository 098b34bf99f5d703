import MediaChannels.Text.Numeral

/-!
# What decimal numerals denote

The readers of decimal numbers accept digits and signs, and read the number that the digits denote to the base ten. How
numbers are written is the standard library's own; what it writes is read as the same number.

* `digits?_eq_some_iff`: one or more digits and nothing else.
* `Numeral`, `unsigned?_eq_some_iff`: with at most a plus sign in front, and below the bound.
* `digits?_toDigits`, `numeral_toDigits`: what is written is read again.
-/

namespace MediaChannels.Text

variable {s : List Char} {acc bound n : Nat}

/-- A text is checked one character after the other. -/
theorem forall_mem_of_all {P : Char → Prop} [DecidablePred P] (h : s.all (fun c => decide (P c)) = true) :
    ∀ c ∈ s, P c := fun c hc => of_decide_eq_true (List.all_eq_true.1 h c hc)

theorem digitsFrom?_eq_some_iff :
    digitsFrom? acc s = some n ↔ (∀ c ∈ s, c.isDigit) ∧ Nat.ofDigitChars 10 s acc = n := by
  induction s generalizing acc with
  | nil => simp [digitsFrom?]
  | cons c r ih =>
    by_cases hc : c.isDigit
    · rw [digitsFrom?, if_pos hc, ih, Nat.ofDigitChars_cons, Nat.mul_comm 10 acc]
      simp [hc]
    · rw [digitsFrom?, if_neg hc]
      simp [hc]

/-- One or more digits, and nothing else. -/
theorem digits?_eq_some_iff :
    digits? s = some n ↔ s ≠ [] ∧ (∀ c ∈ s, c.isDigit) ∧ Nat.ofDigitChars 10 s 0 = n := by
  unfold digits?
  cases s with
  | nil => simp
  | cons c r => simpa using digitsFrom?_eq_some_iff (s := c :: r)

/-- What is written is read again. -/
@[simp] theorem digits?_toDigits (n : Nat) : digits? (Nat.toDigits 10 n) = some n :=
  digits?_eq_some_iff.2
    ⟨Nat.toDigits_ne_nil, fun _ hc => Nat.isDigit_of_mem_toDigits (by decide) (by decide) hc,
      Nat.ofDigitChars_ten_toDigits⟩

theorem ne_of_isDigit {c : Char} (h : c.isDigit = true) : c ≠ '+' ∧ c ≠ '-' := by
  constructor
  · rintro rfl
    exact absurd h (by decide)
  · rintro rfl
    exact absurd h (by decide)

/-- A number written with digits alone, or with a plus sign in front of them. -/
inductive Numeral : List Char → Nat → Prop
  | bare {digits : List Char} (hne : digits ≠ []) (hdigits : ∀ c ∈ digits, c.isDigit) :
    Numeral digits (Nat.ofDigitChars 10 digits 0)
  | plus {digits : List Char} (hne : digits ≠ []) (hdigits : ∀ c ∈ digits, c.isDigit) :
    Numeral ('+' :: digits) (Nat.ofDigitChars 10 digits 0)

theorem unsigned?_eq_some_iff : unsigned? bound s = some n ↔ Numeral s n ∧ n < bound := by
  unfold unsigned?
  rw [Option.bind_eq_some_iff]
  constructor
  · rintro ⟨k, hk, hbound⟩
    split at hbound
    · next hlt =>
      cases hbound
      refine ⟨?_, hlt⟩
      split at hk
      · obtain ⟨hne, hdigits, rfl⟩ := digits?_eq_some_iff.1 hk
        exact .plus hne hdigits
      · obtain ⟨hne, hdigits, rfl⟩ := digits?_eq_some_iff.1 hk
        exact .bare hne hdigits
    · cases hbound
  · rintro ⟨hnumeral, hlt⟩
    refine ⟨n, ?_, if_pos hlt⟩
    cases hnumeral with
    | plus hne hdigits => exact digits?_eq_some_iff.2 ⟨hne, hdigits, rfl⟩
    | bare hne hdigits =>
      split
      · next r => exact absurd rfl (ne_of_isDigit (hdigits '+' (by simp))).1
      · exact digits?_eq_some_iff.2 ⟨hne, hdigits, rfl⟩

/-- A number above zero is written without a minus sign. -/
theorem signed?_eq_some_iff_of_pos {k : Int} (hk : 0 < k) :
    signed? bound s = some k ↔ ∃ n : Nat, Numeral s n ∧ n < bound ∧ k = n := by
  unfold signed?
  split
  · next r =>
    constructor
    · intro h
      obtain ⟨n, -, hn⟩ := Option.bind_eq_some_iff.1 h
      split at hn
      · cases hn
        omega
      · cases hn
    · rintro ⟨n, hnumeral, -, -⟩
      cases hnumeral with
      | bare hne hdigits => exact absurd rfl (ne_of_isDigit (hdigits '-' (by simp))).2
  · rw [Option.map_eq_some_iff]
    constructor
    · rintro ⟨n, hn, rfl⟩
      obtain ⟨hnumeral, hlt⟩ := unsigned?_eq_some_iff.1 hn
      exact ⟨n, hnumeral, hlt, rfl⟩
    · rintro ⟨n, hnumeral, hlt, rfl⟩
      exact ⟨n, unsigned?_eq_some_iff.2 ⟨hnumeral, hlt⟩, rfl⟩

theorem numeral_toDigits (n : Nat) : Numeral (Nat.toDigits 10 n) n := by
  have hdigits : ∀ c ∈ Nat.toDigits 10 n, c.isDigit := fun _ hc =>
    Nat.isDigit_of_mem_toDigits (by decide) (by decide) hc
  have h := Numeral.bare Nat.toDigits_ne_nil hdigits
  rwa [Nat.ofDigitChars_ten_toDigits] at h

end MediaChannels.Text
