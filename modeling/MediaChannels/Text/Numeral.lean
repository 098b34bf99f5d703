/-!
# Decimal numerals

Reading a whole text as a decimal number of a bounded range: an optional sign, then one or more digits `0` to `9`, and
nothing else. Leading zeros are allowed.

* `digits?_append_digit`: one more digit multiplies by ten and adds.
* `unsigned?_lt`, `signed?_bounds`: what is read lies in the range asked for.
-/

namespace MediaChannels.Text

/-- The number that a list of decimal digits denotes after `acc`, most significant digit first. -/
def digitsFrom? (acc : Nat) : List Char → Option Nat
  | [] => some acc
  | c :: r => if c.isDigit then digitsFrom? (acc * 10 + (c.toNat - '0'.toNat)) r else none

/-- The number that one or more decimal digits denote. -/
def digits? (s : List Char) : Option Nat :=
  if s.isEmpty then none else digitsFrom? 0 s

theorem digitsFrom?_append_digit {s : List Char} {d : Char} (hd : d.isDigit = true) (acc : Nat) :
    digitsFrom? acc (s ++ [d]) = (digitsFrom? acc s).map (· * 10 + (d.toNat - '0'.toNat)) := by
  induction s generalizing acc with
  | nil => simp [digitsFrom?, hd]
  | cons c r ih => by_cases hc : c.isDigit <;> simp [digitsFrom?, hc, ih]

theorem digits?_append_digit {s : List Char} {d : Char} (hs : s ≠ []) (hd : d.isDigit = true) :
    digits? (s ++ [d]) = (digits? s).map (· * 10 + (d.toNat - '0'.toNat)) := by
  simp [digits?, hs, digitsFrom?_append_digit hd]

/-- A number below `bound`: a plus sign may stand in front, a minus sign may not. -/
def unsigned? (bound : Nat) (s : List Char) : Option Nat :=
  let body := match s with
    | '+' :: r => r
    | _ => s
  (digits? body).bind fun n => if n < bound then some n else none

theorem unsigned?_lt {bound n : Nat} {s : List Char} (h : unsigned? bound s = some n) : n < bound := by
  obtain ⟨k, -, hk⟩ := Option.bind_eq_some_iff.1 h
  split at hk
  · cases hk; assumption
  · cases hk

/-- A number from `-bound` up to `bound - 1`, with an optional sign in front. -/
def signed? (bound : Nat) (s : List Char) : Option Int :=
  match s with
  | '-' :: r => (digits? r).bind fun n => if n ≤ bound then some (-(n : Int)) else none
  | _ => (unsigned? bound s).map Int.ofNat

theorem signed?_bounds {bound : Nat} {n : Int} {s : List Char} (hb : 0 < bound) (h : signed? bound s = some n) :
    -(bound : Int) ≤ n ∧ n < bound := by
  unfold signed? at h
  split at h
  · obtain ⟨k, -, hk⟩ := Option.bind_eq_some_iff.1 h
    split at hk
    · simp only [Option.some.injEq] at hk
      omega
    · cases hk
  · obtain ⟨k, hk, rfl⟩ := Option.map_eq_some_iff.1 h
    have := unsigned?_lt hk
    simp only [Int.ofNat_eq_natCast]
    omega

end MediaChannels.Text
