import MediaChannels.Text.Numeral
import MediaChannels.Toml.Quoted

/-!
# Numbers of documents

An integer is a decimal number of 64 bits with an optional sign and without leading zeros, or digits of another base
after `0x`, `0o` or `0b`. A float has a fraction, an exponent or both. Single underscores may stand between digits.

A float is kept as it is written. Only one property of its value matters for whether a document is accepted: a number
that is rounded to positive infinity is refused, unless it is written `inf`.

* `integer?_bounds`: an integer fits in 64 bits.
-/

namespace MediaChannels.Toml

/-- The digits of a group in which single underscores may stand between digits. -/
def digitGroup? (isDigit : Char → Bool) : List Char → Option (List Char)
  | [] => none
  | [c] => if isDigit c then some [c] else none
  | c :: '_' :: r => if isDigit c then (digitGroup? isDigit r).map (c :: ·) else none
  | c :: r => if isDigit c then (digitGroup? isDigit r).map (c :: ·) else none

/-- Whether digits have no zero in front that could be left out. -/
def hasNoLeadingZero : List Char → Bool
  | '0' :: _ :: _ => false
  | _ => true

/-- The digits of a decimal number without its sign. -/
def wholeDigits? (s : List Char) : Option (List Char) := (digitGroup? Char.isDigit s).filter hasNoLeadingZero

/-- A number without its sign, and whether the sign is a minus. -/
def signed : List Char → Bool × List Char
  | '-' :: r => (true, r)
  | '+' :: r => (false, r)
  | s => (false, s)

/-- The number that digits of a base denote after `acc`. -/
def digitsIn? (base acc : Nat) : List Char → Option Nat
  | [] => some acc
  | c :: r =>
    match hexValue? c with
    | some d => if d < base then digitsIn? base (acc * base + d) r else none
    | none => none

/-- Whether a character is a digit of a base. -/
def isDigitIn (base : Nat) (c : Char) : Bool := (hexValue? c).any (· < base)

/-- A number of 63 bits written in a base. -/
def inBase? (base : Nat) (s : List Char) : Option Int :=
  ((digitGroup? (isDigitIn base) s).bind (digitsIn? base 0)).bind fun n =>
    if n < 1 <<< 63 then some (n : Int) else none

/-- A decimal number of 64 bits. -/
def decimal? (s : List Char) : Option Int :=
  let (negative, body) := signed s
  ((wholeDigits? body).bind Text.digits?).bind fun n =>
    if negative then if n ≤ 1 <<< 63 then some (-(n : Int)) else none
    else if n < 1 <<< 63 then some (n : Int) else none

/-- The integer that a word denotes. -/
def integer? : List Char → Option Int
  | '0' :: 'x' :: r => inBase? 16 r
  | '0' :: 'o' :: r => inBase? 8 r
  | '0' :: 'b' :: r => inBase? 2 r
  | s => decimal? s

/-- The parts of a decimal number. -/
structure DecimalParts where
  whole : List Char
  fraction : List Char := []
  exponent : Int := 0

/-- The exponent after its letter. -/
def exponent? (s : List Char) : Option Int :=
  let (negative, body) := signed s
  ((digitGroup? Char.isDigit body).bind Text.digits?).map fun n => if negative then -(n : Int) else n

/-- Whether a letter introduces an exponent. -/
def isExponentMark (c : Char) : Bool := c == 'e' || c == 'E'

/-- The parts of a float without its sign. -/
def decimalParts? (s : List Char) : Option DecimalParts :=
  let mantissa := s.takeWhile fun c => !isExponentMark c
  let whole := mantissa.takeWhile (· != '.')
  match wholeDigits? whole, mantissa.drop whole.length, s.drop mantissa.length with
  | some whole, [], _ :: e => (exponent? e).map fun exponent => { whole, exponent }
  | some whole, _ :: f, [] => (digitGroup? Char.isDigit f).map fun fraction => { whole, fraction }
  | some whole, _ :: f, _ :: e =>
    (digitGroup? Char.isDigit f).bind fun fraction => (exponent? e).map fun exponent => { whole, fraction, exponent }
  | _, _, _ => none

/-- The least number that is rounded to infinity: halfway between the largest double and the next power of two. -/
def infinityBound : Nat := 1 <<< 1024 - 1 <<< 970

/-- Whether a number is rounded to infinity. A number with more than 310 digits in front of its point is, one without
any is not, and so no large power is ever computed for another. -/
def DecimalParts.isInfinite (p : DecimalParts) : Bool :=
  let digits := (p.whole ++ p.fraction).dropWhile (· == '0')
  let mantissa := (Text.digitsFrom? 0 digits).getD 0
  let exponent := p.exponent - (p.fraction.length : Int)
  let magnitude := (digits.length : Int) + exponent
  if mantissa = 0 ∨ magnitude ≤ 0 then false
  else if 310 < magnitude then true
  else if 0 ≤ exponent then infinityBound ≤ mantissa * Nat.pow 10 exponent.toNat
  else infinityBound * Nat.pow 10 (-exponent).toNat ≤ mantissa

/-- Whether a word is a float. -/
def isFloat (s : List Char) : Bool :=
  let (negative, body) := signed s
  if body = "inf".toList ∨ body = "nan".toList then true
  else match decimalParts? body with
    | some parts => negative || !parts.isInfinite
    | none => false

theorem inBase?_bounds {base : Nat} {s : List Char} {n : Int} (h : inBase? base s = some n) :
    Int64.minValue.toInt ≤ n ∧ n ≤ Int64.maxValue.toInt := by
  rw [Int64.toInt_minValue, Int64.toInt_maxValue]
  obtain ⟨k, -, hk⟩ := Option.bind_eq_some_iff.1 h
  split at hk
  · cases hk; omega
  · cases hk

theorem decimal?_bounds {s : List Char} {n : Int} (h : decimal? s = some n) :
    Int64.minValue.toInt ≤ n ∧ n ≤ Int64.maxValue.toInt := by
  rw [Int64.toInt_minValue, Int64.toInt_maxValue]
  unfold decimal? at h
  obtain ⟨k, -, hk⟩ := Option.bind_eq_some_iff.1 h
  split at hk <;> split at hk <;> simp at hk <;> omega

/-- An integer fits in 64 bits. -/
theorem integer?_bounds {s : List Char} {n : Int} (h : integer? s = some n) :
    Int64.minValue.toInt ≤ n ∧ n ≤ Int64.maxValue.toInt := by
  unfold integer? at h
  split at h
  · exact inBase?_bounds h
  · exact inBase?_bounds h
  · exact inBase?_bounds h
  · exact decimal?_bounds h

end MediaChannels.Toml
