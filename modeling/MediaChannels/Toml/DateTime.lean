import MediaChannels.Text.Numeral

/-!
# Dates and times of documents

A date is written `1979-05-27`, a time `07:32:00` with an optional fraction of a second, and both together with a `T`, a
`t` or a space between them and an optional offset from universal time behind. A date has to exist; a minute may have 61
seconds.

* `daysIn_le`: no month has more than 31 days.
-/

namespace MediaChannels.Toml

/-- Whether a year has a 29th of February. -/
def isLeapYear (year : Nat) : Bool := year % 4 == 0 && (year % 100 != 0 || year % 400 == 0)

/-- The number of days of a month; no day for a month that does not exist. -/
def daysIn (year month : Nat) : Nat :=
  if month = 0 ∨ 12 < month then 0
  else if month = 2 then if isLeapYear year then 29 else 28
  else if month = 4 ∨ month = 6 ∨ month = 9 ∨ month = 11 then 30
  else 31

theorem daysIn_le (year month : Nat) : daysIn year month ≤ 31 := by
  unfold daysIn
  split
  · omega
  split
  · split <;> omega
  split <;> omega

/-- The number that the first `count` characters denote, all of them digits, and the text after them. -/
def digitField? (count : Nat) (s : List Char) : Option (Nat × List Char) :=
  if s.length < count then none else (Text.digits? (s.take count)).map (·, s.drop count)

/-- The text after a character. -/
def after? (c : Char) : List Char → Option (List Char)
  | d :: r => if d = c then some r else none
  | [] => none

/-- The text after a date. -/
def date? (s : List Char) : Option (List Char) := do
  let (year, s) ← digitField? 4 s
  let (month, s) ← digitField? 2 (← after? '-' s)
  let (day, s) ← digitField? 2 (← after? '-' s)
  if day = 0 ∨ daysIn year month < day then none else some s

/-- The text after an hour and a minute. -/
def hourMinute? (s : List Char) : Option (List Char) := do
  let (hour, s) ← digitField? 2 s
  let (minute, s) ← digitField? 2 (← after? ':' s)
  if 23 < hour ∨ 59 < minute then none else some s

/-- The text after the fraction of a second, if there is one. -/
def fraction? : List Char → Option (List Char)
  | '.' :: c :: r => if c.isDigit then some (r.dropWhile Char.isDigit) else none
  | '.' :: [] => none
  | s => some s

/-- The text after a time. -/
def time? (s : List Char) : Option (List Char) := do
  let s ← hourMinute? s
  let (second, s) ← digitField? 2 (← after? ':' s)
  if 60 < second then none else fraction? s

/-- Whether a text is an offset from universal time, or nothing. -/
def isOffset : List Char → Bool
  | [] => true
  | ['Z'] | ['z'] => true
  | '+' :: r | '-' :: r => hourMinute? r == some []
  | _ => false

/-- Whether a word is a date. -/
def isDate (s : List Char) : Bool := date? s == some []

/-- Whether a word is a time, with or without an offset. -/
def isTimeWithOffset (s : List Char) : Bool := (time? s).any isOffset

/-- Whether a word is a date, a time, or a date with a time after a `T`. -/
def isDateTime (s : List Char) : Bool :=
  time? s == some [] ||
    match date? s with
    | some [] => true
    | some (c :: r) => (c == 'T' || c == 't') && isTimeWithOffset r
    | none => false

end MediaChannels.Toml
