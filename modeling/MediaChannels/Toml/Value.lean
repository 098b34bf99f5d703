import MediaChannels.Toml.DateTime
import MediaChannels.Toml.Number

/-!
# Values of documents

The values that a document gives to its keys, and the words among them: numbers, truth values, dates and times. Tables
remember how they came to be, because that decides what later statements may add to them.

* `ofWord?_integer`: a word that is an integer is read as that integer.
-/

namespace MediaChannels.Toml

/-- How a table came to be. -/
inductive Origin where
  /-- Written between braces; nothing can be added. -/
  | inline
  /-- By a header of its own. -/
  | header
  /-- By the header of a table inside it; its own header may still follow. -/
  | path
  /-- By a dotted key; more dotted keys may follow. -/
  | dotted
  deriving DecidableEq, Repr

/-- A value. Floats, dates and times are kept as they are written. -/
inductive Value where
  | text (s : String)
  | integer (n : Int)
  | boolean (b : Bool)
  | float (word : String)
  | dateTime (word : String)
  | array (items : List Value)
  | table (origin : Origin) (entries : List (String × Value))
  /-- An array of tables, each begun by a header. -/
  | tables (elements : List (List (String × Value)))

/-- Keys with their values. -/
abbrev Entries := List (String × Value)

namespace Value

/-- The value of a word. -/
def ofWord? (word : List Char) : Option Value :=
  if word = "true".toList then some (boolean true)
  else if word = "false".toList then some (boolean false)
  else if isDateTime word then some (dateTime (String.ofList word))
  else if isFloat word then some (float (String.ofList word))
  else (integer? word).map integer

/-- The characters of words. -/
def isWordChar (c : Char) : Bool := c.isAlphanum || c == '_' || c == '+' || c == '-' || c == '.' || c == ':'

/-- Reads a word. A date takes a time with it that follows after one space. -/
def word? (s : List Char) : Option (Value × List Char) :=
  let word := s.takeWhile isWordChar
  let rest := s.dropWhile isWordChar
  let timed := match rest with
    | ' ' :: r =>
      let time := r.takeWhile isWordChar
      if isDate word && isTimeWithOffset time then
        some (dateTime (String.ofList (word ++ ' ' :: time)), r.dropWhile isWordChar)
      else none
    | _ => none
  timed <|> (ofWord? word).map (·, rest)

theorem ofWord?_integer {word : List Char} {n : Int} (hb : word ≠ "true".toList ∧ word ≠ "false".toList)
    (hd : isDateTime word = false) (hf : isFloat word = false) (hn : integer? word = some n) :
    ofWord? word = some (integer n) := by
  rw [ofWord?, if_neg hb.1, if_neg hb.2, if_neg (by simp [hd]), if_neg (by simp [hf]), hn, Option.map_some]

end Value

end MediaChannels.Toml
