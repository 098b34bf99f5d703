import MediaChannels.Text.Hex
import MediaChannels.Toml.Document

/-!
# Writing documents

Text is written in the plainest form that holds it: in one line of double quotes, in one line of single quotes, in many
lines of double quotes, in many lines of single quotes, and only then with escape sequences.

* `escaped_of_plain`: text without anything to escape is written as it is.
-/

namespace MediaChannels.Toml

/-- The forms of quoted text. -/
inductive QuoteStyle where
  | basic
  | literal
  | multiBasic
  | multiLiteral
  deriving DecidableEq, Repr

/-- Control characters that have to be escaped in every form of text. -/
def needsEscape (c : Char) : Bool := c != '\t' && c != '\n' && (c.toNat < 0x20 || c.toNat == 0x7F)

/-- The length of the longest run of a character; `current` counts the run that the text continues. -/
def longestRun (c : Char) (current : Nat) : List Char → Nat
  | [] => current
  | d :: r => if d = c then longestRun c (current + 1) r else max current (longestRun c 0 r)

/-- The form in which a text is written. -/
def QuoteStyle.of (s : List Char) : QuoteStyle :=
  let control := s.any needsEscape
  let backslash := s.contains '\\'
  let lines := s.contains '\n'
  if !control && !backslash && !s.contains '"' && !lines then basic
  else if !control && !s.contains '\'' && !lines then literal
  else if !control && !backslash && longestRun '"' 0 s ≤ 2 then multiBasic
  else if !control && longestRun '\'' 0 s ≤ 2 then multiLiteral
  else if lines then multiBasic
  else basic

/-- The escape sequence of a control character or a backslash. A line feed stands for itself in text of many lines. -/
def escapeSequence? (multi : Bool) (c : Char) : Option (List Char) :=
  if c = '\x08' then some ['\\', 'b']
  else if c = '\t' then some ['\\', 't']
  else if c = '\n' then if multi then none else some ['\\', 'n']
  else if c = '\x0C' then some ['\\', 'f']
  else if c = '\r' then some ['\\', 'r']
  else if c = '\\' then some ['\\', '\\']
  else if needsEscape c then some ('\\' :: 'u' :: Text.hexDigits 4 c.toNat)
  else none

/-- Text between double quotes. Quotes are escaped, in text of many lines only when two stand before them already; `run`
counts those. -/
def escaped (multi : Bool) (run : Nat) : List Char → List Char
  | [] => []
  | c :: r =>
    if c = '"' then
      if multi ∧ run < 2 then c :: escaped multi (run + 1) r else '\\' :: '"' :: escaped multi 0 r
    else
      match escapeSequence? multi c with
      | some sequence => sequence ++ escaped multi 0 r
      | none => c :: escaped multi 0 r

/-- Text between the quotes of a form. A text of many lines begins on a line of its own. -/
def QuoteStyle.write (style : QuoteStyle) (s : List Char) : List Char :=
  let lead := if s.contains '\n' then ['\n'] else []
  match style with
  | basic => '"' :: escaped false 0 s ++ ['"']
  | literal => '\'' :: s ++ ['\'']
  | multiBasic => ['"', '"', '"'] ++ lead ++ escaped true 0 s ++ ['"', '"', '"']
  | multiLiteral => ['\'', '\'', '\''] ++ lead ++ s ++ ['\'', '\'', '\'']

/-- Quoted text. -/
def quote (s : List Char) : List Char := (QuoteStyle.of s).write s

/-- A key; quotes stand around it only if it needs them. -/
def writeKey (key : String) : List Char :=
  let s := key.toList
  if !s.isEmpty && s.all isKeyChar then s else QuoteStyle.basic.write s

/-- A dotted key. -/
def writePath (path : List String) : List Char := [('.')].intercalate (path.map writeKey)

mutual

/-- A value as it is written after the sign of an assignment. -/
def Value.write : Value → List Char
  | .text s => quote s.toList
  | .integer n => (toString n).toList
  | .boolean b => (toString b).toList
  | .float word | .dateTime word => word.toList
  | .array items => '[' :: writeItems items ++ [']']
  | .table _ entries => ['{', ' '] ++ writeEntries entries ++ [' ', '}']
  | .tables elements => '[' :: writeElements elements ++ [']']

/-- The items of an array, with commas between them. -/
def writeItems : List Value → List Char
  | [] => []
  | [v] => v.write
  | v :: r => v.write ++ [',', ' '] ++ writeItems r

/-- The assignments of an inline table, with commas between them. -/
def writeEntries : List (String × Value) → List Char
  | [] => []
  | [(k, v)] => writeKey k ++ [' ', '=', ' '] ++ v.write
  | (k, v) :: r => writeKey k ++ [' ', '=', ' '] ++ v.write ++ [',', ' '] ++ writeEntries r

/-- Inline tables with commas between them. -/
def writeElements : List (List (String × Value)) → List Char
  | [] => []
  | [es] => ['{', ' '] ++ writeEntries es ++ [' ', '}']
  | es :: r => ['{', ' '] ++ writeEntries es ++ [' ', '}', ',', ' '] ++ writeElements r

end

/-- A line that assigns. -/
def Assignment.write (a : Assignment) : List Char := writePath a.path ++ [' ', '=', ' '] ++ a.value.write ++ ['\n']

/-- A header line. -/
def Header.write (h : Header) : List Char :=
  if h.element then ['[', '['] ++ writePath h.path ++ [']', ']', '\n'] else '[' :: writePath h.path ++ [']', '\n']

/-- A section, with an empty line before it. -/
def Section.write (sec : Section) : List Char :=
  '\n' :: sec.header.write ++ sec.assignments.flatMap Assignment.write

/-- The text of a document. -/
def Document.write (d : Document) : List Char :=
  d.assignments.flatMap Assignment.write ++ d.sections.flatMap Section.write

/-- Text without anything to escape is written as it is. -/
theorem escaped_of_plain {multi : Bool} {run : Nat} {s : List Char}
    (h : ∀ c ∈ s, c ≠ '"' ∧ escapeSequence? multi c = none) : escaped multi run s = s := by
  induction s generalizing run with
  | nil => rfl
  | cons c r ih =>
    have hc := h c (by simp)
    rw [escaped, if_neg hc.1, hc.2]
    simp only [List.cons.injEq, true_and]
    exact ih fun d hd => h d (by simp [hd])

end MediaChannels.Toml
