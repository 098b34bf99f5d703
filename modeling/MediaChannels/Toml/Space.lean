/-!
# White space of documents

What may stand between the parts of a document: blanks (spaces and tabs), comments, which run to the end of their line,
and line ends. A line ends with a line feed, with a carriage return before it or not; a carriage return alone ends
nothing.

* `blanks_length_le`, `newline?_length_lt`, `lineEnd?_length_le`, `gap_length_le`: skipping never makes a text longer.
* `blanks_of_not_isBlank`, `lineEnd?_newline`: what a text without white space, and an end of line, leave.
-/

namespace MediaChannels.Toml

/-- A space or a tab. -/
def isBlank (c : Char) : Bool := c == ' ' || c == '\t'

/-- The characters of comments and of quoted text: no control character but the tab. -/
def isPrintable (c : Char) : Bool := c == '\t' || (0x20 ≤ c.toNat && c.toNat != 0x7F)

/-- The text after leading blanks. -/
def blanks (s : List Char) : List Char := s.dropWhile isBlank

/-- The text after a line end. -/
def newline? : List Char → Option (List Char)
  | '\n' :: r => some r
  | '\r' :: '\n' :: r => some r
  | _ => none

/-- The text after a comment, if there is one. -/
def comment : List Char → List Char
  | '#' :: r => r.dropWhile isPrintable
  | s => s

/-- The text after the rest of a line that holds nothing more than a comment. -/
def lineEnd? (s : List Char) : Option (List Char) :=
  match comment (blanks s) with
  | [] => some []
  | r => newline? r

/-- The text after any white space, where a comment has to end with its line. -/
def gap (inComment : Bool) : List Char → Option (List Char)
  | [] => if inComment then none else some []
  | '\n' :: r => gap false r
  | '\r' :: '\n' :: r => gap false r
  | c :: r =>
    if inComment then if isPrintable c then gap true r else none
    else if isBlank c then gap false r
    else if c = '#' then gap true r
    else if c = '\r' then none
    else some (c :: r)

theorem length_dropWhile_le {α : Type} (p : α → Bool) (s : List α) : (s.dropWhile p).length ≤ s.length :=
  (List.dropWhile_sublist p).length_le

theorem blanks_length_le (s : List Char) : (blanks s).length ≤ s.length := length_dropWhile_le _ s

theorem newline?_length_lt {s r : List Char} (h : newline? s = some r) : r.length < s.length := by
  unfold newline? at h
  split at h <;> first | cases h; simp; try omega | cases h

theorem comment_length_le (s : List Char) : (comment s).length ≤ s.length := by
  unfold comment
  split
  · exact Nat.le_succ_of_le (length_dropWhile_le _ _)
  · exact Nat.le_refl _

theorem lineEnd?_length_le {s r : List Char} (h : lineEnd? s = some r) : r.length ≤ s.length := by
  have hs := Nat.le_trans (comment_length_le _) (blanks_length_le s)
  unfold lineEnd? at h
  split at h
  · cases h; simp
  · exact Nat.le_trans (Nat.le_of_lt (newline?_length_lt h)) hs

theorem gap_length_le {inComment : Bool} {s r : List Char} (h : gap inComment s = some r) : r.length ≤ s.length := by
  fun_induction gap inComment s <;> grind

theorem blanks_of_not_isBlank {c : Char} (h : isBlank c = false) (r : List Char) : blanks (c :: r) = c :: r := by
  simp [blanks, List.dropWhile, h]

@[simp] theorem lineEnd?_newline (r : List Char) : lineEnd? ('\n' :: r) = some r := rfl

end MediaChannels.Toml
