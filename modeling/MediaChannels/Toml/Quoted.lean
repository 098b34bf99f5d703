import MediaChannels.Toml.Space

/-!
# Reading quoted text

Text is quoted in four ways: between single or double quotes, once for text in one line and three times for text of many
lines. Double quotes allow escape sequences; between single quotes every character stands for itself. In text of many
lines a line end directly after the opening quotes does not count, every line end is read as a line feed, and one or two
more quotes may stand before the closing ones.

* `literal_append`: text in one line of single quotes is read as it is.
-/

namespace MediaChannels.Toml

/-- The number that a hexadecimal digit stands for. -/
def hexValue? (c : Char) : Option Nat :=
  let n := c.toNat
  if 0x30 ≤ n ∧ n ≤ 0x39 then some (n - 0x30)
  else if 0x41 ≤ n ∧ n ≤ 0x46 then some (n - 0x41 + 10)
  else if 0x61 ≤ n ∧ n ≤ 0x66 then some (n - 0x61 + 10)
  else none

/-- The number that hexadecimal digits denote after `acc`. -/
def hexNumber? (acc : Nat) : List Char → Option Nat
  | [] => some acc
  | c :: r => (hexValue? c).bind fun d => hexNumber? (acc * 16 + d) r

/-- The character whose number is given by `count` hexadecimal digits. -/
def numbered? (count : Nat) (s : List Char) : Option (Char × List Char) :=
  if s.length < count then none
  else
    (hexNumber? 0 (s.take count)).bind fun n =>
      if n.isValidChar then some (Char.ofNat n, s.drop count) else none

/-- The character that an escape sequence stands for, read after its backslash. -/
def escape? : List Char → Option (Char × List Char)
  | 'b' :: r => some ('\x08', r)
  | 't' :: r => some ('\t', r)
  | 'n' :: r => some ('\n', r)
  | 'f' :: r => some ('\x0C', r)
  | 'r' :: r => some ('\r', r)
  | '"' :: r => some ('"', r)
  | '\\' :: r => some ('\\', r)
  | 'u' :: r => numbered? 4 r
  | 'U' :: r => numbered? 8 r
  | _ => none

theorem numbered?_length_le {count : Nat} {s r : List Char} {c : Char} (h : numbered? count s = some (c, r)) :
    r.length ≤ s.length := by
  unfold numbered? at h
  split at h
  · cases h
  · obtain ⟨n, -, hn⟩ := Option.bind_eq_some_iff.1 h
    split at hn
    · cases hn; simp
    · cases hn

theorem escape?_length_lt {s r : List Char} {c : Char} (h : escape? s = some (c, r)) : r.length < s.length := by
  unfold escape? at h
  split at h
  case h_8 => exact Nat.lt_succ_of_le (numbered?_length_le h)
  case h_9 => exact Nat.lt_succ_of_le (numbered?_length_le h)
  case h_10 => cases h
  all_goals cases h; simp

/-- The text after blanks and line ends. -/
def skipBreaks : List Char → List Char
  | '\n' :: r => skipBreaks r
  | '\r' :: '\n' :: r => skipBreaks r
  | c :: r => if isBlank c then skipBreaks r else c :: r
  | [] => []

theorem skipBreaks_length_le (s : List Char) : (skipBreaks s).length ≤ s.length := by
  fun_induction skipBreaks s <;> grind

/-- The text after a line end that was escaped, read after its backslash; the blanks and line ends that follow are left
out too. -/
def joinedLine? (s : List Char) : Option (List Char) := (newline? (blanks s)).map skipBreaks

theorem joinedLine?_length_lt {s r : List Char} (h : joinedLine? s = some r) : r.length < s.length := by
  obtain ⟨t, ht, rfl⟩ := Option.map_eq_some_iff.1 h
  exact Nat.lt_of_le_of_lt (skipBreaks_length_le t) (Nat.lt_of_lt_of_le (newline?_length_lt ht) (blanks_length_le s))

/-- Puts a character in front of what was read. -/
def push (c : Char) (read : Option (List Char × List Char)) : Option (List Char × List Char) :=
  read.map fun (cs, rest) => (c :: cs, rest)

/-- Reads the rest of a text in one line of double quotes. -/
def basic (s : List Char) : Option (List Char × List Char) :=
  match s with
  | [] => none
  | '"' :: r => some ([], r)
  | '\\' :: r =>
    match _h : escape? r with
    | some (c, t) => push c (basic t)
    | none => none
  | c :: r => if isPrintable c then push c (basic r) else none
termination_by s.length
decreasing_by
  · have := escape?_length_lt _h
    simp only [List.length_cons]
    omega
  · simp only [List.length_cons]
    omega

/-- Reads the rest of a text in one line of single quotes. -/
def literal : List Char → Option (List Char × List Char)
  | [] => none
  | '\'' :: r => some ([], r)
  | c :: r => if isPrintable c then push c (literal r) else none

/-- What closes a text of many lines: up to two quotes that still belong to the text stand before the rest. -/
def closing (quote : Char) : List Char → List Char × List Char
  | a :: b :: r =>
    if a = quote then if b = quote then ([a, b], r) else ([a], b :: r)
    else ([], a :: b :: r)
  | [a] => if a = quote then ([a], []) else ([], [a])
  | [] => ([], [])

/-- Reads the rest of a text of many lines of double quotes. -/
def multiBasic (s : List Char) : Option (List Char × List Char) :=
  match s with
  | [] => none
  | '"' :: '"' :: '"' :: r => some (closing '"' r)
  | '\\' :: r =>
    match _hj : joinedLine? r with
    | some t => multiBasic t
    | none =>
      match _h : escape? r with
      | some (c, t) => push c (multiBasic t)
      | none => none
  | '\n' :: r => push '\n' (multiBasic r)
  | '\r' :: '\n' :: r => push '\n' (multiBasic r)
  | c :: r => if isPrintable c then push c (multiBasic r) else none
termination_by s.length
decreasing_by
  · have := joinedLine?_length_lt _hj
    simp only [List.length_cons]
    omega
  · have := escape?_length_lt _h
    simp only [List.length_cons]
    omega
  all_goals
    simp only [List.length_cons]
    omega

/-- Reads the rest of a text of many lines of single quotes. -/
def multiLiteral : List Char → Option (List Char × List Char)
  | [] => none
  | '\'' :: '\'' :: '\'' :: r => some (closing '\'' r)
  | '\n' :: r => push '\n' (multiLiteral r)
  | '\r' :: '\n' :: r => push '\n' (multiLiteral r)
  | c :: r => if isPrintable c then push c (multiLiteral r) else none

/-- The text after a line end that stands directly after opening quotes. -/
def afterOpening (s : List Char) : List Char := (newline? s).getD s

/-- Reads quoted text in one line, as keys have it. -/
def quotedLine? : List Char → Option (List Char × List Char)
  | '"' :: r => basic r
  | '\'' :: r => literal r
  | _ => none

/-- Reads quoted text. -/
def quoted? : List Char → Option (List Char × List Char)
  | '"' :: '"' :: '"' :: r => multiBasic (afterOpening r)
  | '\'' :: '\'' :: '\'' :: r => multiLiteral (afterOpening r)
  | s => quotedLine? s

theorem literal_append {s : List Char} (h : ∀ c ∈ s, isPrintable c = true ∧ c ≠ '\'') (r : List Char) :
    literal (s ++ '\'' :: r) = some (s, r) := by
  induction s with
  | nil => rfl
  | cons c t ih =>
    have hc := h c (by simp)
    rw [List.cons_append, literal.eq_def]
    split
    · simp_all
    · simp_all
    · next heq =>
      cases heq
      rw [if_pos hc.1, ih fun d hd => h d (by simp [hd])]
      rfl

end MediaChannels.Toml
