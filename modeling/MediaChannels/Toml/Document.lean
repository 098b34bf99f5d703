import MediaChannels.Toml.Tree

/-!
# Documents

A document is a list of lines, each of them blank, a header of a table, a header of an element of an array of tables, or
an assignment of a value to a key. Reading goes in two steps: text to statements, and statements to the table that they
build.

* `Document.ofStatements_assign`, `Document.ofStatements_header`: an assignment belongs to the header before it.
-/

namespace MediaChannels.Toml

/-- The most keys that a dotted key can have, and the most levels that arrays and inline tables can have. -/
def maxDepth : Nat := 79

/-- The characters of keys without quotes. -/
def isKeyChar (c : Char) : Bool := c.isAlphanum || c == '_' || c == '-'

/-- Reads a key without dots. -/
def key? (s : List Char) : Option (String × List Char) :=
  match s with
  | '"' :: _ | '\'' :: _ => (quotedLine? s).map fun (cs, r) => (String.ofList cs, r)
  | _ =>
    let cs := s.takeWhile isKeyChar
    if cs.isEmpty then none else some (String.ofList cs, s.dropWhile isKeyChar)

/-- Reads up to `room` keys with dots between them, and the blanks around each. -/
def keys? : Nat → List Char → Option (List String × List Char)
  | 0, _ => none
  | room + 1, s =>
    match key? (blanks s) with
    | none => none
    | some (key, r) =>
      match blanks r with
      | '.' :: t => (keys? room t).map fun (keys, u) => (key :: keys, u)
      | t => some ([key], t)

/-- Reads a dotted key. -/
def path? (s : List Char) : Option (List String × List Char) := keys? maxDepth s

/-- Reads the items of an array, up to its closing bracket. -/
def items? (item : List Char → Option (Value × List Char)) (s : List Char) : Option (List Value × List Char) :=
  match gap false s with
  | none => none
  | some (']' :: r) => some ([], r)
  | some t =>
    match item t with
    | none => none
    | some (value, u) =>
      match gap false u with
      | some (',' :: r) =>
        if r.length < s.length then (items? item r).map fun (values, rest) => (value :: values, rest) else none
      | some (']' :: r) => some ([value], r)
      | _ => none
termination_by s.length

/-- Reads the assignments of an inline table, up to its closing brace. -/
def inlineEntries? (item : List Char → Option (Value × List Char)) (es : Entries) (s : List Char) :
    Option (Entries × List Char) :=
  match path? s with
  | some (path, '=' :: t) =>
    match item (blanks t) with
    | none => none
    | some (value, u) =>
      match Entries.assign value path es, blanks u with
      | some es, ',' :: r => if r.length < s.length then inlineEntries? item es r else none
      | some es, '}' :: r => some (es, r)
      | _, _ => none
  | _ => none
termination_by s.length

/-- Reads a value that holds arrays and inline tables of up to `room` levels. -/
def value? (room : Nat) (s : List Char) : Option (Value × List Char) :=
  match s with
  | '"' :: _ | '\'' :: _ => (quoted? s).map fun (cs, r) => (.text (String.ofList cs), r)
  | '[' :: r =>
    match room with
    | 0 => none
    | room + 1 => (items? (value? room) r).map fun (values, t) => (.array values, t)
  | '{' :: r =>
    match room with
    | 0 => none
    | room + 1 =>
      match blanks r with
      | '}' :: t => some (.table .inline [], t)
      | t => (inlineEntries? (value? room) [] t).map fun (es, u) => (.table .inline es, u)
  | _ => Value.word? s

/-- A value for a dotted key. -/
structure Assignment where
  path : List String
  value : Value

/-- A header, of a table or of an element of an array of tables. -/
structure Header where
  path : List String
  element : Bool

/-- A line that is not blank. -/
inductive Statement where
  | assign (a : Assignment)
  | header (h : Header)

/-- Reads the path of a header up to its closing brackets, and the rest of its line. -/
def header? (element : Bool) (s : List Char) : Option (Statement × List Char) :=
  match path? s with
  | some (path, ']' :: r) =>
    match element, r with
    | false, r => (lineEnd? r).map (.header { path, element }, ·)
    | true, ']' :: r => (lineEnd? r).map (.header { path, element }, ·)
    | true, _ => none
  | _ => none

/-- Reads an assignment and the rest of its line. -/
def assignment? (s : List Char) : Option (Statement × List Char) :=
  match path? s with
  | some (path, '=' :: r) =>
    match value? maxDepth (blanks r) with
    | some (value, t) => (lineEnd? t).map (.assign { path, value }, ·)
    | none => none
  | _ => none

/-- Reads the statement of a line that is not blank. -/
def statement? : List Char → Option (Statement × List Char)
  | '[' :: '[' :: r => header? true r
  | '[' :: r => header? false r
  | s => assignment? s

/-- Reads lines. -/
def statements? (s : List Char) : Option (List Statement) :=
  match _hs : blanks s with
  | [] => some []
  | c :: r =>
    if c = '#' ∨ c = '\n' ∨ c = '\r' then
      match lineEnd? (c :: r) with
      | some t => if t.length < s.length then statements? t else none
      | none => none
    else
      match statement? (c :: r) with
      | some (statement, t) => if t.length < s.length then (statements? t).map (statement :: ·) else none
      | none => none
termination_by s.length

/-- A header and the assignments below it. -/
structure Section where
  header : Header
  assignments : List Assignment

/-- The assignments above the first header, and the sections. -/
structure Document where
  assignments : List Assignment
  sections : List Section

namespace Document

/-- Gathers the assignments below each header. -/
def ofStatements : List Statement → Document
  | [] => ⟨[], []⟩
  | .assign a :: r => { ofStatements r with assignments := a :: (ofStatements r).assignments }
  | .header h :: r => ⟨[], ⟨h, (ofStatements r).assignments⟩ :: (ofStatements r).sections⟩

/-- The document that a text is, which may begin with a byte order mark. -/
def ofText? (s : List Char) : Option Document :=
  let s := match s with
    | '\uFEFF' :: r => r
    | _ => s
  (statements? s).map ofStatements

/-- Adds assignments to a table one after the other. -/
def assignAll : List Assignment → Entries → Option Entries
  | [], es => some es
  | a :: r, es => (Entries.assign a.value a.path es).bind (assignAll r)

/-- Adds a section to the table of a document. -/
def addSection (sec : Section) (es : Entries) : Option Entries :=
  match sec.header.path.getLast? with
  | none => none
  | some key =>
    let body := assignAll sec.assignments
    let add := if sec.header.element then Entries.append? body key else Entries.open? body key
    Entries.within add sec.header.path.dropLast es

/-- Adds sections one after the other. -/
def addSections : List Section → Entries → Option Entries
  | [], es => some es
  | sec :: r, es => (addSection sec es).bind (addSections r)

/-- The table that a document builds. -/
def entries? (d : Document) : Option Entries := (assignAll d.assignments []).bind (addSections d.sections)

@[simp] theorem ofStatements_assign (a : Assignment) (r : List Statement) :
    ofStatements (.assign a :: r) = { ofStatements r with assignments := a :: (ofStatements r).assignments } := rfl

@[simp] theorem ofStatements_header (h : Header) (r : List Statement) :
    ofStatements (.header h :: r) = ⟨[], ⟨h, (ofStatements r).assignments⟩ :: (ofStatements r).sections⟩ := rfl

end Document

/-- The table that a text describes. -/
def entriesOfText? (s : String) : Option Entries := (Document.ofText? s.toList).bind Document.entries?

end MediaChannels.Toml
