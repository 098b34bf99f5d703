import MediaChannels.Toml.Value

/-!
# Building tables

The statements of a document add to its tables one after the other, and what a statement may add to depends on what was
said before: a key has one value, a table has one header, and a dotted key goes through tables that were made by dotted
keys alone.

* `assign_single`: a key can be given a value exactly if it has none.
* `lookup_put`: what was put is found.
-/

namespace MediaChannels.Toml

namespace Entries

/-- Gives a key a value, which replaces the one that it had. -/
def put (key : String) (value : Value) : Entries → Entries
  | [] => [(key, value)]
  | (k, v) :: r => if k = key then (k, value) :: r else (k, v) :: put key value r

/-- Gives the key at the end of a dotted key its value. -/
def assign (value : Value) : List String → Entries → Option Entries
  | [], _ => none
  | [key], es => if (es.lookup key).isSome then none else some (put key value es)
  | key :: next :: rest, es =>
    match es.lookup key with
    | none => (assign value (next :: rest) []).map fun inner => put key (.table .dotted inner) es
    | some (.table origin inner) =>
      if origin = .dotted ∨ (origin = .path ∧ rest ≠ []) then
        (assign value (next :: rest) inner).map fun inner => put key (.table origin inner) es
      else none
    | some (.tables elements) =>
      match elements.getLast? with
      | some inner =>
        if rest = [] then none
        else (assign value (next :: rest) inner).map fun inner => put key (.tables (elements.dropLast ++ [inner])) es
      | none => none
    | some _ => none

/-- Changes the table that keys lead to, through the newest element of an array of tables. Tables on the way that do not
exist are made. -/
def within (change : Entries → Option Entries) : List String → Entries → Option Entries
  | [], es => change es
  | key :: rest, es =>
    match es.lookup key with
    | none => (within change rest []).map fun inner => put key (.table .path inner) es
    | some (.table origin inner) =>
      if origin = .inline then none
      else (within change rest inner).map fun inner => put key (.table origin inner) es
    | some (.tables elements) =>
      match elements.getLast? with
      | some inner => (within change rest inner).map fun inner => put key (.tables (elements.dropLast ++ [inner])) es
      | none => none
    | some _ => none

/-- Makes the table of a header; `body` is what follows the header. -/
def open? (body : Entries → Option Entries) (key : String) (es : Entries) : Option Entries :=
  match es.lookup key with
  | none => (body []).map fun inner => put key (.table .header inner) es
  | some (.table .path inner) => (body inner).map fun inner => put key (.table .header inner) es
  | some _ => none

/-- Adds the element of a header to an array of tables. -/
def append? (body : Entries → Option Entries) (key : String) (es : Entries) : Option Entries :=
  match es.lookup key with
  | none => (body []).map fun inner => put key (.tables [inner]) es
  | some (.tables elements) => (body []).map fun inner => put key (.tables (elements ++ [inner])) es
  | some _ => none

theorem assign_single (value : Value) (key : String) (es : Entries) :
    assign value [key] es = if (es.lookup key).isSome then none else some (put key value es) := rfl

theorem lookup_put (key : String) (value : Value) (es : Entries) : (put key value es).lookup key = some value := by
  induction es with
  | nil => simp [put]
  | cons e r ih =>
    obtain ⟨k, v⟩ := e
    by_cases h : k = key
    · simp [put, h]
    · simp [put, h, List.lookup_cons, beq_false_of_ne (Ne.symm h), ih]

theorem lookup_put_of_ne {key other : String} (value : Value) (es : Entries) (h : other ≠ key) :
    (put key value es).lookup other = es.lookup other := by
  induction es with
  | nil => simp [put, List.lookup_cons, beq_false_of_ne h]
  | cons e r ih =>
    obtain ⟨k, v⟩ := e
    by_cases hk : k = key
    · simp [put, hk, List.lookup_cons, beq_false_of_ne h]
    · simp [put, hk, List.lookup_cons, ih]

end Entries

end MediaChannels.Toml
