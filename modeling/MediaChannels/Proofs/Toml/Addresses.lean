import MediaChannels.Toml.Tree

/-!
# What stands where in a table

An address leads into nested tables and arrays, step by step. What is seen there is a scalar, or the number of elements
of an array that headers have begun; tables and other arrays are seen only by what is in them. So it does not matter
how a table came to be.

* `seen_put_self`, `seen_put_of_ne`: what giving a key a value changes.
* `Rewrites`: everything at and below one address is replaced, and all the rest stays.
* `assign_rewrites`, `within_rewrites`, `open?_rewrites`, `append?_rewrites`: what each of the ways to add to a table
  rewrites, and where that is.
-/

namespace MediaChannels.Toml

/-- A step into a value: to the value of a key, or to an item of an array. -/
inductive Step where
  | key (name : String)
  | item (index : Nat)
  deriving DecidableEq, Repr

/-- The steps to a value inside another. -/
abbrev Address := List Step

/-- What is seen of a value without going into it. -/
inductive Mark where
  | scalar (v : Value)
  /-- How many elements of an array of tables there are, which is not empty. -/
  | elements (count : Nat)

/-- What is seen at every address. -/
abbrev View := Address → Option Mark

namespace Value

/-- The value one step inside another. -/
def child? : Value → Step → Option Value
  | table _ entries, .key name => entries.lookup name
  | array items, .item index => items[index]?
  | tables elements, .item index => (elements[index]?).map (table .header)
  | _, _ => none

/-- The mark of a value; tables and plain arrays have none. -/
def mark? : Value → Option Mark
  | table _ _ | array _ | tables [] => none
  | tables (_ :: rest) => some (.elements (rest.length + 1))
  | v => some (.scalar v)

/-- What is seen at an address in a value. -/
def seen (v : Value) : View
  | [] => v.mark?
  | step :: rest => (v.child? step).bind (·.seen rest)

end Value

/-- What is seen at an address in a table. -/
def Entries.seen (es : Entries) : View := (Value.table .header es).seen

variable {es inner : Entries} {elements : List Entries} {address : Address} {name : String}

/-! ## Tables in tables -/

@[simp] theorem Entries.seen_nil (es : Entries) : es.seen [] = none := rfl

@[simp] theorem Entries.seen_item (es : Entries) (index : Nat) (rest : Address) :
    es.seen (.item index :: rest) = none := rfl

@[simp] theorem Entries.seen_key (es : Entries) (name : String) (rest : Address) :
    es.seen (.key name :: rest) = (es.lookup name).bind (·.seen rest) := rfl

@[simp] theorem Entries.seen_empty (address : Address) : Entries.seen [] address = none := by
  cases address with
  | nil => rfl
  | cons step rest => cases step <;> rfl

/-- A table is seen by what is in it. -/
@[simp] theorem Value.seen_table (origin : Origin) (es : Entries) (address : Address) :
    (Value.table origin es).seen address = es.seen address := by
  cases address with
  | nil => rfl
  | cons step rest => cases step <;> rfl

theorem Value.seen_tables_nil (elements : List Entries) :
    (Value.tables elements).seen [] = if elements = [] then none else some (.elements elements.length) := by
  cases elements with
  | nil => rfl
  | cons first rest => rfl

@[simp] theorem Value.seen_tables_item (elements : List Entries) (index : Nat) (rest : Address) :
    (Value.tables elements).seen (.item index :: rest) = (elements[index]?).bind (·.seen rest) := by
  rw [Value.seen, Value.child?, Option.bind_map]
  exact Option.bind_congr fun es _ => Value.seen_table .header es rest

/-- An array without elements is seen as nothing. -/
theorem Value.seen_no_elements (address : Address) : (Value.tables []).seen address = none := by
  cases address with
  | nil => rfl
  | cons step rest => cases step <;> rfl

@[simp] theorem Value.seen_tables_key (elements : List Entries) (name : String) (rest : Address) :
    (Value.tables elements).seen (.key name :: rest) = none := rfl

theorem Entries.seen_put_self (name : String) (v : Value) (es : Entries) (rest : Address) :
    (put name v es).seen (.key name :: rest) = v.seen rest := by
  rw [seen_key, lookup_put, Option.bind_some]

/-- Nothing else is changed. -/
theorem Entries.seen_put_of_ne (name : String) (v : Value) (es : Entries) (h : ¬[.key name] <+: address) :
    (put name v es).seen address = es.seen address := by
  cases address with
  | nil => rfl
  | cons step rest =>
    cases step with
    | item => rfl
    | key other =>
      have hne : other ≠ name := by
        rintro rfl
        exact h ⟨rest, rfl⟩
      rw [seen_key, seen_key, lookup_put_of_ne _ _ hne]

/-! ## Rewriting -/

/-- A later view has other things at and below an address than an earlier one, and is the same elsewhere. -/
structure Rewrites (earlier later : View) (place : Address) (old new : View) : Prop where
  before : ∀ address, earlier (place ++ address) = old address
  after : ∀ address, later (place ++ address) = new address
  others : ∀ address, ¬place <+: address → later address = earlier address

namespace Rewrites

variable {earlier later old new part part' : View} {place step : Address}

theorem whole (earlier later : View) : Rewrites earlier later [] earlier later where
  before _ := rfl
  after _ := rfl
  others _ h := absurd List.nil_prefix h

/-- A change inside what is itself changed. -/
theorem nested (h : Rewrites earlier later step old new) (hin : Rewrites old new place part part') :
    Rewrites earlier later (step ++ place) part part' where
  before address := by rw [List.append_assoc, h.before, hin.before]
  after address := by rw [List.append_assoc, h.after, hin.after]
  others address hnot := by
    by_cases hstep : step <+: address
    · obtain ⟨rest, rfl⟩ := hstep
      rw [List.prefix_append_right_inj] at hnot
      rw [h.after, h.before, hin.others rest hnot]
    · exact h.others address hstep

theorem put (name : String) (v : Value) (es : Entries) :
    Rewrites es.seen (es.put name v).seen [.key name] (fun address => es.seen (.key name :: address)) v.seen where
  before _ := rfl
  after address := Entries.seen_put_self name v es address
  others _ h := Entries.seen_put_of_ne name v es h

/-- Changing the newest element of an array. -/
theorem newest (front : List Entries) (inner inner' : Entries) :
    Rewrites (Value.tables (front ++ [inner])).seen (Value.tables (front ++ [inner'])).seen [.item front.length]
      inner.seen inner'.seen where
  before address := by
    rw [List.singleton_append, Value.seen_tables_item, List.getElem?_concat_length, Option.bind_some]
  after address := by
    rw [List.singleton_append, Value.seen_tables_item, List.getElem?_concat_length, Option.bind_some]
  others address hnot := by
    cases address with
    | nil => simp [Value.seen_tables_nil]
    | cons step rest =>
      cases step with
      | key => rfl
      | item index =>
        rw [Value.seen_tables_item, Value.seen_tables_item]
        have hindex : index ≠ front.length := by
          rintro rfl
          exact hnot ⟨rest, rfl⟩
        rcases Nat.lt_or_gt_of_ne hindex with hlt | hgt
        · rw [List.getElem?_append_left hlt, List.getElem?_append_left hlt]
        · rw [List.getElem?_eq_none (by simp; omega), List.getElem?_eq_none (by simp; omega)]

end Rewrites

/-! ## The way that keys lead -/

/-- The newest element of the array at an address, or the address itself where no array is. The address of every array
is in `arrays` once for each element that the array has. -/
def newest (arrays : List Address) (address : Address) : Address :=
  match arrays.count address with
  | 0 => address
  | n + 1 => address ++ [.item n]

/-- The table that keys lead to from the table at `base`, through the newest elements of arrays. -/
def locate (arrays : List Address) (base : Address) : List String → Address
  | [] => base
  | key :: rest => locate arrays (newest arrays (base ++ [.key key])) rest

/-- The address of the last of the keys. -/
def place (arrays : List Address) (base : Address) : List String → Address
  | [] => base
  | [key] => base ++ [.key key]
  | key :: next :: rest => place arrays (newest arrays (base ++ [.key key])) (next :: rest)

theorem place_concat (arrays : List Address) (base : Address) (path : List String) (key : String) :
    place arrays base (path ++ [key]) = locate arrays base path ++ [.key key] := by
  induction path generalizing base with
  | nil => rfl
  | cons first rest ih =>
    rw [locate, ← ih]
    cases rest <;> rfl

/-- Whether the arrays of the table at `base`, of which `view` is the view, are in `arrays`. -/
def Counts (arrays : List Address) (base : Address) (view : View) : Prop :=
  ∀ address n, view address = some (.elements n) ↔ 0 < n ∧ arrays.count (base ++ address) = n

namespace Counts

variable {arrays : List Address} {base step : Address} {view part : View}

theorem below (h : Counts arrays base view) (hpart : ∀ address, view (step ++ address) = part address) :
    Counts arrays (base ++ step) part := by
  intro address n
  rw [← hpart, h, List.append_assoc]

theorem count_eq_zero (h : Counts arrays base view) (hnot : ∀ n, view address ≠ some (.elements n)) :
    arrays.count (base ++ address) = 0 :=
  Nat.eq_zero_of_not_pos fun hpos => hnot _ ((h address _).2 ⟨hpos, rfl⟩)

theorem newest_of_ne (h : Counts arrays base view) (hnot : ∀ n, view address ≠ some (.elements n)) :
    newest arrays (base ++ address) = base ++ address := by
  rw [newest, h.count_eq_zero hnot]

theorem newest_of_elements {n : Nat} (h : Counts arrays base view) (hn : view address = some (.elements (n + 1))) :
    newest arrays (base ++ address) = base ++ (address ++ [.item n]) := by
  rw [newest, ((h address _).1 hn).2]
  exact List.append_assoc ..

/-- An array counts as often as it has elements, be there none. -/
theorem count_eq_length (h : Counts arrays base view) (hseen : view address = (Value.tables elements).seen []) :
    arrays.count (base ++ address) = elements.length := by
  rw [Value.seen_tables_nil] at hseen
  cases elements with
  | nil => exact h.count_eq_zero (by simp [hseen])
  | cons first rest => exact ((h address _).1 hseen).2

end Counts

/-- A key leads by some steps to a table inside `es`, in place of which `es'` has another. -/
structure Descends (es es' : Entries) (key : String) (steps : Address) (inner inner' : Entries) : Prop where
  rewrites : Rewrites es.seen es'.seen steps inner.seen inner'.seen
  newest {arrays : List Address} {base : Address} (h : Counts arrays base es.seen) :
    newest arrays (base ++ [.key key]) = base ++ steps

namespace Descends

variable {inner' : Entries} {key : String}

/-- The way to a table, which is made where there is none. -/
theorem to_table (h : ∀ address, es.seen (.key key :: address) = inner.seen address) (origin : Origin) :
    Descends es (es.put key (.table origin inner')) key [.key key] inner inner' where
  rewrites := by
    have hput := Rewrites.put key (.table origin inner') es
    rwa [funext h, funext (Value.seen_table origin inner')] at hput
  newest hc := hc.newest_of_ne fun n => by simp [h]

/-- The way to the newest element of an array. -/
theorem to_newest {front : List Entries} (h : es.lookup key = some (.tables (front ++ [inner]))) :
    Descends es (es.put key (.tables (front ++ [inner']))) key [.key key, .item front.length] inner inner' where
  rewrites := by
    have hput := Rewrites.put key (.tables (front ++ [inner'])) es
    simp only [Entries.seen_key, h, Option.bind_some] at hput
    exact hput.nested (.newest front inner inner')
  newest hc := hc.newest_of_elements (by simp [h, Value.seen_tables_nil])

end Descends

namespace Entries

variable {es' : Entries} {v : Value} {key : String} {arrays : List Address} {base : Address}
  {change body : Entries → Option Entries}

theorem seen_of_missing (h : es.lookup key = none) (address : Address) :
    es.seen (.key key :: address) = seen [] address := by rw [seen_key, h, seen_empty, Option.bind_none]

theorem seen_of_table {origin : Origin} (h : es.lookup key = some (.table origin inner)) (address : Address) :
    es.seen (.key key :: address) = inner.seen address := by rw [seen_key, h, Option.bind_some, Value.seen_table]

/-- A dotted key goes on in the table that its first key leads to. -/
theorem assign_descends {next : String} {rest : List String} (h : assign v (key :: next :: rest) es = some es') :
    ∃ steps inner inner', Descends es es' key steps inner inner' ∧ assign v (next :: rest) inner = some inner' := by
  rw [assign] at h
  split at h
  · next hfound =>
    obtain ⟨inner', hin, rfl⟩ := Option.map_eq_some_iff.1 h
    exact ⟨_, _, _, .to_table (seen_of_missing hfound) _, hin⟩
  · next hfound =>
    split at h
    · obtain ⟨inner', hin, rfl⟩ := Option.map_eq_some_iff.1 h
      exact ⟨_, _, _, .to_table (seen_of_table hfound) _, hin⟩
    · cases h
  · next hfound =>
    split at h
    · next hlast =>
      obtain ⟨front, rfl⟩ := List.getLast?_eq_some_iff.1 hlast
      split at h
      · cases h
      · obtain ⟨inner', hin, rfl⟩ := Option.map_eq_some_iff.1 h
        rw [List.dropLast_concat]
        exact ⟨_, _, _, .to_newest hfound, hin⟩
    · cases h
  · cases h

/-- So do the keys of a header. -/
theorem within_descends {rest : List String} (h : within change (key :: rest) es = some es') :
    ∃ steps inner inner', Descends es es' key steps inner inner' ∧ within change rest inner = some inner' := by
  rw [within] at h
  split at h
  · next hfound =>
    obtain ⟨inner', hin, rfl⟩ := Option.map_eq_some_iff.1 h
    exact ⟨_, _, _, .to_table (seen_of_missing hfound) _, hin⟩
  · next hfound =>
    split at h
    · cases h
    · obtain ⟨inner', hin, rfl⟩ := Option.map_eq_some_iff.1 h
      exact ⟨_, _, _, .to_table (seen_of_table hfound) _, hin⟩
  · next hfound =>
    split at h
    · next hlast =>
      obtain ⟨front, rfl⟩ := List.getLast?_eq_some_iff.1 hlast
      obtain ⟨inner', hin, rfl⟩ := Option.map_eq_some_iff.1 h
      rw [List.dropLast_concat]
      exact ⟨_, _, _, .to_newest hfound, hin⟩
    · cases h
  · cases h

/-- An assignment puts its value where nothing was. -/
theorem assign_rewrites {path : List String} (h : assign v path es = some es') :
    ∃ steps, Rewrites es.seen es'.seen steps (fun _ => none) v.seen ∧
      ∀ {arrays base}, Counts arrays base es.seen → place arrays base path = base ++ steps := by
  induction path generalizing es es' with
  | nil => cases h
  | cons key rest ih =>
    cases rest with
    | nil =>
      rw [assign_single] at h
      split at h
      · cases h
      · next hfound =>
        cases h
        rw [Option.not_isSome_iff_eq_none] at hfound
        refine ⟨[.key key], ?_, fun _ => rfl⟩
        have hput := Rewrites.put key v es
        simp only [seen_key, hfound, Option.bind_none] at hput
        exact hput
    | cons next rest =>
      obtain ⟨steps, inner, inner', hd, hin⟩ := assign_descends h
      obtain ⟨more, hr, hplace⟩ := ih hin
      refine ⟨steps ++ more, hd.rewrites.nested hr, fun hc => ?_⟩
      rw [place, hd.newest hc, hplace (hc.below hd.rewrites.before), List.append_assoc]

/-- A change within a table rewrites the table that it changes. -/
theorem within_rewrites {path : List String} (h : within change path es = some es') :
    ∃ steps inner inner', change inner = some inner' ∧ Rewrites es.seen es'.seen steps inner.seen inner'.seen ∧
      ∀ {arrays base}, Counts arrays base es.seen → locate arrays base path = base ++ steps := by
  induction path generalizing es es' with
  | nil => exact ⟨[], es, es', h, .whole _ _, fun _ => (List.append_nil _).symm⟩
  | cons key rest ih =>
    obtain ⟨steps, inner, inner', hd, hin⟩ := within_descends h
    obtain ⟨more, table, table', hchange, hr, hlocate⟩ := ih hin
    refine ⟨steps ++ more, table, table', hchange, hd.rewrites.nested hr, fun hc => ?_⟩
    rw [locate, hd.newest hc, hlocate (hc.below hd.rewrites.before), List.append_assoc]

theorem open?_rewrites (h : open? body key es = some es') :
    ∃ inner inner', body inner = some inner' ∧ Rewrites es.seen es'.seen [.key key] inner.seen inner'.seen := by
  unfold open? at h
  split at h
  · next hfound =>
    obtain ⟨inner', hin, rfl⟩ := Option.map_eq_some_iff.1 h
    exact ⟨[], inner', hin, (Descends.to_table (seen_of_missing hfound) _).rewrites⟩
  · next inner hfound =>
    obtain ⟨inner', hin, rfl⟩ := Option.map_eq_some_iff.1 h
    exact ⟨inner, inner', hin, (Descends.to_table (seen_of_table hfound) _).rewrites⟩
  · cases h

theorem append?_rewrites (h : append? body key es = some es') :
    ∃ elements inner, body [] = some inner ∧
      Rewrites es.seen es'.seen [.key key] (Value.tables elements).seen (Value.tables (elements ++ [inner])).seen := by
  unfold append? at h
  split at h
  · next hfound =>
    obtain ⟨inner, hin, rfl⟩ := Option.map_eq_some_iff.1 h
    refine ⟨[], inner, hin, ?_⟩
    have hput := Rewrites.put key (.tables [inner]) es
    simp only [seen_of_missing hfound, seen_empty] at hput
    rwa [funext Value.seen_no_elements]
  · next elements hfound =>
    obtain ⟨inner, hin, rfl⟩ := Option.map_eq_some_iff.1 h
    refine ⟨elements, inner, hin, ?_⟩
    have hput := Rewrites.put key (.tables (elements ++ [inner])) es
    simp only [seen_key, hfound, Option.bind_some] at hput
    exact hput
  · cases h

end Entries

end MediaChannels.Toml
