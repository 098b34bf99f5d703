import MediaChannels.Proofs.Toml.Written
import Mathlib.Logic.Function.Basic

/-!
# What a document says

A document binds addresses to values: each assignment binds the address that its key has below its header. The table
that the document builds has what is bound, and nothing else, so the order of the statements and the way in which tables
are written do not matter.

* `Document.bindings`: what a document binds.
* `Agrees.rewrite`: bindings and table stay in agreement when both are changed below one address.
* `assignAll_agrees`, `addSection_agrees`: what one assignment and one section keep, then all of them.
* `entries?_seen_iff`: the scalars of the table are those that the document binds.
-/

namespace MediaChannels.Toml

/-! ## Bindings -/

/-- A value that is given at an address. -/
structure Binding where
  address : Address
  value : Value

/-- What assignments bind in the table at `base`. -/
def bindingsOf (arrays : List Address) (base : Address) (assignments : List Assignment) : List Binding :=
  assignments.map fun a => ⟨place arrays base a.path, a.value⟩

namespace Header

/-- The arrays after a header; one that begins an element adds to its array. -/
def arrays (h : Header) (arrays : List Address) : List Address :=
  if h.element then place arrays [] h.path :: arrays else arrays

/-- The table that a header begins. -/
def table (h : Header) (arrays : List Address) : Address :=
  let address := place arrays [] h.path
  if h.element then address ++ [.item (arrays.count address)] else address

end Header

/-- What sections bind one after the other. -/
def sectionBindings : List Address → List Section → List Binding
  | _, [] => []
  | arrays, sec :: r =>
    bindingsOf (sec.header.arrays arrays) (sec.header.table arrays) sec.assignments ++
      sectionBindings (sec.header.arrays arrays) r

/-- What a document binds. -/
def Document.bindings (d : Document) : List Binding := bindingsOf [] [] d.assignments ++ sectionBindings [] d.sections

/-- Some binding gives an address a scalar, by itself or inside its value. -/
def Binds (bound : List Binding) (address : Address) (w : Value) : Prop :=
  ∃ b ∈ bound, ∃ rest, address = b.address ++ rest ∧ b.value.seen rest = some (.scalar w)

variable {bound more : List Binding} {address base : Address} {w : Value} {arrays : List Address}

theorem not_binds_nil : ¬Binds [] address w := by
  rintro ⟨b, hb, -⟩
  cases hb

theorem binds_append : Binds (bound ++ more) address w ↔ Binds bound address w ∨ Binds more address w := by
  simp only [Binds, List.mem_append, or_and_right, exists_or]

theorem binds_singleton {v : Value} {rest : Address} :
    Binds [⟨base, v⟩] (base ++ rest) w ↔ v.seen rest = some (.scalar w) := by
  constructor
  · rintro ⟨b, hb, other, haddress, hv⟩
    cases List.mem_singleton.1 hb
    rwa [List.append_cancel_left haddress]
  · intro hv
    exact ⟨_, List.mem_singleton_self _, rest, rfl, hv⟩

/-- What is bound below an address only does not concern the others. -/
theorem not_binds_of_not_below {step : Address} (hall : ∀ b ∈ bound, step <+: b.address) (hnot : ¬step <+: address) :
    ¬Binds bound address w := by
  rintro ⟨b, hb, rest, rfl, -⟩
  exact hnot ((hall b hb).trans (List.prefix_append ..))

theorem prefix_newest (arrays : List Address) (address : Address) : address <+: newest arrays address := by
  unfold newest
  split
  · exact List.prefix_rfl
  · exact List.prefix_append ..

theorem prefix_place (arrays : List Address) (base : Address) (path : List String) :
    base <+: place arrays base path := by
  fun_induction place with
  | case1 => exact List.prefix_rfl
  | case2 => exact List.prefix_append ..
  | case3 base key next rest ih => exact ((List.prefix_append ..).trans (prefix_newest ..)).trans ih

theorem prefix_of_mem_bindingsOf {assignments : List Assignment} {b : Binding}
    (h : b ∈ bindingsOf arrays base assignments) : base <+: b.address := by
  obtain ⟨a, -, rfl⟩ := List.mem_map.1 h
  exact prefix_place arrays base a.path

/-! ## Agreement -/

/-- The table at `base`, of which `view` is the view, has the arrays and the scalars that statements gave it. -/
structure Agrees (arrays : List Address) (bound : List Binding) (base : Address) (view : View) : Prop where
  counts : Counts arrays base view
  scalars : ∀ address w, view address = some (.scalar w) ↔ Binds bound (base ++ address) w

namespace Agrees

variable {view part later old new : View} {step : Address}

theorem empty : Agrees [] [] [] (Entries.seen []) where
  counts address n := by simp; omega
  scalars address w := by simp [not_binds_nil]

theorem below (h : Agrees arrays bound base view) (hpart : ∀ address, view (step ++ address) = part address) :
    Agrees arrays bound (base ++ step) part where
  counts := h.counts.below hpart
  scalars address w := by rw [← hpart, h.scalars, List.append_assoc]

/-- What is changed below one address agrees again if it agrees there, with bindings below the address alone. -/
theorem rewrite (h : Agrees arrays bound base view) (hr : Rewrites view later step old new)
    (hnew : Agrees arrays (bound ++ more) (base ++ step) new) (hmore : ∀ b ∈ more, base ++ step <+: b.address) :
    Agrees arrays (bound ++ more) base later where
  counts address n := by
    by_cases hstep : step <+: address
    · obtain ⟨rest, rfl⟩ := hstep
      rw [hr.after, hnew.counts, List.append_assoc]
    · rw [hr.others address hstep, h.counts]
  scalars address w := by
    by_cases hstep : step <+: address
    · obtain ⟨rest, rfl⟩ := hstep
      rw [hr.after, hnew.scalars, List.append_assoc]
    · have hnot : ¬base ++ step <+: base ++ address := mt (List.prefix_append_right_inj base).1 hstep
      rw [hr.others address hstep, h.scalars, binds_append, or_iff_left (not_binds_of_not_below hmore hnot)]

/-- A value agrees with its own binding, where nothing was bound. -/
theorem value {v : Value} (h : Agrees arrays bound base fun _ => none) (hv : v.seen.Written) :
    Agrees arrays (bound ++ [⟨base, v⟩]) base v.seen where
  counts address n := by
    rw [← h.counts]
    exact iff_of_false (hv.not_elements address n) nofun
  scalars address w := by
    rw [binds_append, ← h.scalars, binds_singleton]
    exact (or_iff_right nofun).symm

/-- One more element, which is empty, changes the number of elements and nothing else. -/
theorem add_element {elements : List Entries} (h : Agrees arrays bound [] view)
    (hseen : ∀ address, view (step ++ address) = (Value.tables elements).seen address) :
    Agrees (step :: arrays) bound [] (Function.update view step (some (.elements (elements.length + 1)))) := by
  have hstep := List.append_nil step ▸ hseen []
  constructor
  · intro address n
    rw [List.nil_append]
    by_cases heq : address = step
    · subst heq
      have hcount : arrays.count address = elements.length := h.counts.count_eq_length hstep
      rw [Function.update_self, List.count_cons_self, hcount, Option.some_inj, Mark.elements.injEq]
      omega
    · rw [Function.update_of_ne heq, List.count_cons_of_ne (Ne.symm heq), h.counts, List.nil_append]
  · intro address w
    by_cases heq : address = step
    · subst heq
      rw [Function.update_self, ← h.scalars, hstep, Value.seen_tables_nil]
      split <;> simp
    · rw [Function.update_of_ne heq, h.scalars]

end Agrees

namespace Document

variable {es es' : Entries}

/-! ## Statements -/

theorem assign_agrees {a : Assignment} (h : Entries.assign a.value a.path es = some es') (hv : a.value.seen.Written)
    (ha : Agrees arrays bound base es.seen) : Agrees arrays (bound ++ bindingsOf arrays base [a]) base es'.seen := by
  obtain ⟨steps, hr, hplace⟩ := Entries.assign_rewrites h
  have hplace := hplace ha.counts
  have hbound : bindingsOf arrays base [a] = [⟨base ++ steps, a.value⟩] := by rw [← hplace]; rfl
  rw [hbound]
  apply ha.rewrite hr ((ha.below hr.before).value hv)
  intro b hb
  cases List.mem_singleton.1 hb
  exact List.prefix_rfl

theorem assignAll_agrees {assignments : List Assignment} (h : assignAll assignments es = some es')
    (hv : ∀ a ∈ assignments, a.value.seen.Written) (ha : Agrees arrays bound base es.seen) :
    Agrees arrays (bound ++ bindingsOf arrays base assignments) base es'.seen := by
  induction assignments generalizing bound es with
  | nil =>
    cases h
    rwa [bindingsOf, List.map_nil, List.append_nil]
  | cons a r ih =>
    obtain ⟨middle, ha', hr⟩ := Option.bind_eq_some_iff.1 h
    have hmiddle := assign_agrees ha' (hv a (by simp)) ha
    have hlast := ih hr (fun b hb => hv b (by simp [hb])) hmiddle
    rwa [List.append_assoc] at hlast

/-! ## Sections -/

theorem addSection_of_table {sec : Section} (h : addSection sec es = some es') (he : sec.header.element = false)
    (hc : Counts arrays [] es.seen) :
    ∃ inner inner', assignAll sec.assignments inner = some inner' ∧
      Rewrites es.seen es'.seen (place arrays [] sec.header.path) inner.seen inner'.seen := by
  unfold addSection at h
  split at h
  · cases h
  · next key hkey =>
    obtain ⟨steps, outer, outer', hopen, hr, hlocate⟩ := Entries.within_rewrites h
    rw [if_neg (by simp [he])] at hopen
    obtain ⟨inner, inner', hbody, hin⟩ := Entries.open?_rewrites hopen
    obtain ⟨path, hpath⟩ := List.getLast?_eq_some_iff.1 hkey
    rw [hpath, List.dropLast_concat] at hlocate
    refine ⟨inner, inner', hbody, ?_⟩
    rw [hpath, place_concat, hlocate hc]
    exact hr.nested hin

theorem addSection_of_element {sec : Section} (h : addSection sec es = some es') (he : sec.header.element = true)
    (hc : Counts arrays [] es.seen) :
    ∃ elements inner, assignAll sec.assignments [] = some inner ∧
      Rewrites es.seen es'.seen (place arrays [] sec.header.path) (Value.tables elements).seen
        (Value.tables (elements ++ [inner])).seen := by
  unfold addSection at h
  split at h
  · cases h
  · next key hkey =>
    obtain ⟨steps, outer, outer', happend, hr, hlocate⟩ := Entries.within_rewrites h
    rw [if_pos he] at happend
    obtain ⟨elements, inner, hbody, hin⟩ := Entries.append?_rewrites happend
    obtain ⟨path, hpath⟩ := List.getLast?_eq_some_iff.1 hkey
    rw [hpath, List.dropLast_concat] at hlocate
    refine ⟨elements, inner, hbody, ?_⟩
    rw [hpath, place_concat, hlocate hc]
    exact hr.nested hin

/-- A new element is an empty one that is then filled. -/
theorem fills_element {view later : View} {step : Address} {elements : List Entries} {inner : Entries}
    (hr : Rewrites view later step (Value.tables elements).seen (Value.tables (elements ++ [inner])).seen) :
    Rewrites (Function.update view step (some (.elements (elements.length + 1)))) later
      (step ++ [.item elements.length]) (Entries.seen []) inner.seen := by
  refine Rewrites.nested ?_ (.newest elements [] inner)
  constructor
  · intro address
    cases address with
    | nil => simp [Value.seen_tables_nil]
    | cons first rest =>
      rw [Function.update_of_ne (by simp), hr.before]
      cases first with
      | key => rfl
      | item index =>
        rw [Value.seen_tables_item, Value.seen_tables_item, List.getElem?_append]
        split
        · rfl
        · next hle => rw [List.getElem?_eq_none (Nat.not_lt.1 hle)]; grind [Entries.seen_empty]
  · exact hr.after
  · intro address hnot
    have hne : address ≠ step := by
      rintro rfl
      exact hnot List.prefix_rfl
    rw [Function.update_of_ne hne, hr.others address hnot]

theorem addSection_agrees {sec : Section} (h : addSection sec es = some es')
    (hv : ∀ a ∈ sec.assignments, a.value.seen.Written) (ha : Agrees arrays bound [] es.seen) :
    Agrees (sec.header.arrays arrays)
      (bound ++ bindingsOf (sec.header.arrays arrays) (sec.header.table arrays) sec.assignments) [] es'.seen := by
  cases he : sec.header.element with
  | false =>
    have htable : sec.header.table arrays = place arrays [] sec.header.path := by simp [Header.table, he]
    have harrays : sec.header.arrays arrays = arrays := by simp [Header.arrays, he]
    obtain ⟨inner, inner', hbody, hr⟩ := addSection_of_table h he ha.counts
    rw [htable, harrays]
    exact ha.rewrite hr (assignAll_agrees hbody hv (ha.below hr.before)) fun _ => prefix_of_mem_bindingsOf
  | true =>
    have harrays : sec.header.arrays arrays = place arrays [] sec.header.path :: arrays := by simp [Header.arrays, he]
    obtain ⟨elements, inner, hbody, hr⟩ := addSection_of_element h he ha.counts
    have hcount : arrays.count (place arrays [] sec.header.path) = elements.length :=
      ha.counts.count_eq_length (List.append_nil (place arrays [] sec.header.path) ▸ hr.before [])
    have htable : sec.header.table arrays = place arrays [] sec.header.path ++ [.item elements.length] := by
      simp [Header.table, he, hcount]
    have hfills := fills_element hr
    have hgrown := ha.add_element hr.before
    rw [htable, harrays]
    exact hgrown.rewrite hfills (assignAll_agrees hbody hv (hgrown.below hfills.before)) fun _ =>
      prefix_of_mem_bindingsOf

theorem addSections_agrees {sections : List Section} (h : addSections sections es = some es')
    (hv : ∀ sec ∈ sections, ∀ a ∈ sec.assignments, a.value.seen.Written) (ha : Agrees arrays bound [] es.seen) :
    ∃ arrays', Agrees arrays' (bound ++ sectionBindings arrays sections) [] es'.seen := by
  induction sections generalizing arrays bound es with
  | nil =>
    cases h
    exact ⟨arrays, by rwa [sectionBindings, List.append_nil]⟩
  | cons sec r ih =>
    obtain ⟨middle, hsec, hr⟩ := Option.bind_eq_some_iff.1 h
    have hmiddle := addSection_agrees hsec (hv sec (by simp)) ha
    obtain ⟨arrays', hlast⟩ := ih hr (fun other hother => hv other (by simp [hother])) hmiddle
    exact ⟨arrays', by rwa [sectionBindings, ← List.append_assoc]⟩

/-- The table of a document has the scalars that the document binds, and no others. -/
theorem entries?_seen_iff {d : Document} (h : d.entries? = some es) (hd : d.Written) (address : Address) (w : Value) :
    es.seen address = some (.scalar w) ↔ Binds d.bindings address w := by
  obtain ⟨first, hfirst, hrest⟩ := Option.bind_eq_some_iff.1 h
  obtain ⟨arrays, ha⟩ := addSections_agrees hrest hd.sections (assignAll_agrees hfirst hd.assignments .empty)
  exact ha.scalars address w

/-- What a document binds are its own values. -/
theorem Written.of_mem_bindings {d : Document} (hd : d.Written) {b : Binding} (hb : b ∈ d.bindings) :
    b.value.seen.Written := by
  have hof : ∀ {arrays base} {assignments : List Assignment}, (∀ a ∈ assignments, a.value.seen.Written) →
      ∀ b ∈ bindingsOf arrays base assignments, b.value.seen.Written := by
    intro arrays base assignments hall b hb
    obtain ⟨a, ha, rfl⟩ := List.mem_map.1 hb
    exact hall a ha
  have hsections : ∀ {sections : List Section}, (∀ sec ∈ sections, ∀ a ∈ sec.assignments, a.value.seen.Written) →
      ∀ {arrays}, ∀ b ∈ sectionBindings arrays sections, b.value.seen.Written := by
    intro sections hall
    induction sections with
    | nil =>
      intro arrays b hb
      cases hb
    | cons sec r ih =>
      intro arrays b hb
      rcases List.mem_append.1 hb with hb | hb
      · exact hof (hall sec (by simp)) b hb
      · exact ih (fun other hother => hall other (by simp [hother])) b hb
  rcases List.mem_append.1 hb with hb | hb
  · exact hof hd.assignments b hb
  · exact hsections hd.sections b hb

/-- So no other scalars are in the table that it builds. -/
theorem Written.of_seen {d : Document} (hd : d.Written) (h : d.entries? = some es)
    (hw : es.seen address = some (.scalar w)) : (Mark.scalar w).Written := by
  obtain ⟨b, hb, rest, -, hrest⟩ := (entries?_seen_iff h hd address w).1 hw
  exact hd.of_mem_bindings hb rest _ hrest

end Document

end MediaChannels.Toml
