import MediaChannels.SharedMemory

/-!
# Named regions

What a table says about a region that was created and not released: its name still stands for its object, and the object
has the size of the region.

* `Backs.of_create`: so it is after a region was created, whatever the name stood for before.
* `Backs.openRegion`: then everybody can open the region by its name, and gets the same object.
* `Backs.access`, `memory_access`: working on the bytes of the region changes none of this.
-/

namespace MediaChannels

/-- The bytes below a size are kept by a cut to that size. -/
theorem Memory.byte_filter (m : Memory) {size i : Nat} (h : i < size) :
    (Memory.mk (m.cells.filter fun offset _ => offset < size)).byte i = m.byte i := by
  rw [byte, byte, Std.TreeMap.getD_filter', Std.TreeMap.getD_eq_getD_getElem?]
  cases m.cells[i]? with
  | none => rfl
  | some b => simp [Option.filter, h]

namespace SharedMemory

variable {s s' : SharedMemory} {name : String} {number size : Nat} {region : Region} {e : Error}

/-- The table backs a region: its name can be used and stands for its object, which is as large as the region. -/
structure Backs (s : SharedMemory) (region : Region) : Prop where
  name_ok : checkName region.name = .ok ()
  named : s.find? region.name = some (.object region.object)
  object_lt : region.object < s.objects.size
  size_eq : (s.object region.object).size = region.size
  size_pos : 0 < region.size
  size_le : region.size ≤ addressSpace

/-! ## Creating -/

/-- A name is refused for its length or for what is in it. -/
theorem checkName_error (h : checkName name = .error e) :
    e = .nameTooLong maxNameLength (Utf8.encode name).length ∨ e = .invalidName name := by
  simp only [checkName] at h
  split at h
  · cases h
    exact .inl rfl
  split at h
  · cases h
    exact .inr rfl
  · cases h

theorem find?_setName (s : SharedMemory) (name : String) (entry : NameEntry) :
    (s.setName name entry).find? name = some entry := List.lookup_cons_self

/-- The name stands for the object that was opened or made. -/
theorem find?_openOrCreate (h : s.openOrCreate name = (.ok number, s')) : s'.find? name = some (.object number) := by
  unfold openOrCreate at h
  split at h
  · next hfound =>
    cases h
    exact hfound
  · cases h
  · cases h
    exact find?_setName _ _ _

/-- Only a name that stands for something else cannot be opened or made. -/
theorem openOrCreate_error (h : s.openOrCreate name = (.error e, s')) :
    s.find? name = some .blocked ∧ e = .regionNotCreated name .isADirectory ∧ s' = s := by
  unfold openOrCreate at h
  split at h
  · cases h
  · next hfound =>
    cases h
    exact ⟨hfound, rfl, rfl⟩
  · cases h

/-- An object that is given a size keeps its bytes up to that size, and nothing else changes. -/
theorem resize_ok (h : s.resize number size = (.ok (), s')) :
    size < sizeLimit ∧ ∃ o : MemoryObject, o.size = size ∧
      (∀ i < size, o.memory.byte i = (s.object number).memory.byte i) ∧ s' = s.setObject number o := by
  unfold resize at h
  split at h
  · cases h
  next hlimit =>
  cases h
  exact ⟨Nat.lt_of_not_le hlimit, _, rfl, fun i hi => Memory.byte_filter _ hi, rfl⟩

/-- Only a size that no object can have cannot be set. -/
theorem resize_error (h : s.resize number size = (.error e, s')) :
    sizeLimit ≤ size ∧ e = .notResized .invalidArgument ∧ s' = s := by
  unfold resize at h
  split at h
  · next hlimit =>
    cases h
    exact ⟨hlimit, rfl, rfl⟩
  · cases h

/-- Only an object that is empty or too large is not mapped. -/
theorem map_error {owner : Bool} (h : s.map number name owner = (.error e, s')) :
    (∃ cause, e = .notMapped cause) ∧ ((s.object number).size = 0 ∨ addressSpace < (s.object number).size) ∧
      s' = s := by
  unfold map at h
  dsimp only at h
  split at h
  · next hzero =>
    cases h
    exact ⟨⟨_, rfl⟩, .inl hzero, rfl⟩
  split at h
  · next hlarge =>
    cases h
    exact ⟨⟨_, rfl⟩, .inr hlarge, rfl⟩
  · cases h

/-- Only an object that is not empty is mapped, and all of it; so the object exists. -/
theorem eq_of_map {owner : Bool} (h : s.map number name owner = (.ok region, s')) :
    number < s.objects.size ∧ 0 < (s.object number).size ∧ (s.object number).size ≤ addressSpace ∧
      region = { mapping := s.mappings, object := number, size := (s.object number).size, name, owner } ∧
        s' = { s with mappings := s.mappings + 1 } := by
  unfold map at h
  dsimp only at h
  split at h
  · cases h
  split at h
  · cases h
  next hpos hle =>
  cases h
  refine ⟨?_, Nat.pos_of_ne_zero hpos, Nat.le_of_not_lt hle, rfl, rfl⟩
  rcases Nat.lt_or_ge number s.objects.size with hlt | hge
  · exact hlt
  · have hnone : s.object number = default := by
      rw [object, Array.getElem?_eq_none hge]
      rfl
    exact absurd (congrArg MemoryObject.size hnone) hpos

/-- **A created region is backed, and its bytes are zero**, whatever its name stood for before. -/
theorem Backs.of_create (h : s.create name size = (.ok region, s')) :
    s'.Backs region ∧ region.name = name ∧ region.size = size ∧ s'.object region.object = ⟨size, .zeroed⟩ := by
  unfold create at h
  split at h
  · cases h
  next hname =>
  split at h
  · cases h
  next number s₁ hopen =>
  split at h
  · cases h
  next s₂ hresize =>
  split at h
  · cases h
  next region' s₃ hmap =>
  cases h
  have hnamed := find?_openOrCreate hopen
  obtain ⟨hlt, hpos, hle, rfl, rfl⟩ := eq_of_map hmap
  obtain ⟨-, o, rfl, -, rfl⟩ := resize_ok hresize
  have hlt₁ : number < s₁.objects.size := by simpa [setObject] using hlt
  rw [object_setObject_self _ _ hlt₁] at hpos hle ⊢
  have hobject : (({ s₁.setObject number o with mappings := (s₁.setObject number o).mappings + 1 } :
      SharedMemory).setObject number ⟨o.size, .zeroed⟩).object number = ⟨o.size, .zeroed⟩ :=
    object_setObject_self _ _ hlt
  have hsize := congrArg MemoryObject.size hobject
  exact ⟨⟨hname, hnamed, by simpa [setObject] using hlt₁, hsize, hpos, hle⟩, rfl, rfl, hobject⟩

/-- Creating succeeds if the name can be used, leads to an object or nowhere, and the region finds room. -/
theorem exists_create (hname : checkName name = .ok ()) (hpos : 0 < size) (hle : size ≤ addressSpace)
    (hfree : s.find? name = none ∨ ∃ number < s.objects.size, s.find? name = some (.object number)) :
    ∃ region s', s.create name size = (.ok region, s') := by
  have hopen : ∃ number s₁, s.openOrCreate name = (.ok number, s₁) ∧ number < s₁.objects.size := by
    rcases hfree with hnone | ⟨number, hlt, hfound⟩
    · refine ⟨s.objects.size, _, by simp only [openOrCreate, hnone]; rfl, ?_⟩
      simp [setName, addObject]
    · exact ⟨number, s, by simp only [openOrCreate, hfound], hlt⟩
  obtain ⟨number, s₁, hopen, hlt⟩ := hopen
  have hlimit : ¬sizeLimit ≤ size := Nat.not_le.2 (Nat.lt_of_le_of_lt hle (by decide))
  have hobject (o : MemoryObject) : (s₁.setObject number o).object number = o := object_setObject_self _ _ hlt
  simp only [create, hname, hopen, resize, hlimit, if_false, map, hobject, Nat.ne_of_gt hpos, Nat.not_lt.2 hle]
  exact ⟨_, _, rfl⟩

/-! ## Opening -/

/-- **A region that is backed can be opened by its name**, and leads to the same object. -/
theorem Backs.openRegion (h : s.Backs region) :
    s.openRegion region.name = (.ok { region with mapping := s.mappings, owner := false },
      { s with mappings := s.mappings + 1 }) := by
  have hpos := h.size_pos
  have hle := h.size_le
  simp only [SharedMemory.openRegion, h.name_ok, h.named, map, h.size_eq, Nat.ne_of_gt hpos, Nat.not_lt.2 hle,
    if_false]

/-- A region that was opened is a mapping of an object as it is. -/
theorem eq_of_openRegion (h : s.openRegion name = (.ok region, s')) :
    (s.object region.object).size = region.size ∧ s'.objects = s.objects := by
  unfold openRegion at h
  split at h
  · cases h
  split at h
  · cases h
  · cases h
  split at h
  · cases h
  obtain ⟨-, -, -, rfl, rfl⟩ := eq_of_map h
  exact ⟨rfl, rfl⟩

/-- Another mapping changes nothing. -/
theorem Backs.mapped (h : s.Backs region) (mappings : Nat) : ({ s with mappings } : SharedMemory).Backs region :=
  ⟨h.name_ok, h.named, h.object_lt, h.size_eq, h.size_pos, h.size_le⟩

/-! ## Working on the bytes -/

theorem Backs.access {α : Type} (h : s.Backs region) (p : Access α) : (s.access region.object p).2.Backs region := by
  have hobject : (s.access region.object p).2.object region.object = _ := object_setObject_self _ _ h.object_lt
  exact ⟨h.name_ok, h.named, by simpa [SharedMemory.access, setObject] using h.object_lt,
    (congrArg MemoryObject.size hobject).trans h.size_eq, h.size_pos, h.size_le⟩

/-- A program runs on the bytes of the object. -/
theorem Backs.memory_access {α : Type} (h : s.Backs region) (p : Access α) :
    ((s.access region.object p).2.object region.object).memory = (p.run (s.object region.object).memory).2 :=
  congrArg MemoryObject.memory (object_setObject_self _ _ h.object_lt)

end SharedMemory

end MediaChannels
