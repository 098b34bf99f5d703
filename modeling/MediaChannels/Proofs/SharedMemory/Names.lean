import MediaChannels.Proofs.SharedMemory

/-!
# What names lead to

Creating a region, opening one and releasing one concern a single name and the object that it leads to. Here stands what
each of them leaves alone, and every way in which a creation can end.

* `Regular`: no two names lead to one object. Every operation keeps this.
* `Creation`, `creation`: what a creation answers and what it leaves behind.
* `Backs.touched`, `Backs.release`: a region stays backed while other names are created and released.
* `Shut`, `Shut.openRegion`: names that cannot be opened.
-/

namespace MediaChannels

namespace SharedMemory

variable {s s' t : SharedMemory} {name other : String} {number size : Nat} {region : Region}

/-! ## The table -/

theorem find?_unname_self (s : SharedMemory) (name : String) : (s.unname name).find? name = none := by
  show (s.names.filter (·.1 != name)).lookup name = none
  induction s.names with
  | nil => rfl
  | cons entry names ih =>
    by_cases h : entry.1 = name
    · simpa [h] using ih
    · rw [List.filter_cons_of_pos (by simpa using h), List.lookup_cons, ih, beq_eq_false_iff_ne.2 (Ne.symm h)]

theorem find?_unname_of_ne (s : SharedMemory) (h : other ≠ name) : (s.unname name).find? other = s.find? other := by
  show (s.names.filter (·.1 != name)).lookup other = s.names.lookup other
  induction s.names with
  | nil => rfl
  | cons entry names ih =>
    by_cases hentry : entry.1 = name
    · rw [List.filter_cons_of_neg (by simpa using hentry), ih, List.lookup_cons, hentry, beq_eq_false_iff_ne.2 h]
    · rw [List.filter_cons_of_pos (by simpa using hentry), List.lookup_cons, ih, List.lookup_cons]

theorem find?_setName_of_ne (s : SharedMemory) (h : other ≠ name) (entry : NameEntry) :
    (s.setName name entry).find? other = s.find? other := by
  show ((name, entry) :: (s.unname name).names).lookup other = s.find? other
  rw [List.lookup_cons, beq_eq_false_iff_ne.2 h]
  exact find?_unname_of_ne s h

@[simp] theorem find?_setObject (s : SharedMemory) (number : Nat) (o : MemoryObject) :
    (s.setObject number o).find? name = s.find? name := rfl

@[simp] theorem size_setObject (s : SharedMemory) (number : Nat) (o : MemoryObject) :
    (s.setObject number o).objects.size = s.objects.size := by simp [setObject]

/-- Replacing an object by itself changes nothing. -/
theorem setObject_object (s : SharedMemory) (number : Nat) : s.setObject number (s.object number) = s := by
  have hsame : s.objects.setIfInBounds number (s.object number) = s.objects := by
    apply Array.ext_getElem?
    intro i
    rw [Array.getElem?_setIfInBounds]
    split
    · next hi =>
      subst hi
      split
      · next hlt => rw [object, Array.getElem?_eq_getElem hlt, Option.getD_some]
      · next hge => rw [Array.getElem?_eq_none (Nat.le_of_not_lt hge)]
    · rfl
  rw [setObject, hsame]

/-- A program that only reads changes nothing. -/
theorem access_of_read {α : Type} {p : Access α} (h : (p.run (s.object number).memory).2 = (s.object number).memory) :
    (s.access number p).2 = s := by
  simp only [access, h]
  exact setObject_object s number

/-- No two names lead to one object, and all lead to objects that exist. -/
structure Regular (s : SharedMemory) : Prop where
  object_lt : ∀ {name number}, s.find? name = some (.object number) → number < s.objects.size
  name_unique : ∀ {name other number}, s.find? name = some (.object number) → s.find? other = some (.object number) →
    name = other

theorem regular_empty : empty.Regular := ⟨nofun, nofun⟩

/-- What names lead to matters, and how many objects there are. -/
theorem Regular.congr (h : s.Regular) (hfind : ∀ name, t.find? name = s.find? name)
    (hsize : t.objects.size = s.objects.size) : t.Regular := by
  constructor
  · intro name number hname
    rw [hsize]
    exact h.object_lt (hfind name ▸ hname)
  · intro name other number hname hother
    exact h.name_unique (hfind name ▸ hname) (hfind other ▸ hother)

/-! ## Creating -/

/-- A name leads to an object now, as it did before or because it is new; other names and objects are as they were. -/
structure Touches (s : SharedMemory) (name : String) (number : Nat) (s' : SharedMemory) : Prop where
  named : s'.find? name = some (.object number)
  others : ∀ other, other ≠ name → s'.find? other = s.find? other
  objects : ∀ other, other ≠ number → s'.object other = s.object other
  object_lt : number < s'.objects.size
  size_le : s.objects.size ≤ s'.objects.size
  origin : s.find? name = some (.object number) ∨ s.find? name = none ∧ number = s.objects.size

/-- A name and its object are opened, and the object is as it was; a new one is empty. -/
theorem touches_openOrCreate (hs : ∀ number, s.find? name = some (.object number) → number < s.objects.size)
    (hopen : s.openOrCreate name = (.ok number, s')) :
    s.Touches name number s' ∧ s'.object number = s.object number ∧ s'.mappings = s.mappings := by
  unfold openOrCreate at hopen
  split at hopen
  · next hfound =>
    cases hopen
    exact ⟨⟨hfound, fun _ _ => rfl, fun _ _ => rfl, hs _ hfound, Nat.le_refl _, .inl hfound⟩, rfl, rfl⟩
  · cases hopen
  next hnone =>
  cases hopen
  have hobject (other : Nat) : (((s.addObject default).2.setName name (.object s.objects.size)).object other) =
      s.object other := by
    simp only [object, setName, unname, addObject, Array.getElem?_push]
    split
    · next hother => rw [hother, Array.getElem?_eq_none (Nat.le_refl _), Option.getD_some, Option.getD_none]
    · rfl
  refine ⟨⟨find?_setName _ _ _, ?_, fun other _ => hobject other, ?_, ?_, .inr ⟨hnone, rfl⟩⟩, hobject _, rfl⟩
  · intro other hother
    exact find?_setName_of_ne _ hother _
  · simp [setName, unname]
  · simp [setName, unname]

theorem Regular.openOrCreate (h : s.Regular) (hopen : s.openOrCreate name = (.ok number, s')) :
    s.Touches name number s' ∧ s'.object number = s.object number ∧ s'.mappings = s.mappings :=
  touches_openOrCreate (fun _ => h.object_lt) hopen

namespace Touches

theorem setObject (h : s.Touches name number s') (o : MemoryObject) :
    s.Touches name number (s'.setObject number o) := by
  refine ⟨h.named, h.others, ?_, ?_, ?_, h.origin⟩
  · intro other hother
    rw [object_setObject_of_ne _ _ (Ne.symm hother), h.objects other hother]
  · rw [size_setObject]
    exact h.object_lt
  · rw [size_setObject]
    exact h.size_le

theorem mapped (h : s.Touches name number s') (mappings : Nat) :
    s.Touches name number { s' with mappings } :=
  ⟨h.named, h.others, h.objects, h.object_lt, h.size_le, h.origin⟩

/-- The object is new, or only this name led to it. -/
theorem name_eq (h : s.Touches name number s') (hs : s.Regular) (hother : s.find? other = some (.object number)) :
    other = name := by
  rcases h.origin with hnamed | ⟨-, hnew⟩
  · exact hs.name_unique hother hnamed
  · exact absurd (hs.object_lt hother) (by omega)

theorem regular (h : s.Touches name number s') (hs : s.Regular) : s'.Regular := by
  -- What a name leads to now, the name at hand apart, it led to before.
  have hold {other : String} {o : Nat} (ho : s'.find? other = some (.object o)) :
      other = name ∧ o = number ∨ other ≠ name ∧ s.find? other = some (.object o) := by
    by_cases hother : other = name
    · subst hother
      rw [h.named] at ho
      cases ho
      exact .inl ⟨rfl, rfl⟩
    · exact .inr ⟨hother, h.others other hother ▸ ho⟩
  constructor
  · intro other o ho
    rcases hold ho with ⟨-, rfl⟩ | ⟨-, ho⟩
    · exact h.object_lt
    · exact Nat.lt_of_lt_of_le (hs.object_lt ho) h.size_le
  · intro first second o hfirst hsecond
    rcases hold hfirst with ⟨rfl, rfl⟩ | ⟨hne₁, h₁⟩ <;> rcases hold hsecond with ⟨rfl, h₂⟩ | ⟨hne₂, h₂⟩
    · rfl
    · exact absurd (h.name_eq hs h₂) hne₂
    · exact absurd (h.name_eq hs (h₂ ▸ h₁)) hne₁
    · exact hs.name_unique h₁ h₂

end Touches

/-- How a creation can end: the name is no good, the size is one that no object can have, one that cannot be mapped, or
there is a region. -/
inductive Creation (s : SharedMemory) (name : String) (size : Nat) : Except Error Region → SharedMemory → Prop where
  | refused {e : Error} (hcause : ∀ cause, e ≠ .notMapped cause) : Creation s name size (.error e) s
  | notResized {number : Nat} {s' : SharedMemory} (h : s.Touches name number s')
      (hobject : s'.object number = s.object number) (hmappings : s'.mappings = s.mappings) :
      Creation s name size (.error (.notResized .invalidArgument)) s'
  | notMapped {number : Nat} {s' : SharedMemory} {cause : SystemError} (h : s.Touches name number s')
      (hsize : (s'.object number).size = size) (hroom : size = 0 ∨ addressSpace < size)
      (hmappings : s'.mappings = s.mappings) : Creation s name size (.error (.notMapped cause)) s'
  | made {number : Nat} {s' : SharedMemory} (hname : checkName name = .ok ()) (h : s.Touches name number s')
      (hobject : s'.object number = ⟨size, .zeroed⟩) (hpos : 0 < size) (hle : size ≤ addressSpace)
      (hmappings : s'.mappings = s.mappings + 1) :
      Creation s name size (.ok { mapping := s.mappings, object := number, size, name, owner := true }) s'

theorem checkName_ne_notMapped {e : Error} (h : checkName name = .error e) (cause : SystemError) :
    e ≠ .notMapped cause := by
  rintro rfl
  rcases checkName_error h with h | h <;> cases h

/-- **Every creation ends in one of these ways.** -/
theorem Regular.creation {outcome : Except Error Region} (hs : s.Regular) (h : s.create name size = (outcome, s')) :
    Creation s name size outcome s' := by
  unfold create at h
  split at h
  · next hname =>
    cases h
    exact .refused (checkName_ne_notMapped hname)
  next hname =>
  split at h
  · next hopen =>
    cases h
    obtain ⟨-, rfl, rfl⟩ := openOrCreate_error hopen
    exact .refused nofun
  next number s₁ hopen =>
  obtain ⟨htouches, hkept, hmappings⟩ := hs.openOrCreate hopen
  split at h
  · next hresize =>
    cases h
    obtain ⟨-, rfl, rfl⟩ := resize_error hresize
    exact .notResized htouches hkept hmappings
  next s₂ hresize =>
  obtain ⟨-, o, rfl, -, rfl⟩ := resize_ok hresize
  have hresized := htouches.setObject o
  have hobject : (s₁.setObject number o).object number = o := object_setObject_self _ _ htouches.object_lt
  split at h
  · next hmap =>
    cases h
    obtain ⟨⟨cause, rfl⟩, hroom, rfl⟩ := map_error hmap
    rw [hobject] at hroom
    exact .notMapped hresized (by rw [hobject]) hroom hmappings
  next region s₃ hmap =>
  cases h
  obtain ⟨-, hpos, hle, hregion, rfl⟩ := eq_of_map hmap
  rw [hobject] at hpos hle hregion
  rw [show (s₁.setObject number o).mappings = s.mappings from hmappings] at hregion
  subst hregion
  have hmade := (hresized.mapped ((s₁.setObject number o).mappings + 1)).setObject ⟨o.size, .zeroed⟩
  exact .made hname hmade (object_setObject_self _ _ (hresized.mapped _).object_lt) hpos hle
    (congrArg (· + 1) hmappings)

theorem Regular.create {outcome : Except Error Region} (hs : s.Regular) (h : s.create name size = (outcome, s')) :
    s'.Regular := by
  cases hs.creation h with
  | refused => exact hs
  | notResized h => exact h.regular hs
  | notMapped h => exact h.regular hs
  | made _ h => exact h.regular hs

/-! ## Opening and releasing -/

/-- Opening a region makes a mapping, if anything. -/
theorem openRegion_snd (s : SharedMemory) (name : String) :
    ∃ mappings, (s.openRegion name).2 = { s with mappings } := by
  unfold openRegion
  split
  · exact ⟨_, rfl⟩
  split
  · exact ⟨_, rfl⟩
  · exact ⟨_, rfl⟩
  split
  · exact ⟨_, rfl⟩
  unfold map
  dsimp only
  split
  · exact ⟨_, rfl⟩
  split
  · exact ⟨_, rfl⟩
  · exact ⟨_, rfl⟩

/-- Who opens a region gets what the name leads to, and does not own it. -/
theorem of_openRegion (h : s.openRegion name = (.ok region, s')) :
    s.find? name = some (.object region.object) ∧ region.owner = false := by
  unfold openRegion at h
  split at h
  · cases h
  split at h
  · cases h
  · cases h
  next hnamed =>
  split at h
  · cases h
  obtain ⟨-, -, -, rfl, -⟩ := eq_of_map h
  exact ⟨hnamed, rfl⟩

theorem find?_unlink_of_ne (s : SharedMemory) (h : other ≠ name) : (s.unlink name).find? other = s.find? other := by
  unfold unlink
  split
  · exact find?_unname_of_ne s h
  · rfl

/-- A name that has been removed leads to no object. -/
theorem find?_unlink_self (s : SharedMemory) (name : String) (number : Nat) :
    (s.unlink name).find? name ≠ some (.object number) := by
  unfold unlink
  split
  · rw [find?_unname_self]
    exact nofun
  · next hother => exact hother number

@[simp] theorem objects_unlink (s : SharedMemory) (name : String) : (s.unlink name).objects = s.objects := by
  unfold unlink
  split <;> rfl

/-- Only the name of an owner changes. -/
theorem find?_release (s : SharedMemory) (h : region.owner = false ∨ other ≠ region.name) :
    (s.release region).find? other = s.find? other := by
  unfold release
  split
  · next howner =>
    refine find?_unlink_of_ne s (h.resolve_left ?_)
    rw [howner]
    exact Bool.noConfusion
  · rfl

@[simp] theorem objects_release (s : SharedMemory) (region : Region) : (s.release region).objects = s.objects := by
  unfold release
  split
  · exact objects_unlink s _
  · rfl

@[simp] theorem object_release (s : SharedMemory) (region : Region) :
    (s.release region).object number = s.object number := by
  rw [object, objects_release, object]

/-- A name that leads to an object after a release did so before, and is not that of an owner that was released. -/
theorem find?_of_release (h : (s.release region).find? other = some (.object number)) :
    s.find? other = some (.object number) ∧ (region.owner = true → other ≠ region.name) := by
  by_cases hname : region.owner = true ∧ other = region.name
  · obtain ⟨howner, rfl⟩ := hname
    rw [release, if_pos howner] at h
    exact (find?_unlink_self s _ _ h).elim
  · rw [find?_release s (by simpa [Classical.or_iff_not_imp_left] using hname)] at h
    exact ⟨h, fun howner hother => hname ⟨howner, hother⟩⟩

theorem Regular.release (hs : s.Regular) (region : Region) : (s.release region).Regular := by
  constructor
  · intro name number h
    rw [objects_release]
    exact hs.object_lt (find?_of_release h).1
  · intro name other number h hother
    exact hs.name_unique (find?_of_release h).1 (find?_of_release hother).1

/-! ## Regions that are backed -/

/-- What is backed depends on the entry of the name, and on the size of the object. -/
theorem Backs.congr (h : s.Backs region) (hfind : t.find? region.name = s.find? region.name)
    (hobject : t.object region.object = s.object region.object) (hsize : s.objects.size ≤ t.objects.size) :
    t.Backs region :=
  ⟨h.name_ok, hfind.trans h.named, Nat.lt_of_lt_of_le h.object_lt hsize, hobject ▸ h.size_eq, h.size_pos, h.size_le⟩

/-- **A region stays backed while something is created under another name.** -/
theorem Backs.touched (h : s.Backs region) (hs : s.Regular) (htouches : s.Touches name number s')
    (hname : region.name ≠ name) : s'.Backs region := by
  have hobject : region.object ≠ number := by
    rintro rfl
    exact hname (htouches.name_eq hs h.named)
  exact h.congr (htouches.others _ hname) (htouches.objects _ hobject) htouches.size_le

/-- A region stays backed while a creation leaves the object of its name alone. -/
theorem Backs.kept (h : s.Backs region) (hs : s.Regular) (htouches : s.Touches name number s')
    (hkept : s'.object number = s.object number) : s'.Backs region := by
  by_cases hname : region.name = name
  · subst hname
    have hnumber : number = region.object := by
      rcases htouches.origin with hold | ⟨hnone, -⟩
      · rw [h.named] at hold
        cases hold
        rfl
      · rw [h.named] at hnone
        cases hnone
    subst hnumber
    exact h.congr (htouches.named.trans h.named.symm) hkept htouches.size_le
  · exact h.touched hs htouches hname

/-- **A region stays backed while others are released**, except owners of its name. -/
theorem Backs.release (h : s.Backs region) {released : Region}
    (hother : released.owner = false ∨ region.name ≠ released.name) : (s.release released).Backs region :=
  h.congr (find?_release s hother) (object_release s released) (by simp)

/-! ## Names that cannot be opened -/

/-- A name leads nowhere, or to an object that cannot be mapped. -/
def Shut (s : SharedMemory) (name : String) : Prop :=
  ∀ number, s.find? name = some (.object number) →
    (s.object number).size = 0 ∨ addressSpace < (s.object number).size

theorem Shut.openRegion (h : s.Shut name) : ∃ e, s.openRegion name = (.error e, s) := by
  unfold SharedMemory.openRegion
  split
  · exact ⟨_, rfl⟩
  split
  · exact ⟨_, rfl⟩
  · exact ⟨_, rfl⟩
  next number hnamed =>
  split
  · exact ⟨_, rfl⟩
  next hpos =>
  have hlarge := (h number hnamed).resolve_left hpos
  exact ⟨.notMapped .outOfMemory, by simp only [map, hpos, hlarge, if_true, if_false]⟩

/-- A name that leads to the same entry and the same object is shut as before. -/
theorem Shut.congr (h : s.Shut name) (hfind : t.find? name = s.find? name)
    (hobject : ∀ number, s.find? name = some (.object number) → t.object number = s.object number) : t.Shut name := by
  intro number hnumber
  rw [hfind] at hnumber
  rw [hobject number hnumber]
  exact h number hnumber

theorem Shut.touched (h : s.Shut other) (hs : s.Regular) (htouches : s.Touches name number s') (hother : other ≠ name) :
    s'.Shut other := by
  refine h.congr (htouches.others _ hother) fun o ho => htouches.objects o ?_
  rintro rfl
  exact hother (htouches.name_eq hs ho)

/-- A new object is empty. -/
theorem Shut.kept (h : s.Shut other) (hs : s.Regular) (htouches : s.Touches name number s')
    (hkept : s'.object number = s.object number) : s'.Shut other := by
  by_cases hother : other = name
  · subst hother
    intro o ho
    rw [htouches.named] at ho
    cases ho
    rw [hkept]
    rcases htouches.origin with hold | ⟨-, rfl⟩
    · exact h number hold
    · left
      rw [object, Array.getElem?_eq_none (Nat.le_refl _)]
      rfl
  · exact h.touched hs htouches hother

theorem Touches.shut (h : s.Touches name number s')
    (hroom : (s'.object number).size = 0 ∨ addressSpace < (s'.object number).size) : s'.Shut name := by
  intro o ho
  rw [h.named] at ho
  cases ho
  exact hroom

/-- The name of an owner is shut when the owner is released. -/
theorem shut_release (howner : region.owner = true) : (s.release region).Shut region.name := by
  intro number hnumber
  exact ((find?_of_release hnumber).2 howner rfl).elim

theorem Shut.release (h : s.Shut name) (region : Region) : (s.release region).Shut name := by
  intro number hnumber
  rw [object_release]
  exact h number (find?_of_release hnumber).1

end SharedMemory

end MediaChannels
