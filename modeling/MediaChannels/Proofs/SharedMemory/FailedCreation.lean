import MediaChannels.Proofs.SharedMemory.Names

/-!
# What a failed creation leaves behind

Creating a region makes its name if it is new, sets the size of its object and maps it. When a later step fails, nobody
takes back what the earlier ones did.

* `CreationFails`: every way in which a creation fails, and the table that it leaves.
* `Unchanged`: two tables with the same names, and objects of the same sizes and bytes.
* `failed_create`: a failed creation leaves the table unchanged if and only if it fails before there is anything to take
  back, or the object has the size already (`Spares`); else it leaves a new name, or an object of another size.
* `failed_create_changes`: so it is that a region in use can lose its bytes.
-/

namespace MediaChannels

/-- The size and the bytes of one object are those of another. -/
structure MemoryObject.Same (o o' : MemoryObject) : Prop where
  size_eq : o'.size = o.size
  byte_eq : ∀ i < o.size, o'.memory.byte i = o.memory.byte i

theorem MemoryObject.Same.refl (o : MemoryObject) : o.Same o := ⟨rfl, fun _ _ => rfl⟩

namespace SharedMemory

variable {s s' : SharedMemory} {name : String} {number size : Nat} {e : Error}

/-- A later table has the names of an earlier one, and its objects as they were. -/
structure Unchanged (s s' : SharedMemory) : Prop where
  names : ∀ name, s'.find? name = s.find? name
  objects : ∀ number < s.objects.size, (s.object number).Same (s'.object number)

theorem Unchanged.refl (s : SharedMemory) : s.Unchanged s := ⟨fun _ => rfl, fun _ _ => .refl _⟩

/-- Every way in which a creation fails: the name cannot be used or made, its object cannot be given the size, or the
object that was given the size cannot be mapped. -/
inductive CreationFails (s : SharedMemory) (name : String) (size : Nat) : Error → SharedMemory → Prop where
  | name {e : Error} (h : checkName name = .error e) : CreationFails s name size e s
  | blocked (hname : checkName name = .ok ()) (h : s.find? name = some .blocked) :
    CreationFails s name size (.regionNotCreated name .isADirectory) s
  | notResized {number : Nat} {s' : SharedMemory} (hname : checkName name = .ok ())
    (hopen : s.openOrCreate name = (.ok number, s')) (hsize : sizeLimit ≤ size) :
    CreationFails s name size (.notResized .invalidArgument) s'
  | notMapped {number : Nat} {s₁ s' : SharedMemory} {cause : SystemError} (hname : checkName name = .ok ())
    (hopen : s.openOrCreate name = (.ok number, s₁)) (hresize : s₁.resize number size = (.ok (), s'))
    (hmap : s'.map number name true = (.error (.notMapped cause), s')) :
    CreationFails s name size (.notMapped cause) s'

/-- **A creation fails in one of these ways.** -/
theorem creationFails_of_create (h : s.create name size = (.error e, s')) : CreationFails s name size e s' := by
  unfold create at h
  split at h
  · next hname =>
    cases h
    exact .name hname
  next hname =>
  split at h
  · next hopen =>
    cases h
    obtain ⟨hblocked, rfl, rfl⟩ := openOrCreate_error hopen
    exact .blocked hname hblocked
  next hopen =>
  split at h
  · next hresize =>
    cases h
    obtain ⟨hsize, rfl, rfl⟩ := resize_error hresize
    exact .notResized hname hopen hsize
  next hresize =>
  split at h
  · next hmap =>
    cases h
    obtain ⟨⟨cause, rfl⟩, -, rfl⟩ := map_error hmap
    exact .notMapped hname hopen hresize hmap
  · cases h

/-- A failed creation has nothing to take back: the name cannot be used or made, or its object has the size already or
cannot be given it. -/
inductive Spares (s : SharedMemory) (name : String) (size : Nat) : Prop where
  | refused {e : Error} (h : checkName name = .error e)
  | blocked (h : s.find? name = some .blocked)
  | kept {number : Nat} (h : s.find? name = some (.object number))
    (hsize : sizeLimit ≤ size ∨ (s.object number).size = size)

/-- What a failed creation leaves behind otherwise: its name, made or not, leads to an object that has the size now, or
is empty still because no object can have the size; only bytes up to the size are left of those that it had. -/
structure LeftBehind (s : SharedMemory) (name : String) (size number : Nat) (s' : SharedMemory) : Prop where
  touches : s.Touches name number s'
  size_eq : (s'.object number).size = if sizeLimit ≤ size then 0 else size
  byte_eq : ∀ i < (s.object number).size, i < size →
    (s'.object number).memory.byte i = (s.object number).memory.byte i

/-- Nothing has changed if the name led to its object before and the object is the same still, and only then. -/
theorem Touches.unchanged_iff (hs : ∀ number, s.find? name = some (.object number) → number < s.objects.size)
    (h : s.Touches name number s') :
    s.Unchanged s' ↔ s.find? name = some (.object number) ∧ (s.object number).Same (s'.object number) := by
  constructor
  · intro hsame
    have hnamed : s.find? name = some (.object number) := (hsame.names name).symm.trans h.named
    exact ⟨hnamed, hsame.objects number (hs number hnamed)⟩
  · rintro ⟨hnamed, hsame⟩
    constructor
    · intro other
      by_cases hother : other = name
      · rw [hother, h.named, hnamed]
      · exact h.others other hother
    · intro other _
      by_cases hother : other = number
      · exact hother ▸ hsame
      · rw [h.objects other hother]
        exact .refl _

/-- A name that can be used and made is spared if its object keeps its size. -/
theorem spares_iff (hname : checkName name = .ok ()) (h : s.Touches name number s') :
    s.Spares name size ↔
      s.find? name = some (.object number) ∧ (sizeLimit ≤ size ∨ (s.object number).size = size) := by
  constructor
  · rintro (hrefused | hblocked | ⟨hfound, hsize⟩)
    · rw [hname] at hrefused
      cases hrefused
    · rcases h.origin with hold | ⟨hnone, -⟩
      · rw [hold] at hblocked
        cases hblocked
      · rw [hnone] at hblocked
        cases hblocked
    · rcases h.origin with hold | ⟨hnone, -⟩
      · rw [hold] at hfound
        cases hfound
        exact ⟨hold, hsize⟩
      · rw [hnone] at hfound
        cases hfound
  · rintro ⟨hfound, hsize⟩
    exact .kept hfound hsize

/-- **A failed creation leaves the table unchanged if and only if it has nothing to take back.** Otherwise nothing is
taken back: the name leads to an object of the size that it was given, and no other name or object has changed. -/
theorem failed_create (hs : ∀ number, s.find? name = some (.object number) → number < s.objects.size)
    (h : s.create name size = (.error e, s')) :
    (s.Unchanged s' ↔ s.Spares name size) ∧ (¬s.Spares name size → ∃ number, s.LeftBehind name size number s') := by
  cases creationFails_of_create h with
  | name hname =>
    have hspares : s.Spares name size := .refused hname
    exact ⟨iff_of_true (.refl s) hspares, fun hnot => absurd hspares hnot⟩
  | blocked _ hblocked =>
    have hspares : s.Spares name size := .blocked hblocked
    exact ⟨iff_of_true (.refl s) hspares, fun hnot => absurd hspares hnot⟩
  | @notResized number _ hname hopen hsize =>
    obtain ⟨htouches, hkept, -⟩ := touches_openOrCreate hs hopen
    have hspares : s.Spares name size ↔ _ := spares_iff hname htouches
    refine ⟨?_, fun hnot => ⟨number, htouches, ?_, fun _ _ _ => by rw [hkept]⟩⟩
    · rw [htouches.unchanged_iff hs, hspares, hkept]
      exact and_congr_right fun _ => iff_of_true (.refl _) (.inl hsize)
    · -- The object is new, so it is empty.
      rcases htouches.origin with hold | ⟨-, rfl⟩
      · exact absurd (hspares.2 ⟨hold, .inl hsize⟩) hnot
      · rw [if_pos hsize, hkept, object, Array.getElem?_eq_none (Nat.le_refl _)]
        rfl
  | @notMapped number _ _ _ hname hopen hresize _ =>
    obtain ⟨hopened, hkept, -⟩ := touches_openOrCreate hs hopen
    obtain ⟨hlimit, o, rfl, hbytes, rfl⟩ := resize_ok hresize
    have htouches := hopened.setObject o
    have hobject := object_setObject_self _ o hopened.object_lt
    rw [hkept] at hbytes
    refine ⟨?_, fun _ => ⟨number, htouches, ?_, fun i _ hi => ?_⟩⟩
    · -- Once the size is set, only an object that had it before is the same.
      rw [htouches.unchanged_iff hs, spares_iff hname htouches, or_iff_right (Nat.not_le.2 hlimit), hobject]
      refine and_congr_right fun _ => ⟨fun hsame => hsame.size_eq.symm, fun hold => ?_⟩
      exact ⟨hold.symm, fun i hi => hbytes i (hold ▸ hi)⟩
    · rw [if_neg (Nat.not_le.2 hlimit), hobject]
    · rw [hobject]
      exact hbytes i hi

/-- So a new name is left behind by a creation of no bytes. -/
theorem failed_create_new_name :
    ∃ s' number, create .empty "lamp" 0 = (.error (.notMapped .invalidArgument), s') ∧ ¬Unchanged .empty s' ∧
      s'.find? "lamp" = some (.object number) := by
  obtain ⟨s', h⟩ : ∃ s', create .empty "lamp" 0 = (.error (.notMapped .invalidArgument), s') := ⟨_, rfl⟩
  obtain ⟨hiff, hleft⟩ := failed_create (fun number hnumber => by cases hnumber) h
  have hnot : ¬empty.Spares "lamp" 0 := by
    rintro (hname | hfound | ⟨hfound, -⟩)
    · cases hname
    · cases hfound
    · cases hfound
  obtain ⟨number, hleft⟩ := hleft hnot
  exact ⟨s', number, h, fun hsame => hnot (hiff.1 hsame), hleft.touches.named⟩

/-- **A failed creation can change something**: here a region in use loses all of its bytes. -/
theorem failed_create_changes :
    ¬∀ (s : SharedMemory) (name : String) (size : Nat) (e : Error) (s' : SharedMemory),
      s.Regular → s.create name size = (.error e, s') → s.Unchanged s' := by
  intro hall
  -- The region is the first, so its object has the number zero.
  have hcreated : create .empty "desk" 64 = (.ok ⟨0, 0, 64, "desk", true⟩, (create .empty "desk" 64).2) := rfl
  have hsame := hall _ "desk" 0 (.notMapped .invalidArgument) ((create .empty "desk" 64).2.create "desk" 0).2
    (regular_empty.create hcreated) rfl
  exact absurd (hsame.objects 0 (by decide)).size_eq (by decide)

end SharedMemory

end MediaChannels
