import Mathlib
import MediaChannels.Config.Reader
import MediaChannels.Proofs.Segment.Created
import MediaChannels.Proofs.SharedMemory.FailedCreation

/-!
# The segment of a configured host

A host creates the segment that its configuration names, with the sizes that it gives. Both are checked twice: when the
configuration is read, and when the segment is created. The sizes are held to the same limits both times; of the name,
reading a configuration asks only that there be one.

* `Error.FromSystem`, `Segment.create_error_cases`: with valid sizes, creating a segment fails for its name, or with
  what the system answers.
* `HostConfig.create_of_ofText`: so the segment is made or the system refuses it, unless the name cannot be used.
* `HostConfig.create_refuses_accepted`: a configuration can be accepted whose name cannot be used.
-/

namespace MediaChannels

variable {s : SharedMemory} {name : String} {sizes : Sizes} {e : Error}

/-- An error with which the system answers that a region cannot be had. -/
inductive Error.FromSystem : Error → Prop
  | notCreated (name : String) (cause : SystemError) : FromSystem (.regionNotCreated name cause)
  | notResized (cause : SystemError) : FromSystem (.notResized cause)
  | notMapped (cause : SystemError) : FromSystem (.notMapped cause)

namespace SharedMemory

/-- A name that can be used is neither too long nor does it hold a slash or a NUL. -/
theorem checkName_eq_error_iff (hname : name ≠ "") :
    checkName name = .error e ↔
      maxNameLength < (Utf8.encode name).length ∧ e = .nameTooLong maxNameLength (Utf8.encode name).length ∨
        (Utf8.encode name).length ≤ maxNameLength ∧ ('/' ∈ name.toList ∨ '\x00' ∈ name.toList) ∧
          e = .invalidName name := by
  have hlist : name.toList ≠ [] := fun h => hname (String.toList_eq_nil_iff.1 h)
  simp only [checkName]
  split
  · next hlong => simp [hlong, Nat.not_le.2 hlong, eq_comm]
  next hshort =>
  split
  · next hbad =>
    have hbad' := hbad.resolve_left hlist
    simp [hshort, Nat.le_of_not_lt hshort, hbad', eq_comm]
  · next hgood =>
    simp only [not_or] at hgood
    simp [hshort, hgood]

/-- Once the name is found good, it is the system that refuses a region. -/
theorem fromSystem_of_create {size : Nat} {s' : SharedMemory} (hname : checkName name = .ok ())
    (h : s.create name size = (.error e, s')) : e.FromSystem := by
  cases creationFails_of_create h with
  | name hbad =>
    rw [hname] at hbad
    cases hbad
  | blocked => exact .notCreated _ _
  | notResized => exact .notResized _
  | notMapped => exact .notMapped _

/-- A name that is found bad is refused before anything else. -/
theorem create_fst_of_checkName {size : Nat} (hname : checkName name = .error e) :
    (s.create name size).1 = .error e := by
  simp only [create, hname]

end SharedMemory

/-- A name that cannot be used is what a segment fails for, if its sizes are valid. -/
theorem Segment.create_of_checkName (h : sizes.Valid) (hname : SharedMemory.checkName name = .error e) :
    (create s name sizes).1 = .error e :=
  (create_error_iff h).2 (SharedMemory.create_fst_of_checkName hname)

/-- With valid sizes, a segment fails for its name, or else for the system. -/
theorem Segment.create_error_cases (h : sizes.Valid) (he : (create s name sizes).1 = .error e) :
    SharedMemory.checkName name = .error e ∨ e.FromSystem := by
  rw [create_error_iff h] at he
  cases hcheck : SharedMemory.checkName name with
  | error e' =>
    rw [SharedMemory.create_fst_of_checkName hcheck] at he
    cases he
    exact .inl rfl
  | ok => exact .inr (SharedMemory.fromSystem_of_create hcheck (Prod.ext he rfl))

namespace HostConfig

/-- **The segment of an accepted configuration is made, or the system refuses it, unless its name cannot be used**: it
is too long, or a slash or a NUL is in it. The sizes are never refused. -/
theorem create_of_ofText {text : String} {c : HostConfig} (h : ofText text = .ok c) (s : SharedMemory) :
    let created := (Segment.create s c.segment.name c.segment.sizes).1
    let length := (Utf8.encode c.segment.name).length
    (∀ reason, created ≠ .error (.configuration reason)) ∧
      (∀ max got, created = .error (.nameTooLong max got) ↔
        max = SharedMemory.maxNameLength ∧ got = length ∧ max < got) ∧
      (∀ name, created = .error (.invalidName name) ↔
        name = c.segment.name ∧ length ≤ SharedMemory.maxNameLength ∧ ('/' ∈ name.toList ∨ '\x00' ∈ name.toList)) ∧
      (length ≤ SharedMemory.maxNameLength → '/' ∉ c.segment.name.toList → '\x00' ∉ c.segment.name.toList →
        ∀ e, created = .error e → e.FromSystem) := by
  intro created length
  obtain ⟨-, -, hname, hsizes⟩ := validate_eq_ok_iff.1 (validate_of_ofText h)
  have hrefused : ∀ e, SharedMemory.checkName c.segment.name = .error e → created = .error e :=
    fun _ => Segment.create_of_checkName hsizes
  have hcases : ∀ e, created = .error e → SharedMemory.checkName c.segment.name = .error e ∨ e.FromSystem :=
    fun _ => Segment.create_error_cases hsizes
  simp only [SharedMemory.checkName_eq_error_iff hname] at hcases hrefused
  refine ⟨?_, ?_, ?_, ?_⟩
  · intro reason he
    rcases hcases _ he with (⟨-, h⟩ | ⟨-, -, h⟩) | h
    · cases h
    · cases h
    · cases h
  · intro max got
    constructor
    · intro he
      rcases hcases _ he with (⟨hlong, h⟩ | ⟨-, -, h⟩) | h
      · cases h
        exact ⟨rfl, rfl, hlong⟩
      · cases h
      · cases h
    · rintro ⟨rfl, rfl, hlong⟩
      exact hrefused _ (.inl ⟨hlong, rfl⟩)
  · intro name
    constructor
    · intro he
      rcases hcases _ he with (⟨-, h⟩ | ⟨hshort, hbad, h⟩) | h
      · cases h
      · cases h
        exact ⟨rfl, hshort, hbad⟩
      · cases h
    · rintro ⟨rfl, hshort, hbad⟩
      exact hrefused _ (.inr ⟨hshort, hbad, rfl⟩)
  · intro hshort hslash hnul e he
    rcases hcases _ he with (⟨hlong, -⟩ | ⟨-, hbad, -⟩) | h
    · exact absurd hlong (Nat.not_lt.2 hshort)
    · exact absurd hbad (not_or.2 ⟨hslash, hnul⟩)
    · exact h

/-- A segment with a name and sizes of its own, where a directory has its name: it is the system that refuses it. -/
theorem create_of_ofText_named :
    let text := "[segment]\nname = \"desk\"\nqueue_size = 8\nslot_size = 64\nevent_slots = 2\n"
    let sizes : Sizes := { queueSize := 8, slotSize := 64, eventSlots := 2 }
    let c : HostConfig := { segment := { name := "desk", sizes } }
    let s := SharedMemory.empty.setName "desk" .blocked
    let refusal := Error.regionNotCreated "desk" .isADirectory
    ofText text = .ok c ∧ (Segment.create s "desk" sizes).1 = .error refusal ∧
      refusal.FromSystem ∧ ∀ reason, (Segment.create s "desk" sizes).1 ≠ .error (.configuration reason) := by
  intro text sizes c s refusal
  have hread : ofText text = .ok c := by
    dsimp only [text, c, sizes]
    cbv
  have hsizes : sizes.Valid := sizes_valid_of_validate (validate_of_ofText hread)
  have hrefused : (Segment.create s "desk" sizes).1 = .error refusal :=
    (Segment.create_error_iff hsizes).2 rfl
  obtain ⟨hvalid, -, -, hsystem⟩ := create_of_ofText hread s
  exact ⟨hread, hrefused, hsystem (by decide) (by decide) (by decide) _ hrefused, hvalid⟩

/-- **A configuration can be accepted whose segment can never be created**: its name has a slash in it. -/
theorem create_refuses_accepted :
    ofText "[segment]\nname = \"a/b\"\n" = .ok { segment := { name := "a/b" } } ∧
      ∀ s, (Segment.create s "a/b" {}).1 = .error (.invalidName "a/b") := by
  have hsizes : ({} : Sizes).Valid := sizes_valid_of_validate validate_default
  have hbad : SharedMemory.checkName "a/b" = .error (.invalidName "a/b") := by rfl
  refine ⟨by cbv, fun s => ?_⟩
  exact Segment.create_of_checkName hsizes hbad

end HostConfig

end MediaChannels
