import MediaChannels.Proofs.Segment.Created

/-!
# Why attaching fails

Attaching tries four things in turn: the index, the name, the region that the name leads to, and the header that is
found in it. Each has errors of its own.

* `attach_error_cases`: which of the four has failed.
* `isAttachFailure_of_verify`: all errors of the header are known as failures to attach.
* `attach_error`: so are all others, but for those of the name and of the mapping itself; and all of them end a process
  with the code two.
-/

namespace MediaChannels

/-- What is known as a failure to attach ends a process with the code two. -/
theorem Error.exitCode_of_isAttachFailure {e : Error} (h : e.isAttachFailure = true) : e.exitCode = 2 := by
  cases e <;> first | rfl | cases h

namespace SharedMemory

variable {s : SharedMemory} {name : String} {e : Error}

/-- What is wrong when a region is not opened: its name, or that this leads nowhere, to something that is not memory, to
an empty object, or to one for which there is no room. -/
inductive NotOpened (s : SharedMemory) (name : String) : Error → Prop where
  | name {e : Error} (h : checkName name = .error e) : NotOpened s name e
  | missing (hname : checkName name = .ok ()) (h : s.find? name = none) : NotOpened s name (.notFound name)
  | blocked (hname : checkName name = .ok ()) (h : s.find? name = some .blocked) :
    NotOpened s name (.regionNotOpened name .isADirectory)
  | empty {number : Nat} (hname : checkName name = .ok ()) (h : s.find? name = some (.object number))
    (hsize : (s.object number).size = 0) : NotOpened s name (.truncated name 1 0)
  | noRoom {number : Nat} (hname : checkName name = .ok ()) (h : s.find? name = some (.object number))
    (hsize : addressSpace < (s.object number).size) : NotOpened s name (.notMapped .outOfMemory)

/-- **All and only these keep a region from being opened.** -/
theorem openRegion_error_iff : (s.openRegion name).1 = .error e ↔ NotOpened s name e := by
  constructor
  · intro h
    unfold openRegion at h
    split at h
    · next hname =>
      cases h
      exact .name hname
    next hname =>
    split at h
    · next hfound =>
      cases h
      exact .missing hname hfound
    · next hfound =>
      cases h
      exact .blocked hname hfound
    next number hfound =>
    split at h
    · next hsize =>
      cases h
      exact .empty hname hfound hsize
    next hpos =>
    simp only [map, hpos, if_false] at h
    split at h
    · next hsize =>
      cases h
      exact .noRoom hname hfound hsize
    · cases h
  · rintro (hname | ⟨hname, hfound⟩ | ⟨hname, hfound⟩ | ⟨hname, hfound, hsize⟩ | ⟨hname, hfound, hsize⟩)
    · simp only [openRegion, hname]
    · simp only [openRegion, hname, hfound]
    · simp only [openRegion, hname, hfound]
    · simp only [openRegion, hname, hfound, hsize, if_true]
    · simp only [openRegion, map, hname, hfound, hsize, Nat.ne_of_gt (Nat.zero_lt_of_lt hsize), if_false, if_true]

/-- A name that can be used and does not lead to an object that is too large to be mapped. -/
def Mappable (s : SharedMemory) (name : String) : Prop :=
  checkName name = .ok () ∧ ∀ number, s.find? name = some (.object number) → (s.object number).size ≤ addressSpace

/-- What is opened was mappable. -/
theorem mappable_of_openRegion {region : Region} {opened : SharedMemory}
    (h : s.openRegion name = (.ok region, opened)) : s.Mappable name := by
  have hopened {e : Error} (hnot : NotOpened s name e) : False := by
    have herror := openRegion_error_iff.2 hnot
    rw [h] at herror
    cases herror
  have hname : checkName name = .ok () := by
    cases hname : checkName name with
    | error e => exact (hopened (.name hname)).elim
    | ok => rfl
  exact ⟨hname, fun number hfound => Nat.le_of_not_lt fun hsize => hopened (.noRoom hname hfound hsize)⟩

/-- **What is not opened is known as a failure to attach if it is mappable, and only then.** -/
theorem NotOpened.isAttachFailure_iff (h : NotOpened s name e) : e.isAttachFailure = true ↔ s.Mappable name := by
  cases h with
  | name hname =>
    have hnot : ¬s.Mappable name := fun hm => by
      rw [hm.1] at hname
      cases hname
    rcases checkName_error hname with rfl | rfl <;> exact iff_of_false Bool.false_ne_true hnot
  | missing hname hfound => exact iff_of_true rfl ⟨hname, fun number h => by rw [hfound] at h; cases h⟩
  | blocked hname hfound => exact iff_of_true rfl ⟨hname, fun number h => by rw [hfound] at h; cases h⟩
  | empty hname hfound hsize =>
    refine iff_of_true rfl ⟨hname, fun number h => ?_⟩
    rw [hfound] at h
    cases h
    exact hsize ▸ Nat.zero_le _
  | noRoom hname hfound hsize =>
    exact iff_of_false Bool.false_ne_true fun hm => absurd (hm.2 _ hfound) (Nat.not_le.2 hsize)

/-- The errors of opening that are not known as failures to attach. -/
theorem NotOpened.eq_of_not_isAttachFailure (h : NotOpened s name e) (hnot : e.isAttachFailure = false) :
    e = .invalidName name ∨ e = .nameTooLong maxNameLength (Utf8.encode name).length ∨ e = .notMapped .outOfMemory := by
  cases h with
  | name hname => exact (checkName_error hname).elim (fun h => .inr (.inl h)) .inl
  | missing => cases hnot
  | blocked => cases hnot
  | empty => cases hnot
  | noRoom => exact .inr (.inr rfl)

end SharedMemory

namespace Segment

variable {s : SharedMemory} {name : String} {index size : Nat} {kind : ChannelKind} {m : Memory} {e : Error}

/-- **Whatever is wrong with a header is known as a failure to attach.** -/
theorem isAttachFailure_of_verify (h : ((verify name size kind).run m).1 = .error e) : e.isAttachFailure = true := by
  obtain ⟨answer, hverdict, hrun⟩ := verdict_verify name size kind m
  rw [hrun] at h
  cases h
  cases hverdict <;> rfl

/-- Attaching fails at the index, at the region, or at what the region holds. -/
theorem attach_error_cases (h : (attach s name index).1 = .error e) :
    (4 ≤ index ∧ e = .indexOutOfRange index 4) ∨ (index < 4 ∧ SharedMemory.NotOpened s name e) ∨
      ∃ kind region opened, kind.index = index ∧ s.openRegion name = (.ok region, opened) ∧
        ((verify name region.size kind).run (s.object region.object).memory).1 = .error e := by
  rcases ChannelKind.index_or_length_le index with ⟨kind, rfl⟩ | hle
  · right
    simp only [attach, ChannelKind.ofIndex_index] at h
    split at h
    · next hopen =>
      cases h
      exact .inl ⟨kind.index_lt, SharedMemory.openRegion_error_iff.1 (congrArg Prod.fst hopen)⟩
    next region opened hopen =>
    split at h
    · next hverify =>
      cases h
      exact .inr ⟨kind, region, opened, rfl, hopen, congrArg Prod.fst hverify⟩
    · cases h
  · rw [attach_of_le hle] at h
    cases h
    exact .inl ⟨hle, rfl⟩

/-- **What kind of error a failed attach gives.** All of them end a process with the code two. Known as failures to
attach are exactly those that come about because the index is wrong, or although the name is mappable; what is not known
as one is that the name cannot be used, or that the mapping fails. -/
theorem attach_error (h : (attach s name index).1 = .error e) :
    e.exitCode = 2 ∧ (e.isAttachFailure = true ↔ 4 ≤ index ∨ s.Mappable name) ∧
      (e.isAttachFailure = false ↔ e = .invalidName name ∨
        e = .nameTooLong SharedMemory.maxNameLength (Utf8.encode name).length ∨ e = .notMapped .outOfMemory) := by
  have hknown : e.isAttachFailure = true ↔ 4 ≤ index ∨ s.Mappable name := by
    rcases attach_error_cases h with ⟨hle, rfl⟩ | ⟨hlt, hnot⟩ | ⟨kind, region, opened, -, hopen, hverify⟩
    · exact iff_of_true rfl (.inl hle)
    · rw [hnot.isAttachFailure_iff, or_iff_right (Nat.not_le.2 hlt)]
    · exact iff_of_true (isAttachFailure_of_verify hverify) (.inr (SharedMemory.mappable_of_openRegion hopen))
  have hunknown (hnot : e.isAttachFailure = false) : e = .invalidName name ∨
      e = .nameTooLong SharedMemory.maxNameLength (Utf8.encode name).length ∨ e = .notMapped .outOfMemory := by
    rcases attach_error_cases h with ⟨-, rfl⟩ | ⟨-, hopened⟩ | ⟨_, _, _, -, -, hverify⟩
    · cases hnot
    · exact hopened.eq_of_not_isAttachFailure hnot
    · rw [isAttachFailure_of_verify hverify] at hnot
      cases hnot
  refine ⟨?_, hknown, hunknown, ?_⟩
  · cases hfailure : e.isAttachFailure with
    | true => exact Error.exitCode_of_isAttachFailure hfailure
    | false => rcases hunknown hfailure with rfl | rfl | rfl <;> rfl
  · rintro (rfl | rfl | rfl) <;> rfl

/-- So it is for a name that leads nowhere. -/
theorem attach_error_missing :
    (attach .empty "desk" 0).1 = .error (.notFound "desk") ∧ (Error.notFound "desk").exitCode = 2 ∧
      (Error.notFound "desk").isAttachFailure = true := by
  have h : (attach .empty "desk" 0).1 = .error (.notFound "desk") := rfl
  obtain ⟨hcode, hknown, -⟩ := attach_error h
  exact ⟨h, hcode, hknown.2 (.inr ⟨rfl, fun number hfound => by cases hfound⟩)⟩

/-- **A name that cannot be used is not known as a failure to attach**, although an index that cannot be used is. -/
theorem attach_unusable_name :
    ¬∀ (s : SharedMemory) (name : String) (index : Nat) (e : Error), (attach s name index).1 = .error e →
      e.isAttachFailure = true ∧ e.exitCode = 2 := by
  intro hall
  have h : (attach .empty "a/b" 0).1 = .error (.invalidName "a/b") := rfl
  exact absurd (hall _ _ _ _ h).1 Bool.false_ne_true

end Segment

end MediaChannels
