import MediaChannels.Proofs.Memory.Programs

/-!
# The footprint of a program

A program stays within a family of intervals if all that it loads and stores does, and if it takes no remainder by zero.
From that one fact follow its safety in a region that holds the intervals, what it cannot change, and what its value
cannot depend on.

* `safe_of_within`: a program within a region is safe there.
* `agree_run_of_within`: it changes nothing that lies apart from its intervals.
* `run_fst_congr`: on memories that agree on its intervals it has the same value.
-/

namespace MediaChannels

theorem Memory.Agree.symm {lo hi : Nat} {m m' : Memory} (h : Memory.Agree lo hi m m') : Memory.Agree lo hi m' m :=
  fun i hl hu => (h i hl hu).symm

namespace Access

variable {α β : Type}

/-- The intervals from `lo` up to `hi`. -/
def Inside (lo hi : Nat) (start stop : Nat) : Prop := lo ≤ start ∧ stop ≤ hi

/-- All that a run loads and stores lies in allowed intervals, and no remainder is taken by zero. -/
def Within (allowed : Nat → Nat → Prop) : Access α → Memory → Prop
  | done _, _ => True
  | load offset count next, m =>
    allowed offset (offset + count) ∧ (next (m.read offset count)).Within allowed m
  | store offset bytes next, m =>
    allowed offset (offset + bytes.length) ∧ (next ()).Within allowed (m.write offset bytes)
  | remainder a b next, m => b ≠ 0 ∧ (next (a % b)).Within allowed m

/-! ## What follows from a footprint -/

section Consequences

variable {allowed allowed' : Nat → Nat → Prop} {p : Access α} {m m' : Memory}

theorem Within.mono (h : p.Within allowed m) (hle : ∀ start stop, allowed start stop → allowed' start stop) :
    p.Within allowed' m := by
  induction p generalizing m with
  | done a => trivial
  | load offset count next ih => exact ⟨hle _ _ h.1, ih _ h.2⟩
  | store offset bytes next ih => exact ⟨hle _ _ h.1, ih () h.2⟩
  | remainder a b next ih => exact ⟨h.1, ih _ h.2⟩

/-- Safety is a footprint: all intervals that end in the region are allowed. -/
theorem safe_iff_within {size : Nat} : p.Safe size m ↔ p.Within (fun _ stop => stop ≤ size) m := by
  induction p generalizing m with
  | done a => exact Iff.rfl
  | load offset count next ih => exact and_congr Iff.rfl (ih _)
  | store offset bytes next ih => exact and_congr Iff.rfl (ih ())
  | remainder a b next ih => exact and_congr Iff.rfl (ih _)

/-- A program within a region is safe there. -/
theorem safe_of_within {size : Nat} (h : p.Within allowed m) (hle : ∀ start stop, allowed start stop → stop ≤ size) :
    p.Safe size m := safe_iff_within.2 (h.mono hle)

/-- A program changes nothing that lies apart from its intervals. -/
theorem agree_run_of_within {lo hi : Nat} (h : p.Within allowed m)
    (hapart : ∀ start stop, allowed start stop → hi ≤ start ∨ stop ≤ lo) : Memory.Agree lo hi (p.run m).2 m := by
  induction p generalizing m with
  | done a => exact .refl m
  | load offset count next ih => exact ih _ h.2
  | store offset bytes next ih =>
    exact (ih () h.2).trans (Memory.agree_write_of_disjoint m (hapart _ _ h.1))
  | remainder a b next ih => exact ih _ h.2

/-- The same bytes written over two memories leave them as much alike as before. -/
theorem agree_write {lo hi : Nat} (h : Memory.Agree lo hi m m') (offset : Nat) (bytes : List UInt8) :
    Memory.Agree lo hi (m.write offset bytes) (m'.write offset bytes) := by
  intro i hl hu
  rw [Memory.byte_write, Memory.byte_write, h i hl hu]

/-- **The value of a program depends only on the bytes of its intervals.** -/
theorem run_fst_congr (h : p.Within allowed m)
    (hagree : ∀ start stop, allowed start stop → Memory.Agree start stop m m') : (p.run m).1 = (p.run m').1 := by
  induction p generalizing m m' with
  | done a => rfl
  | load offset count next ih =>
    have hread : m.read offset count = m'.read offset count :=
      (hagree _ _ h.1).read offset count (Nat.le_refl _) (Nat.le_refl _)
    rw [run, run, ← hread]
    exact ih _ h.2 hagree
  | store offset bytes next ih =>
    exact ih () h.2 fun start stop hs => agree_write (hagree start stop hs) offset bytes
  | remainder a b next ih => exact ih _ h.2 hagree

end Consequences

/-! ## Footprints of sequences and of single accesses -/

section Single

variable {allowed : Nat → Nat → Prop}

@[simp] theorem within_pure (a : α) (m : Memory) : (pure a : Access α).Within allowed m := trivial

@[simp] theorem within_bind (p : Access α) (f : α → Access β) (m : Memory) :
    (p >>= f).Within allowed m ↔ p.Within allowed m ∧ (f (p.run m).1).Within allowed (p.run m).2 := by
  simp only [bind_eq_andThen]
  induction p generalizing m with
  | done a => simp [andThen, Within, run]
  | load offset count next ih => simp only [andThen, Within, run, ih, and_assoc]
  | store offset bytes next ih => simp only [andThen, Within, run, ih, and_assoc]
  | remainder a b next ih => simp only [andThen, Within, run, ih, and_assoc]

@[simp] theorem within_bytes (offset count : Nat) (m : Memory) :
    (bytes offset count).Within allowed m ↔ allowed offset (offset + count) := and_iff_left trivial

@[simp] theorem within_word32 (offset : Nat) (m : Memory) :
    (word32 offset).Within allowed m ↔ allowed offset (offset + 4) := and_iff_left trivial

@[simp] theorem within_word64 (offset : Nat) (m : Memory) :
    (word64 offset).Within allowed m ↔ allowed offset (offset + 8) := and_iff_left trivial

@[simp] theorem within_rem (a b : UInt64) (m : Memory) : (rem a b).Within allowed m ↔ b ≠ 0 := and_iff_left trivial

@[simp] theorem within_setBytes (offset : Nat) (bs : List UInt8) (m : Memory) :
    (setBytes offset bs).Within allowed m ↔ allowed offset (offset + bs.length) := and_iff_left trivial

@[simp] theorem within_setWord32 (offset : Nat) (w : UInt32) (m : Memory) :
    (setWord32 offset w).Within allowed m ↔ allowed offset (offset + 4) := by
  rw [setWord32, within_setBytes, Memory.length_bytes32]

@[simp] theorem within_setWord64 (offset : Nat) (w : UInt64) (m : Memory) :
    (setWord64 offset w).Within allowed m ↔ allowed offset (offset + 8) := by
  rw [setWord64, within_setBytes, Memory.length_bytes64]

theorem within_copy {lo hi offset : Nat} {bs : List UInt8} (m : Memory) (hl : lo ≤ offset)
    (hu : offset + bs.length ≤ hi) : (copy offset bs).Within (Inside lo hi) m := by
  induction bs generalizing offset m with
  | nil => trivial
  | cons b r ih =>
    rw [List.length_cons] at hu
    refine ⟨⟨hl, ?_⟩, ih _ (by omega) (by omega)⟩
    rw [List.length_singleton]
    omega

end Single

-- As with `StoresIn`, unfolding it would run the program.
attribute [irreducible] Within

end Access

end MediaChannels
