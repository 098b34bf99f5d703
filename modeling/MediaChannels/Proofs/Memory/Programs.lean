import MediaChannels.Memory.Access

/-!
# Ranges of memory and programs that stop early

Two facts about a program carry most of what is said about shared memory: the range that its stores stay in, which
nothing outside of it can notice, and what is left of a sequence of programs when it stops between two stores.

* `Memory.Agree`: two memories hold the same bytes in a range, so that reads in it agree (`Agree.read`, `Agree.word64`).
* `Access.StoresIn`: the stores of a run stay in a range; then a run and every beginning of it agree with the memory
  before, outside of the range (`byte_run_of_storesIn`, `byte_crash_of_storesIn`).
* `Access.crash_bind`: a sequence stops in its first part, or runs the first part and stops in the second.
* `Access.SlotLoop`: a loop over slots that lie one behind the other; `SlotLoop.agree_slot`: each is left as if it were
  the only one.
-/

namespace MediaChannels

namespace Memory

/-! ## Ranges -/

/-- Both memories hold the same bytes from `lo` up to `hi`. -/
def Agree (lo hi : Nat) (m m' : Memory) : Prop := ∀ i, lo ≤ i → i < hi → m.byte i = m'.byte i

namespace Agree

variable {lo hi : Nat} {m m' m'' : Memory}

theorem refl (m : Memory) : Agree lo hi m m := fun _ _ _ => rfl

theorem trans (h : Agree lo hi m m') (h' : Agree lo hi m' m'') : Agree lo hi m m'' :=
  fun i hl hu => (h i hl hu).trans (h' i hl hu)

theorem mono (h : Agree lo hi m m') {lo' hi' : Nat} (hl : lo ≤ lo') (hu : hi' ≤ hi) : Agree lo' hi' m m' :=
  fun i hl' hu' => h i (Nat.le_trans hl hl') (Nat.lt_of_lt_of_le hu' hu)

theorem read (h : Agree lo hi m m') (offset count : Nat) (hl : lo ≤ offset) (hu : offset + count ≤ hi) :
    m.read offset count = m'.read offset count :=
  read_congr fun i hl' hu' => h i (Nat.le_trans hl hl') (Nat.lt_of_lt_of_le hu' hu)

theorem word32 (h : Agree lo hi m m') (offset : Nat) (hl : lo ≤ offset) (hu : offset + 4 ≤ hi) :
    m.word32 offset = m'.word32 offset := by
  rw [Memory.word32, Memory.word32, h.read _ _ hl hu]

theorem word64 (h : Agree lo hi m m') (offset : Nat) (hl : lo ≤ offset) (hu : offset + 8 ≤ hi) :
    m.word64 offset = m'.word64 offset := by
  rw [Memory.word64, Memory.word64, h.read _ _ hl hu]

end Agree

/-- A write changes nothing outside of its range. -/
theorem agree_write_of_disjoint {lo hi start : Nat} {bytes : List UInt8} (m : Memory)
    (h : hi ≤ start ∨ start + bytes.length ≤ lo) : Agree lo hi (m.write start bytes) m :=
  fun i hl hu => byte_write_of_outside m (by omega)

theorem word32_write_toBytes (m : Memory) (offset n : Nat) :
    (m.write offset (LittleEndian.toBytes 4 n)).word32 offset = UInt32.ofNat n := by
  have h := read_write m offset (LittleEndian.toBytes 4 n)
  rw [LittleEndian.length_toBytes] at h
  rw [word32, h, LittleEndian.toNat_toBytes]
  exact UInt32.toNat.inj (by simp)

end Memory

namespace Access

variable {α β : Type}

/-! ## Sequences that stop early -/

theorem bind_eq_andThen (p : Access α) (f : α → Access β) : p >>= f = p.andThen f := rfl

@[simp] theorem storeCount_pure (a : α) (m : Memory) : (pure a : Access α).storeCount m = 0 := rfl

@[simp] theorem storeCount_bind (p : Access α) (f : α → Access β) (m : Memory) :
    (p >>= f).storeCount m = p.storeCount m + (f (p.run m).1).storeCount (p.run m).2 := by
  simp only [bind_eq_andThen]
  induction p generalizing m with
  | done a => simp [andThen, storeCount, run]
  | load offset count next ih => exact ih _ m
  | store offset bytes next ih =>
    simp only [andThen, storeCount, run, ih]
    omega
  | remainder a b next ih => exact ih _ m

/-- A sequence stops in its first part, or runs the first part and stops in the second. -/
theorem crash_bind (p : Access α) (f : α → Access β) (n : Nat) (m : Memory) :
    (p >>= f).crash n m =
      if n < p.storeCount m then p.crash n m else (f (p.run m).1).crash (n - p.storeCount m) (p.run m).2 := by
  simp only [bind_eq_andThen]
  induction p generalizing n m with
  | done a => simp [andThen, storeCount, run]
  | load offset count next ih =>
    simp only [andThen, crash, storeCount, run]
    exact ih _ n m
  | store offset bytes next ih =>
    cases n with
    | zero => simp [andThen, crash, storeCount]
    | succ n => simp only [andThen, crash, storeCount, run, ih, Nat.succ_lt_succ_iff, Nat.succ_sub_succ]
  | remainder a b next ih =>
    simp only [andThen, crash, storeCount, run]
    exact ih _ n m

theorem crash_bind_of_lt {p : Access α} {n : Nat} {m : Memory} (f : α → Access β) (h : n < p.storeCount m) :
    (p >>= f).crash n m = p.crash n m := by
  rw [crash_bind, if_pos h]

theorem crash_bind_of_le {p : Access α} {n : Nat} {m : Memory} (f : α → Access β) (h : p.storeCount m ≤ n) :
    (p >>= f).crash n m = (f (p.run m).1).crash (n - p.storeCount m) (p.run m).2 := by
  rw [crash_bind, if_neg (Nat.not_lt.2 h)]

theorem crash_bind_of_no_store {p : Access α} {n : Nat} {m : Memory} (f : α → Access β) (h : p.storeCount m = 0) :
    (p >>= f).crash n m = (f (p.run m).1).crash n (p.run m).2 := by
  rw [crash_bind_of_le f (by omega), h, Nat.sub_zero]

/-- What only computes after a program stores nothing more. -/
theorem crash_bind_pure (p : Access α) (f : α → β) (n : Nat) (m : Memory) :
    (p >>= fun a => pure (f a)).crash n m = p.crash n m := by
  rcases Nat.lt_or_ge n (p.storeCount m) with h | h
  · exact crash_bind_of_lt _ h
  · rw [crash_bind_of_le _ h, crash_of_le p m h]
    rfl

@[simp] theorem storeCount_word32 (offset : Nat) (m : Memory) : (word32 offset).storeCount m = 0 := rfl

@[simp] theorem storeCount_word64 (offset : Nat) (m : Memory) : (word64 offset).storeCount m = 0 := rfl

@[simp] theorem storeCount_bytes (offset count : Nat) (m : Memory) : (bytes offset count).storeCount m = 0 := rfl

@[simp] theorem storeCount_rem (a b : UInt64) (m : Memory) : (rem a b).storeCount m = 0 := rfl

@[simp] theorem storeCount_setWord64 (offset : Nat) (w : UInt64) (m : Memory) :
    (setWord64 offset w).storeCount m = 1 := rfl

@[simp] theorem storeCount_copy (offset : Nat) (bs : List UInt8) (m : Memory) :
    (copy offset bs).storeCount m = bs.length := by
  induction bs generalizing offset m with
  | nil => rfl
  | cons b r ih => simp [copy, storeCount, ih]

/-- A copy that stops early has copied a beginning of its bytes. -/
theorem crash_copy (offset : Nat) (bs : List UInt8) (n : Nat) (m : Memory) :
    (copy offset bs).crash n m = m.write offset (bs.take n) := by
  induction bs generalizing offset n m with
  | nil => rw [List.take_nil, Memory.write_nil]; rfl
  | cons b r ih =>
    cases n with
    | zero => rw [List.take_zero, Memory.write_nil]; rfl
    | succ n => rw [List.take_succ_cons, Memory.write_cons]; exact ih _ n _

/-! ## Programs that store in a range -/

/-- Every byte that a run stores lies from `lo` up to `hi`. -/
def StoresIn (lo hi : Nat) : Access α → Memory → Prop
  | done _, _ => True
  | load offset count next, m => (next (m.read offset count)).StoresIn lo hi m
  | store offset bytes next, m =>
    lo ≤ offset ∧ offset + bytes.length ≤ hi ∧ (next ()).StoresIn lo hi (m.write offset bytes)
  | remainder a b next, m => (next (a % b)).StoresIn lo hi m

section StoresIn

variable {lo hi : Nat}

@[simp] theorem storesIn_pure (a : α) (m : Memory) : (pure a : Access α).StoresIn lo hi m := trivial

@[simp] theorem storesIn_bind (p : Access α) (f : α → Access β) (m : Memory) :
    (p >>= f).StoresIn lo hi m ↔ p.StoresIn lo hi m ∧ (f (p.run m).1).StoresIn lo hi (p.run m).2 := by
  simp only [bind_eq_andThen]
  induction p generalizing m with
  | done a => simp [andThen, StoresIn, run]
  | load offset count next ih => exact ih _ m
  | store offset bytes next ih => simp only [andThen, StoresIn, run, ih, and_assoc]
  | remainder a b next ih => exact ih _ m

@[simp] theorem storesIn_word32 (offset : Nat) (m : Memory) : (word32 offset).StoresIn lo hi m := trivial

@[simp] theorem storesIn_word64 (offset : Nat) (m : Memory) : (word64 offset).StoresIn lo hi m := trivial

@[simp] theorem storesIn_bytes (offset count : Nat) (m : Memory) : (bytes offset count).StoresIn lo hi m := trivial

@[simp] theorem storesIn_rem (a b : UInt64) (m : Memory) : (rem a b).StoresIn lo hi m := trivial

@[simp] theorem storesIn_setBytes (offset : Nat) (bs : List UInt8) (m : Memory) :
    (setBytes offset bs).StoresIn lo hi m ↔ lo ≤ offset ∧ offset + bs.length ≤ hi := by
  simp [setBytes, StoresIn]

@[simp] theorem storesIn_setWord32 (offset : Nat) (w : UInt32) (m : Memory) :
    (setWord32 offset w).StoresIn lo hi m ↔ lo ≤ offset ∧ offset + 4 ≤ hi := by
  simp [setWord32]

@[simp] theorem storesIn_setWord64 (offset : Nat) (w : UInt64) (m : Memory) :
    (setWord64 offset w).StoresIn lo hi m ↔ lo ≤ offset ∧ offset + 8 ≤ hi := by
  simp [setWord64]

theorem storesIn_copy {offset : Nat} {bs : List UInt8} (m : Memory) (hl : lo ≤ offset)
    (hu : offset + bs.length ≤ hi) : (copy offset bs).StoresIn lo hi m := by
  induction bs generalizing offset m with
  | nil => trivial
  | cons b r ih =>
    rw [List.length_cons] at hu
    exact ⟨hl, by rw [List.length_singleton]; omega, ih _ (by omega) (by omega)⟩

theorem StoresIn.mono {p : Access α} {m : Memory} (h : p.StoresIn lo hi m) {lo' hi' : Nat} (hl : lo' ≤ lo)
    (hu : hi ≤ hi') : p.StoresIn lo' hi' m := by
  induction p generalizing m with
  | done a => trivial
  | load offset count next ih => exact ih _ h
  | store offset bytes next ih => exact ⟨Nat.le_trans hl h.1, Nat.le_trans h.2.1 hu, ih () h.2.2⟩
  | remainder a b next ih => exact ih _ h

/-- However early it stops, a program changes nothing outside of the range that it stores in. -/
theorem byte_crash_of_storesIn {p : Access α} {m : Memory} (h : p.StoresIn lo hi m) (n : Nat) {i : Nat}
    (hi' : i < lo ∨ hi ≤ i) : (p.crash n m).byte i = m.byte i := by
  induction p generalizing m n with
  | done a => rfl
  | load offset count next ih => exact ih _ h n
  | store offset bytes next ih =>
    cases n with
    | zero => rfl
    | succ n =>
      obtain ⟨hl, hu, h⟩ := h
      rw [crash, ih () h n, Memory.byte_write_of_outside m (by omega)]
  | remainder a b next ih => exact ih _ h n

/-- A program changes nothing outside of the range that it stores in. -/
theorem byte_run_of_storesIn {p : Access α} {m : Memory} (h : p.StoresIn lo hi m) {i : Nat} (hi' : i < lo ∨ hi ≤ i) :
    (p.run m).2.byte i = m.byte i := by
  rw [← crash_of_le p m (Nat.le_refl _), byte_crash_of_storesIn h _ hi']

theorem agree_crash_of_storesIn {p : Access α} {m : Memory} (h : p.StoresIn lo hi m) (n : Nat) {lo' hi' : Nat}
    (hd : hi' ≤ lo ∨ hi ≤ lo') : Memory.Agree lo' hi' (p.crash n m) m :=
  fun i hl hu => byte_crash_of_storesIn h n (by omega)

theorem agree_run_of_storesIn {p : Access α} {m : Memory} (h : p.StoresIn lo hi m) {lo' hi' : Nat}
    (hd : hi' ≤ lo ∨ hi ≤ lo') : Memory.Agree lo' hi' (p.run m).2 m :=
  fun i hl hu => byte_run_of_storesIn h (by omega)

end StoresIn

-- From here on the lemmas above are all that is known of it: its unfolding would run the program.
attribute [irreducible] StoresIn

/-! ## Loops over slots -/

/-- A loop runs a program on slot after slot, each behind the one before, and the program stores in its slot only. -/
structure SlotLoop (stride : Nat) (body : Nat → Access Unit) (loop : Nat → Nat → Access Unit) : Prop where
  zero : ∀ offset, loop 0 offset = pure ()
  succ : ∀ count offset, loop (count + 1) offset = body offset >>= fun _ => loop count (offset + stride)
  body_storesIn : ∀ offset m, (body offset).StoresIn offset (offset + stride) m

namespace SlotLoop

variable {stride : Nat} {body : Nat → Access Unit} {loop : Nat → Nat → Access Unit}

/-- Such a loop stores in its slots only. -/
theorem storesIn (h : SlotLoop stride body loop) (count offset : Nat) (m : Memory) :
    (loop count offset).StoresIn offset (offset + count * stride) m := by
  induction count generalizing offset m with
  | zero =>
    rw [h.zero]
    exact storesIn_pure _ _
  | succ count ih =>
    rw [Nat.succ_mul, h.succ, storesIn_bind]
    exact ⟨(h.body_storesIn offset m).mono (Nat.le_refl _) (by omega), (ih _ _).mono (by omega) (by omega)⟩

/-- **It leaves every slot as the program on that slot leaves it**, for nothing gets there afterwards. -/
theorem agree_slot (h : SlotLoop stride body loop) {count i : Nat} (hi : i < count) (offset : Nat) (m : Memory) :
    ∃ before, Memory.Agree (offset + i * stride) (offset + i * stride + stride) ((loop count offset).run m).2
      ((body (offset + i * stride)).run before).2 := by
  induction count generalizing offset m i with
  | zero => omega
  | succ count ih =>
    rw [h.succ, run_bind]
    cases i with
    | zero =>
      rw [Nat.zero_mul, Nat.add_zero]
      exact ⟨m, agree_run_of_storesIn (h.storesIn count _ _) (.inl (Nat.le_refl _))⟩
    | succ i =>
      rw [Nat.succ_mul, Nat.add_comm (i * _), ← Nat.add_assoc]
      exact ih (by omega) _ _

end SlotLoop

end Access

end MediaChannels
