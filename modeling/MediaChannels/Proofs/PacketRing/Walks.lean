import MediaChannels.Proofs.PacketRing.Slots

/-!
# Walks over a ring that stands still

A walk only reads, so on a memory that nobody changes it can be run to its end: `drain` gives all packets that it
delivers. Nothing is assumed about the slots here; each of them may hold anything.

* `run_next`: one step of a walk, with the memory in place of the loads; `run_next_induct`: the ways in which it can
  end.
* `lt_of_run_next`: a step that delivers moves the cursor on, and not past the end; so a walk ends.
* `drain_of_le`: a walk delivers what is found under the indices above its cursor and above the floor, in their order,
  stops at its end, and counts all that it passed over.
-/

namespace MediaChannels

namespace PacketRing

variable (ring : PacketRing) (m : Memory)

/-! ## One step -/

/-- What is found under an index: the packet, if its slot is whole and holds that index. -/
def found (index : UInt64) : Option IndexedPacket :=
  ((((ring.slot index).run m).1.contents m).filter (·.index = index)).map fun frame =>
    { index, packet := { data := frame.data, marks := .ofFlags frame.flags } }

/-- Up to this index packets have been overwritten. -/
def floorIn : UInt64 := floor (m.word64 ring.base) (m.word64 ring.sizesAt)

theorem run_slot_snd (index : UInt64) : ((ring.slot index).run m).2 = m := by simp [slot]

theorem run_next (p : Poll) :
    (ring.next p).run m =
      if p.stop ≤ p.cursor then ((none, p), m)
      else if p.stop ≤ (p.skipTo (ring.floorIn m)).cursor then ((none, p.skipTo (ring.floorIn m)), m)
      else match ring.found m ((p.skipTo (ring.floorIn m)).cursor + 1) with
        | some packet => ((some packet, (p.skipTo (ring.floorIn m)).deliver), m)
        | none => (ring.next (p.skipTo (ring.floorIn m)).skip).run m := by
  rw [next]
  split
  · rfl
  rw [Access.run_bind, run_writeIndex, Access.run_bind, run_queueSize]
  dsimp only
  rw [← floorIn]
  split
  · rfl
  rw [Access.run_bind, Access.run_bind, run_slot_snd, Seqlock.run_tryRead, found]
  cases (((ring.slot ((p.skipTo (ring.floorIn m)).cursor + 1)).run m).1.contents m).filter
    (·.index = (p.skipTo (ring.floorIn m)).cursor + 1) <;> rfl

/-- **What holds of all ways in which one step of a walk can end holds of the step**: the walk is at its end; all that
was left has been overwritten; a packet is found; or nothing is found in its place, and the step goes on from there. -/
theorem run_next_induct {P : Poll → (Option IndexedPacket × Poll) × Memory → Prop}
    (ended : ∀ p, p.stop ≤ p.cursor → P p ((none, p), m))
    (overtaken : ∀ p, ¬p.stop ≤ p.cursor → p.stop ≤ (p.skipTo (ring.floorIn m)).cursor →
      P p ((none, p.skipTo (ring.floorIn m)), m))
    (delivers : ∀ p packet, ¬p.stop ≤ (p.skipTo (ring.floorIn m)).cursor →
      ring.found m ((p.skipTo (ring.floorIn m)).cursor + 1) = some packet →
        P p ((some packet, (p.skipTo (ring.floorIn m)).deliver), m))
    (passes : ∀ p r, ¬p.stop ≤ (p.skipTo (ring.floorIn m)).cursor →
      ring.found m ((p.skipTo (ring.floorIn m)).cursor + 1) = none → P (p.skipTo (ring.floorIn m)).skip r → P p r)
    (p : Poll) : P p ((ring.next p).run m) := by
  induction hr : p.stop.toNat - p.cursor.toNat using Nat.strongRecOn generalizing p with
  | ind r ih =>
    rw [run_next]
    split
    · next h => exact ended p h
    next hn =>
    split
    · next h => exact overtaken p hn h
    · next h =>
      cases hf : ring.found m ((p.skipTo (ring.floorIn m)).cursor + 1) with
      | some packet => exact delivers p packet h hf
      | none => exact passes p _ h hf (ih _ (hr ▸ p.remaining_skip_lt _ h) _ rfl)

/-- A step only reads. -/
theorem run_next_snd (p : Poll) : ((ring.next p).run m).2 = m :=
  ring.run_next_induct m (P := fun _ r => r.2 = m) (fun _ _ => rfl) (fun _ _ _ => rfl) (fun _ _ _ _ => rfl)
    (fun _ _ _ _ h => h) p

/-- Above the floor, but not at the end of a walk, there is another index. -/
theorem toNat_cursor_succ {p : Poll} {floor : UInt64} (h : ¬p.stop ≤ (p.skipTo floor).cursor) :
    ((p.skipTo floor).cursor + 1).toNat = (p.skipTo floor).cursor.toNat + 1 ∧
      (p.skipTo floor).cursor.toNat < p.stop.toNat := by
  have hs := p.stop.toNat_lt
  rw [UInt64.le_iff_toNat_le] at h
  refine ⟨?_, by omega⟩
  rw [UInt64.toNat_add, UInt64.toNat_one]
  omega

/-- A step that delivers a packet moves the cursor on, and not past the end. -/
theorem lt_of_run_next {p q : Poll} {packet : IndexedPacket} (h : ((ring.next p).run m).1 = (some packet, q)) :
    p.cursor.toNat < q.cursor.toNat ∧ q.cursor.toNat ≤ p.stop.toNat ∧ q.stop = p.stop := by
  refine ring.run_next_induct m (P := fun p r => r.1 = (some packet, q) →
    p.cursor.toNat < q.cursor.toNat ∧ q.cursor.toNat ≤ p.stop.toNat ∧ q.stop = p.stop) ?ended ?overtaken ?delivers
    ?passes p h
  case ended => rintro p - ⟨⟩
  case overtaken => rintro p - - ⟨⟩
  case delivers =>
    rintro p packet' hlt - ⟨⟩
    have hc := UInt64.le_iff_toNat_le.1 (p.le_cursor_skipTo (ring.floorIn m))
    obtain ⟨hn, hl⟩ := toNat_cursor_succ hlt
    refine ⟨?_, ?_, Poll.stop_skipTo _ _⟩ <;> rw [Poll.deliver, hn] <;> omega
  case passes =>
    intro p r hlt _ ih hr
    have hc := UInt64.le_iff_toNat_le.1 (p.le_cursor_skipTo (ring.floorIn m))
    obtain ⟨hn, hl⟩ := toNat_cursor_succ hlt
    obtain ⟨h₁, h₂, h₃⟩ := ih hr
    simp only [Poll.skip, hn, Poll.stop_skipTo] at h₁ h₂ h₃
    exact ⟨by omega, h₂, h₃⟩

/-! ## Whole walks -/

/-- All packets that a walk delivers on a memory that nobody changes, and the walk at its end. -/
def drain (p : Poll) : List IndexedPacket × Poll :=
  match _h : ((ring.next p).run m).1 with
  | (none, q) => ([], q)
  | (some packet, q) => (packet :: (drain q).1, (drain q).2)
termination_by p.stop.toNat - p.cursor.toNat
decreasing_by
  all_goals
    have h := ring.lt_of_run_next m _h
    rw [h.2.2]
    omega

variable {ring m} {p : Poll}

theorem drain_of_next_none {q : Poll} (h : ((ring.next p).run m).1 = (none, q)) : ring.drain m p = ([], q) := by
  rw [drain]
  split
  · next q' hq => rw [h] at hq; cases hq; rfl
  · next packet q' hq => rw [h] at hq; cases hq

theorem drain_of_next_some {q : Poll} {packet : IndexedPacket} (h : ((ring.next p).run m).1 = (some packet, q)) :
    ring.drain m p = (packet :: (ring.drain m q).1, (ring.drain m q).2) := by
  rw [drain]
  split
  · next q' hq => rw [h] at hq; cases hq
  · next packet' q' hq => rw [h] at hq; cases hq; rfl

theorem drain_of_stop_le (h : p.stop ≤ p.cursor) : ring.drain m p = ([], p) :=
  drain_of_next_none (by rw [run_next, if_pos h])

/-- The packet that a walk finds next is the first of the drained ones. -/
theorem drain_of_found (h : ¬p.stop ≤ p.cursor) (hf : ring.floorIn m ≤ p.cursor) {packet : IndexedPacket}
    (hp : ring.found m (p.cursor + 1) = some packet) :
    ring.drain m p = (packet :: (ring.drain m p.deliver).1, (ring.drain m p.deliver).2) :=
  drain_of_next_some (by rw [run_next, if_neg h, Poll.skipTo_of_le hf, if_neg h, hp])

/-- A place in which nothing is found is passed over. -/
theorem drain_of_not_found (h : ¬p.stop ≤ p.cursor) (hf : ring.floorIn m ≤ p.cursor)
    (hp : ring.found m (p.cursor + 1) = none) : ring.drain m p = ring.drain m p.skip := by
  have hn : (ring.next p).run m = (ring.next p.skip).run m := by
    rw [run_next, if_neg h, Poll.skipTo_of_le hf, if_neg h, hp]
  rw [drain, drain, hn]

/-- What lies below the floor is given up at once. -/
theorem drain_skipTo (h : ¬p.stop ≤ p.cursor) : ring.drain m p = ring.drain m (p.skipTo (ring.floorIn m)) := by
  have hq := ring.run_next m (p.skipTo (ring.floorIn m))
  rw [Poll.skipTo_of_le (Poll.le_cursor_of_skipTo _ _), Poll.stop_skipTo] at hq
  have hn : (ring.next p).run m = (ring.next (p.skipTo (ring.floorIn m))).run m := by
    rw [ring.run_next m p, if_neg h, hq]
    split <;> rfl
  rw [drain, drain, hn]

/-! ## What a whole walk delivers -/

variable (ring m)

/-- What is found under the indices above `c` and up to `e`, in their order. -/
def unread (c e : Nat) : List IndexedPacket :=
  (List.range' (c + 1) (e - c)).filterMap fun i => ring.found m (.ofNat i)

theorem unread_of_le {c e : Nat} (h : e ≤ c) : ring.unread m c e = [] := by
  rw [unread, Nat.sub_eq_zero_of_le h]
  rfl

theorem unread_of_lt {c e : Nat} (h : c < e) :
    ring.unread m c e = (ring.found m (.ofNat (c + 1))).toList ++ ring.unread m (c + 1) e := by
  rw [unread, unread, show e - c = (e - (c + 1)) + 1 by omega, List.range'_succ, List.filterMap_cons]
  cases ring.found m (.ofNat (c + 1)) <;> rfl

theorem length_unread_le (c e : Nat) : (ring.unread m c e).length ≤ e - c :=
  Nat.le_trans (List.length_filterMap_le _ _) (Nat.le_of_eq List.length_range')

variable {ring m}

/-- A walk above the floor delivers all that is found up to its end, and counts all that it passes over. -/
theorem drain_of_floor_le (hf : ring.floorIn m ≤ p.cursor) (hp : p.cursor ≤ p.stop) :
    ring.drain m p = (ring.unread m p.cursor.toNat p.stop.toNat, { p with
      cursor := p.stop
      skipped := p.skipped +
        .ofNat (p.stop.toNat - p.cursor.toNat - (ring.unread m p.cursor.toNat p.stop.toNat).length) }) := by
  induction hr : p.stop.toNat - p.cursor.toNat generalizing p with
  | zero =>
    have he : p.stop = p.cursor := UInt64.le_antisymm (UInt64.le_iff_toNat_le.2 (by omega)) hp
    rw [drain_of_stop_le (he ▸ UInt64.le_refl _), he, ring.unread_of_le m (Nat.le_refl _)]
    cases p
    simp_all
  | succ r ih =>
    have hlt : p.cursor.toNat < p.stop.toNat := by omega
    have hs := p.stop.toNat_lt
    have hc : (p.cursor + 1).toNat = p.cursor.toNat + 1 := by
      rw [UInt64.toNat_add, UInt64.toNat_one]
      omega
    have hi : UInt64.ofNat (p.cursor.toNat + 1) = p.cursor + 1 := by rw [← hc, UInt64.ofNat_toNat]
    have hl := ring.length_unread_le m (p.cursor.toNat + 1) p.stop.toNat
    have hf' : ring.floorIn m ≤ p.cursor + 1 := by
      rw [UInt64.le_iff_toNat_le] at hf ⊢
      omega
    have hp' : p.cursor + 1 ≤ p.stop := by
      rw [UInt64.le_iff_toNat_le]
      omega
    have hn : ¬p.stop ≤ p.cursor := by
      rw [UInt64.le_iff_toNat_le]
      omega
    have hr' : p.stop.toNat - (p.cursor + 1).toNat = r := by
      rw [hc]
      omega
    rw [ring.unread_of_lt m hlt, hi]
    cases hx : ring.found m (p.cursor + 1) with
    | some packet =>
      have hd := ih (p := p.deliver) hf' hp' hr'
      rw [drain_of_found hn hf hx, hd, Poll.deliver, hc]
      simp only [Option.toList_some, List.cons_append, List.nil_append, List.length_cons]
      rw [show r + 1 - ((ring.unread m (p.cursor.toNat + 1) p.stop.toNat).length + 1) =
        r - (ring.unread m (p.cursor.toNat + 1) p.stop.toNat).length by omega]
    | none =>
      have hd := ih (p := p.skip) hf' hp' hr'
      rw [drain_of_not_found hn hf hx, hd, Poll.skip, hc]
      simp only [Option.toList_none, List.nil_append]
      rw [show r + 1 - (ring.unread m (p.cursor.toNat + 1) p.stop.toNat).length =
        1 + (r - (ring.unread m (p.cursor.toNat + 1) p.stop.toNat).length) by omega, UInt64.ofNat_add,
        ← UInt64.add_assoc]
      rfl

/-- **A walk delivers what is found above its cursor and above the floor, and counts all else up to its end.** -/
theorem drain_of_le (hp : p.cursor ≤ p.stop) (hf : ring.floorIn m ≤ p.stop) :
    ring.drain m p = (ring.unread m (max p.cursor.toNat (ring.floorIn m).toNat) p.stop.toNat, { p with
      cursor := p.stop
      skipped := p.skipped + .ofNat (p.stop.toNat - p.cursor.toNat -
        (ring.unread m (max p.cursor.toNat (ring.floorIn m).toNat) p.stop.toNat).length) }) := by
  have hl := ring.length_unread_le m (ring.floorIn m).toNat p.stop.toNat
  rw [UInt64.le_iff_toNat_le] at hp hf
  rcases Nat.lt_or_ge p.cursor.toNat (ring.floorIn m).toNat with hlt | hge
  · have hn : ¬p.stop ≤ p.cursor := by
      rw [UInt64.le_iff_toNat_le]
      omega
    rw [Nat.max_eq_right (Nat.le_of_lt hlt), drain_skipTo hn, Poll.skipTo, if_pos (UInt64.lt_iff_toNat_lt.2 hlt),
      drain_of_floor_le (UInt64.le_refl _) (UInt64.le_iff_toNat_le.2 hf)]
    have hd : ring.floorIn m - p.cursor = .ofNat ((ring.floorIn m).toNat - p.cursor.toNat) := by
      rw [UInt64.ofNat_sub (Nat.le_of_lt hlt), UInt64.ofNat_toNat, UInt64.ofNat_toNat]
    simp only [hd, UInt64.add_assoc, ← UInt64.ofNat_add]
    rw [show (ring.floorIn m).toNat - p.cursor.toNat + (p.stop.toNat - (ring.floorIn m).toNat -
      (ring.unread m (ring.floorIn m).toNat p.stop.toNat).length) = p.stop.toNat - p.cursor.toNat -
        (ring.unread m (ring.floorIn m).toNat p.stop.toNat).length by omega]
  · rw [Nat.max_eq_left hge]
    exact drain_of_floor_le (UInt64.le_iff_toNat_le.2 hge) (UInt64.le_iff_toNat_le.2 hp)

end PacketRing

end MediaChannels
