import MediaChannels.Mail.Office

/-!
# What stays in an office

Nothing is ever taken out of a mailbox, and a latch that was raised stays raised. So a mailbox that was shut down stays
shut down, whatever is done with it and with others.

* `Office.Regular`: the latches that mailboxes have registered exist.
* `Office.Keeps`: what an office keeps when its mailboxes are used. `keeps_addMailbox`, `keeps_shutDown`,
  `keeps_closePackets`: so do the operations that sessions use.
* `isRaised_shutDown`: a mailbox that is shut down is.
-/

namespace MediaChannels

namespace Office

variable {o o' : Office} {m m' number : Nat} {t : ItemType} {key : String}

/-- Every latch that a mailbox has registered exists. -/
def Regular (o : Office) : Prop :=
  ∀ m t key number, (o.mailbox m).events.lookup (key, t) = some number → number < (o.events.get t).size

/-- Mailboxes stay, and those that were shut down stay shut down. -/
structure Keeps (o o' : Office) : Prop where
  regular : o.Regular → o'.Regular
  size_le : o.mailboxes.size ≤ o'.mailboxes.size
  raised : ∀ m < o.mailboxes.size, o.isRaised m .shutdown = true → o'.isRaised m .shutdown = true

theorem Keeps.refl (o : Office) : o.Keeps o := ⟨id, Nat.le_refl _, fun _ _ => id⟩

theorem regular_empty : Office.empty.Regular := by
  intro m t key number hl
  simp [Office.empty, Office.mailbox, default] at hl

/-! ## Latches of mailboxes -/

theorem isRaised_iff {k : MailKey} : o.isRaised m k = true ↔
    ∃ number, (o.mailbox m).events.lookup (k.text, .flag) = some number ∧ (o.latch .flag number).isRaised = true := by
  rw [isRaised]
  cases (o.mailbox m).events.lookup (k.text, .flag) with
  | none => simp
  | some number => simp

/-- An office whose mailboxes have registered nothing else, and whose latches are the same. -/
theorem keeps_of_eq (hevents : o'.events = o.events) (hsize : o.mailboxes.size ≤ o'.mailboxes.size)
    (hmailbox : ∀ m, (o'.mailbox m).events = (o.mailbox m).events) : o.Keeps o' := by
  refine ⟨fun h m t key number hl => ?_, hsize, fun m _ hm => ?_⟩
  · rw [hevents]
    rw [hmailbox] at hl
    exact h m t key number hl
  · obtain ⟨number, hl, hraised⟩ := isRaised_iff.mp hm
    exact isRaised_iff.mpr ⟨number, (hmailbox m).symm ▸ hl, by rwa [latch, hevents]⟩

theorem mailbox_set (box : Mailbox) : Office.mailbox { o with mailboxes := o.mailboxes.setIfInBounds m box } m' =
    if m' = m ∧ m < o.mailboxes.size then box else o.mailbox m' := by
  simp only [Office.mailbox, Array.getElem?_setIfInBounds]
  by_cases hm : m = m'
  · subst hm
    by_cases hlt : m < o.mailboxes.size <;> simp [hlt]
  · simp [hm, Ne.symm hm]

/-! ## Operations -/

theorem keeps_addMailbox (o : Office) : o.Keeps o.addMailbox.2 := by
  refine keeps_of_eq rfl (by simp [addMailbox]) fun m => ?_
  by_cases hm : m = o.mailboxes.size
  · subst hm
    simp [addMailbox, Office.mailbox, default]
  · simp [addMailbox, Office.mailbox, Array.getElem?_push, hm]

theorem keeps_closePackets (o : Office) (m : Nat) (kind : ChannelKind) : o.Keeps (o.closePackets m kind) := by
  simp only [closePackets, queueOf]
  split
  · exact keeps_of_eq rfl (Nat.le_refl _) fun _ => rfl
  · refine keeps_of_eq rfl (by simp [setQueue, addQueue]) fun m' => ?_
    show (Office.mailbox { o with mailboxes := o.mailboxes.setIfInBounds m _ } m').events = _
    rw [mailbox_set]
    split
    · next h => rw [h.1]
    · rfl

theorem size_addEvent (o : Office) (t u : ItemType) :
    ((o.addEvent t).2.events.get u).size = (o.events.get u).size + if t = u then 1 else 0 := by
  by_cases h : t = u
  · subst h
    simp [addEvent]
  · simp [addEvent, Shelves.get_set_of_ne _ _ h, h]

/-- A latch that was just made has never been raised, as one that does not exist. -/
theorem latch_addEvent (o : Office) (t u : ItemType) (number : Nat) :
    (o.addEvent t).2.latch u number = o.latch u number := by
  by_cases ht : t = u
  · subst ht
    simp only [addEvent, latch, Shelves.get_set, Array.getElem?_push]
    split
    · next heq =>
      rw [heq, Array.getElem?_eq_none (Nat.le_refl _)]
      rfl
    · rfl
  · simp [addEvent, latch, Shelves.get_set_of_ne _ _ ht]

/-- A latch that was asked for is found under its key, and all others where they were. -/
theorem lookup_events_event (o : Office) (m : Nat) (t : ItemType) (key : String) (m' : Nat) (k : String × ItemType) :
    ((o.event m t key).2.mailbox m').events.lookup k =
      if m' = m ∧ m < o.mailboxes.size ∧ k = (key, t) then some (o.event m t key).1
      else (o.mailbox m').events.lookup k := by
  cases hl : (o.mailbox m).events.lookup (key, t) with
  | some number =>
    rw [event_of_lookup hl]
    split
    · next h => rw [h.1, h.2.2, hl]
    · rfl
  | none =>
    have hbox : (o.event m t key).2.mailbox m' = if m' = m ∧ m < o.mailboxes.size then
        { o.mailbox m with events := ((key, t), (o.events.get t).size) :: (o.mailbox m).events }
        else o.mailbox m' := by
      simp only [event, hl]
      exact mailbox_set _
    have hnumber : (o.event m t key).1 = (o.events.get t).size := by
      simp only [event, hl]
      rfl
    rw [hbox, hnumber]
    by_cases hm : m' = m ∧ m < o.mailboxes.size
    · obtain ⟨rfl, hlt⟩ := hm
      rw [if_pos ⟨rfl, hlt⟩, List.lookup_cons]
      by_cases hk : k = (key, t)
      · simp [hk, hlt]
      · rw [if_neg fun h => hk h.2.2, beq_false_of_ne hk]
    · rw [if_neg hm, if_neg fun h => hm ⟨h.1, h.2.1⟩]

theorem lookup_events_event_of_some {k : String × ItemType} (h : (o.mailbox m').events.lookup k = some number) :
    ((o.event m t key).2.mailbox m').events.lookup k = some number := by
  rw [lookup_events_event]
  split
  · next heq =>
    obtain ⟨rfl, -, rfl⟩ := heq
    rw [event_of_lookup h]
  · exact h

theorem latch_event (o : Office) (m : Nat) (t : ItemType) (key : String) (u : ItemType) (number : Nat) :
    (o.event m t key).2.latch u number = o.latch u number := by
  simp only [event]
  split
  · rfl
  · exact o.latch_addEvent t u number

theorem size_event_le (o : Office) (m : Nat) (t : ItemType) (key : String) (u : ItemType) :
    (o.events.get u).size ≤ ((o.event m t key).2.events.get u).size := by
  simp only [event]
  split
  · exact Nat.le_refl _
  · exact Nat.le_trans (Nat.le_add_right _ _) (Nat.le_of_eq (o.size_addEvent t u).symm)

/-- The latch that is given exists. -/
theorem Regular.event_lt (h : o.Regular) (m : Nat) (t : ItemType) (key : String) :
    (o.event m t key).1 < ((o.event m t key).2.events.get t).size := by
  cases hl : (o.mailbox m).events.lookup (key, t) with
  | some number =>
    rw [event_of_lookup hl]
    exact h m t key number hl
  | none =>
    simp only [event, hl]
    exact Nat.lt_of_lt_of_eq (Nat.lt_succ_self _) (by simp [addEvent])

theorem Regular.event (h : o.Regular) (m : Nat) (t : ItemType) (key : String) : (o.event m t key).2.Regular := by
  intro m' u key' number hl
  rw [lookup_events_event] at hl
  split at hl
  · next heq =>
    obtain ⟨-, -, hk⟩ := heq
    cases hk
    cases hl
    exact h.event_lt m t key
  · exact Nat.lt_of_lt_of_le (h m' u key' number hl) (o.size_event_le m t key u)

/-- A latch that is asked for changes nothing about the others. -/
theorem keeps_event (o : Office) (m : Nat) (t : ItemType) (key : String) : o.Keeps (o.event m t key).2 := by
  refine ⟨fun h => h.event m t key, ?_, fun m' _ hm => ?_⟩
  · simp only [Office.event]
    split <;> simp [addEvent]
  · obtain ⟨number, hl, hraised⟩ := isRaised_iff.mp hm
    exact isRaised_iff.mpr ⟨number, lookup_events_event_of_some hl, by rwa [latch_event]⟩

theorem latch_raise (o : Office) (t : ItemType) (number : Nat) (value : t.Carrier) (number' : Nat) :
    (o.raise t number value).latch t number' =
      if number' = number ∧ number < (o.events.get t).size then { value := some value } else o.latch t number' := by
  simp only [raise, setLatch, latch, Shelves.get_set, Array.getElem?_setIfInBounds]
  by_cases hn : number = number'
  · subst hn
    by_cases hlt : number < (o.events.get t).size <;> simp [hlt, Latch.raise]
  · simp [hn, Ne.symm hn]

theorem keeps_raise (o : Office) (number : Nat) : o.Keeps (o.raise .flag number true) := by
  refine ⟨fun h m t key number' hl => ?_, Nat.le_refl _, fun m _ hm => ?_⟩
  · have hsize : ((o.raise .flag number true).events.get t).size = (o.events.get t).size := by
      cases t <;> simp [raise, setLatch, Shelves.get, Shelves.set]
    rw [hsize]
    exact h m t key number' hl
  · obtain ⟨number', hl, hraised⟩ := isRaised_iff.mp hm
    refine isRaised_iff.mpr ⟨number', hl, ?_⟩
    rw [latch_raise]
    split
    · rfl
    · exact hraised

theorem Keeps.trans {o'' : Office} (h : o.Keeps o') (h' : o'.Keeps o'') : o.Keeps o'' :=
  ⟨fun hr => h'.regular (h.regular hr), Nat.le_trans h.size_le h'.size_le,
    fun m hm hraised => h'.raised m (Nat.lt_of_lt_of_le hm h.size_le) (h.raised m hm hraised)⟩

theorem keeps_shutDown (o : Office) (m : Nat) : o.Keeps (o.shutDown m) :=
  (o.keeps_event m .flag _).trans (keeps_raise _ _)

/-- **A mailbox that is shut down is.** -/
theorem isRaised_shutDown (h : o.Regular) (hm : m < o.mailboxes.size) :
    (o.shutDown m).isRaised m .shutdown = true := by
  have hl := o.lookup_event hm .flag MailKey.shutdown.text
  refine isRaised_iff.mpr ⟨_, hl, ?_⟩
  have hlt := (o.keeps_event m .flag MailKey.shutdown.text).regular h m .flag _ _ hl
  show ((Office.raise _ .flag _ true).latch .flag _).isRaised = true
  rw [latch_raise, if_pos ⟨rfl, hlt⟩]
  rfl

end Office

end MediaChannels
