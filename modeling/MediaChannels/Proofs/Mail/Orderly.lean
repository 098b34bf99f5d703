import MediaChannels.Proofs.Mail.Office

/-!
# Mailboxes in order

Mailboxes are used by keys: what somebody raises or pushes under a key of a mailbox, others find under the same key and
nowhere else. This holds because no latch is ever registered twice, which every use of an office keeps.

* `Office.valueOf`, `Office.queueUnder`: what a mailbox has under a key; asking for it changes neither
  (`valueOf_event`, `queueUnder_queueOf`).
* `Office.Orderly`: what is registered exists, and no latch is registered twice.
* `Office.Extends`: nothing that is registered gets lost, latches stay raised and queues stay closed.
* `valueOf_post_self`, `valueOf_post_of_ne`: a value that is raised under a key is found there, and the values under all
  other keys stay.
* `queueUnder_setQueue`: a queue that is replaced changes under its own keys only.
-/

namespace MediaChannels

namespace Office

variable {o o' o'' : Office} {m m' number : Nat} {t u : ItemType} {key key' : String}

/-! ## What stands under a key -/

/-- The value of the latch that a mailbox has under a key; none if nobody has raised it, or even asked for it. -/
def valueOf (o : Office) (m : Nat) (t : ItemType) (key : String) : Option t.Carrier :=
  ((o.mailbox m).events.lookup (key, t)).bind fun number => (o.latch t number).value

/-- The queue that a mailbox has under a key, open and without items if nobody has asked for it. -/
def queueUnder (o : Office) (m : Nat) (t : ItemType) (key : String) : Queue t.Carrier :=
  (((o.mailbox m).queues.lookup (key, t)).map (o.queue t)).getD {}

theorem isRaised_eq (o : Office) (m : Nat) (key : MailKey) :
    o.isRaised m key = (o.valueOf m .flag key.text).isSome := by
  rw [isRaised, valueOf]
  cases (o.mailbox m).events.lookup (key.text, .flag) <;> rfl

/-- What is registered exists, and no latch is registered twice. -/
structure Orderly (o : Office) : Prop where
  regular : o.Regular
  event_unique : ∀ {m m' t key key' number}, (o.mailbox m).events.lookup (key, t) = some number →
    (o.mailbox m').events.lookup (key', t) = some number → m' = m ∧ key' = key
  queue_lt : ∀ {m t key number}, (o.mailbox m).queues.lookup (key, t) = some number → number < (o.queues.get t).size

/-- Nothing that is registered gets lost, latches stay raised and queues stay closed. -/
structure Extends (o o' : Office) : Prop where
  size_le : o.mailboxes.size ≤ o'.mailboxes.size
  event_kept : ∀ m k number, (o.mailbox m).events.lookup k = some number → (o'.mailbox m).events.lookup k = some number
  queue_kept : ∀ m k number, (o.mailbox m).queues.lookup k = some number → (o'.mailbox m).queues.lookup k = some number
  raised : ∀ t number, (o.latch t number).isRaised = true → (o'.latch t number).isRaised = true
  closed : ∀ t number, (o.queue t number).closed = true → (o'.queue t number).closed = true

namespace Extends

theorem refl (o : Office) : o.Extends o :=
  ⟨Nat.le_refl _, fun _ _ _ => id, fun _ _ _ => id, fun _ _ => id, fun _ _ => id⟩

theorem trans (h : o.Extends o') (h' : o'.Extends o'') : o.Extends o'' where
  size_le := Nat.le_trans h.size_le h'.size_le
  event_kept m k number hl := h'.event_kept m k number (h.event_kept m k number hl)
  queue_kept m k number hl := h'.queue_kept m k number (h.queue_kept m k number hl)
  raised t number hr := h'.raised t number (h.raised t number hr)
  closed t number hc := h'.closed t number (h.closed t number hc)

theorem isRaised (h : o.Extends o') {k : MailKey} (hr : o.isRaised m k = true) : o'.isRaised m k = true := by
  obtain ⟨number, hl, hraised⟩ := isRaised_iff.mp hr
  exact isRaised_iff.mpr ⟨number, h.event_kept m _ number hl, h.raised .flag number hraised⟩

theorem queueUnder_closed (h : o.Extends o') (hc : (o.queueUnder m t key).closed = true) :
    (o'.queueUnder m t key).closed = true := by
  rw [queueUnder] at hc ⊢
  cases hl : (o.mailbox m).queues.lookup (key, t) with
  | none =>
    rw [hl] at hc
    cases hc
  | some number =>
    rw [hl] at hc
    rw [h.queue_kept m _ number hl]
    exact h.closed t number hc

end Extends

theorem orderly_empty : Office.empty.Orderly where
  regular := regular_empty
  event_unique hl _ := by simp [Office.empty, Office.mailbox, default] at hl
  queue_lt hl := by simp [Office.empty, Office.mailbox, default] at hl

/-! ## Mailboxes and things that no mailbox knows -/

theorem mailbox_addMailbox (o : Office) (m : Nat) : o.addMailbox.2.mailbox m = o.mailbox m := by
  by_cases hm : m = o.mailboxes.size
  · simp [addMailbox, Office.mailbox, hm, default]
  · simp [addMailbox, Office.mailbox, Array.getElem?_push, hm]

theorem queue_addQueue (o : Office) (t u : ItemType) (number : Nat) :
    (o.addQueue t).2.queue u number = o.queue u number := by
  by_cases ht : t = u
  · subst ht
    simp only [addQueue, queue, Shelves.get_set, Array.getElem?_push]
    split
    · next heq =>
      rw [heq, Array.getElem?_eq_none (Nat.le_refl _)]
      rfl
    · rfl
  · simp [addQueue, queue, Shelves.get_set_of_ne _ _ ht]

theorem size_addQueue (o : Office) (t u : ItemType) :
    ((o.addQueue t).2.queues.get u).size = (o.queues.get u).size + if t = u then 1 else 0 := by
  by_cases h : t = u
  · subst h
    simp [addQueue]
  · simp [addQueue, Shelves.get_set_of_ne _ _ h, h]

theorem extends_addMailbox (o : Office) : o.Extends o.addMailbox.2 where
  size_le := by simp [addMailbox]
  event_kept m k number hl := by rwa [mailbox_addMailbox]
  queue_kept m k number hl := by rwa [mailbox_addMailbox]
  raised _ _ := id
  closed _ _ := id

theorem Orderly.addMailbox (h : o.Orderly) : o.addMailbox.2.Orderly where
  regular := o.keeps_addMailbox.regular h.regular
  event_unique hl hl' := by
    rw [mailbox_addMailbox] at hl hl'
    exact h.event_unique hl hl'
  queue_lt hl := by
    rw [mailbox_addMailbox] at hl
    exact h.queue_lt hl

theorem extends_addEvent (o : Office) (t : ItemType) : o.Extends (o.addEvent t).2 where
  size_le := Nat.le_refl _
  event_kept _ _ _ := id
  queue_kept _ _ _ := id
  raised u number hr := by rwa [latch_addEvent]
  closed _ _ := id

theorem Orderly.addEvent (h : o.Orderly) (t : ItemType) : (o.addEvent t).2.Orderly where
  regular m u key number hl :=
    Nat.lt_of_lt_of_le (h.regular m u key number hl)
      (Nat.le_trans (Nat.le_add_right _ _) (Nat.le_of_eq (o.size_addEvent t u).symm))
  event_unique hl hl' := h.event_unique hl hl'
  queue_lt hl := h.queue_lt hl

theorem extends_addQueue (o : Office) (t : ItemType) : o.Extends (o.addQueue t).2 where
  size_le := Nat.le_refl _
  event_kept _ _ _ := id
  queue_kept _ _ _ := id
  raised _ _ := id
  closed u number hc := by rwa [queue_addQueue]

theorem Orderly.addQueue (h : o.Orderly) (t : ItemType) : (o.addQueue t).2.Orderly where
  regular := h.regular
  event_unique hl hl' := h.event_unique hl hl'
  queue_lt {_ u _ _} hl :=
    Nat.lt_of_lt_of_le (h.queue_lt hl)
      (Nat.le_trans (Nat.le_add_right _ _) (Nat.le_of_eq (o.size_addQueue t u).symm))

/-! ## Asking for a latch -/

theorem queues_event (o : Office) (m : Nat) (t : ItemType) (key : String) (m' : Nat) :
    ((o.event m t key).2.mailbox m').queues = (o.mailbox m').queues := by
  simp only [event]
  split
  · rfl
  · show (Office.mailbox { o with mailboxes := o.mailboxes.setIfInBounds m _ } m').queues = _
    rw [mailbox_set]
    split
    · next h => rw [h.1]
    · rfl

theorem queues_eq_event (o : Office) (m : Nat) (t : ItemType) (key : String) :
    (o.event m t key).2.queues = o.queues := by
  simp only [event]
  split <;> rfl

/-- The latch that is given is registered nowhere else. -/
theorem Orderly.eq_of_lookup_event (h : o.Orderly)
    (hl : (o.mailbox m').events.lookup (key', t) = some (o.event m t key).1) : m' = m ∧ key' = key := by
  cases hl' : (o.mailbox m).events.lookup (key, t) with
  | some number =>
    rw [event_of_lookup hl'] at hl
    exact h.event_unique hl' hl
  | none =>
    have hnumber : (o.event m t key).1 = (o.events.get t).size := by
      simp only [event, hl']
      rfl
    have hlt := h.regular m' t key' _ hl
    rw [hnumber] at hlt
    exact absurd hlt (Nat.lt_irrefl _)

theorem extends_event (o : Office) (m : Nat) (t : ItemType) (key : String) : o.Extends (o.event m t key).2 where
  size_le := (o.keeps_event m t key).size_le
  event_kept _ _ _ hl := lookup_events_event_of_some hl
  queue_kept m' k number hl := by rwa [queues_event]
  raised u number hr := by rwa [latch_event]
  closed u number hc := by rwa [queue, queues_eq_event]

theorem Orderly.event (h : o.Orderly) (m : Nat) (t : ItemType) (key : String) : (o.event m t key).2.Orderly where
  regular := h.regular.event m t key
  event_unique {m₁ m₂ u key₁ key₂ number} hl hl' := by
    rw [lookup_events_event] at hl hl'
    split at hl <;> split at hl'
    · next h₁ h₂ =>
      cases h₁.2.2
      cases h₂.2.2
      exact ⟨h₂.1.trans h₁.1.symm, rfl⟩
    · next h₁ _ =>
      cases h₁.2.2
      cases hl
      obtain ⟨hm, hkey⟩ := h.eq_of_lookup_event hl'
      exact ⟨hm.trans h₁.1.symm, hkey⟩
    · next h₂ =>
      cases h₂.2.2
      cases hl'
      obtain ⟨hm, hkey⟩ := h.eq_of_lookup_event hl
      exact ⟨h₂.1.trans hm.symm, hkey.symm⟩
    · exact h.event_unique hl hl'
  queue_lt hl := by
    rw [queues_event] at hl
    rw [queues_eq_event]
    exact h.queue_lt hl

/-- Asking for a latch changes no value. -/
theorem valueOf_event (o : Office) (m : Nat) (t : ItemType) (key : String) (m' : Nat) (u : ItemType) (key' : String) :
    (o.event m t key).2.valueOf m' u key' = o.valueOf m' u key' := by
  simp only [valueOf, latch_event, lookup_events_event]
  split
  · next heq =>
    obtain ⟨rfl, -, hk⟩ := heq
    cases hk
    rw [Option.bind_some]
    cases hl : (o.mailbox m').events.lookup (key, t) with
    | some number => rw [event_of_lookup hl, Option.bind_some]
    | none =>
      -- A latch that was just made has no value.
      simp only [event, hl, latch, addEvent, Array.getElem?_eq_none (Nat.le_refl _)]
      rfl
  · rfl

/-- Asking for a latch changes no queue. -/
theorem queueUnder_event (o : Office) (m : Nat) (t : ItemType) (key : String) (m' : Nat) (u : ItemType)
    (key' : String) : (o.event m t key).2.queueUnder m' u key' = o.queueUnder m' u key' := by
  have hqueue : (o.event m t key).2.queue u = o.queue u := by
    funext number
    rw [queue, queues_eq_event, queue]
  rw [queueUnder, hqueue, queues_event, queueUnder]

/-! ## Raising a latch -/

theorem size_raise (o : Office) (t : ItemType) (number : Nat) (value : t.Carrier) (u : ItemType) :
    ((o.raise t number value).events.get u).size = (o.events.get u).size := by
  by_cases ht : t = u
  · subst ht
    simp [raise, setLatch]
  · simp [raise, setLatch, Shelves.get_set_of_ne _ _ ht]

theorem latch_raise_of_ne (o : Office) (ht : t ≠ u) (number : Nat) (value : t.Carrier) (number' : Nat) :
    (o.raise t number value).latch u number' = o.latch u number' := by
  simp [raise, setLatch, latch, Shelves.get_set_of_ne _ _ ht]

theorem extends_raise (o : Office) (t : ItemType) (number : Nat) (value : t.Carrier) :
    o.Extends (o.raise t number value) where
  size_le := Nat.le_refl _
  event_kept _ _ _ := id
  queue_kept _ _ _ := id
  raised u number' hr := by
    by_cases ht : t = u
    · subst ht
      rw [latch_raise]
      split
      · rfl
      · exact hr
    · rwa [latch_raise_of_ne o ht]
  closed _ _ := id

theorem Orderly.raise (h : o.Orderly) (t : ItemType) (number : Nat) (value : t.Carrier) :
    (o.raise t number value).Orderly where
  regular m u key number' hl := by
    rw [size_raise]
    exact h.regular m u key number' hl
  event_unique hl hl' := h.event_unique hl hl'
  queue_lt hl := h.queue_lt hl

/-- Raises the latch that a mailbox has under a key. -/
def post (o : Office) (m : Nat) (t : ItemType) (key : String) (value : t.Carrier) : Office :=
  (o.event m t key).2.raise t (o.event m t key).1 value

theorem extends_post (o : Office) (m : Nat) (t : ItemType) (key : String) (value : t.Carrier) :
    o.Extends (o.post m t key value) := (o.extends_event m t key).trans (extends_raise _ _ _ _)

theorem Orderly.post (h : o.Orderly) (m : Nat) (t : ItemType) (key : String) (value : t.Carrier) :
    (o.post m t key value).Orderly := (h.event m t key).raise _ _ _

theorem valueOf_post_self (h : o.Orderly) (hm : m < o.mailboxes.size) (value : t.Carrier) :
    (o.post m t key value).valueOf m t key = some value := by
  have hl : ((o.post m t key value).mailbox m).events.lookup (key, t) = some (o.event m t key).1 :=
    o.lookup_event hm t key
  rw [valueOf, hl, Option.bind_some, post, latch_raise, if_pos ⟨rfl, h.regular.event_lt m t key⟩]

/-- **A value that is raised under a key leaves the values under all other keys as they are.** -/
theorem valueOf_post_of_ne (h : o.Orderly) (hne : ¬(m' = m ∧ u = t ∧ key' = key)) (value : t.Carrier) :
    (o.post m t key value).valueOf m' u key' = o.valueOf m' u key' := by
  rw [← o.valueOf_event m t key m' u key', valueOf, valueOf]
  show (((o.event m t key).2.mailbox m').events.lookup (key', u)).bind _ = _
  cases hl : ((o.event m t key).2.mailbox m').events.lookup (key', u) with
  | none => rfl
  | some number =>
    rw [Option.bind_some, Option.bind_some, post]
    by_cases ht : t = u
    · subst ht
      have hnumber : number ≠ (o.event m t key).1 := by
        rintro rfl
        rw [lookup_events_event] at hl
        split at hl
        · next heq =>
          cases heq.2.2
          exact hne ⟨heq.1, rfl, rfl⟩
        · obtain ⟨hm, hkey⟩ := h.eq_of_lookup_event hl
          exact hne ⟨hm, rfl, hkey⟩
      rw [latch_raise, if_neg fun hn => hnumber hn.1]
    · rw [latch_raise_of_ne _ ht]

theorem queueUnder_post (o : Office) (m : Nat) (t : ItemType) (key : String) (value : t.Carrier) (m' : Nat)
    (u : ItemType) (key' : String) : (o.post m t key value).queueUnder m' u key' = o.queueUnder m' u key' :=
  o.queueUnder_event m t key m' u key'

/-! ## Asking for a queue -/

theorem queueOf_of_lookup (h : (o.mailbox m).queues.lookup (key, t) = some number) :
    o.queueOf m t key = (number, o) := by
  simp only [queueOf, h]

theorem events_queueOf (o : Office) (m : Nat) (t : ItemType) (key : String) (m' : Nat) :
    ((o.queueOf m t key).2.mailbox m').events = (o.mailbox m').events := by
  simp only [queueOf]
  split
  · rfl
  · show (Office.mailbox { o with mailboxes := o.mailboxes.setIfInBounds m _ } m').events = _
    rw [mailbox_set]
    split
    · next h => rw [h.1]
    · rfl

theorem events_eq_queueOf (o : Office) (m : Nat) (t : ItemType) (key : String) :
    (o.queueOf m t key).2.events = o.events := by
  simp only [queueOf]
  split <;> rfl

theorem queue_queueOf (o : Office) (m : Nat) (t : ItemType) (key : String) (u : ItemType) (number : Nat) :
    (o.queueOf m t key).2.queue u number = o.queue u number := by
  simp only [queueOf]
  split
  · rfl
  · exact o.queue_addQueue t u number

/-- A queue that was asked for is found under its key, and all others where they were. -/
theorem lookup_queues_queueOf (o : Office) (m : Nat) (t : ItemType) (key : String) (m' : Nat) (k : String × ItemType) :
    ((o.queueOf m t key).2.mailbox m').queues.lookup k =
      if m' = m ∧ m < o.mailboxes.size ∧ k = (key, t) then some (o.queueOf m t key).1
      else (o.mailbox m').queues.lookup k := by
  cases hl : (o.mailbox m).queues.lookup (key, t) with
  | some number =>
    rw [queueOf_of_lookup hl]
    split
    · next h => rw [h.1, h.2.2, hl]
    · rfl
  | none =>
    have hbox : (o.queueOf m t key).2.mailbox m' = if m' = m ∧ m < o.mailboxes.size then
        { o.mailbox m with queues := ((key, t), (o.queues.get t).size) :: (o.mailbox m).queues }
        else o.mailbox m' := by
      simp only [queueOf, hl]
      exact mailbox_set _
    have hnumber : (o.queueOf m t key).1 = (o.queues.get t).size := by
      simp only [queueOf, hl]
      rfl
    rw [hbox, hnumber]
    by_cases hm : m' = m ∧ m < o.mailboxes.size
    · obtain ⟨rfl, hlt⟩ := hm
      rw [if_pos ⟨rfl, hlt⟩, List.lookup_cons]
      by_cases hk : k = (key, t)
      · simp [hk, hlt]
      · rw [if_neg fun h => hk h.2.2, beq_false_of_ne hk]
    · rw [if_neg hm, if_neg fun h => hm ⟨h.1, h.2.1⟩]

/-- The queue that is given is the one under the key. -/
theorem queue_queueOf_self (o : Office) (m : Nat) (t : ItemType) (key : String) :
    o.queue t (o.queueOf m t key).1 = o.queueUnder m t key := by
  rw [queueUnder]
  cases hl : (o.mailbox m).queues.lookup (key, t) with
  | some number => rw [queueOf_of_lookup hl, Option.map_some, Option.getD_some]
  | none =>
    simp only [queueOf, hl, queue, addQueue, Array.getElem?_eq_none (Nat.le_refl _)]
    rfl

theorem Orderly.queueOf_lt (h : o.Orderly) (m : Nat) (t : ItemType) (key : String) :
    (o.queueOf m t key).1 < ((o.queueOf m t key).2.queues.get t).size := by
  cases hl : (o.mailbox m).queues.lookup (key, t) with
  | some number =>
    rw [queueOf_of_lookup hl]
    exact h.queue_lt hl
  | none =>
    simp only [queueOf, hl]
    exact Nat.lt_of_lt_of_eq (Nat.lt_succ_self _) (by simp [Office.addQueue])

theorem size_queueOf_le (o : Office) (m : Nat) (t : ItemType) (key : String) (u : ItemType) :
    (o.queues.get u).size ≤ ((o.queueOf m t key).2.queues.get u).size := by
  simp only [queueOf]
  split
  · exact Nat.le_refl _
  · exact Nat.le_trans (Nat.le_add_right _ _) (Nat.le_of_eq (o.size_addQueue t u).symm)

theorem extends_queueOf (o : Office) (m : Nat) (t : ItemType) (key : String) : o.Extends (o.queueOf m t key).2 where
  size_le := by
    simp only [queueOf]
    split <;> simp [addQueue]
  event_kept m' k number hl := by rwa [events_queueOf]
  queue_kept m' k number hl := by
    rw [lookup_queues_queueOf]
    split
    · next heq =>
      obtain ⟨rfl, -, rfl⟩ := heq
      rw [queueOf_of_lookup hl]
    · exact hl
  raised u number hr := by rwa [latch, events_eq_queueOf]
  closed u number hc := by rwa [queue_queueOf]

theorem Orderly.queueOf (h : o.Orderly) (m : Nat) (t : ItemType) (key : String) : (o.queueOf m t key).2.Orderly where
  regular m' u key' number hl := by
    rw [events_queueOf] at hl
    rw [events_eq_queueOf]
    exact h.regular m' u key' number hl
  event_unique hl hl' := by
    rw [events_queueOf] at hl hl'
    exact h.event_unique hl hl'
  queue_lt {m' u key' number} hl := by
    rw [lookup_queues_queueOf] at hl
    split at hl
    · next heq =>
      cases heq.2.2
      cases hl
      exact h.queueOf_lt m t key
    · exact Nat.lt_of_lt_of_le (h.queue_lt hl) (o.size_queueOf_le m t key u)

/-- Asking for a queue changes no value of a latch. -/
theorem valueOf_queueOf (o : Office) (m : Nat) (t : ItemType) (key : String) (m' : Nat) (u : ItemType) (key' : String) :
    (o.queueOf m t key).2.valueOf m' u key' = o.valueOf m' u key' := by
  simp only [valueOf, events_queueOf, latch, events_eq_queueOf]

/-- Asking for a queue changes no queue. -/
theorem queueUnder_queueOf (o : Office) (m : Nat) (t : ItemType) (key : String) (m' : Nat) (u : ItemType)
    (key' : String) : (o.queueOf m t key).2.queueUnder m' u key' = o.queueUnder m' u key' := by
  have hqueue : (o.queueOf m t key).2.queue u = o.queue u := funext fun number => o.queue_queueOf m t key u number
  rw [queueUnder, hqueue, lookup_queues_queueOf]
  split
  · next heq =>
    obtain ⟨rfl, -, hk⟩ := heq
    cases hk
    rw [Option.map_some, Option.getD_some, queue_queueOf_self]
  · rfl

/-! ## Replacing a queue -/

theorem size_setQueue (o : Office) (t : ItemType) (number : Nat) (q : Queue t.Carrier) (u : ItemType) :
    ((o.setQueue t number q).queues.get u).size = (o.queues.get u).size := by
  by_cases ht : t = u
  · subst ht
    simp [setQueue]
  · simp [setQueue, Shelves.get_set_of_ne _ _ ht]

theorem queue_setQueue (o : Office) (t : ItemType) (number : Nat) (q : Queue t.Carrier) (number' : Nat) :
    (o.setQueue t number q).queue t number' =
      if number' = number ∧ number < (o.queues.get t).size then q else o.queue t number' := by
  simp only [setQueue, queue, Shelves.get_set, Array.getElem?_setIfInBounds]
  by_cases hn : number = number'
  · subst hn
    by_cases hlt : number < (o.queues.get t).size <;> simp [hlt]
  · simp [hn, Ne.symm hn]

theorem queue_setQueue_of_ne (o : Office) (ht : t ≠ u) (number : Nat) (q : Queue t.Carrier) (number' : Nat) :
    (o.setQueue t number q).queue u number' = o.queue u number' := by
  simp [setQueue, queue, Shelves.get_set_of_ne _ _ ht]

theorem extends_setQueue {q : Queue t.Carrier} (hclosed : (o.queue t number).closed = true → q.closed = true) :
    o.Extends (o.setQueue t number q) where
  size_le := Nat.le_refl _
  event_kept _ _ _ := id
  queue_kept _ _ _ := id
  raised _ _ := id
  closed u number' hc := by
    by_cases ht : t = u
    · subst ht
      rw [queue_setQueue]
      split
      · next heq => exact hclosed (heq.1 ▸ hc)
      · exact hc
    · rwa [queue_setQueue_of_ne o ht]

theorem Orderly.setQueue (h : o.Orderly) (t : ItemType) (number : Nat) (q : Queue t.Carrier) :
    (o.setQueue t number q).Orderly where
  regular := h.regular
  event_unique hl hl' := h.event_unique hl hl'
  queue_lt hl := by
    rw [size_setQueue]
    exact h.queue_lt hl

/-- **A queue that is replaced is found under its own keys**, and under no other. -/
theorem queueUnder_setQueue (h : o.Orderly) (number : Nat) (q : Queue t.Carrier) (m : Nat) (key : String) :
    (o.setQueue t number q).queueUnder m t key =
      if (o.mailbox m).queues.lookup (key, t) = some number then q else o.queueUnder m t key := by
  rw [queueUnder, queueUnder]
  show (((o.mailbox m).queues.lookup (key, t)).map ((o.setQueue t number q).queue t)).getD {} = _
  cases hl : (o.mailbox m).queues.lookup (key, t) with
  | none => rfl
  | some number' =>
    rw [Option.map_some, Option.getD_some, queue_setQueue, Option.map_some, Option.getD_some]
    by_cases hn : number' = number
    · rw [if_pos ⟨hn, hn ▸ h.queue_lt hl⟩, if_pos (by rw [hn])]
    · rw [if_neg fun hc => hn hc.1, if_neg fun hc => hn (Option.some.inj hc)]

theorem queueUnder_setQueue_of_ne (o : Office) (ht : t ≠ u) (number : Nat) (q : Queue t.Carrier) (m : Nat)
    (key : String) : (o.setQueue t number q).queueUnder m u key = o.queueUnder m u key := by
  have hqueue : (o.setQueue t number q).queue u = o.queue u :=
    funext fun number' => o.queue_setQueue_of_ne ht number q number'
  rw [queueUnder, hqueue]
  rfl

end Office

end MediaChannels
