import MediaChannels.Mail.Queue
import MediaChannels.Proofs.Transcript

/-!
# What comes out of a queue

Any number of producers and consumers use a queue, one after the other in the order in which they get its lock. A call
that waits gives the lock back and looks again later, so it shows as several looks, of which only the last one gives an
answer.

* `QueueCall.perform`: what is done, and found, while the lock is held.
* `perform_conserves`, `transcript_conserves`: until the queue is closed, what was delivered followed by what is pending
  is what was pushed.
* `transcript_close`: a closed queue delivers nothing and stays as it is.
* `delivers_in_order`: what all calls together deliver, and what each call finds.
-/

namespace MediaChannels

/-- What is done with a queue while its lock is held: a whole call, or one look of a call that may wait. -/
inductive QueueCall (α : Type) where
  | push (a : α)
  | pop
  /-- A look of a consumer that waits until a deadline, by whether that has passed. -/
  | popUntil (passed : Bool)
  | tryPop
  | hasItem
  | length
  | close
  | isClosed

/-- What is found. -/
inductive QueueReply (α : Type) where
  | done
  | popped (item : Option α)
  /-- There is nothing yet, so the call will look again. -/
  | waits
  | flag (b : Bool)
  | counted (n : Nat)
  deriving DecidableEq, Repr

variable {α : Type}

namespace QueueReply

/-- The reply of a consumer, and the queue that it leaves. -/
def ofPop (q : Queue α) : Option (Option α × Queue α) → QueueReply α × Queue α
  | some (item, q) => (popped item, q)
  | none => (waits, q)

/-- The item that a reply delivers. -/
def item? : QueueReply α → Option α
  | popped item => item
  | _ => none

end QueueReply

namespace QueueCall

/-- The reply to a call, and the queue that it leaves. -/
def perform : QueueCall α → Queue α → QueueReply α × Queue α
  | push a, q => (.done, q.push a)
  | pop, q => QueueReply.ofPop q q.pop
  | popUntil passed, q => QueueReply.ofPop q (q.popUntil passed)
  | tryPop, q => (.popped q.tryPop.1, q.tryPop.2)
  | hasItem, q => (.flag q.hasItem, q)
  | length, q => (.counted q.length, q)
  | close, q => (.done, q.close)
  | isClosed, q => (.flag q.closed, q)

/-- Whether a call takes an item. -/
def takes : QueueCall α → Bool
  | pop | popUntil _ | tryPop => true
  | _ => false

/-- Whether a call waits if there is no item. -/
def mayWait : QueueCall α → Bool
  | pop | popUntil false => true
  | _ => false

/-- The item that a call pushes. -/
def item? : QueueCall α → Option α
  | push a => some a
  | _ => none

/-- The items that are pushed before the queue is closed for the first time. -/
def accepted : List (QueueCall α) → List α
  | [] => []
  | close :: _ => []
  | call :: calls => call.item?.toList ++ accepted calls

/-- The items that replies deliver. -/
def delivered (replies : List (QueueReply α)) : List α := replies.filterMap QueueReply.item?

@[simp] theorem delivered_cons (reply : QueueReply α) (replies : List (QueueReply α)) :
    delivered (reply :: replies) = reply.item?.toList ++ delivered replies := by
  cases h : reply.item? <;> simp [delivered, h]

theorem accepted_cons {call : QueueCall α} (h : call ≠ close) (calls : List (QueueCall α)) :
    accepted (call :: calls) = call.item?.toList ++ accepted calls := by
  cases call with
  | close => exact absurd rfl h
  | _ => rfl

/-! ## Closed queues -/

/-- **A closed queue delivers nothing and stays as it is**, whatever is done with it. -/
theorem perform_of_close (call : QueueCall α) (q : Queue α) :
    (call.perform q.close).1.item? = none ∧ (call.perform q.close).2 = q.close := by
  cases call with
  | popUntil passed => cases passed <;> exact ⟨rfl, rfl⟩
  | _ => exact ⟨rfl, rfl⟩

theorem transcript_close (calls : List (QueueCall α)) (q : Queue α) :
    delivered (transcript perform calls q.close).1 = [] ∧ (transcript perform calls q.close).2 = q.close := by
  induction calls with
  | nil => exact ⟨rfl, rfl⟩
  | cons call calls ih =>
    obtain ⟨hitem, hsame⟩ := perform_of_close call q
    rw [transcript, hsame, delivered_cons, hitem]
    exact ih

/-! ## Open queues -/

section Open

variable {q : Queue α} {call : QueueCall α}

/-- Who takes an item gets the oldest one that is pending. -/
theorem perform_of_cons {a : α} {rest : List α} (htakes : call.takes = true) (hopen : q.closed = false)
    (hitems : q.items = a :: rest) : call.perform q = (.popped (some a), { q with items := rest }) := by
  obtain ⟨items, closed⟩ := q
  cases hopen
  cases hitems
  cases call with
  | popUntil passed => cases passed <;> rfl
  | pop | tryPop => rfl
  | _ => cases htakes

/-- If none is pending, the call waits or gets nothing. -/
theorem perform_of_nil (htakes : call.takes = true) (hopen : q.closed = false) (hitems : q.items = []) :
    call.perform q = (if call.mayWait then .waits else .popped none, q) := by
  obtain ⟨items, closed⟩ := q
  cases hopen
  cases hitems
  cases call with
  | popUntil passed => cases passed <;> rfl
  | pop | tryPop => rfl
  | _ => cases htakes

/-- **Until the queue is closed, nothing is lost and nothing appears twice**: what was pending, followed by what a call
pushes, is what the call delivers, followed by what is pending then. -/
theorem perform_conserves (hcall : call ≠ close) (hopen : q.closed = false) :
    (call.perform q).2.closed = false ∧
      q.items ++ call.item?.toList = (call.perform q).1.item?.toList ++ (call.perform q).2.items := by
  by_cases htakes : call.takes = true
  · have hpushes : call.item? = none := by
      cases call <;> first | rfl | cases htakes
    rw [hpushes]
    cases hitems : q.items with
    | nil =>
      rw [perform_of_nil htakes hopen hitems]
      refine ⟨hopen, ?_⟩
      cases call.mayWait <;> simp [QueueReply.item?, hitems]
    | cons a rest =>
      rw [perform_of_cons htakes hopen hitems]
      exact ⟨hopen, by simp [QueueReply.item?]⟩
  · cases call with
    | push a => simp [perform, Queue.push, hopen, item?, QueueReply.item?]
    | close => exact absurd rfl hcall
    | pop | popUntil _ | tryPop => exact absurd rfl htakes
    | hasItem | length | isClosed => exact ⟨hopen, List.append_nil _⟩

theorem transcript_conserves {calls : List (QueueCall α)} (hcalls : close ∉ calls) (hopen : q.closed = false) :
    (transcript perform calls q).2.closed = false ∧
      q.items ++ accepted calls = delivered (transcript perform calls q).1 ++ (transcript perform calls q).2.items := by
  induction calls generalizing q with
  | nil => exact ⟨hopen, List.append_nil _⟩
  | cons call calls ih =>
    obtain ⟨hne, hrest⟩ := List.ne_and_not_mem_of_not_mem_cons hcalls
    obtain ⟨hstill, hstep⟩ := perform_conserves (Ne.symm hne) hopen
    obtain ⟨hlast, hrun⟩ := ih hrest hstill
    refine ⟨hlast, ?_⟩
    rw [transcript, delivered_cons, accepted_cons (Ne.symm hne), ← List.append_assoc, hstep, List.append_assoc, hrun,
      List.append_assoc]

/-- Once the queue is closed it is closed for good, and what was delivered came in the order in which it was pushed. -/
theorem transcript_of_mem_close {calls : List (QueueCall α)} (hcalls : close ∈ calls) (hopen : q.closed = false) :
    (transcript perform calls q).2 = q.close ∧
      delivered (transcript perform calls q).1 <+: q.items ++ accepted calls := by
  induction calls generalizing q with
  | nil => cases hcalls
  | cons call calls ih =>
    by_cases hcall : call = close
    · obtain ⟨hnothing, hsame⟩ := transcript_close calls q
      rw [hcall, transcript, delivered_cons]
      exact ⟨hsame, hnothing ▸ List.nil_prefix⟩
    · obtain ⟨hstill, hstep⟩ := perform_conserves hcall hopen
      obtain ⟨hlast, hrun⟩ := ih ((List.mem_cons.1 hcalls).resolve_left (Ne.symm hcall)) hstill
      refine ⟨hlast, ?_⟩
      rw [transcript, delivered_cons, accepted_cons hcall, ← List.append_assoc, hstep, List.append_assoc]
      exact (List.prefix_append_right_inj _).2 hrun

end Open

/-! ## All calls together -/

/-- **A queue delivers what is pushed into it in order, each item once, until it is closed.** After any calls on a new
queue, whoever makes them,

* what was delivered is the first part of what was pushed before the first close, item by item;
* until the first close, the rest is pending: the next taker gets its first item, and waits or gets nothing only if
  there is none; the queue has as many items as that rest, and says that it has one if there is one;
* after the first close every taker gets nothing, there are no items, and a push changes nothing. -/
theorem delivers_in_order (calls : List (QueueCall α)) :
    let replies := (transcript perform calls ({} : Queue α)).1
    let q := (transcript perform calls ({} : Queue α)).2
    let rest := (accepted calls).drop (delivered replies).length
    delivered replies <+: accepted calls ∧
      (∀ call : QueueCall α, call.takes = true → (call.perform q).1 = .popped none → close ∈ calls ∨ rest = []) ∧
      (close ∉ calls →
        (length.perform q).1 = .counted ((accepted calls).length - (delivered replies).length) ∧
        (hasItem.perform q).1 = .flag (decide (0 < rest.length)) ∧
        ∀ call : QueueCall α, call.takes = true →
          (∀ a later, rest = a :: later → (call.perform q).1 = .popped (some a)) ∧
          (rest = [] → (call.perform q).1 = if call.mayWait then .waits else .popped none)) ∧
      (close ∈ calls →
        (length.perform q).1 = .counted 0 ∧ (hasItem.perform q).1 = .flag false ∧
        (∀ call : QueueCall α, call.takes = true → (call.perform q).1 = .popped none) ∧
        ∀ a, ((push a).perform q).2 = q) := by
  intro replies q rest
  by_cases hcalls : close ∈ calls
  · obtain ⟨hlast, hfirst⟩ := transcript_of_mem_close hcalls (q := {}) rfl
    have hq : q = { items := [], closed := true } := hlast
    refine ⟨hfirst, fun _ _ _ => .inl hcalls, fun h => absurd hcalls h, fun _ => ?_⟩
    rw [hq]
    refine ⟨rfl, rfl, fun call htakes => ?_, fun _ => rfl⟩
    cases call with
    | popUntil passed => cases passed <;> rfl
    | pop | tryPop => rfl
    | _ => cases htakes
  · obtain ⟨hopen, hconserved⟩ := transcript_conserves hcalls (q := {}) rfl
    have hsplit : accepted calls = delivered replies ++ q.items := hconserved
    have hrest : rest = q.items := by
      show (accepted calls).drop _ = _
      rw [hsplit, List.drop_left]
    have hpending : q.pending = q.items := by
      rw [Queue.pending, hopen]
      rfl
    refine ⟨hsplit ▸ List.prefix_append _ _, fun call htakes hnone => .inr ?_, fun _ => ?_, fun h => absurd h hcalls⟩
    · rw [hrest]
      cases hitems : q.items with
      | nil => rfl
      | cons a later =>
        rw [perform_of_cons htakes hopen hitems] at hnone
        cases hnone
    · refine ⟨?_, ?_, fun call htakes => ⟨fun a later h => ?_, fun h => ?_⟩⟩
      · rw [perform, Queue.length, hpending, hsplit, List.length_append, Nat.add_sub_cancel_left]
      · rw [perform, Queue.hasItem, hpending, hrest]
        cases q.items <;> rfl
      · rw [perform_of_cons htakes hopen (hrest.symm.trans h)]
      · rw [perform_of_nil htakes hopen (hrest.symm.trans h)]

/-- A taker that comes too early looks again; the item that is pending when the queue is closed goes to nobody. -/
theorem delivers_in_order_closed :
    let calls : List (QueueCall Nat) :=
      [.popUntil false, .push 1, .push 2, .push 3, .popUntil false, .pop, .close, .push 4, .tryPop]
    close ∈ calls ∧ accepted calls = [1, 2, 3] ∧ delivered (transcript perform calls {}).1 = [1, 2] ∧
      ∀ call : QueueCall Nat, call.takes = true → (call.perform (transcript perform calls {}).2).1 = .popped none := by
  intro calls
  have hclose : close ∈ calls := by simp [calls]
  obtain ⟨-, -, -, hclosed⟩ := delivers_in_order calls
  obtain ⟨-, -, hnothing, -⟩ := hclosed hclose
  exact ⟨hclose, rfl, rfl, hnothing⟩

end QueueCall

end MediaChannels
