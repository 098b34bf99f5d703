/-!
# Queues

An unbounded queue for any number of producers and consumers, which can be closed. Closing discards what is pending:
nothing comes out of a closed queue, and what is pushed into it is dropped.

* `pending_push`, `tryPop_eq_some_iff`: an open queue gives its items in the order in which they were pushed.
* `pop_eq`: only at an open queue without items a consumer has to wait.
* `pending_close`, `push_close`, `tryPop_close`: a closed queue stays empty.
-/

namespace MediaChannels

/-- The items of a queue, oldest first, and whether it is closed. -/
structure Queue (α : Type) where
  items : List α := []
  closed : Bool := false
  deriving DecidableEq, Repr

namespace Queue

variable {α : Type}

/-- An open queue without items. -/
instance : Inhabited (Queue α) := ⟨{}⟩

/-- What can still be taken out. -/
def pending (q : Queue α) : List α := if q.closed then [] else q.items

/-- Appends an item. -/
def push (q : Queue α) (a : α) : Queue α := if q.closed then q else { q with items := q.items ++ [a] }

/-- Appends items one after the other. -/
def pushAll (q : Queue α) (as : List α) : Queue α := as.foldl push q

/-- Takes the oldest item, if there is one. -/
def tryPop (q : Queue α) : Option α × Queue α :=
  match q.closed, q.items with
  | false, a :: r => (some a, { q with items := r })
  | _, _ => (none, q)

/-- What a consumer finds that takes an item and would rather wait than get none; `none` if it has to wait. -/
def pop (q : Queue α) : Option (Option α × Queue α) :=
  match q.closed, q.items with
  | true, _ => some (none, q)
  | false, a :: r => some (some a, { q with items := r })
  | false, [] => none

/-- What a consumer finds that waits no longer than until a deadline, by whether that has passed. -/
def popUntil (q : Queue α) (passed : Bool) : Option (Option α × Queue α) := if passed then some q.tryPop else q.pop

/-- Closes the queue and discards what is pending. -/
def close (_ : Queue α) : Queue α := { items := [], closed := true }

/-- Whether a consumer that takes an item has to wait. -/
def wouldBlock (q : Queue α) : Bool := !q.closed && q.items.isEmpty

/-- Whether an item is pending. -/
def hasItem (q : Queue α) : Bool := !q.pending.isEmpty

/-- The number of pending items. -/
def length (q : Queue α) : Nat := q.pending.length

/-- Takes every pending item. -/
def drain (q : Queue α) : List α × Queue α := (q.pending, if q.closed then q else { q with items := [] })

/-- What `count` waiting consumers get when values are pushed. If there are fewer values than consumers, the queue is
closed after the last of them, and the rest get nothing. -/
def serve (q : Queue α) (count : Nat) (values : List α) : List (Option α) × Queue α :=
  let q := q.pushAll values
  let served := q.pending.take count
  let answers := served.map some ++ List.replicate (count - served.length) none
  if q.closed then (answers, q)
  else if values.length < count then (answers, q.close)
  else (answers, { q with items := q.items.drop count })

@[simp] theorem pending_push (q : Queue α) (a : α) :
    (q.push a).pending = if q.closed then [] else q.pending ++ [a] := by
  unfold push pending
  split <;> simp_all

theorem tryPop_eq_some_iff {q r : Queue α} {a : α} :
    q.tryPop = (some a, r) ↔ q.closed = false ∧ q.items = a :: r.items ∧ r.closed = false := by
  obtain ⟨items, closed⟩ := q
  obtain ⟨rest, c⟩ := r
  cases closed <;> cases items <;> simp [tryPop, eq_comm]
  exact and_assoc.symm

/-- Who takes an item waits for it or gets what there is. -/
theorem pop_eq (q : Queue α) : q.pop = if q.wouldBlock then none else some q.tryPop := by
  obtain ⟨items, closed⟩ := q
  cases closed <;> cases items <;> rfl

@[simp] theorem pending_close (q : Queue α) : q.close.pending = [] := rfl

@[simp] theorem push_close (q : Queue α) (a : α) : q.close.push a = q.close := rfl

@[simp] theorem tryPop_close (q : Queue α) : q.close.tryPop = (none, q.close) := rfl

end Queue

end MediaChannels
