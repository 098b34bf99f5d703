import MediaChannels.Forward.Basic
import MediaChannels.SharedMemory

/-!
# Machines

The shared memory of a machine and the mailboxes of its processes. A part of a program that works on one region sees the
bytes of that region and the mailboxes.

* `within_shared_of_ne`: working on one object leaves the others alone.
-/

namespace MediaChannels

/-- Shared memory and mailboxes. -/
structure Machine where
  shared : SharedMemory := .empty
  office : Office := .empty

namespace Machine

variable {α : Type} (m : Machine)

/-- What a program sees that works on an object. -/
def environment (object : Nat) : Environment := { memory := (m.shared.object object).memory, office := m.office }

/-- Puts back what a program has left that worked on an object. -/
def restore (object : Nat) (env : Environment) : Machine :=
  { shared := m.shared.setObject object { m.shared.object object with memory := env.memory }, office := env.office }

/-- Works on an object. -/
def within (object : Nat) (work : Environment → α × Environment) : α × Machine :=
  let (value, env) := work (m.environment object)
  (value, m.restore object env)

/-- Runs a program on the bytes of an object. -/
def access (object : Nat) (program : Access α) : α × Machine :=
  let (value, shared) := m.shared.access object program
  (value, { m with shared })

theorem within_shared_of_ne {object other : Nat} (work : Environment → α × Environment) (h : object ≠ other) :
    (m.within object work).2.shared.object other = m.shared.object other :=
  SharedMemory.object_setObject_of_ne m.shared _ h

end Machine

end MediaChannels
