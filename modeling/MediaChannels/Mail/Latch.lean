/-!
# Latches

A latch holds a value from the first time that it is raised; raising it again replaces the value, and nothing clears it.

* `isRaised_raise`: once raised, always raised.
-/

namespace MediaChannels

/-- A value that, once raised, stays raised. -/
structure Latch (α : Type) where
  value : Option α := none
  deriving DecidableEq, Repr

namespace Latch

variable {α : Type}

/-- A latch that was never raised. -/
instance : Inhabited (Latch α) := ⟨{}⟩

/-- The latch after raising a value. -/
def raise (_ : Latch α) (a : α) : Latch α := { value := some a }

/-- Whether the latch was ever raised. -/
def isRaised (l : Latch α) : Bool := l.value.isSome

@[simp] theorem value_raise (l : Latch α) (a : α) : (l.raise a).value = some a := rfl

@[simp] theorem isRaised_raise (l : Latch α) (a : α) : (l.raise a).isRaised = true := rfl

/-- What `count` threads that wait for a latch see when a value is raised. -/
def wake (l : Latch α) (count : Nat) (a : α) : List α × Latch α := (List.replicate count a, l.raise a)

end Latch

end MediaChannels
