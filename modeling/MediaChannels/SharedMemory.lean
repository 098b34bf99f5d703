import MediaChannels.Error
import MediaChannels.Memory.Access
import MediaChannels.Text.Utf8

/-!
# Named shared memory

A table leads from names to memory objects. An object lives on for as long as somebody maps it, so a name can come to
stand for another object, or for none, while handles of the old one are in use. Creating a region makes the name if it
is new, sets the size of its object, maps it, and clears it; each of these steps can fail, and what the steps before it
did stays done. The owner of a region removes its name when it is released, whatever the name stands for by then.

* `checkName_eq_ok_iff`: the names that can be used.
* `access_object`: accessing one object leaves the others alone.
-/

namespace MediaChannels

/-- The size and the bytes of a memory object. -/
structure MemoryObject where
  size : Nat
  memory : Memory

/-- The empty object. -/
instance : Inhabited MemoryObject := ⟨⟨0, .zeroed⟩⟩

/-- What a name stands for: the object with a number, or something that cannot be opened as memory. -/
inductive NameEntry where
  | object (number : Nat)
  | blocked
  deriving DecidableEq, Repr

/-- A mapped region. -/
structure Region where
  /-- Tells apart the mappings of one object. -/
  mapping : Nat
  object : Nat
  size : Nat
  name : String
  /-- Whether releasing the region removes its name. -/
  owner : Bool
  deriving DecidableEq, Repr

/-- The table of names, every object ever made, and the number of mappings made so far. -/
structure SharedMemory where
  names : List (String × NameEntry)
  objects : Array MemoryObject
  mappings : Nat

namespace SharedMemory

/-- No name and no object. -/
def empty : SharedMemory := { names := [], objects := #[], mappings := 0 }

/-- The longest name, in bytes: a file name has 255, of which the system's own part takes twelve. -/
def maxNameLength : Nat := 255 - 12

/-- The largest size that an object can have is one less. -/
def sizeLimit : Nat := 1 <<< 63

/-- The largest region that finds room in the address space of a process. -/
def addressSpace : Nat := 1 <<< 47 - 4096

/-- Whether a name can be used: short enough, not empty, and free of slashes and of NUL. -/
def checkName (name : String) : Except Error Unit :=
  let length := (Utf8.encode name).length
  if maxNameLength < length then .error (.nameTooLong maxNameLength length)
  else if name.toList = [] ∨ '/' ∈ name.toList ∨ '\x00' ∈ name.toList then .error (.invalidName name)
  else .ok ()

variable (s : SharedMemory)

/-- What a name stands for. -/
def find? (name : String) : Option NameEntry := s.names.lookup name

/-- The table without a name. -/
def unname (name : String) : SharedMemory := { s with names := s.names.filter (·.1 != name) }

/-- The table in which a name stands for an entry. -/
def setName (name : String) (entry : NameEntry) : SharedMemory :=
  { s with names := (name, entry) :: (s.unname name).names }

/-- The object with a number; the empty object if there is none. -/
def object (number : Nat) : MemoryObject := s.objects[number]?.getD default

/-- Makes an object without a name. -/
def addObject (o : MemoryObject) : Nat × SharedMemory := (s.objects.size, { s with objects := s.objects.push o })

/-- Replaces an object. -/
def setObject (number : Nat) (o : MemoryObject) : SharedMemory :=
  { s with objects := s.objects.setIfInBounds number o }

/-- Runs a program on the bytes of an object. -/
def access {α : Type} (number : Nat) (program : Access α) : α × SharedMemory :=
  let o := s.object number
  let (value, memory) := program.run o.memory
  (value, s.setObject number { o with memory })

/-- Maps an object. -/
def map (number : Nat) (name : String) (owner : Bool) : Except Error Region × SharedMemory :=
  let size := (s.object number).size
  if size = 0 then (.error (.notMapped .invalidArgument), s)
  else if addressSpace < size then (.error (.notMapped .outOfMemory), s)
  else (.ok { mapping := s.mappings, object := number, size, name, owner }, { s with mappings := s.mappings + 1 })

/-- The object that a name stands for, made empty and named if the name is new. -/
def openOrCreate (name : String) : Except Error Nat × SharedMemory :=
  match s.find? name with
  | some (.object number) => (.ok number, s)
  | some .blocked => (.error (.regionNotCreated name .isADirectory), s)
  | none =>
    let (number, s) := s.addObject default
    (.ok number, s.setName name (.object number))

/-- Sets the size of an object. Bytes beyond the new size are lost. -/
def resize (number size : Nat) : Except Error Unit × SharedMemory :=
  if sizeLimit ≤ size then (.error (.notResized .invalidArgument), s)
  else
    let cells := (s.object number).memory.cells.filter fun offset _ => offset < size
    (.ok (), s.setObject number { size, memory := ⟨cells⟩ })

/-- Creates a region of zeroed bytes. A region left behind under the same name is used again. -/
def create (name : String) (size : Nat) : Except Error Region × SharedMemory :=
  match checkName name with
  | .error e => (.error e, s)
  | .ok () =>
    match s.openOrCreate name with
    | (.error e, s) => (.error e, s)
    | (.ok number, s) =>
      match s.resize number size with
      | (.error e, s) => (.error e, s)
      | (.ok (), s) =>
        match s.map number name true with
        | (.error e, s) => (.error e, s)
        | (.ok region, s) => (.ok region, s.setObject number { size, memory := .zeroed })

/-- Maps the region that a name stands for. -/
def openRegion (name : String) : Except Error Region × SharedMemory :=
  match checkName name with
  | .error e => (.error e, s)
  | .ok () =>
    match s.find? name with
    | none => (.error (.notFound name), s)
    | some .blocked => (.error (.regionNotOpened name .isADirectory), s)
    | some (.object number) =>
      if (s.object number).size = 0 then (.error (.truncated name 1 0), s)
      else s.map number name false

/-- Removes a name, unless it stands for something that is not memory. -/
def unlink (name : String) : SharedMemory :=
  match s.find? name with
  | some (.object _) => s.unname name
  | _ => s

/-- Releases a region: the owner removes the name. -/
def release (region : Region) : SharedMemory := if region.owner then s.unlink region.name else s

theorem checkName_eq_ok_iff {name : String} :
    checkName name = .ok () ↔
      (Utf8.encode name).length ≤ maxNameLength ∧ name.toList ≠ [] ∧ '/' ∉ name.toList ∧ '\x00' ∉ name.toList := by
  by_cases h₁ : maxNameLength < (Utf8.encode name).length
  · simp [checkName, h₁, Nat.not_le.2 h₁]
  · by_cases h₂ : name.toList = [] ∨ '/' ∈ name.toList ∨ '\x00' ∈ name.toList
    · simp only [checkName, h₁, h₂, if_true, if_false, reduceCtorEq, false_iff]
      rintro ⟨-, h₃, h₄, h₅⟩
      rcases h₂ with h | h | h <;> contradiction
    · simp only [checkName, h₁, h₂, if_false, true_iff]
      simp only [not_or] at h₂
      exact ⟨Nat.le_of_not_lt h₁, h₂⟩

@[simp] theorem object_setObject_of_ne {number other : Nat} (o : MemoryObject) (h : number ≠ other) :
    (s.setObject number o).object other = s.object other := by
  simp [setObject, object, h]

theorem object_setObject_self {number : Nat} (o : MemoryObject) (h : number < s.objects.size) :
    (s.setObject number o).object number = o := by
  simp [setObject, object, h]

/-- Accessing one object leaves the others alone. -/
theorem access_object {α : Type} {number other : Nat} (program : Access α) (h : number ≠ other) :
    (s.access number program).2.object other = s.object other := object_setObject_of_ne s _ h

end SharedMemory

end MediaChannels
