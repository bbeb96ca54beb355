import Courier.Table

/-! A fixed number of slots with shared ownership. A slot is taken from the top
of a stack of free slots, has one owner then, may be shared among more, and goes
back to the top of the stack when its last owner lets go. While it is taken it
carries one value. -/
namespace Courier

/-- A slot that is taken. -/
structure Holding (α : Type) where
  owners : Nat
  value : α

structure Slots (α : Type) where
  capacity : Nat
  /-- Free slots, the next one to be taken first. -/
  free : List Nat
  taken : Table Nat (Holding α)

namespace Slots

variable {α : Type}

/-- All slots free, the lowest one on top; a pool without slots is refused. -/
def ofCapacity? (capacity : Nat) : Option (Slots α) :=
  if capacity = 0 then none else some ⟨capacity, List.range capacity, ∅⟩

def inUse (s : Slots α) : Nat := s.capacity - s.free.length

def value? (s : Slots α) (slot : Nat) : Option α := (s.taken.get? slot).map Holding.value

def owners (s : Slots α) (slot : Nat) : Nat := ((s.taken.get? slot).map Holding.owners).getD 0

/-- Takes the top free slot for one owner. -/
def take? (s : Slots α) (value : α) : Option (Nat × Slots α) :=
  match s.free with
  | [] => none
  | slot :: rest =>
    some (slot, { s with free := rest, taken := s.taken.insert slot ⟨1, value⟩ })

/-- One more owner of a taken slot. -/
def share (s : Slots α) (slot : Nat) : Slots α :=
  match s.taken.get? slot with
  | none => s
  | some h => { s with taken := s.taken.insert slot { h with owners := h.owners + 1 } }

/-- One owner less; the last one frees the slot. -/
def release (s : Slots α) (slot : Nat) : Slots α :=
  match s.taken.get? slot with
  | none => s
  | some h =>
    if h.owners ≤ 1 then { s with free := slot :: s.free, taken := s.taken.erase slot }
    else { s with taken := s.taken.insert slot { h with owners := h.owners - 1 } }

/-- Changes the value of a taken slot. -/
def update (s : Slots α) (slot : Nat) (f : α → α) : Slots α :=
  match s.taken.get? slot with
  | none => s
  | some h => { s with taken := s.taken.insert slot { h with value := f h.value } }

end Slots

end Courier
