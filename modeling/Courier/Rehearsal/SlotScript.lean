import Courier.Slots

/-! Scripts of taking, sharing and dropping slots. Every owner has a handle;
handles count up over all that were ever given out. -/
namespace Courier.Rehearsal

inductive SlotCommand where
  | take
  | share (handle : Nat)
  | drop (handle : Nat)

inductive SlotAnswer where
  | taken (handle slot : Nat)
  | shared (handle : Nat)
  | dropped
  | nothing

structure SlotDesk where
  slots : Slots Unit
  handles : Table Nat Nat := ∅
  nextHandle : Nat := 0

namespace SlotDesk

def giveHandle (d : SlotDesk) (slots : Slots Unit) (slot : Nat) : SlotDesk :=
  { slots, handles := d.handles.insert d.nextHandle slot, nextHandle := d.nextHandle + 1 }

def perform (d : SlotDesk) : SlotCommand → SlotAnswer × SlotDesk
  | .take =>
    match d.slots.take? () with
    | none => (.nothing, d)
    | some (slot, slots) => (.taken d.nextHandle slot, d.giveHandle slots slot)
  | .share handle =>
    match d.handles.get? handle with
    | none => (.nothing, d)
    | some slot => (.shared d.nextHandle, d.giveHandle (d.slots.share slot) slot)
  | .drop handle =>
    match d.handles.get? handle with
    | none => (.nothing, d)
    | some slot =>
      (.dropped, { d with slots := d.slots.release slot, handles := d.handles.erase handle })

/-- Drops every owner that is left. -/
def dropAll (d : SlotDesk) : SlotDesk :=
  { d with slots := d.handles.values.foldl Slots.release d.slots, handles := ∅ }

/-- Each answer with the desk after it, and the desk after all. -/
def run : List SlotCommand → SlotDesk → List (SlotAnswer × SlotDesk) × SlotDesk
  | [], d => ([], d)
  | command :: rest, d =>
    let (answer, d) := d.perform command
    let (answers, last) := run rest d
    ((answer, d) :: answers, last)

end SlotDesk

end Courier.Rehearsal
