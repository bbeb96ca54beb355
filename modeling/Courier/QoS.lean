/-! Delivery guarantees of a publication, ordered by strength. -/
namespace Courier

inductive QoS where
  | atMostOnce
  | atLeastOnce
  | exactlyOnce
  deriving DecidableEq

namespace QoS

def level : QoS → Nat
  | atMostOnce => 0
  | atLeastOnce => 1
  | exactlyOnce => 2

def ofLevel? : Nat → Option QoS
  | 0 => some atMostOnce
  | 1 => some atLeastOnce
  | 2 => some exactlyOnce
  | _ => none

/-- The complaint about a level that is none of the three. -/
def invalidLevel (level : Nat) : String := s!"invalid QoS level {level}"

def name : QoS → String
  | atMostOnce => "AtMostOnce"
  | atLeastOnce => "AtLeastOnce"
  | exactlyOnce => "ExactlyOnce"

instance : Inhabited QoS := ⟨atMostOnce⟩

instance : Ord QoS := ⟨fun a b => compare a.level b.level⟩

/-- A message of this guarantee is kept when the connection goes away. -/
def outlivesSession (q : QoS) : Bool := q ≠ atMostOnce

theorem ofLevel?_level (q : QoS) : ofLevel? q.level = some q := by cases q <;> rfl

end QoS

end Courier
