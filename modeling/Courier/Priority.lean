/-! Three traffic classes share one pool of messages. The lower classes are cut
off first, so that the higher ones keep room while the broker is slow. -/
namespace Courier

inductive Priority where
  | low
  | medium
  | high
  deriving DecidableEq

namespace Priority

def rank : Priority → Nat
  | low => 0
  | medium => 1
  | high => 2

def name : Priority → String
  | low => "Low"
  | medium => "Medium"
  | high => "High"

instance : LE Priority := ⟨fun a b => a.rank ≤ b.rank⟩

instance (a b : Priority) : Decidable (a ≤ b) := inferInstanceAs (Decidable (a.rank ≤ b.rank))

theorem rank_injective {a b : Priority} (same : a.rank = b.rank) : a = b := by
  cases a <;> cases b <;> first | rfl | contradiction

/-- The share of a pool up to which messages of a class are let in: 70 and 85
hundredths, rounded down, and all of it. -/
def limit (capacity : Nat) : Priority → Nat
  | low => capacity * 70 / 100
  | medium => capacity * 85 / 100
  | high => capacity

/-- Whether one more message of the class may enter a pool with `inUse` messages. -/
def mayEnter (p : Priority) (capacity inUse : Nat) : Bool := inUse < p.limit capacity

theorem limit_le_capacity (p : Priority) (capacity : Nat) : p.limit capacity ≤ capacity := by
  cases p <;> simp only [limit] <;> omega

theorem limit_mono {a b : Priority} (below : a ≤ b) (capacity : Nat) :
    a.limit capacity ≤ b.limit capacity := by
  cases b with
  | high => exact a.limit_le_capacity capacity
  | medium =>
    cases a with
    | low => simp only [limit]; omega
    | medium => exact Nat.le_refl _
    | high => contradiction
  | low =>
    cases a with
    | low => exact Nat.le_refl _
    | medium | high => contradiction

end Priority

end Courier
