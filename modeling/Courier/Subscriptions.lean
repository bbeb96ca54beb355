import Courier.QoS
import Courier.Table

/-! The subscriptions the broker is meant to hold, by filter. A subscription
given up while no broker could be told stays as a mark until the next session. -/
namespace Courier

inductive Subscription where
  | active (qos : QoS)
  | givenUp
  deriving DecidableEq

/-- What a fresh session is told about one filter. -/
inductive Renewal where
  | subscribe (filter : String) (qos : QoS)
  | unsubscribe (filter : String)
  deriving DecidableEq

abbrev Subscriptions := Table String Subscription

namespace Subscription

def renewal (filter : String) : Subscription → Renewal
  | active qos => .subscribe filter qos
  | givenUp => .unsubscribe filter

def isActive : Subscription → Bool
  | active _ => true
  | givenUp => false

end Subscription

namespace Subscriptions

def giveUp (s : Subscriptions) (filter : String) : Subscriptions :=
  s.insert filter .givenUp

/-- One request per filter, in the order of the table. -/
def renewals (s : Subscriptions) : List Renewal :=
  s.entries.map fun entry => entry.2.renewal entry.1

/-- What stays on record once these requests are made. -/
def renewed (s : Subscriptions) : Subscriptions := s.retain fun _ held => held.isActive

end Subscriptions

end Courier
