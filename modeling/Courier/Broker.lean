/-! Brokers the client may connect to. -/
namespace Courier

structure Broker where
  host : String
  port : UInt16
  deriving DecidableEq

/-- The number a broker is registered under. -/
abbrev BrokerId := Nat

namespace Broker

def address (b : Broker) : String := b.host ++ ":" ++ toString b.port.toNat

end Broker

end Courier
