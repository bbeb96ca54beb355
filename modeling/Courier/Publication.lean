import Courier.QoS
import Courier.Text.Hex

/-! Publications and the properties that travel with them. -/
namespace Courier

structure Properties where
  payloadFormatUtf8 : Bool := false
  messageExpiryInterval : Option UInt32 := none
  contentType : Option String := none
  responseTopic : Option String := none
  correlationData : Option Bytes := none
  userProperties : List (String × String) := []
  deriving DecidableEq

namespace Properties

/-- The value of the first user property of that name. -/
def userProperty? (p : Properties) (key : String) : Option String :=
  (p.userProperties.find? fun property => property.1 = key).map Prod.snd

end Properties

/-- A publication as it is handed to the transport or received from it. Absent
properties and default properties are different. -/
structure Publication where
  topic : String
  payload : Bytes
  qos : QoS
  properties : Option Properties
  deriving DecidableEq

end Courier
