import Courier.Reason
import Courier.Topic

/-! Everything that can go wrong, as the client reports it. -/
namespace Courier

/-- A transport call that failed. -/
inductive TransportFault where
  | notConnected
  | refused (reason : Reason)
  | io (text : String)
  | protocol (text : String)
  deriving DecidableEq

namespace TransportFault

def message : TransportFault → String
  | notConnected => "Not connected"
  | refused reason => "Connection refused: " ++ reason.message
  | io text => "I/O error: " ++ text
  | protocol text => "Protocol error: " ++ text

end TransportFault

inductive ClientFault where
  | tooManyPending
  | notConnected
  | transport (fault : TransportFault)
  | rejected (reason : Reason)
  | sendFailed
  | connectionLost
  | timeout
  | invalidTopic (fault : TopicFault)
  | invalidOptions (text : String)
  | invalidBroker (text : String)
  | io (text : String)
  deriving DecidableEq

namespace ClientFault

def message : ClientFault → String
  | tooManyPending => "Too many pending messages"
  | notConnected => "Not connected"
  | transport fault => "Transport error: " ++ fault.message
  | rejected reason => "Publish rejected by broker: " ++ reason.message
  | sendFailed => "Failed to send queued message"
  | connectionLost => "Connection lost before message was delivered"
  | timeout => "Timeout"
  | invalidTopic fault => "Invalid topic: " ++ fault.message
  | invalidOptions text => "Invalid options: " ++ text
  | invalidBroker text => "Invalid broker: " ++ text
  | io text => "I/O error: " ++ text

end ClientFault

end Courier
