import Courier.Text.Hex

/-! Reason codes of acknowledgements, refusals and disconnections. Success and
normal disconnection share code zero, which is read as success. -/
namespace Courier

inductive Reason where
  | success
  | normalDisconnection
  | disconnectWithWillMessage
  | noMatchingSubscribers
  | unspecifiedError
  | malformedPacket
  | protocolError
  | implementationSpecificError
  | unsupportedProtocolVersion
  | clientIdentifierNotValid
  | badUserNameOrPassword
  | notAuthorized
  | serverUnavailable
  | serverBusy
  | banned
  | serverShuttingDown
  | keepAliveTimeout
  | sessionTakenOver
  | topicNameInvalid
  | packetIdentifierInUse
  | receiveMaximumExceeded
  | packetTooLarge
  | messageRateTooHigh
  | quotaExceeded
  | administrativeAction
  | payloadFormatInvalid
  | qosNotSupported
  | useAnotherServer
  | serverMoved
  | connectionRateExceeded
  deriving DecidableEq

namespace Reason

def code : Reason → UInt8
  | success | normalDisconnection => 0x00
  | disconnectWithWillMessage => 0x04
  | noMatchingSubscribers => 0x10
  | unspecifiedError => 0x80
  | malformedPacket => 0x81
  | protocolError => 0x82
  | implementationSpecificError => 0x83
  | unsupportedProtocolVersion => 0x84
  | clientIdentifierNotValid => 0x85
  | badUserNameOrPassword => 0x86
  | notAuthorized => 0x87
  | serverUnavailable => 0x88
  | serverBusy => 0x89
  | banned => 0x8a
  | serverShuttingDown => 0x8b
  | keepAliveTimeout => 0x8d
  | sessionTakenOver => 0x8e
  | topicNameInvalid => 0x90
  | packetIdentifierInUse => 0x91
  | receiveMaximumExceeded => 0x93
  | packetTooLarge => 0x95
  | messageRateTooHigh => 0x96
  | quotaExceeded => 0x97
  | administrativeAction => 0x98
  | payloadFormatInvalid => 0x99
  | qosNotSupported => 0x9b
  | useAnotherServer => 0x9c
  | serverMoved => 0x9d
  | connectionRateExceeded => 0x9f

/-- The reason a received code stands for, if it is one of those above. -/
def ofCode? (code : UInt8) : Option Reason :=
  match code.toNat with
  | 0x00 => some success
  | 0x04 => some disconnectWithWillMessage
  | 0x10 => some noMatchingSubscribers
  | 0x80 => some unspecifiedError
  | 0x81 => some malformedPacket
  | 0x82 => some protocolError
  | 0x83 => some implementationSpecificError
  | 0x84 => some unsupportedProtocolVersion
  | 0x85 => some clientIdentifierNotValid
  | 0x86 => some badUserNameOrPassword
  | 0x87 => some notAuthorized
  | 0x88 => some serverUnavailable
  | 0x89 => some serverBusy
  | 0x8a => some banned
  | 0x8b => some serverShuttingDown
  | 0x8d => some keepAliveTimeout
  | 0x8e => some sessionTakenOver
  | 0x90 => some topicNameInvalid
  | 0x91 => some packetIdentifierInUse
  | 0x93 => some receiveMaximumExceeded
  | 0x95 => some packetTooLarge
  | 0x96 => some messageRateTooHigh
  | 0x97 => some quotaExceeded
  | 0x98 => some administrativeAction
  | 0x99 => some payloadFormatInvalid
  | 0x9b => some qosNotSupported
  | 0x9c => some useAnotherServer
  | 0x9d => some serverMoved
  | 0x9f => some connectionRateExceeded
  | _ => none

def text : Reason → String
  | success => "success"
  | normalDisconnection => "normal disconnection"
  | disconnectWithWillMessage => "disconnect with will message"
  | noMatchingSubscribers => "no matching subscribers"
  | unspecifiedError => "unspecified error"
  | malformedPacket => "malformed packet"
  | protocolError => "protocol error"
  | implementationSpecificError => "implementation specific error"
  | unsupportedProtocolVersion => "unsupported protocol version"
  | clientIdentifierNotValid => "client identifier not valid"
  | badUserNameOrPassword => "bad user name or password"
  | notAuthorized => "not authorized"
  | serverUnavailable => "server unavailable"
  | serverBusy => "server busy"
  | banned => "banned"
  | serverShuttingDown => "server shutting down"
  | keepAliveTimeout => "keep alive timeout"
  | sessionTakenOver => "session taken over"
  | topicNameInvalid => "topic name invalid"
  | packetIdentifierInUse => "packet identifier in use"
  | receiveMaximumExceeded => "receive maximum exceeded"
  | packetTooLarge => "packet too large"
  | messageRateTooHigh => "message rate too high"
  | quotaExceeded => "quota exceeded"
  | administrativeAction => "administrative action"
  | payloadFormatInvalid => "payload format invalid"
  | qosNotSupported => "QoS not supported"
  | useAnotherServer => "use another server"
  | serverMoved => "server moved"
  | connectionRateExceeded => "connection rate exceeded"

def name : Reason → String
  | success => "Success"
  | normalDisconnection => "NormalDisconnection"
  | disconnectWithWillMessage => "DisconnectWithWillMessage"
  | noMatchingSubscribers => "NoMatchingSubscribers"
  | unspecifiedError => "UnspecifiedError"
  | malformedPacket => "MalformedPacket"
  | protocolError => "ProtocolError"
  | implementationSpecificError => "ImplementationSpecificError"
  | unsupportedProtocolVersion => "UnsupportedProtocolVersion"
  | clientIdentifierNotValid => "ClientIdentifierNotValid"
  | badUserNameOrPassword => "BadUserNameOrPassword"
  | notAuthorized => "NotAuthorized"
  | serverUnavailable => "ServerUnavailable"
  | serverBusy => "ServerBusy"
  | banned => "Banned"
  | serverShuttingDown => "ServerShuttingDown"
  | keepAliveTimeout => "KeepAliveTimeout"
  | sessionTakenOver => "SessionTakenOver"
  | topicNameInvalid => "TopicNameInvalid"
  | packetIdentifierInUse => "PacketIdentifierInUse"
  | receiveMaximumExceeded => "ReceiveMaximumExceeded"
  | packetTooLarge => "PacketTooLarge"
  | messageRateTooHigh => "MessageRateTooHigh"
  | quotaExceeded => "QuotaExceeded"
  | administrativeAction => "AdministrativeAction"
  | payloadFormatInvalid => "PayloadFormatInvalid"
  | qosNotSupported => "QoSNotSupported"
  | useAnotherServer => "UseAnotherServer"
  | serverMoved => "ServerMoved"
  | connectionRateExceeded => "ConnectionRateExceeded"

/-- The wording with the code as two hexadecimal digits. -/
def message (r : Reason) : String := r.text ++ " (0x" ++ Text.hexByte r.code ++ ")"

/-- A publication counts as delivered also when nobody was subscribed to it. -/
def isDelivered : Reason → Bool
  | success | noMatchingSubscribers => true
  | _ => false

theorem ofCode?_code (r : Reason) (h : r ≠ normalDisconnection) : ofCode? r.code = some r := by
  cases r <;> first | rfl | contradiction

end Reason

end Courier
