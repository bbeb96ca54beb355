import Courier.Options.Basic
import Courier.Text.Quoted

/-! Options in one line of text, for logs. Of callbacks only their presence shows. -/
namespace Courier

def Properties.text (p : Properties) : String :=
  Text.record "Properties" [
    ("payload_format_utf8", Text.boolean p.payloadFormatUtf8),
    ("message_expiry_interval",
      Text.optional (fun n => toString n.toNat) p.messageExpiryInterval),
    ("content_type", Text.optional Text.quote p.contentType),
    ("response_topic", Text.optional Text.quote p.responseTopic),
    ("correlation_data", Text.optional Text.quoteBytes p.correlationData),
    ("user_properties", Text.list
      (fun (key, value) => "(" ++ Text.quote key ++ ", " ++ Text.quote value ++ ")")
      p.userProperties)]

def Will.text (w : Will) : String :=
  Text.record "Will" [
    ("topic", Text.quote w.topic),
    ("payload", Text.quoteBytes w.payload),
    ("qos", w.qos.name),
    ("retain", Text.boolean w.retain),
    ("properties", Text.optional Properties.text w.properties),
    ("delay_interval", w.delay.text)]

def Options.text (o : Options) : String :=
  Text.record "ClientOptions" [
    ("client_id", Text.quote o.clientId),
    ("message_capacity", toString o.capacity),
    ("parallel_publish_capacity", toString o.inFlightLimit),
    ("session_expiry_interval", o.sessionExpiry.text),
    ("keep_alive", o.keepAlive.text),
    ("reconnect_delay_step", o.reconnectStep.text),
    ("reconnect_delay_max", o.reconnectMax.text),
    ("will", Text.optional Will.text o.will),
    ("on_message", Text.boolean o.onMessage),
    ("on_connected", Text.boolean o.onConnected)]

end Courier
