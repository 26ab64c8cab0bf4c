import SmartBell.App.Chime
import SmartBell.App.LineReader
import SmartBell.MQTT.MinimalMQTT

/-!
# The main loop

`main` from the loaded configuration on: the connection attempt at boot, and one round of
the loop after the other. A round runs on the whole firmware; it stops where the client
looks at the receive buffer after the last poll of the run, and where a command does not
return. There is one MQTT callback, so subscriptions carry no more than its presence.
-/
namespace SmartBell.App
open Common Config MQTT

/-- Everything `main` works on. -/
structure Firmware where
  bell : Bell
  session : Session Unit
  console : Console
  mqttConfigured : Bool
  lastMillis : UInt32
  lastMqttRetryMs : UInt32

/-- What a round finds: the input register at the two `process_chime` calls, the characters that
wait at the UART, and the milliseconds that pass outside of the ioLibrary. -/
structure Round where
  pind1 : UInt8
  pind2 : UInt8
  uart : List UInt8
  elapsed : Nat

/-- The live configuration. -/
def Firmware.config (f : Firmware) : SmartBellConfig := f.console.store.config

/-! ## Configuration -/

/-- The settings for a connection; user name and password are not set, and not used. -/
def mqttConfig (c : SmartBellConfig) : MQTT.Config where
  brokerIp := c.brokerIp
  brokerPort := c.brokerPort
  clientId := c.clientIdString.take (kMaxClientIdLength - 1)
  username := []
  password := []
  keepalive := 60
  useAuth := false

/-- The octets of the broker's address, or-ed together, are not zero. -/
def hasBroker (c : SmartBellConfig) : Bool := c.brokerIp.toList.foldl (· ||| ·) 0 != 0

/-- The string that `pub_topic` points to. -/
def PubTopic.text (c : SmartBellConfig) : PubTopic → List UInt8
  | .input1Topic => c.input1TopicString
  | .input2Topic => c.input2TopicString

/-- What `sub_topic` is built to be: as much of the base as fits, and the suffix. -/
def subTopic (base suffix : List UInt8) : List UInt8 := base.take 29 ++ suffix

/-! ## Sessions -/

namespace Firmware

/-- Work on client and chip. -/
def client {α : Type} (x : Attempt (Session Unit) α) : Attempt Firmware α :=
  .zoom (·.session) (fun f session => { f with session }) x

end Firmware

open Firmware

/-- `mqtt_subscribe_topics`; the results of the two calls are not looked at. -/
def mqttSubscribeTopics (d : Driver) (c : SmartBellConfig) : Attempt (Session Unit) Unit := do
  let s ← .read
  if s.mqtt.state ≠ .connected then pure ()
  else do
    let _ ← MinimalMQTT.subscribe d (subTopic c.gongBaseTopicString (ascii "/1")) (some ())
    let _ ← MinimalMQTT.subscribe d (subTopic c.gongBaseTopicString (ascii "/2")) (some ())
    pure ()

/-- Connect and subscribe; true if there is a session. -/
def openSession (d : Driver) : Attempt Firmware Bool := do
  let f ← .read
  let connected ← client (MinimalMQTT.connect d (mqttConfig f.config))
  if connected then do
    client (mqttSubscribeTopics d f.config)
    pure true
  else pure false

/-- The retry, every five seconds. -/
def retryConnect (d : Driver) : Attempt Firmware Bool := do
  let f ← .read
  if f.mqttConfigured ∧ f.session.mqtt.state ≠ .connected ∧
      f.session.chip.millis - f.lastMqttRetryMs ≥ 5000 then do
    .modify fun f => { f with lastMqttRetryMs := f.session.chip.millis }
    openSession d
  else pure false

/-- The new connection after a `save`. -/
def saveConnect (d : Driver) : Attempt Firmware Bool := do
  let f ← .read
  let consumed := consumeSaveFlag f.console.store
  .modify fun f => { f with console := { f.console with store := consumed.2 } }
  if consumed.1 then do
    .modify fun f => { f with mqttConfigured := hasBroker f.config }
    if hasBroker f.config then openSession d else pure false
  else pure false

/-! ## A round -/

def chimeRound (d : Driver) (i : ChimeId) (pind : UInt8) : Attempt Firmware Unit := do
  let f ← .read
  let bell ← client (processChime MinimalMQTT.isConnected
    (fun topic => MinimalMQTT.publish d (topic.text f.config) (ascii "1"))
    f.session.chip.millis pind i f.bell)
  .modify fun f => { f with bell }

/-- The UART parser. -/
def consoleRound (uart : List UInt8) : Attempt Firmware Unit := do
  .modify fun f => { f with console := f.console.feed uart }
  let f ← .read
  .require f.console.running

/-- `MinimalMQTT::loop` and the calls of the callback in it. -/
def clientRound (d : Driver) : Attempt Firmware Unit := do
  let calls ← client (MinimalMQTT.loop d)
  .modify fun f =>
    { f with bell := calls.foldl (fun b c => onMqttMessageReceived c.topic c.payload b) f.bell }

/-- Time passes, and ten more milliseconds every now and then. -/
def delayRound (elapsed : Nat) : Attempt Firmware Unit := .modify fun f =>
  let chip := f.session.chip
  if chip.millis - f.lastMillis > 100 then
    { f with
      lastMillis := chip.millis
      session := { f.session with chip := { chip with clock := chip.clock + 10 + elapsed } } }
  else { f with session := { f.session with chip := { chip with clock := chip.clock + elapsed } } }

/-- One round of the loop; true if it opened a session. -/
def mainRound (d : Driver) (r : Round) : Attempt Firmware Bool := do
  client (MinimalMQTT.io wdtReset)
  clientRound d
  let retried ← retryConnect d
  let renewed ← saveConnect d
  chimeRound d .chime1 r.pind1
  chimeRound d .chime2 r.pind2
  consoleRound r.uart
  delayRound r.elapsed
  pure (retried || renewed)

/-! ## Boot -/

/-- The firmware with its configuration loaded. -/
def Firmware.loaded (eeprom : Memory) (portB : UInt8) (chip : Chip) : Firmware where
  bell := .static (setupGpio portB)
  session := ⟨.start, chip⟩
  console := .start (load (.boot eeprom)).1
  mqttConfigured := hasBroker (load (.boot eeprom)).1.config
  lastMillis := 0
  lastMqttRetryMs := 0

/-- The first connection. -/
def bootConnect (d : Driver) : Attempt Firmware Bool := do
  let f ← .read
  if f.mqttConfigured then openSession d else pure false

/-- The rest of `main` in front of the loop; true if it opened a session. -/
def boot (d : Driver) (pind : UInt8) : Attempt Firmware Bool := do
  let opened ← bootConnect d
  .modify fun f => { f with bell := f.bell.init pind f.session.chip.millis }
  pure opened

end SmartBell.App
