import SmartBell.MQTT.IncomingPacket
import SmartBell.MQTT.Socket

/-!
# The MQTT client

The members and methods of `MinimalMQTT`. A method runs on the client and the chip; one
that looks at the receive buffer after the last poll of the run stops there. Packets are
built as byte lists, and what the client writes to its log is left out.
-/
namespace SmartBell.MQTT
open Common

def kSendBufferSize : Nat := 64
def kMaxClientIdLength : Nat := 24
def kMaxUsernameLength : Nat := 24
def kMaxPasswordLength : Nat := 24
def kMQTTProtocolLevel : UInt8 := 4

inductive State where
  | disconnected | connecting | connected | error
  deriving DecidableEq, Repr

/-- The connection settings; the strings are the C strings in their arrays. -/
structure Config where
  brokerIp : Vector UInt8 4
  brokerPort : UInt16
  clientId : List UInt8
  username : List UInt8
  password : List UInt8
  keepalive : UInt16
  useAuth : Bool

structure MinimalMQTT (κ : Type) where
  state : State
  config : Config
  recvBuffer : Vector UInt8 64
  subscriptions : Vector (Subscription κ) 2
  lastActivity : UInt32
  lastPing : UInt32
  packetId : UInt16

/-- A client and the chip it works with. -/
structure Session (κ : Type) where
  mqtt : MinimalMQTT κ
  chip : Chip

/-- One call of a subscription's callback. -/
structure Call (κ : Type) where
  callback : κ
  topic : List UInt8
  payload : List UInt8
  deriving DecidableEq, Repr

/-! ## Packets -/

/-- A 16-bit number, high byte first. -/
def bigEndian (n : Nat) : List UInt8 := [UInt8.ofNat (n / 256), UInt8.ofNat n]

/-- A string behind its length. -/
def encodeString (s : List UInt8) : List UInt8 := bigEndian s.length ++ s

@[simp] theorem bigEndian_length (n : Nat) : (bigEndian n).length = 2 := rfl

@[simp] theorem encodeString_length (s : List UInt8) : (encodeString s).length = 2 + s.length :=
  List.length_append

def encodeRemainingLength (remaining : Nat) : List UInt8 :=
  if remaining < 128 then [UInt8.ofNat remaining]
  else [UInt8.ofNat (remaining % 128 + 128), UInt8.ofNat (remaining / 128 % 128)]

def connectPacket (c : Config) : List UInt8 :=
  let auth := if c.useAuth then encodeString c.username ++ encodeString c.password else []
  let remaining := 10 + (2 + c.clientId.length) + auth.length
  [0x10, UInt8.ofNat (remaining % 128)] ++ encodeString (ascii "MQTT") ++
    [kMQTTProtocolLevel, if c.useAuth then 0xC2 else 0x02] ++ bigEndian c.keepalive.toNat ++
    encodeString c.clientId ++ auth

def publishPacket (topic payload : List UInt8) : List UInt8 :=
  0x30 :: encodeRemainingLength (2 + topic.length + payload.length) ++ encodeString topic ++ payload

def subscribePacket (packetId : UInt16) (topic : List UInt8) : List UInt8 :=
  0x82 :: encodeRemainingLength (2 + 2 + topic.length + 1) ++ bigEndian packetId.toNat ++
    encodeString topic ++ [0]

def pingreqPacket : List UInt8 := [0xC0, 0]

def disconnectPacket : List UInt8 := [0xE0, 0]

/-! ## Methods -/

section Methods
variable {κ : Type}

/-- A client that has been idle for longer than it may. -/
def Session.timedOut (s : Session κ) : Bool :=
  s.chip.millis - s.mqtt.lastActivity > s.mqtt.config.keepalive.toUInt32 * 1500

namespace MinimalMQTT

/-- The constructor of a statically allocated client. -/
def start : MinimalMQTT κ where
  state := .disconnected
  config := ⟨Vector.replicate 4 0, 0, [], [], [], 0, false⟩
  recvBuffer := Vector.replicate 64 0
  subscriptions := Vector.replicate 2 .unused
  lastActivity := 0
  lastPing := 0
  packetId := 1

/-- `subscriptions_[i]`. -/
def slot (m : MinimalMQTT κ) (i : Fin 2) : Subscription κ := m.subscriptions[i]

/-- Forget all subscriptions; their topics stay behind in memory. -/
def clearSubscriptions (m : MinimalMQTT κ) : MinimalMQTT κ :=
  { m with
    subscriptions := m.subscriptions.map fun s => { s with callback := none, active := false } }

def withState (m : MinimalMQTT κ) (state : State) : MinimalMQTT κ := { m with state }

/-- What lies from `recv_buffer_` on: the buffer, and the subscriptions behind it, the first of
which begins with its topic. -/
def recvMemory (m : MinimalMQTT κ) (i : Nat) : UInt8 :=
  if h : i < 64 then m.recvBuffer[i]
  else if h : i - 64 < 32 then m.subscriptions[0].topic[i - 64]
  else 0

/-- The client with the bytes of a read in its buffer. -/
def filled (m : MinimalMQTT κ) (bytes : List UInt8) : MinimalMQTT κ :=
  { m with recvBuffer := overwrite m.recvBuffer bytes }

/-- The calls of a packet of `len` bytes in the buffer. -/
def packetCalls (m : MinimalMQTT κ) (len : Nat) : List (Call κ) :=
  (((processPacket m.recvMemory len m.subscriptions ⟨[], []⟩).1).getD []).map fun delivery =>
    { callback := delivery.callback, topic := cstring delivery.packet.topicStr
      payload :=
        (List.range' delivery.packet.payload delivery.packet.payloadLen).map m.recvMemory }

/-- The first slot that is not active. -/
def freeSlot (m : MinimalMQTT κ) : Option (Fin 2) :=
  if !m.subscriptions[0].active then some 0
  else if !m.subscriptions[1].active then some 1
  else none

/-- `last_activity_ = TimerService::millis()`. -/
def touched (m : MinimalMQTT κ) (now : UInt32) : MinimalMQTT κ := { m with lastActivity := now }

/-- Store a subscription in its slot. -/
def subscribed (m : MinimalMQTT κ) (i : Fin 2) (topic : List UInt8) (callback : Option κ) :
    MinimalMQTT κ :=
  { m with subscriptions := m.subscriptions.set i ((m.slot i).store topic callback) }

/-- Work on the chip alone. -/
def io {α : Type} (x : Attempt Chip α) : Attempt (Session κ) α :=
  .zoom (·.chip) (fun s chip => { s with chip }) x

/-- Work on the client alone. -/
def update (f : MinimalMQTT κ → MinimalMQTT κ) : Attempt (Session κ) Unit :=
  .modify fun s => { s with mqtt := f s.mqtt }

/-- `socket_recv` into the receive buffer; the number of bytes received. -/
def receive (d : Driver) : Attempt (Session κ) Nat := do
  let bytes ← io (socketRecv d kRecvBufferSize)
  update (·.filled bytes)
  pure bytes.length

/-- The polling loop of `wait_for_connack`. Every round takes a poll, so `rounds` need not be more
than the polls there are. -/
def connackLoop (d : Driver) (start : UInt32) : Nat → Attempt (Session κ) Bool
  | 0 => .stop
  | rounds + 1 => do
    let now ← io millis
    if now - start < 5000 then do
      let len ← receive d
      let s ← .read
      if len ≥ 4 ∧ s.mqtt.recvMemory 0 = 0x20 ∧ s.mqtt.recvMemory 1 = 2 then
        pure (s.mqtt.recvMemory 3 = 0)
      else connackLoop d start rounds
    else pure false

def waitForConnack (d : Driver) : Attempt (Session κ) Bool := do
  let start ← io millis
  let s ← .read
  connackLoop d start (s.chip.rx.length + 1)

/-- Give the connection attempt up. -/
def connectFailed (d : Driver) : Attempt (Session κ) Bool := do
  io (socketDisconnect d)
  update (·.withState .error)
  pure false

/-- The rest of `connect` once the CONNECT is out. -/
def finishConnect (d : Driver) : Attempt (Session κ) Bool := do
  let accepted ← waitForConnack d
  if !accepted then connectFailed d
  else do
    let now ← io millis
    update fun m => { m with state := .connected, lastActivity := now, lastPing := now }
    pure true

def connect (d : Driver) (config : Config) : Attempt (Session κ) Bool := do
  update fun m => { m.clearSubscriptions with config, state := .connecting }
  let connected ← io (socketConnect d config.brokerIp config.brokerPort)
  if !connected then do
    update (·.withState .error)
    pure false
  else do
    let sent ← io (socketSend d (connectPacket config))
    if !sent then connectFailed d else finishConnect d

def isConnected : Attempt (Session κ) Bool := do
  let s ← .read
  pure (s.mqtt.state = .connected)

def disconnect (d : Driver) : Attempt (Session κ) Unit := do
  let s ← .read
  if s.mqtt.state = .disconnected then pure ()
  else do
    let _ ← io (socketSend d disconnectPacket)
    io (socketDisconnect d)
    update fun m => (m.withState .disconnected).clearSubscriptions

def publish (d : Driver) (topic payload : List UInt8) : Attempt (Session κ) Bool := do
  let s ← .read
  if s.mqtt.state ≠ .connected then pure false
  else if u16 (u16 (2 + topic.length + payload.length) + 2) > kSendBufferSize then pure false
  else do
    let success ← io (socketSend d (publishPacket topic payload))
    if success then do
      let now ← io millis
      update (·.touched now)
      pure true
    else pure false

def subscribe (d : Driver) (topic : List UInt8) (callback : Option κ) :
    Attempt (Session κ) Bool := do
  let s ← .read
  if s.mqtt.state ≠ .connected ∨ callback.isNone then pure false
  else match s.mqtt.freeSlot with
    | none => pure false
    | some slot => do
      update fun m => { m with packetId := m.packetId + 1 }
      let success ← io (socketSend d (subscribePacket s.mqtt.packetId topic))
      if success then do
        let now ← io millis
        update fun m => (m.subscribed slot topic callback).touched now
        pure true
      else pure false

/-- `process_incoming_packet`; the calls it makes, in their order. -/
def processIncomingPacket (d : Driver) : Attempt (Session κ) (List (Call κ)) := do
  let len ← receive d
  if len = 0 then pure []
  else do
    let now ← io millis
    update (·.touched now)
    let s ← .read
    pure (s.mqtt.packetCalls len)

def sendPingreq (d : Driver) : Attempt (Session κ) Unit := do
  let success ← io (socketSend d pingreqPacket)
  if success then do
    let now ← io millis
    update fun m => { m with lastPing := now }
  else pure ()

/-- A ping at three quarters of the keepalive interval. -/
def pingIfDue (d : Driver) (now : UInt32) : Attempt (Session κ) Unit := do
  let s ← .read
  if now - s.mqtt.lastPing > s.mqtt.config.keepalive.toUInt32 * 1000 * 3 / 4 then sendPingreq d
  else pure ()

/-- A timeout at one and a half times the keepalive interval. -/
def checkIdle (idleTime : UInt32) : Attempt (Session κ) Unit := do
  let s ← .read
  if idleTime > s.mqtt.config.keepalive.toUInt32 * 1500 then update (·.withState .error)
  else pure ()

/-- The keepalive part of `loop`. -/
def keepalive (d : Driver) : Attempt (Session κ) Unit := do
  let now ← io millis
  let s ← .read
  pingIfDue d now
  checkIdle (now - s.mqtt.lastActivity)

def loop (d : Driver) : Attempt (Session κ) (List (Call κ)) := do
  let s ← .read
  if s.mqtt.state ≠ .connected then pure []
  else do
    let alive ← io (socketIsConnected d)
    if !alive then do
      update (·.withState .error)
      pure []
    else do
      let calls ← processIncomingPacket d
      keepalive d
      pure calls

/-! ### What the methods do -/

variable {d : Driver}

theorem io_apply {α : Type} (x : Attempt Chip α) (s : Session κ) :
    io x s = ((x s.chip).1, { s with chip := (x s.chip).2 }) := rfl

theorem update_apply (f : MinimalMQTT κ → MinimalMQTT κ) (s : Session κ) :
    update f s = (some (), { s with mqtt := f s.mqtt }) := rfl

@[simp] theorem isConnected_apply (s : Session κ) :
    isConnected s = (some (decide (s.mqtt.state = .connected)), s) := rfl

section Fields
variable (m : MinimalMQTT κ) (now : UInt32) (bytes : List UInt8)

@[simp] theorem touched_state : (m.touched now).state = m.state := rfl
@[simp] theorem touched_subscriptions : (m.touched now).subscriptions = m.subscriptions := rfl
@[simp] theorem touched_config : (m.touched now).config = m.config := rfl
@[simp] theorem touched_lastActivity : (m.touched now).lastActivity = now := rfl
@[simp] theorem touched_recvMemory : (m.touched now).recvMemory = m.recvMemory := rfl

@[simp] theorem filled_state : (m.filled bytes).state = m.state := by simp only [filled]
@[simp] theorem filled_subscriptions : (m.filled bytes).subscriptions = m.subscriptions := by
  simp only [filled]
@[simp] theorem filled_config : (m.filled bytes).config = m.config := by simp only [filled]

end Fields

theorem sendPingreq_spec (s : Session κ) :
    ∃ now chip, sendPingreq d s = (some (), ⟨{ s.mqtt with lastPing := now }, chip⟩) ∧
      chip.rx = s.chip.rx ∧ s.chip.sent <:+ chip.sent := by
  simp only [sendPingreq, Attempt.bind_apply, io_apply, socketSend_apply]
  split_ifs
  · exact ⟨_, _, rfl, rfl, List.suffix_cons _ _⟩
  · exact ⟨s.mqtt.lastPing, _, rfl, rfl, List.suffix_cons _ _⟩

/-- The keepalive may send a ping, and gives up a client that was idle for too long. -/
theorem keepalive_spec (d : Driver) (s : Session κ) :
    ∃ s', keepalive d s = (some (), s') ∧
      s'.mqtt.state = (if s.timedOut then .error else s.mqtt.state) ∧
      s'.mqtt.subscriptions = s.mqtt.subscriptions ∧ s'.chip.rx = s.chip.rx ∧
      s.chip.sent <:+ s'.chip.sent := by
  have hping : ∃ now chip, pingIfDue d s.chip.millis s =
      (some (), ⟨{ s.mqtt with lastPing := now }, chip⟩) ∧ chip.rx = s.chip.rx ∧
      s.chip.sent <:+ chip.sent := by
    simp only [pingIfDue, Attempt.bind_apply, Attempt.read_apply]
    split_ifs
    · exact sendPingreq_spec s
    · exact ⟨s.mqtt.lastPing, s.chip, rfl, rfl, List.suffix_rfl⟩
  obtain ⟨now, chip, hrun, hrx⟩ := hping
  simp only [keepalive, Attempt.bind_apply, io_apply, millis_apply, Attempt.read_apply, hrun,
    checkIdle, Session.timedOut, decide_eq_true_eq]
  split_ifs
  · exact ⟨_, rfl, rfl, rfl, hrx⟩
  · exact ⟨_, rfl, rfl, rfl, hrx⟩

theorem receive_cons {s : Session κ} {poll : Poll} {rx : List Poll} (h : s.chip.rx = poll :: rx) :
    receive d s = (some poll.data.length,
      ⟨s.mqtt.filled poll.data, s.chip.polled d poll rx⟩) := by
  simp only [receive, Attempt.bind_apply, io_apply, kRecvBufferSize, socketRecv_cons h]
  rfl

theorem receive_nil {s : Session κ} (h : s.chip.rx = []) : receive d s = (none, s) := by
  simp only [receive, Attempt.bind_apply, io_apply, kRecvBufferSize, socketRecv_nil h]

/-- A read into the buffer, and what `process_incoming_packet` makes of it. -/
theorem processIncomingPacket_cons {s : Session κ} {poll : Poll} {rx : List Poll}
    (h : s.chip.rx = poll :: rx) :
    processIncomingPacket d s =
      if poll.data.length = 0 then
        (some [], ⟨s.mqtt.filled poll.data, s.chip.polled d poll rx⟩)
      else (some (((s.mqtt.filled poll.data).touched
          (s.chip.polled d poll rx).millis).packetCalls poll.data.length),
        ⟨(s.mqtt.filled poll.data).touched (s.chip.polled d poll rx).millis,
          s.chip.polled d poll rx⟩) := by
  simp only [processIncomingPacket, Attempt.bind_apply, receive_cons h]
  split_ifs
  · rfl
  · rfl

/-- What was just read is what the decoder finds. -/
theorem recvMemory_filled (m : MinimalMQTT κ) {bytes : List UInt8} (hlen : bytes.length ≤ 64)
    {i : Nat} (hi : i < bytes.length) : (m.filled bytes).recvMemory i = bufferOf bytes i := by
  have h64 : i < 64 := by omega
  simp [recvMemory, filled, h64, bufferOf, List.getD_eq_getElem?_getD, hi]

/-! ### Connecting -/

/-- The client as `connect` starts out. -/
def connecting (m : MinimalMQTT κ) (config : Config) : MinimalMQTT κ :=
  { m.clearSubscriptions with config, state := .connecting }

/-- `connect` up to the CONNACK. -/
theorem connect_eq (d : Driver) (config : Config) (s : Session κ) {connected : Bool} {c : Chip}
    (h : socketConnect d config.brokerIp config.brokerPort s.chip = (some connected, c)) :
    connect d config s =
      if !connected then (some false, ⟨(s.mqtt.connecting config).withState .error, c⟩)
      else if d.send c.calls (connectPacket config) = (connectPacket config).length then
        finishConnect d ⟨s.mqtt.connecting config, c.sending d (connectPacket config)⟩
      else connectFailed d ⟨s.mqtt.connecting config, c.sending d (connectPacket config)⟩ := by
  simp only [connect, Attempt.bind_apply, update_apply, io_apply, h, socketSend_apply,
    Attempt.ite_apply]
  cases connected with
  | false => rfl
  | true =>
    by_cases hsent : d.send c.calls (connectPacket config) = (connectPacket config).length
    · simp only [hsent, decide_true, Bool.not_true, Bool.false_eq_true, if_false, if_true]
      rfl
    · simp only [hsent, decide_false, Bool.not_true, Bool.not_false, Bool.false_eq_true, if_false,
        if_true]
      rfl

/-- A read that `wait_for_connack` takes for a CONNACK. -/
def isConnack (read : List UInt8) : Prop :=
  4 ≤ read.length ∧ bufferOf read 0 = 0x20 ∧ bufferOf read 1 = 2

instance (read : List UInt8) : Decidable (isConnack read) := inferInstanceAs (Decidable (_ ∧ _))

theorem connackLoop_timeout {start : UInt32} {s : Session κ} (n : Nat)
    (h : ¬s.chip.millis - start < 5000) :
    connackLoop d start (n + 1) s = (some false, s) := by
  simp only [connackLoop, Attempt.bind_apply, io_apply, millis_apply, if_neg h]
  rfl

theorem connackLoop_nil {start : UInt32} {s : Session κ} (n : Nat)
    (h : s.chip.millis - start < 5000) (hrx : s.chip.rx = []) :
    connackLoop d start (n + 1) s = (none, s) := by
  simp only [connackLoop, Attempt.bind_apply, io_apply, millis_apply, if_pos h]
  rw [show receive d { mqtt := s.mqtt, chip := s.chip } = (none, s) from receive_nil hrx]

/-- One round of the polling loop. -/
theorem connackLoop_cons {start : UInt32} {s : Session κ} {poll : Poll} {rx : List Poll} (n : Nat)
    (h : s.chip.millis - start < 5000) (hrx : s.chip.rx = poll :: rx) :
    connackLoop d start (n + 1) s =
      if isConnack poll.data then
        (some (decide (bufferOf poll.data 3 = 0)),
          ⟨s.mqtt.filled poll.data, s.chip.polled d poll rx⟩)
      else connackLoop d start n ⟨s.mqtt.filled poll.data, s.chip.polled d poll rx⟩ := by
  have hread := receive_cons (d := d) hrx
  simp only [connackLoop, Attempt.bind_apply, io_apply, millis_apply, if_pos h]
  rw [show receive d { mqtt := s.mqtt, chip := s.chip } = _ from hread]
  simp only [Attempt.read_apply]
  have hcell (i : Nat) (hi : i < poll.data.length) :=
    recvMemory_filled s.mqtt poll.data_length_le hi
  have hlooks : (poll.data.length ≥ 4 ∧ (s.mqtt.filled poll.data).recvMemory 0 = 0x20 ∧
      (s.mqtt.filled poll.data).recvMemory 1 = 2) ↔ isConnack poll.data := by
    refine and_congr_right fun hlen => ?_
    rw [hcell 0 (by omega), hcell 1 (by omega)]
  by_cases hconnack : isConnack poll.data
  · have hlen := hconnack.1
    rw [if_pos (hlooks.mpr hconnack), if_pos hconnack, hcell 3 (by omega)]
    rfl
  · rw [if_neg fun h => hconnack (hlooks.mp h), if_neg hconnack]

theorem waitForConnack_eq (d : Driver) (s : Session κ) :
    waitForConnack d s = connackLoop d s.chip.millis (s.chip.rx.length + 1) s := rfl

/-- The client of an accepted session. -/
def opened (m : MinimalMQTT κ) (now : UInt32) : MinimalMQTT κ :=
  { m with state := .connected, lastActivity := now, lastPing := now }

theorem finishConnect_of_accepted {s t : Session κ} (h : waitForConnack d s = (some true, t)) :
    finishConnect d s = (some true, ⟨t.mqtt.opened t.chip.millis, t.chip⟩) := by
  simp only [finishConnect, Attempt.bind_apply, h]
  rfl

theorem finishConnect_of_refused {s t : Session κ} (h : waitForConnack d s = (some false, t)) :
    finishConnect d s =
      (some false, ⟨t.mqtt.withState .error, (t.chip.called d).called d⟩) := by
  simp only [finishConnect, Attempt.bind_apply, h]
  rfl

theorem finishConnect_of_stopped {s t : Session κ} (h : waitForConnack d s = (none, t)) :
    finishConnect d s = (none, t) := by
  simp only [finishConnect, Attempt.bind_apply, h]

/-- The client with other bytes in its buffer. -/
def withBuffer (m : MinimalMQTT κ) (recvBuffer : Vector UInt8 64) : MinimalMQTT κ :=
  { m with recvBuffer }

/-- Waiting for the CONNACK fills the receive buffer, and nothing else. -/
theorem connackLoop_waits (start : UInt32) (n : Nat) (s : Session κ) :
    ∃ recvBuffer, (connackLoop d start n s).2.mqtt = s.mqtt.withBuffer recvBuffer ∧
      (connackLoop d start n s).2.chip.sent = s.chip.sent := by
  induction n generalizing s with
  | zero => exact ⟨s.mqtt.recvBuffer, rfl, rfl⟩
  | succ n ih =>
    by_cases htime : s.chip.millis - start < 5000
    swap
    · rw [connackLoop_timeout n htime]
      exact ⟨s.mqtt.recvBuffer, rfl, rfl⟩
    cases hrx : s.chip.rx with
    | nil =>
      rw [connackLoop_nil n htime hrx]
      exact ⟨s.mqtt.recvBuffer, rfl, rfl⟩
    | cons poll rx =>
      rw [connackLoop_cons n htime hrx]
      split_ifs
      · exact ⟨overwrite s.mqtt.recvBuffer poll.data, by simp only [filled, withBuffer], by simp⟩
      · obtain ⟨recvBuffer, hmqtt, hsent⟩ := ih ⟨s.mqtt.filled poll.data, s.chip.polled d poll rx⟩
        refine ⟨recvBuffer, hmqtt.trans ?_, hsent.trans (by simp)⟩
        simp only [filled, withBuffer]

/-- What a successful `connect` has done. -/
theorem connect_accepted {config : Config} {s s' : Session κ}
    (h : connect d config s = (some true, s')) :
    (∃ recvBuffer, s'.mqtt =
      ((s.mqtt.connecting config).withBuffer recvBuffer).opened s'.chip.millis) ∧
      s'.chip.sent =
        (connectPacket config, ((connectPacket config).length : Int)) :: s.chip.sent := by
  obtain ⟨reached, c, hsocket, _, hsent⟩ :=
    socketConnect_traffic (d := d) config.brokerIp config.brokerPort s.chip
  rw [connect_eq d config s hsocket] at h
  split_ifs at h with hreached hout
  · simp at h
  · obtain ⟨recvBuffer, hmqtt, hquiet⟩ := connackLoop_waits (d := d)
      (c.sending d (connectPacket config)).millis
      ((c.sending d (connectPacket config)).rx.length + 1)
      (⟨s.mqtt.connecting config, c.sending d (connectPacket config)⟩ : Session κ)
    rcases hresult : waitForConnack d
      (⟨s.mqtt.connecting config, c.sending d (connectPacket config)⟩ : Session κ) with
      ⟨_ | accepted, t⟩
    · simp [finishConnect_of_stopped hresult] at h
    · rw [waitForConnack_eq] at hresult
      rw [hresult] at hmqtt hquiet
      cases accepted with
      | false => simp [finishConnect_of_refused hresult] at h
      | true =>
        rw [finishConnect_of_accepted hresult] at h
        obtain rfl : _ = s' := (Prod.mk.inj h).2
        refine ⟨⟨recvBuffer, congrArg (MinimalMQTT.opened · t.chip.millis) hmqtt⟩, ?_⟩
        rw [← hout, ← hsent]
        exact hquiet
  · simp [connectFailed, Attempt.bind_apply, io_apply, update_apply] at h

theorem processIncomingPacket_nil {s : Session κ} (h : s.chip.rx = []) :
    processIncomingPacket d s = (none, s) := by
  simp only [processIncomingPacket, Attempt.bind_apply, receive_nil h]

end MinimalMQTT
end Methods

/-- The settings for a broker in the local network. -/
def brokerConfig : Config where
  brokerIp := #v[192, 168, 1, 10]
  brokerPort := 1883
  clientId := ascii "smartbell"
  username := []
  password := []
  keepalive := 60
  useAuth := false

end SmartBell.MQTT
