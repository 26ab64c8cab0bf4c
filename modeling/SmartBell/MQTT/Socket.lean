import SmartBell.Common.Attempt
import SmartBell.Common.Bytes
import SmartBell.Common.Counter

/-!
# The MQTT socket

The W5500 as the client sees it through the ioLibrary. What the library answers is a
`Driver`, asked by the number of the call; what the broker sends is a list of polls,
one for each look at the receive buffer, and a computation that looks once more stops.
Time passes over ioLibrary calls only.
-/
namespace SmartBell.MQTT
open Common

/-- The answers of the ioLibrary to its `n`-th call, and the milliseconds that the call and the
way to it take. -/
structure Driver where
  tick : Nat → Nat
  getPHYCFGR : Nat → UInt8
  socket : Nat → Int
  connect : Nat → Vector UInt8 4 → UInt16 → Int
  getSnSR : Nat → UInt8
  send : Nat → List UInt8 → Int

/-- One look at the receive buffer: its fill level, and what `recv` then has to give. -/
structure Poll where
  available : UInt16
  received : List UInt8
  deriving DecidableEq, Repr

/-- The chip together with the clock: the calls made so far, real time in milliseconds, the polls
to come, the times of the `wdt_reset` calls and the packets sent, both with the latest first. -/
structure Chip where
  calls : Nat
  clock : Nat
  rx : List Poll
  wdtResets : List Nat
  sent : List (List UInt8 × Int)

def kMQTTSocketNumber : Int := 2
def phycfgrLnkOn : UInt8 := 1
def sockOk : Int := 1
def sockClosed : UInt8 := 0x00
def sockEstablished : UInt8 := 0x17
def sockCloseWait : UInt8 := 0x1C

/-- `TimerService::millis`. -/
def Chip.millis (c : Chip) : UInt32 := counter c.clock

def millis : Attempt Chip UInt32 := fun c => (some c.millis, c)

def wdtReset : Attempt Chip Unit := .modify fun c => { c with wdtResets := c.clock :: c.wdtResets }

section Calls
variable (d : Driver)

/-- The chip after one more ioLibrary call. -/
def Chip.called (c : Chip) : Chip :=
  { c with calls := c.calls + 1, clock := c.clock + d.tick c.calls }

/-- An ioLibrary call that the driver answers. -/
def ioCall {α : Type} (answer : Nat → α) : Attempt Chip α := fun c =>
  (some (answer c.calls), c.called d)

def close : Attempt Chip Unit := ioCall d fun _ => ()

def disconnect : Attempt Chip Unit := ioCall d fun _ => ()

/-- `getSn_RX_RSR`. -/
def getSnRxRsr : Attempt Chip Poll := fun c =>
  match c.rx with
  | [] => (none, c)
  | poll :: rx => (some poll, { c.called d with rx })

/-- `recv` after that poll. -/
def recv (poll : Poll) (len : Nat) : Attempt Chip (List UInt8) :=
  ioCall d fun _ => poll.received.take len

/-- The chip after a `send`, with its result on record. -/
def Chip.sending (c : Chip) (data : List UInt8) : Chip :=
  { c.called d with sent := (data, d.send c.calls data) :: c.sent }

def send (data : List UInt8) : Attempt Chip Int := fun c =>
  (some (d.send c.calls data), c.sending d data)

/-! ## The client's socket operations -/

/-- The loop that waits for the link. -/
def waitForLink : Nat → Attempt Chip Bool
  | 0 => pure false
  | i + 1 => do
    let phy ← ioCall d d.getPHYCFGR
    if phy &&& phycfgrLnkOn ≠ 0 then pure true
    else do
      wdtReset
      waitForLink i

/-- The loop that waits for the connection to be established. -/
def waitForEstablished : Nat → Attempt Chip Bool
  | 0 => pure false
  | i + 1 => do
    wdtReset
    let status ← ioCall d d.getSnSR
    if status = sockEstablished then pure true
    else if status = sockClosed ∨ status = sockCloseWait then pure false
    else waitForEstablished i

/-- The part of `socket_connect` behind the link check. -/
def openSocket (brokerIp : Vector UInt8 4) (brokerPort : UInt16) : Attempt Chip Bool := do
  let result ← ioCall d d.socket
  if result ≠ kMQTTSocketNumber then pure false
  else do
    let result ← ioCall d fun n => d.connect n brokerIp brokerPort
    if result ≠ sockOk then do
      close d
      pure false
    else waitForEstablished d 50

def socketConnect (brokerIp : Vector UInt8 4) (brokerPort : UInt16) : Attempt Chip Bool := do
  close d
  let linkUp ← waitForLink d 50
  if !linkUp then pure false else openSocket d brokerIp brokerPort

def socketDisconnect : Attempt Chip Unit := do
  disconnect d
  close d

/-- True if the driver took the whole packet. -/
def socketSend (data : List UInt8) : Attempt Chip Bool := do
  let sent ← send d data
  pure (sent = data.length)

/-- The bytes of one `socket_recv`, none if the receive buffer is empty. -/
def socketRecv (maxLength : Nat) : Attempt Chip (List UInt8) := do
  let poll ← getSnRxRsr d
  if poll.available = 0 then pure []
  else
    recv d poll
      (if poll.available.toNat > maxLength then maxLength else poll.available.toNat)

def socketIsConnected : Attempt Chip Bool := do
  let status ← ioCall d d.getSnSR
  pure (status = sockEstablished)

end Calls

/-! ## What the calls do -/

section Spec
variable {d : Driver} {α : Type}

@[simp] theorem Chip.called_rx (c : Chip) : (c.called d).rx = c.rx := rfl
@[simp] theorem Chip.called_calls (c : Chip) : (c.called d).calls = c.calls + 1 := rfl
@[simp] theorem Chip.called_clock (c : Chip) : (c.called d).clock = c.clock + d.tick c.calls := rfl
@[simp] theorem Chip.called_wdtResets (c : Chip) : (c.called d).wdtResets = c.wdtResets := rfl
@[simp] theorem Chip.called_sent (c : Chip) : (c.called d).sent = c.sent := rfl

@[simp] theorem ioCall_apply (answer : Nat → α) (c : Chip) :
    ioCall d answer c = (some (answer c.calls), c.called d) := rfl

@[simp] theorem close_apply (c : Chip) : close d c = (some (), c.called d) := rfl

@[simp] theorem wdtReset_apply (c : Chip) :
    wdtReset c = (some (), { c with wdtResets := c.clock :: c.wdtResets }) := rfl

@[simp] theorem millis_apply (c : Chip) : millis c = (some c.millis, c) := rfl

@[simp] theorem socketDisconnect_apply (c : Chip) :
    socketDisconnect d c = (some (), (c.called d).called d) := rfl

@[simp] theorem Chip.sending_rx (c : Chip) (data : List UInt8) : (c.sending d data).rx = c.rx := rfl

@[simp] theorem Chip.sending_sent (c : Chip) (data : List UInt8) :
    (c.sending d data).sent = (data, d.send c.calls data) :: c.sent := rfl

theorem socketSend_apply (data : List UInt8) (c : Chip) : socketSend d data c =
    (some (decide (d.send c.calls data = data.length)), c.sending d data) := rfl

@[simp] theorem socketIsConnected_apply (c : Chip) :
    socketIsConnected d c = (some (decide (d.getSnSR c.calls = sockEstablished)), c.called d) := rfl

/-- The chip after a `wdt_reset`. -/
def Chip.fed (c : Chip) : Chip := { c with wdtResets := c.clock :: c.wdtResets }

@[simp] theorem Chip.fed_rx (c : Chip) : c.fed.rx = c.rx := rfl
@[simp] theorem Chip.fed_sent (c : Chip) : c.fed.sent = c.sent := rfl
@[simp] theorem Chip.fed_calls (c : Chip) : c.fed.calls = c.calls := rfl
@[simp] theorem Chip.fed_clock (c : Chip) : c.fed.clock = c.clock := rfl
@[simp] theorem Chip.fed_wdtResets (c : Chip) : c.fed.wdtResets = c.clock :: c.wdtResets := rfl

/-- One round of the loop that waits for the link. -/
theorem waitForLink_succ (i : Nat) (c : Chip) : waitForLink d (i + 1) c =
    if d.getPHYCFGR c.calls &&& phycfgrLnkOn ≠ 0 then (some true, c.called d)
    else waitForLink d i (c.called d).fed := by
  simp only [waitForLink, Attempt.bind_apply, ioCall_apply]
  split_ifs <;> rfl

/-- One round of the loop that waits for the connection. -/
theorem waitForEstablished_succ (i : Nat) (c : Chip) : waitForEstablished d (i + 1) c =
    if d.getSnSR c.calls = sockEstablished then (some true, c.fed.called d)
    else if d.getSnSR c.calls = sockClosed ∨ d.getSnSR c.calls = sockCloseWait then
      (some false, c.fed.called d)
    else waitForEstablished d i (c.fed.called d) := by
  simp only [waitForEstablished, Attempt.bind_apply, ioCall_apply, wdtReset_apply]
  split_ifs <;> rfl

/-- What the calls of `socketConnect` leave alone. -/
def SameTraffic (c c' : Chip) : Prop := c'.rx = c.rx ∧ c'.sent = c.sent

theorem waitForLink_traffic (i : Nat) (c : Chip) :
    ∃ linked c', waitForLink d i c = (some linked, c') ∧ SameTraffic c c' := by
  induction i generalizing c with
  | zero => exact ⟨false, c, rfl, rfl, rfl⟩
  | succ i ih =>
    rw [waitForLink_succ]
    split_ifs
    · exact ⟨true, _, rfl, rfl, rfl⟩
    · exact ih (c.called d).fed

theorem waitForEstablished_traffic (i : Nat) (c : Chip) :
    ∃ established c', waitForEstablished d i c = (some established, c') ∧ SameTraffic c c' := by
  induction i generalizing c with
  | zero => exact ⟨false, c, rfl, rfl, rfl⟩
  | succ i ih =>
    rw [waitForEstablished_succ]
    split_ifs
    · exact ⟨true, _, rfl, rfl, rfl⟩
    · exact ⟨false, _, rfl, rfl, rfl⟩
    · exact ih (c.fed.called d)

/-- `openSocket` by the answers of the driver. -/
theorem openSocket_eq (ip : Vector UInt8 4) (port : UInt16) (c : Chip) :
    openSocket d ip port c =
      if d.socket c.calls ≠ kMQTTSocketNumber then (some false, c.called d)
      else if d.connect (c.calls + 1) ip port ≠ sockOk then
        (some false, ((c.called d).called d).called d)
      else waitForEstablished d 50 ((c.called d).called d) := by
  simp only [openSocket, Attempt.bind_apply, Attempt.ite_apply, ioCall_apply, close_apply,
    Attempt.pure_apply, Chip.called_calls]

theorem openSocket_traffic (ip : Vector UInt8 4) (port : UInt16) (c : Chip) :
    ∃ connected c', openSocket d ip port c = (some connected, c') ∧ SameTraffic c c' := by
  rw [openSocket_eq]
  split_ifs
  · exact ⟨false, _, rfl, rfl, rfl⟩
  · exact ⟨false, _, rfl, rfl, rfl⟩
  · exact waitForEstablished_traffic 50 ((c.called d).called d)

theorem socketConnect_eq (ip : Vector UInt8 4) (port : UInt16) {c c' : Chip} {linked : Bool}
    (h : waitForLink d 50 (c.called d) = (some linked, c')) :
    socketConnect d ip port c = if linked then openSocket d ip port c' else (some false, c') := by
  simp only [socketConnect, Attempt.bind_apply, close_apply, h]
  cases linked <;> rfl

/-- `socketConnect` always comes to an end, and neither sends nor receives. -/
theorem socketConnect_traffic (ip : Vector UInt8 4) (port : UInt16) (c : Chip) :
    ∃ connected c', socketConnect d ip port c = (some connected, c') ∧ SameTraffic c c' := by
  obtain ⟨linked, c₁, hlink, hsame⟩ := waitForLink_traffic (d := d) 50 (c.called d)
  rw [socketConnect_eq ip port hlink]
  cases linked with
  | false => exact ⟨false, c₁, rfl, hsame⟩
  | true =>
    obtain ⟨connected, c₂, hopen, hsame'⟩ := openSocket_traffic (d := d) ip port c₁
    exact ⟨connected, c₂, hopen, hsame'.1.trans hsame.1, hsame'.2.trans hsame.2⟩

/-- The bytes that a poll gives to a reader with room for 64. -/
def Poll.data (poll : Poll) : List UInt8 :=
  if poll.available = 0 then [] else poll.received.take (min poll.available.toNat 64)

/-- The ioLibrary calls of a `socket_recv`. -/
def Poll.cost (poll : Poll) : Nat := if poll.available = 0 then 1 else 2

theorem Poll.data_length_le (poll : Poll) : poll.data.length ≤ 64 := by
  unfold Poll.data
  split_ifs
  · simp
  · simp

/-- The chip after `n` more calls. -/
def Chip.calledTimes (d : Driver) (c : Chip) : Nat → Chip
  | 0 => c
  | n + 1 => (c.called d).calledTimes d n

@[simp] theorem Chip.calledTimes_sent (c : Chip) (n : Nat) : (c.calledTimes d n).sent = c.sent := by
  induction n generalizing c with
  | zero => rfl
  | succ n ih => rw [calledTimes, ih, called_sent]

/-- The chip after a `socket_recv` that took this poll. -/
def Chip.polled (d : Driver) (c : Chip) (poll : Poll) (rx : List Poll) : Chip :=
  { c.calledTimes d poll.cost with rx }

@[simp] theorem Chip.polled_rx (c : Chip) (poll : Poll) (rx : List Poll) :
    (c.polled d poll rx).rx = rx := rfl

@[simp] theorem Chip.polled_sent (c : Chip) (poll : Poll) (rx : List Poll) :
    (c.polled d poll rx).sent = c.sent := by simp [polled]

theorem socketRecv_nil {c : Chip} (h : c.rx = []) (maxLength : Nat) :
    socketRecv d maxLength c = (none, c) := by
  simp [socketRecv, Attempt.bind_apply, getSnRxRsr, h]

/-- A `socket_recv` into the receive buffer takes one poll. -/
theorem socketRecv_cons {c : Chip} {poll : Poll} {rx : List Poll} (h : c.rx = poll :: rx) :
    socketRecv d 64 c = (some poll.data, c.polled d poll rx) := by
  by_cases hempty : poll.available = 0
  · simp [socketRecv, Attempt.bind_apply, getSnRxRsr, h, hempty, Poll.data, Poll.cost,
      Chip.calledTimes, Chip.polled]
  · have hcost : poll.cost = 2 := if_neg hempty
    have hlen : (if poll.available.toNat > 64 then 64 else poll.available.toNat) =
        min poll.available.toNat 64 := by
      split_ifs <;> omega
    simp only [socketRecv, Attempt.bind_apply, getSnRxRsr, h, hempty, Poll.data, Chip.polled, hcost,
      if_false, hlen, recv, ioCall_apply]
    rfl

end Spec

/-! ### A network that works -/

/-- Everything works, and every call takes so many milliseconds. -/
def workingDriver (tick : Nat) : Driver where
  tick _ := tick
  getPHYCFGR _ := phycfgrLnkOn
  socket _ := kMQTTSocketNumber
  connect _ _ _ := sockOk
  getSnSR _ := sockEstablished
  send _ data := data.length

/-- A poll that finds these bytes. -/
def Poll.ofBytes (bytes : List UInt8) : Poll := ⟨UInt16.ofNat bytes.length, bytes⟩

end SmartBell.MQTT
