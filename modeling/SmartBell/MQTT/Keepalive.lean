import SmartBell.Common.Runs
import SmartBell.MQTT.MinimalMQTT

/-!
# Keepalive

The two timers of `loop`. `last_ping_` is set by nothing but a PINGREQ, and decides when
the next one is due; `last_activity_` is set by everything that is sent or received but
the PINGREQ itself, and decides when the session is given up. A run is observed from
outside: the real times of the PINGREQs and of the last `loop`, and the number of bytes
received, are kept beside the session. The client sends without a buffer here, so that runs
with topics of more than 57 characters are not those of the program (see `BufferedRuns`).
-/
namespace SmartBell.MQTT
open Common MinimalMQTT

/-- A network that works, in which no time passes during a call. -/
structure Driver.Instant (d : Driver) : Prop where
  tick : ∀ n, d.tick n = 0
  established : ∀ n, d.getSnSR n = sockEstablished
  send : ∀ n data, d.send n data = data.length

/-- What the main loop does with a connected client: `loop`, with what it finds in the receive
buffer, and the two calls that send. -/
inductive ClientCall (κ : Type) where
  | loop (poll : Poll)
  | publish (topic payload : List UInt8)
  | subscribe (topic : List UInt8) (callback : Option κ)

section Runs
variable {κ : Type} (d : Driver)

/-- The polls of a call. -/
def ClientCall.polls : ClientCall κ → List Poll
  | .loop poll => [poll]
  | .publish _ _ => []
  | .subscribe _ _ => []

def ClientCall.isLoop : ClientCall κ → Bool
  | .loop _ => true
  | .publish _ _ => false
  | .subscribe _ _ => false

/-- The session when time `t` has come and the receive buffer will be found like this. -/
def Session.atTime (s : Session κ) (t : Nat) (rx : List Poll) : Session κ :=
  { s with chip := { s.chip with clock := t, rx } }

/-- One call at time `t`. -/
def Session.call (s : Session κ) (t : Nat) (c : ClientCall κ) : Session κ :=
  let s := s.atTime t c.polls
  match c with
  | .loop _ => (MinimalMQTT.loop d s).2
  | .publish topic payload => (MinimalMQTT.publish d topic payload s).2
  | .subscribe topic callback => (MinimalMQTT.subscribe d topic callback s).2

/-- A PINGREQ is among the packets that were sent in between. -/
def Session.pinged (s s' : Session κ) : Bool :=
  (s'.chip.sent.take (s'.chip.sent.length - s.chip.sent.length)).any (·.1 == pingreqPacket)

/-- A session with what is known of it outside: the times of the connect and of the PINGREQs, the
latest first, the time of the last `loop`, or of the connect, and the bytes received so far. -/
structure Observed (κ : Type) where
  session : Session κ
  pings : List Nat
  polled : Nat
  received : Nat

/-- A session that was just opened. -/
def Observed.start (s : Session κ) : Observed κ := ⟨s, [s.chip.clock], s.chip.clock, 0⟩

/-- The time of the last PINGREQ, or of the connect. -/
def Observed.lastPing (o : Observed κ) : Nat := o.pings.headD 0

def Observed.step (o : Observed κ) (c : Nat × ClientCall κ) : Observed κ :=
  let session := o.session.call d c.1 c.2
  { session
    pings := if o.session.pinged session then c.1 :: o.pings else o.pings
    polled := if c.2.isLoop then c.1 else o.polled
    received := o.received + (c.2.polls.flatMap Poll.data).length }

/-- Time goes on, and a `loop` comes at most a second behind the one before it. -/
def Observed.Timely (o : Observed κ) (c : Nat × ClientCall κ) : Prop :=
  o.session.chip.clock ≤ c.1 ∧ (c.2.isLoop → c.1 ≤ o.polled + 1000)

@[simp] theorem Session.atTime_mqtt (s : Session κ) (t : Nat) (rx : List Poll) :
    (s.atTime t rx).mqtt = s.mqtt := rfl

@[simp] theorem Session.atTime_clock (s : Session κ) (t : Nat) (rx : List Poll) :
    (s.atTime t rx).chip.clock = t := rfl

@[simp] theorem Session.atTime_millis (s : Session κ) (t : Nat) (rx : List Poll) :
    (s.atTime t rx).chip.millis = counter t := rfl

variable (o : Observed κ) (c : Nat × ClientCall κ)

theorem Observed.step_pings : (o.step d c).pings =
    if o.session.pinged (o.step d c).session then c.1 :: o.pings else o.pings := rfl

theorem Observed.step_polled :
    (o.step d c).polled = if c.2.isLoop then c.1 else o.polled := rfl

theorem Observed.step_received :
    (o.step d c).received = o.received + (c.2.polls.flatMap Poll.data).length := rfl

instance : Decidable (o.Timely c) := inferInstanceAs (Decidable (_ ∧ (_ → _)))

end Runs

/-! ## The timers of one call -/

section Calls
variable {κ : Type} {d : Driver} {s : Session κ}

theorem Driver.Instant.calledTimes_clock (hd : d.Instant) (c : Chip) (n : Nat) :
    (c.calledTimes d n).clock = c.clock := by
  induction n generalizing c with
  | zero => rfl
  | succ n ih => rw [Chip.calledTimes, ih, Chip.called_clock, hd.tick, Nat.add_zero]

theorem Driver.Instant.sending_clock (hd : d.Instant) (c : Chip) (data : List UInt8) :
    (c.sending d data).clock = c.clock := by
  simp [Chip.sending, hd.tick]

theorem Driver.Instant.sending_millis (hd : d.Instant) (c : Chip) (data : List UInt8) :
    (c.sending d data).millis = c.millis := by
  rw [Chip.millis, hd.sending_clock, Chip.millis]

/-- A PINGREQ is due. -/
def Session.pingDue (s : Session κ) : Bool :=
  s.chip.millis - s.mqtt.lastPing > s.mqtt.config.keepalive.toUInt32 * 1000 * 3 / 4

/-- The keepalive part of `loop`, when no time passes. -/
theorem keepalive_instant (hd : d.Instant) (s : Session κ) :
    ∃ chip, keepalive d s = (some (), ⟨{ s.mqtt with
        lastPing := if s.pingDue then s.chip.millis else s.mqtt.lastPing
        state := if s.timedOut then .error else s.mqtt.state }, chip⟩) ∧
      chip.clock = s.chip.clock ∧
      chip.sent = if s.pingDue then (pingreqPacket, 2) :: s.chip.sent else s.chip.sent := by
  have hlen : (pingreqPacket.length : Int) = 2 := rfl
  cases hdue : s.pingDue <;> cases htime : s.timedOut <;>
    simp only [Session.pingDue, Session.timedOut, decide_eq_true_eq, decide_eq_false_iff_not]
      at hdue htime <;>
    simp only [keepalive, pingIfDue, checkIdle, sendPingreq, Attempt.bind_apply, io_apply,
      millis_apply, Attempt.read_apply, hdue, htime, socketSend_apply, hd.send, decide_true,
      if_true, if_false, update_apply, hd.sending_millis, Bool.false_eq_true, Attempt.pure_apply]
  · exact ⟨_, rfl, rfl, rfl⟩
  · exact ⟨_, rfl, rfl, rfl⟩
  · exact ⟨_, rfl, hd.sending_clock _ _, by simp [hd.send, hlen]⟩
  · exact ⟨_, rfl, hd.sending_clock _ _, by simp [hd.send, hlen]⟩

/-- What a `loop` of a connected client does to its timers. -/
structure Session.Looped (s s' : Session κ) (poll : Poll) : Prop where
  config : s'.mqtt.config = s.mqtt.config
  lastActivity : s'.mqtt.lastActivity =
    if poll.data = [] then s.mqtt.lastActivity else s.chip.millis
  lastPing : s'.mqtt.lastPing = if s.pingDue then s.chip.millis else s.mqtt.lastPing
  state : s'.mqtt.state =
    if s.chip.millis - s'.mqtt.lastActivity > s.mqtt.config.keepalive.toUInt32 * 1500 then .error
    else .connected
  clock : s'.chip.clock = s.chip.clock
  pinged : s.pinged s' = s.pingDue

/-- What a call that sends does to them. -/
structure Session.Sends (s s' : Session κ) : Prop where
  config : s'.mqtt.config = s.mqtt.config
  lastActivity : s'.mqtt.lastActivity = s.mqtt.lastActivity ∨
    s'.mqtt.lastActivity = s.chip.millis
  lastPing : s'.mqtt.lastPing = s.mqtt.lastPing
  state : s'.mqtt.state = s.mqtt.state
  clock : s'.chip.clock = s.chip.clock
  pinged : s.pinged s' = false

theorem pinged_of_same {s s' : Session κ} (h : s'.chip.sent = s.chip.sent) :
    s.pinged s' = false := by
  simp [Session.pinged, h]

theorem pinged_of_cons {s s' : Session κ} {packet : List UInt8} {result : Int}
    (h : s'.chip.sent = (packet, result) :: s.chip.sent) :
    s.pinged s' = (packet == pingreqPacket) := by
  have hone : (s.chip.sent.length + 1) - s.chip.sent.length = 1 := by omega
  simp [Session.pinged, h, hone]

theorem loop_instant (hd : d.Instant) (hstate : s.mqtt.state = .connected) {poll : Poll}
    (hrx : s.chip.rx = [poll]) : s.Looped (loop d s).2 poll := by
  have hpolled : ((s.chip.called d).polled d poll []).clock = s.chip.clock := by
    rw [Chip.polled, hd.calledTimes_clock, Chip.called_clock, hd.tick, Nat.add_zero]
  have hmillis : ((s.chip.called d).polled d poll []).millis = s.chip.millis := by
    rw [Chip.millis, hpolled, Chip.millis]
  -- the client after the read
  let m := if poll.data = [] then s.mqtt.filled poll.data
    else (s.mqtt.filled poll.data).touched s.chip.millis
  let read : Session κ := ⟨m, (s.chip.called d).polled d poll []⟩
  have hread : ∃ calls, processIncomingPacket d (⟨s.mqtt, s.chip.called d⟩ : Session κ) =
      (some calls, read) := by
    rw [processIncomingPacket_cons (d := d) (s := ⟨s.mqtt, s.chip.called d⟩) hrx, hmillis]
    simp only [List.length_eq_zero_iff, read, m]
    split_ifs
    · exact ⟨_, rfl⟩
    · exact ⟨_, rfl⟩
  obtain ⟨calls, hread⟩ := hread
  obtain ⟨chip, hkeep, hclock, hsent⟩ := keepalive_instant hd read
  have hfields : m.config = s.mqtt.config ∧ m.lastPing = s.mqtt.lastPing ∧
      m.state = .connected ∧
      m.lastActivity = if poll.data = [] then s.mqtt.lastActivity else s.chip.millis := by
    simp only [m]
    split_ifs
    · exact ⟨by simp, by simp [filled], by simp [hstate], by simp [filled]⟩
    · exact ⟨by simp, by simp [filled, touched], by simp [hstate], rfl⟩
  obtain ⟨hconfig, hping, hconnected, hactivity⟩ := hfields
  have hdue : read.pingDue = s.pingDue := by
    simp only [Session.pingDue, read, hmillis, hconfig, hping]
  have hloop : (loop d s).2 = ⟨{ m with
      lastPing := if read.pingDue then read.chip.millis else read.mqtt.lastPing
      state := if read.timedOut then .error else read.mqtt.state }, chip⟩ := by
    simp only [loop, Attempt.bind_apply, Attempt.read_apply, hstate, io_apply,
      socketIsConnected_apply, hd.established, decide_true, Bool.not_true, Bool.false_eq_true,
      ne_eq, not_true_eq_false, if_false, hread, hkeep]
    rfl
  rw [hloop]
  refine ⟨hconfig, hactivity, ?_, ?_, hclock.trans hpolled, ?_⟩
  · simp only [hdue, read, hmillis, hping]
  · simp only [Session.timedOut, read, hmillis, hconfig, hconnected, decide_eq_true_eq]
  · have hsame : read.chip.sent = s.chip.sent := by simp [read]
    rw [hdue, hsame] at hsent
    cases hpinged : s.pingDue with
    | true =>
      rw [hpinged, if_pos rfl] at hsent
      exact (pinged_of_cons hsent).trans (beq_self_eq_true pingreqPacket)
    | false =>
      rw [hpinged] at hsent
      exact pinged_of_same hsent

theorem publish_instant (hd : d.Instant) (topic payload : List UInt8) :
    s.Sends (publish d topic payload s).2 := by
  have hpacket : (publishPacket topic payload == pingreqPacket) = false := by
    simp [publishPacket, pingreqPacket]
  simp only [publish, Attempt.bind_apply, Attempt.read_apply, Attempt.ite_apply, io_apply,
    socketSend_apply, hd.send, decide_true]
  split_ifs
  · exact ⟨rfl, Or.inl rfl, rfl, rfl, rfl, pinged_of_same rfl⟩
  · exact ⟨rfl, Or.inl rfl, rfl, rfl, rfl, pinged_of_same rfl⟩
  · refine ⟨rfl, Or.inr ?_, rfl, rfl, hd.sending_clock _ _, (pinged_of_cons rfl).trans hpacket⟩
    simp [update_apply, hd.sending_millis]

theorem subscribe_instant (hd : d.Instant) (topic : List UInt8) (callback : Option κ) :
    s.Sends (subscribe d topic callback s).2 := by
  have hpacket : (subscribePacket s.mqtt.packetId topic == pingreqPacket) = false := by
    simp [subscribePacket, pingreqPacket]
  simp only [subscribe, Attempt.bind_apply, Attempt.read_apply, Attempt.ite_apply]
  split_ifs
  · exact ⟨rfl, Or.inl rfl, rfl, rfl, rfl, pinged_of_same rfl⟩
  · cases hslot : s.mqtt.freeSlot with
    | none => exact ⟨rfl, Or.inl rfl, rfl, rfl, rfl, pinged_of_same rfl⟩
    | some slot =>
      simp only [Attempt.bind_apply, update_apply, io_apply, socketSend_apply, hd.send,
        decide_true, if_true, millis_apply]
      refine ⟨rfl, Or.inr ?_, rfl, rfl, hd.sending_clock _ _, (pinged_of_cons rfl).trans hpacket⟩
      exact hd.sending_millis _ _

end Calls

/-! ## The timers of a run -/

section Timers
variable {κ : Type} {d : Driver} {o : Observed κ} {K : UInt16} {c : Nat × ClientCall κ}

theorem pingInterval_toNat (K : UInt16) : (K.toUInt32 * 1000 * 3 / 4).toNat = K.toNat * 750 := by
  have hK := K.toNat_lt
  simp only [UInt32.toNat_div, UInt32.toNat_mul, UInt16.toNat_toUInt32, UInt32.reduceToNat]
  omega

theorem idleLimit_toNat (K : UInt16) : (K.toUInt32 * 1500).toNat = K.toNat * 1500 := by
  have hK := K.toNat_lt
  simp only [UInt32.toNat_mul, UInt16.toNat_toUInt32, UInt32.reduceToNat]
  omega

/-- `last_ping_` shows the time of the last PINGREQ, and none was due at the last `loop` that was
not sent. -/
structure Observed.OnTime (o : Observed κ) (K : UInt16) : Prop where
  keepalive : o.session.mqtt.config.keepalive = K
  lastPing : o.session.mqtt.lastPing = counter o.lastPing
  pinged : o.lastPing ≤ o.polled
  notDue : o.polled ≤ o.lastPing + K.toNat * 750
  polled : o.polled ≤ o.session.chip.clock

/-- What a step does, by the kind of its call. -/
theorem Observed.step_cases (hd : d.Instant) (hstate : o.session.mqtt.state = .connected)
    (c : Nat × ClientCall κ) :
    (∃ poll, c.2 = .loop poll ∧
      (o.session.atTime c.1 [poll]).Looped (o.step d c).session poll) ∨
    (c.2.isLoop = false ∧ c.2.polls = [] ∧
      (o.session.atTime c.1 []).Sends (o.step d c).session) := by
  obtain ⟨t, call⟩ := c
  cases call with
  | loop poll =>
    have hopen : (o.session.atTime t [poll]).mqtt.state = .connected := hstate
    exact Or.inl ⟨poll, rfl, loop_instant hd hopen rfl⟩
  | publish topic payload => exact Or.inr ⟨rfl, rfl, publish_instant hd topic payload⟩
  | subscribe topic callback => exact Or.inr ⟨rfl, rfl, subscribe_instant hd topic callback⟩

theorem Observed.lastPing_of_same (h : (o.step d c).pings = o.pings) :
    (o.step d c).lastPing = o.lastPing := by
  rw [Observed.lastPing, h, Observed.lastPing]

theorem Observed.lastPing_of_due {due : Prop} [Decidable due]
    (h : (o.step d c).pings = if due then c.1 :: o.pings else o.pings) :
    (o.step d c).lastPing = if due then c.1 else o.lastPing := by
  rw [Observed.lastPing, h]
  split_ifs <;> rfl

theorem Observed.OnTime.lastPing_le (h : o.OnTime K) (hc : o.Timely c) : o.lastPing ≤ c.1 :=
  h.pinged.trans (h.polled.trans hc.1)

/-- A PINGREQ is due by the counter if it is due. -/
theorem Observed.OnTime.pingDue_iff (h : o.OnTime K) (hc : o.Timely c)
    (hloop : c.2.isLoop = true) (rx : List Poll) :
    (o.session.atTime c.1 rx).pingDue = true ↔ o.lastPing + K.toNat * 750 < c.1 := by
  have hK := K.toNat_lt
  have hnear := hc.2 hloop
  have hle := h.lastPing_le hc
  have hshort : c.1 - o.lastPing < period := by
    have := h.notDue
    unfold period
    omega
  rw [Session.pingDue, Session.atTime_mqtt, Session.atTime_millis, h.lastPing, h.keepalive,
    decide_eq_true_eq, gt_iff_lt, lt_counter_sub_iff hle, pingInterval_toNat,
    Nat.mod_eq_of_lt hshort]
  omega

/-- A `loop` sends a PINGREQ exactly if one is due. -/
theorem Observed.OnTime.loop (h : o.OnTime K) (hc : o.Timely c) {poll : Poll}
    (hcall : c.2 = .loop poll)
    (hlooped : (o.session.atTime c.1 [poll]).Looped (o.step d c).session poll) :
    (o.step d c).pings =
      (if o.lastPing + K.toNat * 750 < c.1 then c.1 :: o.pings else o.pings) ∧
    (o.step d c).OnTime K := by
  have hloop : c.2.isLoop = true := by rw [hcall]; rfl
  have hdue := h.pingDue_iff hc hloop [poll]
  have hpinged : o.session.pinged (o.step d c).session =
      (o.session.atTime c.1 [poll]).pingDue := hlooped.pinged
  have hpings : (o.step d c).pings =
      if o.lastPing + K.toNat * 750 < c.1 then c.1 :: o.pings else o.pings := by
    rw [Observed.step_pings, hpinged]
    simp only [hdue]
  refine ⟨hpings, ?_⟩
  have hpolled : (o.step d c).polled = c.1 := by rw [Observed.step_polled, hloop, if_pos rfl]
  have hlast := Observed.lastPing_of_due hpings
  have hle := h.lastPing_le hc
  refine ⟨by rw [hlooped.config, Session.atTime_mqtt, h.keepalive], ?_, ?_, ?_, ?_⟩
  · rw [hlooped.lastPing, hlast, Session.atTime_mqtt, Session.atTime_millis, h.lastPing]
    simp only [hdue]
    split_ifs <;> rfl
  · rw [hlast, hpolled]
    split_ifs <;> omega
  · rw [hlast, hpolled]
    split_ifs <;> omega
  · rw [hpolled, hlooped.clock]
    exact le_rfl

/-- The other calls leave the PINGREQs alone. -/
theorem Observed.OnTime.send (h : o.OnTime K) (hc : o.Timely c) (hcall : c.2.isLoop = false)
    (hsends : (o.session.atTime c.1 []).Sends (o.step d c).session) :
    (o.step d c).pings = o.pings ∧ (o.step d c).OnTime K := by
  have hpings : (o.step d c).pings = o.pings := by
    have hnone : o.session.pinged (o.step d c).session = false := hsends.pinged
    rw [Observed.step_pings, hnone]
    rfl
  have hpolled : (o.step d c).polled = o.polled := by
    rw [Observed.step_polled, hcall]
    rfl
  have hlast := Observed.lastPing_of_same hpings
  refine ⟨hpings, by rw [hsends.config, Session.atTime_mqtt, h.keepalive], ?_, ?_, ?_, ?_⟩
  · rw [hlast]
    exact hsends.lastPing.trans h.lastPing
  · rw [hlast, hpolled]
    exact h.pinged
  · rw [hlast, hpolled]
    exact h.notDue
  · rw [hpolled, hsends.clock]
    exact h.polled.trans hc.1

end Timers

/-! ## A session that was just opened -/

section Opening
variable {κ : Type} {d : Driver}

/-- A successful `connect` sets both timers to its end. -/
theorem connect_opened {config : Config} {s s' : Session κ}
    (h : connect d config s = (some true, s')) :
    s'.mqtt.state = .connected ∧ s'.mqtt.config = config ∧
      s'.mqtt.lastPing = counter s'.chip.clock ∧
      s'.mqtt.lastActivity = counter s'.chip.clock := by
  obtain ⟨⟨recvBuffer, hmqtt⟩, _⟩ := connect_accepted h
  rw [hmqtt]
  exact ⟨rfl, rfl, rfl, rfl⟩

theorem start_onTime {config : Config} {s s' : Session κ}
    (h : connect d config s = (some true, s')) : (Observed.start s').OnTime config.keepalive := by
  obtain ⟨_, hconfig, hping, _⟩ := connect_opened h
  refine ⟨by rw [Observed.start, hconfig], hping, le_rfl, ?_, le_rfl⟩
  exact Nat.le_add_right _ _

end Opening

/-! ## The client keeps its own promise -/

section Promise
variable {κ : Type} {d : Driver} {o : Observed κ} {K : UInt16} {c : Nat × ClientCall κ} {t₀ : Nat}

/-- The distances between PINGREQs, from the connect at `t₀` on. -/
structure Observed.Kept (o : Observed κ) (K : UInt16) (t₀ : Nat) : Prop extends
    o.OnTime K where
  first : o.pings.getLast? = some t₀
  chain : o.pings.IsChain fun later earlier => later ≤ earlier + K.toNat * 1000

theorem Observed.Kept.pings_eq (h : o.Kept K t₀) : ∃ rest, o.pings = o.lastPing :: rest := by
  cases hpings : o.pings with
  | nil =>
    have hfirst := h.first
    rw [hpings] at hfirst
    cases hfirst
  | cons p rest => exact ⟨rest, by rw [Observed.lastPing, hpings]; rfl⟩

/-- At a `loop` the last PINGREQ, or the connect, is no longer ago than the keepalive. -/
theorem Observed.Kept.near (h : o.Kept K t₀) (hK : 4 ≤ K.toNat) (hc : o.Timely c)
    (hloop : c.2.isLoop = true) : c.1 ≤ o.lastPing + K.toNat * 1000 := by
  have hnear := hc.2 hloop
  have hnotDue := h.notDue
  omega

theorem Observed.Kept.step (h : o.Kept K t₀) (hK : 4 ≤ K.toNat) (hd : d.Instant)
    (hstate : o.session.mqtt.state = .connected) (hc : o.Timely c) : (o.step d c).Kept K t₀ := by
  rcases Observed.step_cases hd hstate c with ⟨poll, hcall, hlooped⟩ | ⟨hcall, _, hsends⟩
  · obtain ⟨hpings, honTime⟩ := h.toOnTime.loop hc hcall hlooped
    obtain ⟨rest, hrest⟩ := h.pings_eq
    have hnear := h.near hK hc (by rw [hcall]; rfl)
    have hfirst := h.first
    have hchain := h.chain
    refine ⟨honTime, ?_, ?_⟩ <;> rw [hpings] <;> split_ifs <;> rw [hrest] at *
    · rwa [List.getLast?_cons_cons]
    · exact hfirst
    · exact List.isChain_cons_cons.mpr ⟨hnear, hchain⟩
    · exact hchain
  · obtain ⟨hpings, honTime⟩ := h.toOnTime.send hc hcall hsends
    exact ⟨honTime, hpings ▸ h.first, hpings ▸ h.chain⟩

/-- A client that was accepted shortly before the counter wraps. -/
def acceptedSession : Session Unit :=
  (connect (workingDriver 0) brokerConfig
    ⟨.start, ⟨0, 4294967000, [.ofBytes [0x20, 2, 0, 0]], [], []⟩⟩).2

theorem acceptedSession_connect : connect (workingDriver 0) brokerConfig
    (⟨.start, ⟨0, 4294967000, [.ofBytes [0x20, 2, 0, 0]], [], []⟩⟩ : Session Unit) =
      (some true, acceptedSession) :=
  Prod.ext (by decide +kernel) rfl

theorem workingDriver_instant : (workingDriver 0).Instant where
  tick _ := rfl
  established _ := rfl
  send _ _ := rfl

/-- A `loop` in each second after that, with nothing to read. -/
def quietLoops (n : Nat) : List (Nat × ClientCall Unit) :=
  (List.range n).map fun i => (4294967000 + 1000 * (i + 1), .loop (.ofBytes []))

end Promise

/-! ## A broker that answers -/

section Answers
variable {κ : Type} {d : Driver} {o : Observed κ} {K : UInt16} {c : Nat × ClientCall κ}
  {arrived : Nat → Nat} {D : Nat}

/-- A `loop` that finds more bytes readable than were received so far receives some. -/
def Observed.Reads (arrived : Nat → Nat) (o : Observed κ) (c : Nat × ClientCall κ) : Prop :=
  ∀ poll, c.2 = .loop poll → o.received < arrived c.1 → poll.data ≠ []

/-- A byte that was not received yet when a PINGREQ was sent is readable `D` ms later. -/
def Observed.Answered (d : Driver) (arrived : Nat → Nat) (D : Nat) (o : Observed κ)
    (c : Nat × ClientCall κ) : Prop :=
  o.session.pinged (o.step d c).session = true → (o.step d c).received < arrived (c.1 + D)

instance (arrived : Nat → Nat) (o : Observed κ) : (c : Nat × ClientCall κ) →
    Decidable (o.Reads arrived c)
  | (t, .loop poll) => decidable_of_iff (o.received < arrived t → poll.data ≠ []) <| by
    simp [Observed.Reads]
  | (_, .publish _ _) => isTrue nofun
  | (_, .subscribe _ _) => isTrue nofun

instance (c : Nat × ClientCall κ) : Decidable (o.Answered d arrived D c) :=
  inferInstanceAs (Decidable (_ → _))

/-- The client is connected, and was last active at `a`: behind the last PINGREQ, or not long before
it and the answer is on its way. -/
structure Observed.ActiveAt (arrived : Nat → Nat) (D : Nat) (K : UInt16) (o : Observed κ)
    (a : Nat) : Prop extends o.OnTime K where
  state : o.session.mqtt.state = .connected
  lastActivity : o.session.mqtt.lastActivity = counter a
  past : a ≤ o.session.chip.clock
  awaited : o.lastPing ≤ a ∨
    o.lastPing ≤ a + K.toNat * 750 + 1000 ∧ o.received < arrived (o.lastPing + D)

/-- A `loop` gives the session up only after one and a half times the keepalive. -/
theorem Session.Looped.connected {s s' : Session κ} {poll : Poll} (h : s.Looped s' poll)
    (hkeep : s.mqtt.config.keepalive = K) {a : Nat} (hactivity : s'.mqtt.lastActivity = counter a)
    (hpast : a ≤ s.chip.clock) (hshort : s.chip.clock ≤ a + K.toNat * 1500) :
    s'.mqtt.state = .connected := by
  have hK := K.toNat_lt
  have hclose : s.chip.clock - a < period := by
    unfold period
    omega
  rw [h.state, hactivity, hkeep, if_neg]
  rw [gt_iff_lt, Chip.millis, lt_counter_sub_iff hpast, idleLimit_toNat, Nat.mod_eq_of_lt hclose]
  omega

/-- A `loop` that reads something is behind the last PINGREQ. -/
theorem Observed.ActiveAt.heard {a : Nat} (h : o.ActiveAt arrived D K a) (hc : o.Timely c)
    {poll : Poll} (hcall : c.2 = .loop poll) (hdata : poll.data ≠ [])
    (hlooped : (o.session.atTime c.1 [poll]).Looped (o.step d c).session poll) :
    (o.step d c).ActiveAt arrived D K c.1 := by
  obtain ⟨hpings, honTime⟩ := h.toOnTime.loop hc hcall hlooped
  have hclock : (o.step d c).session.chip.clock = c.1 := hlooped.clock
  have hactivity : (o.step d c).session.mqtt.lastActivity = counter c.1 := by
    rw [hlooped.lastActivity, if_neg hdata, Session.atTime_millis]
  refine ⟨honTime, hlooped.connected h.keepalive hactivity le_rfl (Nat.le_add_right _ _),
    hactivity, hclock.ge, Or.inl ?_⟩
  rw [Observed.lastPing_of_due hpings]
  have hle := h.lastPing_le hc
  split_ifs <;> omega

/-- A `loop` that finds nothing to read is not late: an answer that is on its way has not arrived
yet, and a PINGREQ it sends is answered soon. -/
theorem Observed.ActiveAt.quiet {a : Nat} (h : o.ActiveAt arrived D K a)
    (hD : D + 2000 ≤ 750 * K.toNat) (harrived : Monotone arrived) (hc : o.Timely c)
    (hreads : o.Reads arrived c) (hanswered : o.Answered d arrived D c)
    {poll : Poll} (hcall : c.2 = .loop poll) (hdata : poll.data = [])
    (hlooped : (o.session.atTime c.1 [poll]).Looped (o.step d c).session poll) :
    (o.step d c).ActiveAt arrived D K a := by
  obtain ⟨hpings, honTime⟩ := h.toOnTime.loop hc hcall hlooped
  have hloop : c.2.isLoop = true := by rw [hcall]; rfl
  have hpast : a ≤ c.1 := h.past.trans hc.1
  have hnear := hc.2 hloop
  have hnotDue := h.notDue
  have hclock : (o.step d c).session.chip.clock = c.1 := hlooped.clock
  have hactivity : (o.step d c).session.mqtt.lastActivity = counter a := by
    rw [hlooped.lastActivity, if_pos hdata]
    exact h.lastActivity
  have hreceived : (o.step d c).received = o.received := by
    rw [Observed.step_received, hcall]
    simp [ClientCall.polls, hdata]
  have hquiet : ¬o.received < arrived c.1 := fun hmore => hreads poll hcall hmore hdata
  have hwait : o.lastPing ≤ a ∨
      o.lastPing ≤ a + K.toNat * 750 + 1000 ∧ c.1 < o.lastPing + D := by
    refine h.awaited.imp_right fun ⟨hclose, hcoming⟩ => ⟨hclose, ?_⟩
    by_contra hlate
    have hthere := harrived (Nat.le_of_not_lt hlate)
    omega
  have hshort : c.1 ≤ a + K.toNat * 1500 := by omega
  refine ⟨honTime, hlooped.connected h.keepalive hactivity hpast hshort, hactivity,
    hclock ▸ hpast, ?_⟩
  rw [Observed.lastPing_of_due hpings, hreceived]
  split_ifs with hdue
  · have hpinged : o.session.pinged (o.step d c).session = true :=
      hlooped.pinged.trans ((h.pingDue_iff hc hloop [poll]).mpr hdue)
    have hcoming := hanswered hpinged
    rw [hreceived] at hcoming
    exact Or.inr ⟨by omega, hcoming⟩
  · exact h.awaited

/-- A call that sends may count as activity, and leaves the rest. -/
theorem Observed.ActiveAt.sending {a : Nat} (h : o.ActiveAt arrived D K a) (hc : o.Timely c)
    (hcall : c.2.isLoop = false) (hpolls : c.2.polls = [])
    (hsends : (o.session.atTime c.1 []).Sends (o.step d c).session) :
    ∃ a', (o.step d c).ActiveAt arrived D K a' := by
  obtain ⟨hpings, honTime⟩ := h.toOnTime.send hc hcall hsends
  have hlast := Observed.lastPing_of_same hpings
  have hpast : a ≤ c.1 := h.past.trans hc.1
  have hreceived : (o.step d c).received = o.received := by
    rw [Observed.step_received, hpolls]
    rfl
  have hclock : (o.step d c).session.chip.clock = c.1 := hsends.clock
  have hstate : (o.step d c).session.mqtt.state = .connected := hsends.state.trans h.state
  rcases hsends.lastActivity with hsame | hnow
  · refine ⟨a, honTime, hstate, hsame.trans h.lastActivity, hclock ▸ hpast, ?_⟩
    rw [hlast, hreceived]
    exact h.awaited
  · refine ⟨c.1, honTime, hstate, hnow, hclock.ge, Or.inl ?_⟩
    rw [hlast]
    exact h.lastPing_le hc

theorem Observed.ActiveAt.step {a : Nat} (h : o.ActiveAt arrived D K a)
    (hD : D + 2000 ≤ 750 * K.toNat) (harrived : Monotone arrived) (hd : d.Instant)
    (hc : o.Timely c) (hreads : o.Reads arrived c) (hanswered : o.Answered d arrived D c) :
    ∃ a', (o.step d c).ActiveAt arrived D K a' := by
  rcases Observed.step_cases hd h.state c with ⟨poll, hcall, hlooped⟩ | ⟨hcall, hpolls, hsends⟩
  · by_cases hdata : poll.data = []
    · exact ⟨a, h.quiet hD harrived hc hreads hanswered hcall hdata hlooped⟩
    · exact ⟨c.1, h.heard hc hcall hdata hlooped⟩
  · exact h.sending hc hcall hpolls hsends

/-- In a run from a successful `connect` in which the broker answers every PINGREQ with at least one
byte within `D` ms, the keepalive never gives the session up. -/
theorem responsive_never_dropped (hD : D + 2000 ≤ 750 * K.toNat) {config : Config}
    (hconfig : config.keepalive = K) {d₀ : Driver} {s₀ s : Session κ}
    (hconnect : connect d₀ config s₀ = (some true, s)) (hd : d.Instant)
    (harrived : Monotone arrived) (calls : List (Nat × ClientCall κ))
    (htimely : Along (Observed.step d) Observed.Timely (.start s) calls)
    (hreads : Along (Observed.step d) (Observed.Reads arrived) (.start s) calls)
    (hanswered : Along (Observed.step d) (Observed.Answered d arrived D) (.start s) calls) :
    Throughout (Observed.step d) (fun o => o.session.mqtt.state = .connected) (.start s) calls := by
  obtain ⟨hstate, _, _, hactivity⟩ := connect_opened hconnect
  have hstart : ∃ a, (Observed.start s).ActiveAt arrived D K a :=
    ⟨s.chip.clock, hconfig ▸ start_onTime hconnect, hstate, hactivity, le_rfl, Or.inl le_rfl⟩
  have hkept := throughout_of_along
    (I := fun o : Observed κ => ∃ a, o.ActiveAt arrived D K a)
    (fun o c ⟨_, h⟩ hc => h.step hD harrived hd hc.1 hc.2.1 hc.2.2) hstart
    (htimely.and (hreads.and hanswered))
  exact hkept.mono fun o ⟨_, h⟩ => h.state

/-- The answer to the first PINGREQ, half a second behind it. -/
def pingresp (t : Nat) : Nat := if t < 4295013500 then 0 else 2

theorem responsive_never_dropped_once :
    Throughout (Observed.step (workingDriver 0)) (fun o => o.session.mqtt.state = .connected)
      (.start acceptedSession)
      (quietLoops 46 ++ [(4295014000, .loop (.ofBytes [0xD0, 0])),
        (4295015000, .loop (.ofBytes []))]) := by
  have hmonotone : Monotone pingresp := by
    intro s t hle
    unfold pingresp
    split_ifs <;> omega
  exact responsive_never_dropped (K := 60) (D := 1000) (by decide) rfl acceptedSession_connect
    workingDriver_instant hmonotone _ (by decide +kernel) (by decide +kernel) (by decide +kernel)

end Answers
end SmartBell.MQTT
