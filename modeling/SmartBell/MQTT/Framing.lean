import SmartBell.MQTT.Packet

/-!
# Inbound framing

A broker that answers the CONNECT and sends packets, and a network that cuts its stream
into reads. The client treats each read on its own: nothing is kept of a packet that was
cut, and what follows the first packet of a read is part of its payload or lost. The
calls are those the packets are due exactly if the CONNACK is complete in the first read
and every PUBLISH for a subscription is a read of its own.
-/
namespace SmartBell.MQTT
open Common MinimalMQTT

/-- A link, a socket and a broker that work. -/
structure Healthy (d : Driver) : Prop where
  link : ∀ n, d.getPHYCFGR n &&& phycfgrLnkOn ≠ 0
  socket : ∀ n, d.socket n = kMQTTSocketNumber
  connect : ∀ n ip port, d.connect n ip port = sockOk
  established : ∀ n, d.getSnSR n = sockEstablished
  send : ∀ n data, d.send n data = data.length

variable {κ : Type}

/-- `n` calls of `loop`, and the callbacks they make. -/
def loops (d : Driver) : Nat → Attempt (Session κ) (List (Call κ))
  | 0 => pure []
  | n + 1 => do
    let calls ← loop d
    let later ← loops d n
    pure (calls ++ later)

/-- Connect, subscribe, and look at everything the broker then sends. -/
def listen (d : Driver) (config : Config) (table : Vector (Subscription κ) 2) :
    Attempt (Session κ) (List (Call κ)) := do
  let accepted ← connect d config
  .require accepted
  update fun m => { m with subscriptions := table }
  let s ← .read
  loops d s.chip.rx.length

/-- A read that `wait_for_connack` takes for an accepting CONNACK. -/
def acceptsSession (read : List UInt8) : Prop := isConnack read ∧ bufferOf read 3 = 0

/-! ## One call of `loop` -/

section Spec
variable {d : Driver} {s : Session κ} {poll : Poll} {rx : List Poll}

/-- The calls for a read do not depend on what the buffer held before. -/
theorem packetCalls_filled (m : MinimalMQTT κ) (now : UInt32) {bytes : List UInt8}
    (hne : bytes ≠ []) (hlen : bytes.length ≤ 64) (hfits : TopicLengthFits bytes) :
    ((m.filled bytes).touched now).packetCalls bytes.length = meaning m.subscriptions bytes := by
  have hpos : 1 ≤ bytes.length := List.length_pos_iff.mpr hne
  have hcell (i : Nat) (hi : i < bytes.length) := recvMemory_filled m hlen hi
  have hfits' : isPublish ((m.filled bytes).recvMemory 0) → ∀ p topicLen,
      topicField (m.filled bytes).recvMemory bytes.length = some (p, topicLen) →
        p + topicLen < 65536 := by
    rw [hcell 0 hpos, topicField_congr hcell]
    exact hfits
  rw [packetCalls, touched_recvMemory, touched_subscriptions, filled_subscriptions,
    processPacket_received hpos hlen hfits', meaning]
  exact received_congr hpos hcell

/-- A `loop` call of a connected client with a read waiting makes the calls that the read means. -/
theorem loop_cons (hsocket : d.getSnSR s.chip.calls = sockEstablished)
    (hstate : s.mqtt.state = .connected) (hrx : s.chip.rx = poll :: rx)
    (hdata : poll.data ≠ []) (hfits : TopicLengthFits poll.data) :
    ∃ s', loop d s = (some (meaning s.mqtt.subscriptions poll.data), s') ∧
      s'.mqtt.state = .connected ∧ s'.mqtt.subscriptions = s.mqtt.subscriptions ∧
      s'.chip.rx = rx := by
  have hnonempty : poll.data.length ≠ 0 := fun h => hdata (List.eq_nil_of_length_eq_zero h)
  have hread := processIncomingPacket_cons (d := d) (s := ⟨s.mqtt, s.chip.called d⟩) hrx
  rw [if_neg hnonempty, packetCalls_filled s.mqtt _ hdata poll.data_length_le hfits] at hread
  obtain ⟨s', hkeep, hstate', htable, hrx', _⟩ := keepalive_spec d
    (⟨(s.mqtt.filled poll.data).touched ((s.chip.called d).polled d poll rx).millis,
      (s.chip.called d).polled d poll rx⟩ : Session κ)
  refine ⟨s', ?_, ?_, by rw [htable, touched_subscriptions, filled_subscriptions], hrx'⟩
  · simp only [loop, Attempt.bind_apply, Attempt.read_apply, hstate, io_apply,
      socketIsConnected_apply, hsocket, decide_true, Bool.not_true, Bool.false_eq_true,
      ne_eq, not_true_eq_false, if_false, hread, hkeep]
    rfl
  · rw [hstate', touched_state, filled_state, hstate]
    simp [Session.timedOut]

/-- As many `loop` calls as there are reads make the calls that the reads mean. -/
theorem loops_eq (hd : Healthy d) (hstate : s.mqtt.state = .connected) {polls : List Poll}
    (hrx : s.chip.rx = polls) (hdata : ∀ poll ∈ polls, poll.data ≠ [])
    (hfits : ∀ poll ∈ polls, TopicLengthFits poll.data) :
    (loops d polls.length s).1 =
      some ((polls.map Poll.data).flatMap (meaning s.mqtt.subscriptions)) := by
  induction polls generalizing s with
  | nil => rfl
  | cons poll polls ih =>
    obtain ⟨s', hloop, hstate', htable, hrx'⟩ := loop_cons (hd.established _) hstate hrx
      (hdata poll List.mem_cons_self) (hfits poll List.mem_cons_self)
    have hlater := ih hstate' hrx' (fun p hp => hdata p (List.mem_cons_of_mem _ hp))
      (fun p hp => hfits p (List.mem_cons_of_mem _ hp))
    rw [htable] at hlater
    rcases hrun : loops d polls.length s' with ⟨result, t⟩
    rw [hrun] at hlater
    obtain rfl : result = _ := hlater
    simp only [List.length_cons, loops, Attempt.bind_apply, hloop, hrun]
    rfl

/-! ## Connecting -/

theorem socketConnect_healthy (hd : Healthy d) (ip : Vector UInt8 4) (port : UInt16) (c : Chip) :
    ∃ c', socketConnect d ip port c = (some true, c') ∧ c'.rx = c.rx := by
  have hlink : waitForLink d 50 (c.called d) = (some true, (c.called d).called d) := by
    rw [waitForLink_succ, if_pos (hd.link _)]
  rw [socketConnect_eq ip port hlink, if_pos rfl, openSocket_eq]
  simp only [hd.socket, hd.connect, ne_eq, not_true_eq_false, if_false, waitForEstablished_succ 49,
    hd.established, if_true]
  exact ⟨_, rfl, rfl⟩

/-- On a working link `connect` comes down to waiting for the CONNACK. -/
theorem connect_healthy (hd : Healthy d) (config : Config) (s : Session κ) :
    ∃ s₁ : Session κ, s₁.chip.rx = s.chip.rx ∧ connect d config s = finishConnect d s₁ := by
  obtain ⟨c, hsocket, hrx⟩ := socketConnect_healthy hd config.brokerIp config.brokerPort s.chip
  refine ⟨⟨s.mqtt.connecting config, c.sending d (connectPacket config)⟩, hrx, ?_⟩
  rw [connect_eq d config s hsocket, hd.send]
  simp only [Bool.not_true, Bool.false_eq_true, if_false, if_true]

theorem finishConnect_accepts (hrx : s.chip.rx = poll :: rx) (haccept : acceptsSession poll.data) :
    ∃ s', finishConnect d s = (some true, s') ∧ s'.mqtt.state = .connected ∧ s'.chip.rx = rx := by
  have htime : s.chip.millis - s.chip.millis < 5000 := by simp
  have hwait : waitForConnack d s =
      (some true, ⟨s.mqtt.filled poll.data, s.chip.polled d poll rx⟩) := by
    rw [waitForConnack_eq, connackLoop_cons _ htime hrx, if_pos haccept.1]
    simp [haccept.2]
  exact ⟨_, finishConnect_of_accepted hwait, rfl, rfl⟩

/-- Reads none of which looks like an accepting CONNACK do not open a session. -/
theorem connackLoop_ne_true (start : UInt32) (n : Nat)
    (h : ∀ poll ∈ s.chip.rx, ¬acceptsSession poll.data) :
    (connackLoop d start n s).1 ≠ some true := by
  induction n generalizing s with
  | zero => exact nofun
  | succ n ih =>
    by_cases htime : s.chip.millis - start < 5000
    swap
    · rw [connackLoop_timeout n htime]
      exact nofun
    cases hrx : s.chip.rx with
    | nil =>
      rw [connackLoop_nil n htime hrx]
      exact nofun
    | cons poll rx =>
      rw [hrx] at h
      rw [connackLoop_cons n htime hrx]
      split_ifs with hconnack
      · have hrefused : bufferOf poll.data 3 ≠ 0 := fun hzero =>
          h poll List.mem_cons_self ⟨hconnack, hzero⟩
        simp [hrefused]
      · exact ih fun p hp => h p (List.mem_cons_of_mem _ hp)

theorem finishConnect_ne_true (h : ∀ poll ∈ s.chip.rx, ¬acceptsSession poll.data) :
    (finishConnect d s).1 ≠ some true := by
  have hwait : (waitForConnack d s).1 ≠ some true := connackLoop_ne_true _ _ h
  rcases hrun : waitForConnack d s with ⟨_ | accepted, t⟩
  · rw [finishConnect_of_stopped hrun]
    exact nofun
  · cases accepted with
    | true => exact absurd (by rw [hrun]) hwait
    | false =>
      rw [finishConnect_of_refused hrun]
      exact nofun

/-- The calls made after an accepting CONNACK are those that the other reads mean. -/
theorem listen_of_accepted (hd : Healthy d) (config : Config) (table : Vector (Subscription κ) 2)
    (hrx : s.chip.rx = poll :: rx) (haccept : acceptsSession poll.data)
    (hdata : ∀ p ∈ rx, p.data ≠ []) (hfits : ∀ p ∈ rx, TopicLengthFits p.data) :
    (listen d config table s).1 = some ((rx.map Poll.data).flatMap (meaning table)) := by
  obtain ⟨s₁, hrx₁, hconnect⟩ := connect_healthy hd config s
  obtain ⟨s₂, hfinish, hstate, hrx₂⟩ := finishConnect_accepts (d := d) (hrx₁.trans hrx) haccept
  have hrun : connect d config s = (some true, s₂) := hconnect.trans hfinish
  have hloops := loops_eq (s := ⟨{ s₂.mqtt with subscriptions := table }, s₂.chip⟩) hd hstate hrx₂
    hdata hfits
  simp only [listen, Attempt.bind_apply, hrun, Attempt.require, if_true, Attempt.pure_apply,
    update_apply, Attempt.read_apply]
  rw [hrx₂]
  exact hloops

theorem listen_of_not_accepted (hd : Healthy d) (config : Config)
    (table : Vector (Subscription κ) 2) (h : ∀ p ∈ s.chip.rx, ¬acceptsSession p.data) :
    (listen d config table s).1 = none := by
  obtain ⟨s₁, hrx₁, hconnect⟩ := connect_healthy hd config s
  have hnot : (connect d config s).1 ≠ some true := by
    rw [hconnect]
    exact finishConnect_ne_true (hrx₁ ▸ h)
  rcases hrun : connect d config s with ⟨_ | accepted, t⟩
  · simp only [listen, Attempt.bind_apply, hrun]
  · cases accepted with
    | true => exact absurd (by rw [hrun]) hnot
    | false =>
      simp only [listen, Attempt.bind_apply, hrun, Attempt.require]
      rfl

end Spec

/-! ## Exactness -/

/-- No read looks like something that does not begin there: none of the later ones like an
accepting CONNACK if the first one is too short to be it, none like a PUBLISH for a subscription
if no such packet begins there, none like a PUBLISH whose topic length wraps. -/
structure Unambiguous (table : Vector (Subscription κ) 2) (first : List UInt8)
    (reads : List (List UInt8)) (packets : List WirePacket) : Prop where
  connack : first.length < 4 → ∀ read ∈ reads, ¬acceptsSession read
  publish : Synchronised WirePacket.bytes (WirePacket.due table) (meaning table) reads packets
  topicLength : ∀ read ∈ reads, TopicLengthFits read

/-- The session is opened and exactly the calls due are made, in order, if and only if the CONNACK
arrives in one piece and every PUBLISH for a subscription is a read of its own. -/
theorem listen_exact_iff (d : Driver) (hd : Healthy d) (config : Config)
    (table : Vector (Subscription κ) 2) (s : Session κ) (first : Poll) (rest : List Poll)
    (hrx : s.chip.rx = first :: rest) (hrest : ∀ poll ∈ rest, poll.data ≠ [])
    (sessionPresent : UInt8) (packets : List WirePacket)
    (hstream : first.data ++ (rest.map Poll.data).flatten =
      [0x20, 2, sessionPresent, 0] ++ stream WirePacket.bytes packets)
    (hclear : Unambiguous table first.data (rest.map Poll.data) packets) :
    (listen d config table s).1 = some (packets.flatMap (WirePacket.due table)) ↔
      4 ≤ first.data.length ∧
        InOwnPieces WirePacket.bytes (WirePacket.due table) (rest.map Poll.data) packets := by
  have hne : ∀ read ∈ rest.map Poll.data, read ≠ [] := by
    intro read hread
    obtain ⟨poll, hpoll, rfl⟩ := List.mem_map.mp hread
    exact hrest poll hpoll
  have hfits : ∀ poll ∈ rest, TopicLengthFits poll.data := fun poll hpoll =>
    hclear.topicLength _ (List.mem_map_of_mem hpoll)
  have hcell (i : Nat) (hi : i < first.data.length) (h4 : i < 4) :
      bufferOf first.data i = bufferOf [0x20, 2, sessionPresent, 0] i :=
    bufferOf_eq_of_append hstream hi (by simpa using h4)
  rcases Nat.lt_or_ge first.data.length 4 with hshort | hwhole
  · have hnone : ∀ poll ∈ s.chip.rx, ¬acceptsSession poll.data := by
      intro poll hpoll haccept
      rw [hrx] at hpoll
      rcases List.mem_cons.mp hpoll with rfl | hlater
      · exact absurd haccept.1.1 (by omega)
      · exact hclear.connack hshort _ (List.mem_map_of_mem hlater) haccept
    rw [listen_of_not_accepted hd config table hnone]
    refine iff_of_false nofun fun h => absurd h.1 (by omega)
  · have haccept : acceptsSession first.data := by
      refine ⟨⟨hwhole, ?_, ?_⟩, ?_⟩
      · rw [hcell 0 (by omega) (by omega)]
        rfl
      · rw [hcell 1 (by omega) (by omega)]
        rfl
      · rw [hcell 3 (by omega) (by omega)]
        rfl
    rw [listen_of_accepted hd config table hrx haccept hrest hfits, Option.some.injEq,
      hclear.publish.flatMap_eq_iff (meaning_faithful table) hne]
    exact ⟨fun h => ⟨hwhole, h⟩, fun h => h.2⟩

/-! ### Two runs -/

theorem workingDriver_healthy (tick : Nat) : Healthy (workingDriver tick) where
  link _ := show phycfgrLnkOn &&& phycfgrLnkOn ≠ 0 by decide
  socket _ := rfl
  connect _ _ _ := rfl
  established _ := rfl
  send _ _ := rfl

/-- A table with one subscription, to `gong/1`. -/
def gongTable : Vector (Subscription Unit) 2 :=
  #v[Subscription.unused.store (ascii "gong/1") (some ()), .unused]

/-- A client at power-up whose broker will send these reads. -/
def sessionWith (reads : List (List UInt8)) : Session Unit :=
  ⟨.start, ⟨0, 0, reads.map .ofBytes, [], []⟩⟩

def connackBytes : List UInt8 := [0x20, 2, 0, 0]

/-- A message for `gong/1` with QoS 0. -/
def gongRing : WirePacket :=
  ⟨.publish false false 0 (ascii "gong/1") 0 (ascii "RING"), by decide⟩

theorem listen_gongRing :
    (listen (workingDriver 0) brokerConfig gongTable
      (sessionWith [connackBytes, gongRing.bytes])).1 =
      some [⟨(), ascii "gong/1", ascii "RING"⟩] := by
  have hmeans : gongRing.due gongTable ≠ [] := by decide
  have hclear : Unambiguous gongTable connackBytes [gongRing.bytes] [gongRing] := by
    refine ⟨fun h => absurd h (by decide), fun before piece after hsplit _ => ?_,
      fun read hread _ p topicLen hfield => ?_⟩
    · cases before with
      | nil =>
        obtain ⟨rfl, rfl⟩ := List.cons.inj hsplit
        exact ⟨[], gongRing, [], rfl, hmeans, by simp⟩
      | cons first before => simp at hsplit
    · obtain rfl := List.mem_singleton.mp hread
      have hgong : topicField (bufferOf gongRing.bytes) gongRing.bytes.length = some (4, 6) := by
        decide
      obtain ⟨rfl, rfl⟩ : 4 = p ∧ 6 = topicLen := by simpa [hgong] using hfield
      decide
  refine (listen_exact_iff (workingDriver 0) (workingDriver_healthy 0) brokerConfig gongTable
    (sessionWith [connackBytes, gongRing.bytes]) (.ofBytes connackBytes) [.ofBytes gongRing.bytes]
    rfl (by decide) 0 [gongRing] (by decide) hclear).mpr ⟨by decide, ?_⟩
  intro earlier item later hitems _
  cases earlier with
  | nil =>
    obtain ⟨rfl, rfl⟩ := List.cons.inj hitems
    exact ⟨[], [], by decide, rfl⟩
  | cons first earlier => simp at hitems

/-- Two messages in one read: the second is taken for a part of the first one's payload. -/
theorem listen_coalesced :
    (listen (workingDriver 0) brokerConfig gongTable
      (sessionWith [connackBytes, gongRing.bytes ++ gongRing.bytes])).1 ≠
      some ([gongRing, gongRing].flatMap (WirePacket.due gongTable)) := by
  decide +kernel

end SmartBell.MQTT
