import SmartBell.App.Publications
import SmartBell.App.SessionSetup

/-!
# The order of the packets

What a broker may rely on: every packet that the firmware hands to the socket is one that
MQTT allows there. A CONNECT opens a session, and may come at any time; the two SUBSCRIBE
packets follow it, first of the one gong and then of the other; and a client that takes
itself for connected has them behind it, so that PUBLISH and PINGREQ come after them only.
The phases are read off the packets as a server decodes them.
-/
namespace SmartBell.App
open Common Config MQTT MinimalMQTT Firmware Attempt

/-! ## Phases -/

/-- How far a client has come, with the base topic that it has subscribed under. -/
inductive Phase where
  | idle
  | greeted
  | halfway (base : List UInt8) (packetId : Nat)
  | live (base : List UInt8)
  deriving DecidableEq, Repr

/-- The phase behind a packet, if the packet may come in this phase. -/
def Phase.after : Phase → ControlPacket → Option Phase
  | _, .connect c =>
    if c.protocolLevel = 4 ∧ c.cleanSession ∧ c.keepAlive = 60 ∧ c.will = none ∧
      c.userName = none ∧ c.password = none then some .greeted else none
  | .greeted, .subscribe packetId [(topic, qos)] =>
    if qos = 0 ∧ ascii "/1" <:+ topic then
      some (.halfway (topic.take (topic.length - 2)) packetId)
    else none
  | .halfway base first, .subscribe packetId [(topic, qos)] =>
    if qos = 0 ∧ topic = base ++ ascii "/2" ∧ packetId ≠ first then some (.live base) else none
  | .live base, .publish dup retain qos _ packetId payload =>
    if dup = false ∧ retain = false ∧ qos = 0 ∧ packetId = none ∧ payload = ascii "1" then
      some (.live base)
    else none
  | .live base, .pingreq => some (.live base)
  | _, _ => none

/-- The phase behind the packets of a log, the last of which comes first in it. -/
def phaseOf : List (List UInt8 × Int) → Option Phase
  | [] => some .idle
  | entry :: earlier => do
    let phase ← phaseOf earlier
    let packet ← decode entry.1
    phase.after packet

/-- All packets so far have come in their turn, and a connected client has subscribed. -/
def Conforms (s : Session Unit) : Prop :=
  ∃ phase, phaseOf s.chip.sent = some phase ∧
    (s.mqtt.state = .connected → ∃ base, phase = .live base)

section Phases
variable {sent packets : List (List UInt8 × Int)} {phase : Phase} {p : ControlPacket}

theorem phaseOf_cons (h : phaseOf sent = some phase) {packet : List UInt8} (n : Int)
    (hdecode : decode packet = some p) : phaseOf ((packet, n) :: sent) = phase.after p := by
  simp [phaseOf, h, hdecode]

/-- Packets that may come in a phase and do not lead out of it. -/
theorem phaseOf_stays (h : phaseOf sent = some phase)
    (hstays : ∀ entry ∈ packets, ∃ p, decode entry.1 = some p ∧ phase.after p = some phase) :
    phaseOf (packets ++ sent) = some phase := by
  induction packets with
  | nil => exact h
  | cons entry packets ih =>
    obtain ⟨p, hdecode, hafter⟩ := hstays entry List.mem_cons_self
    have hrest := ih fun entry hentry => hstays entry (List.mem_cons_of_mem _ hentry)
    exact (phaseOf_cons hrest entry.2 hdecode).trans hafter

/-- Packets that may come in every phase. -/
theorem phaseOf_reaches (h : phaseOf sent = some phase)
    (hall : ∀ entry ∈ packets, ∃ p, decode entry.1 = some p ∧
      ∀ phase : Phase, (phase.after p).isSome) :
    ∃ phase', phaseOf (packets ++ sent) = some phase' := by
  induction packets with
  | nil => exact ⟨phase, h⟩
  | cons entry packets ih =>
    obtain ⟨p, hdecode, hafter⟩ := hall entry List.mem_cons_self
    obtain ⟨before, hbefore⟩ := ih fun entry hentry => hall entry (List.mem_cons_of_mem _ hentry)
    obtain ⟨phase', hphase'⟩ := Option.isSome_iff_exists.mp (hafter before)
    exact ⟨phase', (phaseOf_cons hbefore entry.2 hdecode).trans hphase'⟩

end Phases

/-! ## The packets of the firmware -/

section Packets
variable (c : SmartBellConfig) (packetId : UInt16)

theorem decode_connect : decode (connectPacket (mqttConfig c)) =
    some (.connect (connectOf (mqttConfig c))) := by
  have hlen : (mqttConfig c).clientId.length ≤ 23 := List.length_take_le _ _
  have hnul : 0 ∉ (mqttConfig c).clientId := fun h =>
    zero_not_mem_cstring _ (List.mem_of_mem_take h)
  refine decode_connectPacket ?_ hnul (by simp [mqttConfig])
  simp [connectPacket, mqttConfig, ascii] at hlen ⊢
  omega

theorem after_connect (phase : Phase) :
    phase.after (.connect (connectOf (mqttConfig c))) = some .greeted := by
  have hcontent : (connectOf (mqttConfig c)).protocolLevel = 4 ∧
      (connectOf (mqttConfig c)).cleanSession ∧ (connectOf (mqttConfig c)).keepAlive = 60 ∧
      (connectOf (mqttConfig c)).will = none ∧ (connectOf (mqttConfig c)).userName = none ∧
      (connectOf (mqttConfig c)).password = none := ⟨rfl, rfl, rfl, rfl, rfl, rfl⟩
  cases phase <;> simp only [Phase.after, hcontent, and_self, if_true]

theorem decode_subTopic {suffix : List UInt8} (hlen : suffix.length = 2) (hnul : 0 ∉ suffix) :
    decode (subscribePacket packetId (subTopic c.gongBaseTopicString suffix)) =
      some (.subscribe packetId.toNat [(subTopic c.gongBaseTopicString suffix, 0)]) := by
  have hbase : 0 ∉ c.gongBaseTopicString.take 29 := fun h =>
    zero_not_mem_cstring _ (List.mem_of_mem_take h)
  have htake : (c.gongBaseTopicString.take 29).length ≤ 29 := List.length_take_le _ _
  refine decode_subscribePacket packetId ?_ ?_ ?_
  · rw [subTopic, List.length_append]
    omega
  · intro hempty
    simp [(List.append_eq_nil_iff.mp hempty).2] at hlen
  · simp [subTopic, hbase, hnul]

theorem after_first : Phase.greeted.after
    (.subscribe packetId.toNat [(subTopic c.gongBaseTopicString (ascii "/1"), 0)]) =
      some (.halfway (c.gongBaseTopicString.take 29) packetId.toNat) := by
  have hsuffix : ascii "/1" <:+ subTopic c.gongBaseTopicString (ascii "/1") :=
    List.suffix_append _ _
  have htwo : (ascii "/1").length = 2 := rfl
  have hbase : (subTopic c.gongBaseTopicString (ascii "/1")).take
      ((subTopic c.gongBaseTopicString (ascii "/1")).length - 2) =
        c.gongBaseTopicString.take 29 := by
    rw [subTopic, List.length_append, htwo, Nat.add_sub_cancel]
    exact List.take_left' rfl
  simp only [Phase.after, hsuffix, and_self, if_true, hbase]

theorem after_second : (Phase.halfway (c.gongBaseTopicString.take 29) packetId.toNat).after
    (.subscribe (packetId + 1).toNat [(subTopic c.gongBaseTopicString (ascii "/2"), 0)]) =
      some (.live (c.gongBaseTopicString.take 29)) := by
  have hid : (packetId + 1).toNat ≠ packetId.toNat := by
    intro h
    have hsame : packetId + 1 = packetId := UInt16.toNat_inj.mp h
    simp at hsame
  simp only [Phase.after, subTopic, ne_eq, hid, not_false_eq_true, and_self, if_true]

/-- The packets of a session that was opened. -/
theorem phaseOf_opened {sent : List (List UInt8 × Int)} {phase : Phase}
    (h : phaseOf sent = some phase) (n n₁ n₂ : Int) :
    phaseOf ([(subscribePacket (packetId + 1) (subTopic c.gongBaseTopicString (ascii "/2")), n₂),
        (subscribePacket packetId (subTopic c.gongBaseTopicString (ascii "/1")), n₁),
        (connectPacket (mqttConfig c), n)] ++ sent) =
      some (.live (c.gongBaseTopicString.take 29)) := by
  have hgreeted : phaseOf ((connectPacket (mqttConfig c), n) :: sent) = some .greeted := by
    rw [phaseOf_cons h n (decode_connect c), after_connect]
  have hhalfway : phaseOf
      ((subscribePacket packetId (subTopic c.gongBaseTopicString (ascii "/1")), n₁) ::
        (connectPacket (mqttConfig c), n) :: sent) =
      some (.halfway (c.gongBaseTopicString.take 29) packetId.toNat) := by
    rw [phaseOf_cons hgreeted n₁ (decode_subTopic c packetId rfl (by decide)), after_first]
  have hlive : phaseOf
      ((subscribePacket (packetId + 1) (subTopic c.gongBaseTopicString (ascii "/2")), n₂) ::
        (subscribePacket packetId (subTopic c.gongBaseTopicString (ascii "/1")), n₁) ::
        (connectPacket (mqttConfig c), n) :: sent) =
      some (.live (c.gongBaseTopicString.take 29)) := by
    rw [phaseOf_cons hhalfway n₂ (decode_subTopic c (packetId + 1) rfl (by decide)), after_second]
  exact hlive

end Packets
/-! ## What the methods hand to the socket -/

section Methods
variable {d : Driver} {s s' : Session Unit}

/-- A session that is as it was, or not connected, where a packet was handed over. -/
theorem Conforms.traffic {P : List UInt8 → Prop} (h : Conforms s)
    (hconnected : s.mqtt.state = .connected) (htraffic : s.Traffic P s')
    (hlive : ∀ base packet, P packet →
      ∃ p, decode packet = some p ∧ (Phase.live base).after p = some (.live base)) :
    Conforms s' := by
  obtain ⟨phase, hphase, hstate⟩ := h
  obtain ⟨base, rfl⟩ := hstate hconnected
  obtain ⟨_, packets, hsent, hpackets⟩ := htraffic
  refine ⟨.live base, ?_, fun _ => ⟨base, rfl⟩⟩
  rw [hsent]
  exact phaseOf_stays hphase fun entry hentry => hlive base entry.1 (hpackets entry hentry)

theorem loop_conforms (h : Conforms s) : Conforms (MinimalMQTT.loop d s).2 := by
  by_cases hconnected : s.mqtt.state = .connected
  · refine h.traffic hconnected (loop_traffic (P := fun packet => packet = pingreqPacket) rfl s) ?_
    rintro base packet rfl
    exact ⟨.pingreq, by decide, rfl⟩
  · have hidle : MinimalMQTT.loop d s = (some [], s) := by
      simp [MinimalMQTT.loop, bind_apply, hconnected]
    rwa [hidle]

theorem publish_conforms (c : SmartBellConfig) (topic : PubTopic) (h : Conforms s) :
    Conforms (publish d (topic.text c) (ascii "1") s).2 := by
  by_cases hconnected : s.mqtt.state = .connected
  · refine h.traffic hconnected (publish_traffic
      (P := fun packet => packet = publishPacket (topic.text c) (ascii "1")) _ _ rfl s) ?_
    rintro base packet rfl
    have hlen : (topic.text c).length ≤ 119 := text_length_le c topic
    have hone : (ascii "1").length = 1 := rfl
    exact ⟨_, decode_publishPacket (by omega) (zero_not_mem_text c topic), rfl⟩
  · have hidle : publish d (topic.text c) (ascii "1") s = (some false, s) := by
      simp [publish, bind_apply, hconnected]
    rwa [hidle]

/-- A `connect` that does not return true leaves no session. -/
theorem connect_not_connected (config : MQTT.Config)
    (h : (connect d config s).1 ≠ some true) :
    (connect d config s).2.mqtt.state ≠ .connected := by
  rcases hconnect : connect d config s with ⟨_ | connected, s'⟩
  · obtain ⟨reached, c, hsocket, _⟩ :=
      socketConnect_traffic (d := d) config.brokerIp config.brokerPort s.chip
    rw [connect_eq d config s hsocket] at hconnect
    split_ifs at hconnect
    · cases hconnect
    · -- only the wait for the CONNACK may stop
      have hwaits := connackLoop_waits (d := d) (c.sending d (connectPacket config)).millis
        ((c.sending d (connectPacket config)).rx.length + 1)
        (⟨s.mqtt.connecting config, c.sending d (connectPacket config)⟩ : Session Unit)
      obtain ⟨recvBuffer, hmqtt, _⟩ := hwaits
      rcases hresult : waitForConnack d
        (⟨s.mqtt.connecting config, c.sending d (connectPacket config)⟩ : Session Unit) with
        ⟨_ | accepted, t⟩
      · rw [finishConnect_of_stopped hresult] at hconnect
        obtain rfl := (Prod.mk.inj hconnect).2
        rw [waitForConnack_eq] at hresult
        rw [hresult] at hmqtt
        have hstate : t.mqtt.state = .connecting := congrArg MinimalMQTT.state hmqtt
        simp [hstate]
      · cases accepted with
        | false => simp [finishConnect_of_refused hresult] at hconnect
        | true => simp [finishConnect_of_accepted hresult] at hconnect
    · simp [connectFailed, bind_apply, io_apply, update_apply] at hconnect
  · cases connected with
    | false =>
      rw [(connect_attempted hconnect).state]
      simp
    | true =>
      rw [hconnect] at h
      exact absurd rfl h

theorem connect_conforms (c : SmartBellConfig) (h : Conforms s)
    (hrefused : (connect d (mqttConfig c) s).1 ≠ some true) :
    Conforms (connect d (mqttConfig c) s).2 := by
  obtain ⟨phase, hphase, _⟩ := h
  obtain ⟨_, packets, hsent, hpackets⟩ := connect_traffic (d := d)
    (P := fun packet => packet = connectPacket (mqttConfig c)) (mqttConfig c) rfl s
  have hreaches : ∃ phase', phaseOf (packets ++ s.chip.sent) = some phase' := by
    refine phaseOf_reaches hphase fun entry hentry => ?_
    rw [hpackets entry hentry]
    exact ⟨_, decode_connect c, fun phase => by rw [after_connect]; rfl⟩
  obtain ⟨phase', hphase'⟩ := hreaches
  exact ⟨phase', hsent ▸ hphase', fun hconnected =>
    absurd hconnected (connect_not_connected _ hrefused)⟩

end Methods

/-! ## The parts of a run -/

/-- The session conforms behind it if it did before. -/
def Firmware.StaysConforming (f f' : Firmware) : Prop :=
  Conforms f.session → Conforms f'.session

instance : IsPreorder Firmware Firmware.StaysConforming where
  refl _ := id
  trans _ _ _ h h' := h' ∘ h

section Parts
variable {d : Driver}

theorem client_conforms {α : Type} {x : Attempt (Session Unit) α}
    (h : ∀ s, Conforms s → Conforms (x s).2) : Moves Firmware.StaysConforming (client x) :=
  fun f => h f.session

/-- Work that has to do neither with the state of the client nor with what was sent. -/
theorem modify_conforms {g : Firmware → Firmware}
    (hmqtt : ∀ f, (g f).session.mqtt = f.session.mqtt)
    (hsent : ∀ f, (g f).session.chip.sent = f.session.chip.sent) :
    Moves Firmware.StaysConforming (.modify g) := by
  intro f hf
  rwa [Attempt.modify_apply, Conforms, hmqtt, hsent]

/-- No session is opened only where `connect` did not return true. -/
theorem openSession_refused {f : Firmware} (h : (openSession d f).1 ≠ some true) :
    (connect d (mqttConfig f.config) f.session).1 ≠ some true ∧
      (openSession d f).2.session = (connect d (mqttConfig f.config) f.session).2 := by
  rcases hconnect : connect d (mqttConfig f.config) f.session with ⟨_ | connected, s⟩
  · simp [openSession, bind_apply, client, hconnect]
  cases connected with
  | false => simp [openSession, bind_apply, client, hconnect]
  | true =>
    have hattempt := connect_attempted hconnect
    obtain ⟨_, _, _, s', hrun, _⟩ :=
      mqttSubscribeTopics_steps (d := d) f.config hattempt.state hattempt.unsubscribed
    refine absurd ?_ h
    simp [openSession, bind_apply, client, hconnect, hrun]

theorem openSession_conforms : Moves Firmware.StaysConforming (openSession d) := by
  intro f hf
  by_cases haccepted : (openSession d f).1 = some true
  · have hopen : openSession d f = (some true, (openSession d f).2) := by rw [← haccepted]
    obtain ⟨n₁, n₂, hsent⟩ := openSession_sent hopen
    obtain ⟨phase, hphase, _⟩ := hf
    refine ⟨.live (f.config.gongBaseTopicString.take 29), ?_, fun _ => ⟨_, rfl⟩⟩
    rw [hsent]
    exact phaseOf_opened f.config f.session.mqtt.packetId hphase _ _ _
  · obtain ⟨hrefused, hsession⟩ := openSession_refused haccepted
    rw [hsession]
    exact connect_conforms f.config hf hrefused

theorem processChime_conforms (c : SmartBellConfig) (t : Nat) (pind : UInt8) (i : ChimeId)
    (b : Bell) {s : Session Unit} (h : Conforms s) :
    Conforms (processChime isConnected (fun topic => publish d (topic.text c) (ascii "1"))
      (counter t) pind i b s).2 := by
  rw [processChime_session]
  split_ifs
  · exact h
  · cases (b.polled i t pind).attempt (s.mqtt.state = .connected) with
    | none => exact h
    | some topic => exact publish_conforms c topic h

theorem retryConnect_conforms : Moves Firmware.StaysConforming (retryConnect d) :=
  .bind .read fun _ => .ite
    (fun _ => .bind (modify_conforms (fun _ => rfl) fun _ => rfl) fun _ => openSession_conforms)
    fun _ => .pure false

theorem saveConnect_conforms : Moves Firmware.StaysConforming (saveConnect d) :=
  .bind .read fun _ => .bind (modify_conforms (fun _ => rfl) fun _ => rfl) fun _ => .ite
    (fun _ => .bind (modify_conforms (fun _ => rfl) fun _ => rfl) fun _ => .ite
      (fun _ => openSession_conforms) fun _ => .pure false)
    fun _ => .pure false

theorem boot_conforms (pind : UInt8) : Moves Firmware.StaysConforming (boot d pind) :=
  .bind (.bind .read fun _ => .ite (fun _ => openSession_conforms) fun _ => .pure false)
    fun opened => .bind (modify_conforms (fun _ => rfl) fun _ => rfl) fun _ => .pure opened

theorem delayRound_conforms (elapsed : Nat) :
    Moves Firmware.StaysConforming (delayRound elapsed) := by
  refine modify_conforms (fun f => ?_) fun f => ?_ <;>
  · dsimp only
    split_ifs <;> rfl

/-- Every part keeps the conversation in order, wherever it ends. -/
theorem perform_conforms (st : Stage) : Moves Firmware.StaysConforming (st.perform d) := by
  cases st with
  | boot pind => exact .bind (boot_conforms pind) fun _ => .pure ()
  | watchdog => exact client_conforms fun _ h => h
  | client =>
    exact .bind (client_conforms fun _ h => loop_conforms h) fun _ =>
      modify_conforms (fun _ => rfl) fun _ => rfl
  | retry => exact .bind retryConnect_conforms fun _ => .pure ()
  | save => exact .bind saveConnect_conforms fun _ => .pure ()
  | chime i pind =>
    exact .bind .read fun f => .bind
      (client_conforms fun _ h => processChime_conforms f.config _ pind i f.bell h) fun _ =>
        modify_conforms (fun _ => rfl) fun _ => rfl
  | console uart =>
    exact .bind (modify_conforms (fun _ => rfl) fun _ => rfl) fun _ => .bind .read fun _ =>
      .ite (fun _ => .pure ()) fun _ => .stop
  | delay elapsed => exact delayRound_conforms elapsed

end Parts

/-- In whatever order the parts of `main` follow each other, as they do in any run, and whatever
the ioLibrary answers: every packet that was handed to the socket is one that a client may send
where it stands, and a client that takes itself for connected has subscribed to both gongs. -/
theorem conversation_conforms (d : Driver) (eeprom : Memory) (portB : UInt8) (chip : Chip)
    (es : List Stage) :
    Conforms (run (next (Stage.perform d)) (some (), .poweredUp eeprom portB chip)
      es).2.session := by
  refine run_invariant (I := fun o : Option Unit × Firmware => Conforms o.2.session) ?_ ?_ es
  · rintro ⟨_ | _, f⟩ st hf
    · exact hf
    · exact perform_conforms st f hf
  · exact ⟨.idle, rfl, fun hconnected => nomatch hconnected⟩

/-- A press, in a session. -/
example : phaseOf (run (next (Stage.perform (workingDriver 0)))
    (some (), acceptedFirmware configuredEeprom) (stages 0xFF pressRounds)).2.session.chip.sent =
      some (.live (ascii "haus/gong")) := by decide +kernel

end SmartBell.App
