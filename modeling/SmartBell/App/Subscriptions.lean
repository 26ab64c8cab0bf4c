import SmartBell.App.MainLoop
import SmartBell.App.PressEvents
import SmartBell.MQTT.Sessions

/-!
# Both gongs stay subscribed

A session is opened with two SUBSCRIBE packets. Nothing looks at whether they were
sent, and nothing sends them again: a connected client has both subscriptions where the
driver took every SUBSCRIBE of the run, and a single refused one is left behind.
-/
namespace SmartBell.App
open Common Config MQTT MinimalMQTT Firmware

/-- Both gongs can be reached under this base topic. -/
def Controllable (base : List UInt8) (m : MinimalMQTT Unit) : Prop :=
  Listens m (base ++ ascii "/1") ∧ Listens m (base ++ ascii "/2")

instance (base : List UInt8) (m : MinimalMQTT Unit) : Decidable (Controllable base m) :=
  inferInstanceAs (Decidable (_ ∧ _))

/-- The base topic in force after a step that may have opened a session. -/
def baseAfter (opened : Bool) (c : SmartBellConfig) (base : List UInt8) : List UInt8 :=
  if opened then c.gongBaseTopicString else base

/-! ## Runs -/

/-- Rounds of the main loop. The result is the base topic that was in force when the last session
was opened. -/
def mainRounds (d : Driver) : List Round → List UInt8 → Attempt Firmware (List UInt8)
  | [], base => pure base
  | r :: rs, base => do
    let f ← .read
    let opened ← mainRound d r
    mainRounds d rs (baseAfter opened f.config base)

/-- The firmware from its boot on. -/
def mainRun (d : Driver) (pind : UInt8) (rs : List Round) : Attempt Firmware (List UInt8) := do
  let f ← .read
  let opened ← boot d pind
  mainRounds d rs (baseAfter opened f.config [])

/-! ## Opening a session -/

section Rounds
variable {d : Driver}

/-- A topic that is as long as a subscription can hold is subscribed to as it is. -/
theorem subTopic_listensIn (m : MinimalMQTT Unit) (slot : Fin 2) (c : SmartBellConfig)
    {suffix : List UInt8} (hbase : c.gongBaseTopicString.length ≤ 29) (hlen : suffix.length = 2)
    (hsuffix : 0 ∉ suffix) : ListensIn
      (m.subscribed slot (subTopic c.gongBaseTopicString suffix) (some ())) slot
      (c.gongBaseTopicString ++ suffix) := by
  have hnul : 0 ∉ c.gongBaseTopicString := zero_not_mem_cstring _
  rw [subTopic, List.take_of_length_le hbase]
  refine subscribed_listensIn m slot (some ()) ?_ ?_
  · rw [List.length_append]
    omega
  · simp [hnul, hsuffix]

/-- The two calls of `subscribe`. There is a slot for each, and the second one gets the first slot
if the driver did not take the first packet. -/
theorem mqttSubscribeTopics_steps (c : SmartBellConfig) {s : Session Unit}
    (hstate : s.mqtt.state = .connected) (hclear : s.Unsubscribed) :
    ∃ first second s₁ s₂, mqttSubscribeTopics d c s = (some (), s₂) ∧
      s.Subscribed s₁ 0 (subTopic c.gongBaseTopicString (ascii "/1")) () first ∧
      s₁.Subscribed s₂ (if first then 1 else 0) (subTopic c.gongBaseTopicString (ascii "/2")) ()
        second ∧
      ∃ n₁ n₂, s₂.chip.sent =
        [(subscribePacket (s.mqtt.packetId + 1) (subTopic c.gongBaseTopicString (ascii "/2")),
            d.send n₂ (subscribePacket (s.mqtt.packetId + 1)
              (subTopic c.gongBaseTopicString (ascii "/2")))),
          (subscribePacket s.mqtt.packetId (subTopic c.gongBaseTopicString (ascii "/1")),
            d.send n₁ (subscribePacket s.mqtt.packetId
              (subTopic c.gongBaseTopicString (ascii "/1"))))] ++ s.chip.sent := by
  obtain ⟨first, s₁, hrun₁, hfirst⟩ := subscribe_subscribed (d := d)
    (subTopic c.gongBaseTopicString (ascii "/1")) () hstate (freeSlot_first (hclear 0))
  have hfree := hfirst.freeSlot hclear
  obtain ⟨second, s₂, hrun₂, hsecond⟩ := subscribe_subscribed (d := d)
    (subTopic c.gongBaseTopicString (ascii "/2")) () hfirst.state hfree
  obtain ⟨hid, hsent₁⟩ := subscribe_sent hstate (freeSlot_first (hclear 0)) hrun₁
  obtain ⟨_, hsent₂⟩ := subscribe_sent hfirst.state hfree hrun₂
  refine ⟨first, second, s₁, s₂, ?_, hfirst, hsecond, s.chip.calls, s₁.chip.calls, ?_⟩
  · simp only [mqttSubscribeTopics, Attempt.bind_apply, Attempt.read_apply, hstate, ne_eq,
      not_true_eq_false, if_false, hrun₁, hrun₂]
    rfl
  · rw [hsent₂, hsent₁, hid]
    rfl

/-- A session that was opened was connected to, and then subscribed in. -/
theorem openSession_accepted {f f' : Firmware} (h : openSession d f = (some true, f')) :
    ∃ s s', connect d (mqttConfig f.config) f.session = (some true, s) ∧
      mqttSubscribeTopics d f.config s = (some (), s') ∧ f' = { f with session := s' } := by
  rcases hconnect : connect d (mqttConfig f.config) f.session with ⟨_ | connected, s⟩
  · simp [openSession, Attempt.bind_apply, client, hconnect] at h
  cases connected with
  | false => simp [openSession, Attempt.bind_apply, client, hconnect] at h
  | true =>
    have hattempt := connect_attempted hconnect
    obtain ⟨_, _, _, s', hrun, _⟩ :=
      mqttSubscribeTopics_steps (d := d) f.config hattempt.state hattempt.unsubscribed
    refine ⟨s, s', rfl, hrun, ?_⟩
    simp only [openSession, Attempt.bind_apply, Attempt.read_apply, client, Attempt.zoom_apply,
      hconnect, if_true, hrun, Attempt.pure_apply, Prod.mk.injEq, true_and] at h
    exact h.symm

/-- Two accepted SUBSCRIBE packets make both gongs controllable. -/
theorem mqttSubscribeTopics_spec (c : SmartBellConfig) {s : Session Unit}
    (hstate : s.mqtt.state = .connected) (hclear : s.Unsubscribed) :
    ∃ s', mqttSubscribeTopics d c s = (some (), s') ∧ s.chip.sent <:+ s'.chip.sent ∧
      (s'.chip.SubscribesTaken → c.gongBaseTopicString.length ≤ 29 →
        Controllable c.gongBaseTopicString s'.mqtt) := by
  obtain ⟨first, second, s₁, s₂, hrun, hfirst, hsecond, _⟩ :=
    mqttSubscribeTopics_steps (d := d) c hstate hclear
  refine ⟨s₂, hrun, hfirst.sent.trans hsecond.sent, fun htaken hbase => ?_⟩
  obtain rfl := hsecond.onRecord htaken
  obtain rfl := hfirst.onRecord (htaken.earlier hsecond.sent)
  have hlisten : ListensIn s₁.mqtt 0 (c.gongBaseTopicString ++ ascii "/1") :=
    (subTopic_listensIn s.mqtt 0 c hbase rfl (by decide)).congr (hfirst.slot 0)
  refine ⟨⟨0, hlisten.congr ?_⟩, ⟨1, ?_⟩⟩
  · rw [hsecond.slot 0, if_pos rfl]
    exact subscribed_of_ne s₁.mqtt (by decide) _ _
  · exact (subTopic_listensIn s₁.mqtt 1 c hbase rfl (by decide)).congr (hsecond.slot 1)

/-! ## The invariant -/

/-- If the driver took every SUBSCRIBE so far, a connected client has both subscriptions under the
base topic. -/
def Serves (base : List UInt8) (f : Firmware) : Prop :=
  f.session.chip.SubscribesTaken → f.session.mqtt.state = .connected → base.length ≤ 29 →
    Controllable base f.session.mqtt

theorem Serves.keeps {base : List UInt8} {f f' : Firmware} (h : Serves base f)
    (hkeeps : f.session.Keeps f'.session) : Serves base f' := by
  intro htaken hconnected hbase
  have hbefore : f.session.mqtt.state = .connected := by
    rcases hkeeps.state with hsame | herror
    · rwa [hsame] at hconnected
    · rw [herror] at hconnected
      cases hconnected
  obtain ⟨⟨slot₁, hfirst⟩, ⟨slot₂, hsecond⟩⟩ := h (htaken.earlier hkeeps.sent) hbefore hbase
  exact ⟨⟨slot₁, hfirst.congr (hkeeps.slot slot₁)⟩, ⟨slot₂, hsecond.congr (hkeeps.slot slot₂)⟩⟩

/-- The invariant between two steps of a round, during which the configuration is `c`. -/
def ServesUnder (c : SmartBellConfig) (base : List UInt8) (f : Firmware) : Prop :=
  f.config = c ∧ Serves base f

/-- Where it ends does not matter. -/
def Anywhere (_ : Firmware) : Prop := True

variable {c : SmartBellConfig} {base : List UInt8}

/-- Work on the session that keeps it keeps the invariant. -/
theorem client_serves {α : Type} {x : Attempt (Session Unit) α}
    (h : ∀ s : Session Unit, s.Keeps (x s).2) :
    Attempt.Triple (ServesUnder c base) (client x) (fun _ => ServesUnder c base) Anywhere := by
  rintro f ⟨hconfig, hserves⟩
  refine ⟨fun a f' hrun => ?_, fun _ _ => trivial⟩
  have hf' : f' = { f with session := (x f.session).2 } := (Prod.mk.inj hrun).2.symm
  rw [hf']
  exact ⟨hconfig, hserves.keeps (h f.session)⟩

/-- A session that is opened serves the base topic of the time; where none is opened there is
none. -/
theorem openSession_serves : Attempt.Triple (ServesUnder c base) (openSession d)
    (fun opened => ServesUnder c (baseAfter opened c base)) Anywhere := by
  rintro f ⟨rfl, hserves⟩
  refine ⟨fun opened f' hrun => ?_, fun _ _ => trivial⟩
  rcases hconnect : connect d (mqttConfig f.config) f.session with ⟨_ | connected, s⟩
  · simp [openSession, Attempt.bind_apply, client, hconnect] at hrun
  have hattempt := connect_attempted hconnect
  cases connected with
  | false =>
    simp only [openSession, Attempt.bind_apply, Attempt.read_apply, client, Attempt.zoom_apply,
      hconnect, Bool.false_eq_true, if_false, Attempt.pure_apply, Prod.mk.injEq,
      Option.some.injEq] at hrun
    obtain ⟨rfl, rfl⟩ := hrun
    refine ⟨rfl, fun _ hconnected => ?_⟩
    rw [hattempt.state] at hconnected
    cases hconnected
  | true =>
    obtain ⟨s', hsubscribe, hsent, hcontrol⟩ :=
      mqttSubscribeTopics_spec (d := d) f.config hattempt.state hattempt.unsubscribed
    simp only [openSession, Attempt.bind_apply, Attempt.read_apply, client, Attempt.zoom_apply,
      hconnect, if_true, hsubscribe, Attempt.pure_apply, Prod.mk.injEq, Option.some.injEq] at hrun
    obtain ⟨rfl, rfl⟩ := hrun
    exact ⟨rfl, fun htaken _ hbase => hcontrol htaken hbase⟩

/-! ## A round -/

theorem clientRound_serves : Attempt.Triple (ServesUnder c base) (clientRound d)
    (fun _ => ServesUnder c base) Anywhere :=
  .bind (client_serves loop_keeps) fun _ => .modify fun _ h => h

theorem retryConnect_serves : Attempt.Triple (ServesUnder c base) (retryConnect d)
    (fun opened => ServesUnder c (baseAfter opened c base)) Anywhere := by
  refine .bind (Q := fun _ => ServesUnder c base) (.read fun _ h => h) fun f => .ite (fun _ => ?_)
    (fun _ => .pure false fun _ h => h)
  exact .bind (Q := fun _ => ServesUnder c base) (.modify fun _ h => h) fun _ => openSession_serves

@[simp] theorem consumeSaveFlag_config (s : ConfigStore) :
    (consumeSaveFlag s).2.config = s.config := by
  unfold consumeSaveFlag
  split_ifs <;> rfl

theorem saveConnect_serves : Attempt.Triple (ServesUnder c base) (saveConnect d)
    (fun opened => ServesUnder c (baseAfter opened c base)) Anywhere := by
  refine .bind (Q := fun f g => f.config = c ∧ ServesUnder c base g) (.read fun _ h => ⟨h.1, h⟩)
    fun f => .bind (Q := fun _ => ServesUnder c base) (.modify fun g h => ?_) fun _ =>
      .ite (fun _ => ?_) (fun _ => .pure false fun _ h => h)
  · exact ⟨(consumeSaveFlag_config f.console.store).trans h.1, h.2.2⟩
  · refine .bind (Q := fun _ => ServesUnder c base) (.modify fun _ h => h) fun _ =>
      .ite (fun _ => openSession_serves) (fun _ => .pure false fun _ h => h)

/-- The MQTT event on the client. -/
theorem sendEvent_apply (publish : PubTopic → Attempt (Session Unit) Bool) (c : ChimeState)
    (s : Session Unit) : c.sendEvent isConnected publish s =
      match c.attempt (s.mqtt.state = .connected) with
      | none => (some c, s)
      | some topic =>
        ((publish topic s).1.map fun published =>
            if published then { c with mqttSent := true } else c,
          (publish topic s).2) := by
  by_cases hpressed : c.buttonPressed ∧ !c.mqttSent
  · simp only [ChimeState.sendEvent, if_pos hpressed, Attempt.bind_apply, isConnected_apply]
    by_cases hstate : s.mqtt.state = .connected
    · have hattempt : c.attempt (s.mqtt.state = .connected) = c.pubTopic := by
        simp [ChimeState.attempt, hpressed, hstate]
      rw [hattempt, decide_eq_true hstate]
      cases c.pubTopic with
      | none => rfl
      | some topic => exact Attempt.bind_pure_apply (publish topic) _ s
    · have hattempt : c.attempt (s.mqtt.state = .connected) = none := by
        simp [ChimeState.attempt, hstate]
      rw [hattempt, decide_eq_false hstate]
      rfl
  · have hattempt : c.attempt (s.mqtt.state = .connected) = none := by
      rw [ChimeState.attempt]
      exact if_neg fun h => hpressed ⟨h.1, h.2.1⟩
    rw [hattempt, ChimeState.sendEvent, if_neg hpressed]
    rfl

/-- A call on the session: nothing during the lock, and then the publish that polling asks for. -/
theorem processChime_session (publish : PubTopic → Attempt (Session Unit) Bool) (t : Nat)
    (pind : UInt8) (i : ChimeId) (b : Bell) (s : Session Unit) :
    (processChime isConnected publish (counter t) pind i b s).2 =
      if (b.startLoop (counter t)).isLocked (counter t) then s
      else match (b.polled i t pind).attempt (s.mqtt.state = .connected) with
        | none => s
        | some topic => (publish topic s).2 := by
  cases hlock : (b.startLoop (counter t)).isLocked (counter t) with
  | true =>
    simp only [processChime, hlock, if_true]
    rfl
  | false =>
    have hattempt := (service_attempt (b.startLoop (counter t)) i (rawState pind i) (counter t)
      (s.mqtt.state = .connected)).1
    rw [Bell.chime_startLoop] at hattempt
    simp only [processChime, hlock, Bool.false_eq_true, if_false]
    rw [Attempt.bind_pure_apply, sendEvent_apply, hattempt]
    unfold Bell.polled
    cases ChimeState.attempt _ _ <;> rfl

theorem processChime_keeps (topics : PubTopic → List UInt8) (payload : List UInt8) (t : Nat)
    (pind : UInt8) (i : ChimeId) (b : Bell) (s : Session Unit) :
    s.Keeps (processChime isConnected (fun topic => publish d (topics topic) payload)
      (counter t) pind i b s).2 := by
  rw [processChime_session]
  split_ifs
  · exact .refl s
  · cases (b.polled i t pind).attempt (s.mqtt.state = .connected) with
    | none => exact .refl s
    | some topic => exact publish_keeps (topics topic) payload s

theorem chimeRound_serves (i : ChimeId) (pind : UInt8) :
    Attempt.Triple (ServesUnder c base) (chimeRound d i pind) (fun _ => ServesUnder c base)
      Anywhere := by
  refine .bind (Q := fun _ => ServesUnder c base) (.read fun _ h => h) fun f =>
    .bind (client_serves fun s => ?_) fun _ => .modify fun _ h => h
  exact processChime_keeps _ _ _ _ _ _ s

theorem consoleRound_serves (uart : List UInt8) :
    Attempt.Triple (ServesUnder c base) (consoleRound uart) (fun _ => Serves base) Anywhere := by
  refine .bind (Q := fun _ => Serves base) (.modify fun _ h => h.2) fun _ =>
    .bind (Q := fun _ => Serves base) (.read fun _ h => h) fun f => ?_
  exact .ite (fun _ => .pure () fun _ h => h) fun _ => .stop fun _ _ => trivial

theorem delayRound_serves (elapsed : Nat) :
    Attempt.Triple (Serves base) (delayRound elapsed) (fun _ => Serves base) Anywhere := by
  refine .modify fun f h => ?_
  simp only
  split_ifs <;> exact h

theorem mainRound_serves (r : Round) : Attempt.Triple (ServesUnder c base) (mainRound d r)
    (fun opened => Serves (baseAfter opened c base)) Anywhere := by
  refine .bind (client_serves fun s => ?_) fun _ => .bind clientRound_serves fun _ =>
    .bind retryConnect_serves fun retried => .bind saveConnect_serves fun renewed =>
    .bind (chimeRound_serves .chime1 r.pind1) fun _ =>
    .bind (chimeRound_serves .chime2 r.pind2) fun _ =>
    .bind (consoleRound_serves r.uart) fun _ => .bind (delayRound_serves r.elapsed) fun _ =>
    .pure _ fun f h => ?_
  · exact ⟨Or.inl rfl, rfl, List.suffix_rfl⟩
  · cases retried <;> cases renewed <;> exact h

theorem bootConnect_serves : Attempt.Triple (ServesUnder c base) (bootConnect d)
    (fun opened => ServesUnder c (baseAfter opened c base)) Anywhere :=
  .bind (Q := fun _ => ServesUnder c base) (.read fun _ h => h) fun _ =>
    .ite (fun _ => openSession_serves) fun _ => .pure false fun _ h => h

theorem boot_serves (pind : UInt8) : Attempt.Triple (ServesUnder c base) (boot d pind)
    (fun opened => Serves (baseAfter opened c base)) Anywhere :=
  .bind bootConnect_serves fun opened =>
    .bind (Q := fun _ => Serves (baseAfter opened c base)) (.modify fun _ h => h.2) fun _ =>
      .pure opened fun _ h => h

/-! ## Runs from boot -/

theorem mainRounds_serves (rs : List Round) (base : List UInt8) :
    Attempt.Triple (Serves base) (mainRounds d rs base) Serves Anywhere := by
  induction rs generalizing base with
  | nil => exact .pure base fun _ h => h
  | cons r rs ih =>
    exact .bind (Q := fun f g => ServesUnder f.config base g) (.read fun _ h => ⟨rfl, h⟩) fun f =>
      .bind (mainRound_serves r) fun opened => ih (baseAfter opened f.config base)

theorem mainRun_serves (pind : UInt8) (rs : List Round) :
    Attempt.Triple (Serves []) (mainRun d pind rs) Serves Anywhere :=
  .bind (Q := fun f g => ServesUnder f.config [] g) (.read fun _ h => ⟨rfl, h⟩) fun f =>
    .bind (boot_serves pind) fun opened => mainRounds_serves rs (baseAfter opened f.config [])

end Rounds

/-- In a run whose SUBSCRIBE packets were all taken, both gongs are controllable after every round
in which the client is connected, under the base topic of the session, if that fits. -/
theorem controllable_of_taken (d : Driver) (eeprom : Memory) (portB pind : UInt8) (chip : Chip)
    (rs : List Round) {base : List UInt8} {f : Firmware}
    (hrun : mainRun d pind rs (.loaded eeprom portB chip) = (some base, f))
    (htaken : f.session.chip.SubscribesTaken) (hbase : base.length ≤ 29)
    (hconnected : f.session.mqtt.state = .connected) : Controllable base f.session.mqtt := by
  have hstart : Serves [] (.loaded eeprom portB chip) := fun _ hconnected => nomatch hconnected
  exact (mainRun_serves pind rs _ hstart).1 base f hrun htaken hconnected hbase

/-! ### Two runs -/

/-- An EEPROM that was saved to with a broker and a base topic set. -/
def savedEeprom : Memory :=
  eepromWriteCfg
    { staticConfig with
      brokerIp := brokerConfig.brokerIp
      gongBaseTopic := copyTopic (ascii "haus/gong") 0 staticConfig.gongBaseTopic }
    (fun _ => 0xFF) eepromAddr

/-- A firmware whose broker accepts the session and then says nothing. -/
def savedFirmware : Firmware :=
  .loaded savedEeprom 0 ⟨0, 0, [.ofBytes [0x20, 2, 0, 0], ⟨0, []⟩], [], []⟩

/-- A round in which nobody rings and nobody types. -/
def quietRound : Round := ⟨0xFF, 0xFF, [], 1⟩

/-- A socket that is busy at its tenth call, the second SUBSCRIBE of the boot. -/
def busyDriver : Driver :=
  { workingDriver 0 with send := fun n data => if n = 9 then 0 else data.length }

theorem controllable_savedFirmware : Controllable (ascii "haus/gong")
    (mainRun (workingDriver 0) 0xFF [quietRound] savedFirmware).2.session.mqtt := by
  have hresult : (mainRun (workingDriver 0) 0xFF [quietRound] savedFirmware).1 =
      some (ascii "haus/gong") := by decide +kernel
  have hrun : mainRun (workingDriver 0) 0xFF [quietRound] savedFirmware = (some (ascii "haus/gong"),
      (mainRun (workingDriver 0) 0xFF [quietRound] savedFirmware).2) := by rw [← hresult]
  exact controllable_of_taken (workingDriver 0) savedEeprom 0 0xFF _ [quietRound] hrun
    (by decide +kernel) (by decide) (by decide +kernel)

/-- The second gong is not subscribed to, and the client stays connected. -/
theorem not_controllable_busy :
    (mainRun busyDriver 0xFF [quietRound] savedFirmware).1 = some (ascii "haus/gong") ∧
      (mainRun busyDriver 0xFF [quietRound] savedFirmware).2.session.mqtt.state = .connected ∧
      ¬Controllable (ascii "haus/gong")
        (mainRun busyDriver 0xFF [quietRound] savedFirmware).2.session.mqtt := by
  decide +kernel

end SmartBell.App
