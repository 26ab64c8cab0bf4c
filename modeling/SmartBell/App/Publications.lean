import SmartBell.App.Subscriptions
import SmartBell.Config.PublishTopics
import SmartBell.MQTT.ControlPacket
import SmartBell.MQTT.Requests

/-!
# What the firmware publishes

`process_chime` publishes to whatever the topic of its chime is at that moment. Its test
for a topic is one for a null pointer, which `pub_topic` is not once `main` has set it:
an input topic that was never configured is the empty string, and is published to.
-/
namespace SmartBell.App
open Common Config MQTT MinimalMQTT Firmware Attempt

/-! ## The parts of a run -/

/-- The parts of `main` between which the firmware is looked at. -/
inductive Stage where
  | boot (pind : UInt8)
  | watchdog
  | client
  | retry
  | save
  | chime (i : ChimeId) (pind : UInt8)
  | console (uart : List UInt8)
  | delay (elapsed : Nat)

def Stage.perform (d : Driver) : Stage → Attempt Firmware Unit
  | .boot pind => do
    let _ ← App.boot d pind
    pure ()
  | .watchdog => Firmware.client (MinimalMQTT.io wdtReset)
  | .client => clientRound d
  | .retry => do
    let _ ← retryConnect d
    pure ()
  | .save => do
    let _ ← saveConnect d
    pure ()
  | .chime i pind => chimeRound d i pind
  | .console uart => consoleRound uart
  | .delay elapsed => delayRound elapsed

def Round.stages (r : Round) : List Stage :=
  [.watchdog, .client, .retry, .save, .chime .chime1 r.pind1, .chime .chime2 r.pind2,
    .console r.uart, .delay r.elapsed]

/-- The parts of a run in their order. -/
def stages (pind : UInt8) (rs : List Round) : List Stage := .boot pind :: rs.flatMap Round.stages

section Parts
variable (d : Driver)

theorem mainRound_performs (r : Round) : Performs (Stage.perform d) r.stages (mainRound d r) :=
  .cons (bind_unit _).symm fun _ => .cons (bind_unit _).symm fun _ => .cons rfl fun _ =>
    .cons rfl fun _ => .cons (bind_unit _).symm fun _ => .cons (bind_unit _).symm fun _ =>
    .cons (bind_unit _).symm fun _ => .cons (bind_unit _).symm fun _ => .pure _

theorem mainRounds_performs (rs : List Round) (base : List UInt8) :
    Performs (Stage.perform d) (rs.flatMap Round.stages) (mainRounds d rs base) := by
  induction rs generalizing base with
  | nil => exact .pure base
  | cons r rs ih =>
    rw [List.flatMap_cons]
    exact .read fun f => .bind (mainRound_performs d r) fun opened => ih _

/-- A run from boot is the run of its parts. -/
theorem mainRun_performs (pind : UInt8) (rs : List Round) :
    Performs (Stage.perform d) (stages pind rs) (mainRun d pind rs) :=
  .read fun _ => .cons rfl fun _ => mainRounds_performs d rs _

end Parts

/-! ## What a part publishes -/

/-- The field to whose topic a call of `process_chime` publishes, if it comes to that. -/
def Firmware.publication (f : Firmware) (i : ChimeId) (pind : UInt8) : Option PubTopic :=
  let t := f.session.chip.clock
  if (f.bell.startLoop (counter t)).isLocked (counter t) then none
  else (f.bell.polled i t pind).attempt (f.session.mqtt.state = .connected)

/-- The packet for a topic, if it fits into the client's buffer. -/
def publicationPacket (topic : List UInt8) : List (List UInt8) :=
  if topic.length ≤ 59 then [publishPacket topic (ascii "1")] else []

/-- The PUBLISH packets of a part. -/
def Firmware.published (f : Firmware) : Stage → List (List UInt8)
  | .chime i pind =>
    (f.publication i pind).toList.flatMap fun topic => publicationPacket (topic.text f.config)
  | _ => []

section Chimes
variable {d : Driver}

theorem text_length_le (c : SmartBellConfig) (topic : PubTopic) :
    (topic.text c).length ≤ SmartBellConfig.size := by
  have hstring (off : Nat) : (c.stringAt off).length ≤ SmartBellConfig.size := by
    refine (cstring_isPrefix _).length_le.trans ?_
    simp
  cases topic with
  | input1Topic => exact hstring 22
  | input2Topic => exact hstring 47

theorem chimeRound_apply (i : ChimeId) (pind : UInt8) (f : Firmware) :
    chimeRound d i pind f =
      let called := processChime isConnected
        (fun topic => MinimalMQTT.publish d (topic.text f.config) (ascii "1"))
        (counter f.session.chip.clock) pind i f.bell f.session
      (called.1.map fun _ => (),
        { f with bell := called.1.getD f.bell, session := called.2 }) := by
  simp only [chimeRound, bind_apply, read_apply, Firmware.client, zoom_apply, Chip.millis]
  generalize processChime isConnected _ _ pind i f.bell f.session = called
  obtain ⟨_ | b, s⟩ := called
  · rfl
  · rfl

/-- What one call publishes. -/
theorem chimeRound_publishes (i : ChimeId) (pind : UInt8) (f : Firmware) :
    (chimeRound d i pind f).2.session.chip.publishes =
      f.published (.chime i pind) ++ f.session.chip.publishes := by
  rw [chimeRound_apply]
  simp only [processChime_session, Firmware.published, Firmware.publication]
  split_ifs
  · rfl
  · cases hattempt : (f.bell.polled i f.session.chip.clock pind).attempt
      (f.session.mqtt.state = .connected) with
    | none => rfl
    | some topic =>
      have hstate : f.session.mqtt.state = .connected := by
        unfold ChimeState.attempt at hattempt
        split_ifs at hattempt with hpressed
        simpa using hpressed.2.2
      have hlen : (topic.text f.config).length ≤ 119 := text_length_le f.config topic
      have hone : (ascii "1").length = 1 := rfl
      have hroom : f.session.mqtt.state = .connected ∧
          2 + (topic.text f.config).length + (ascii "1").length ≤ 62 ↔
            (topic.text f.config).length ≤ 59 := by
        rw [hone, and_iff_right hstate]
        omega
      rw [publish_publishes _ _ _ (by omega)]
      simp only [hroom, Option.toList_some, List.flatMap_singleton, publicationPacket]

end Chimes

/-! ## What a part leaves alone -/

/-- The chime's own field in the configuration. -/
def ChimeId.pubTopic : ChimeId → PubTopic
  | .chime1 => .input1Topic
  | .chime2 => .input2Topic

/-- Each chime has the topic that `main` has set for it. -/
def Bell.Wired (b : Bell) : Prop := ∀ i, (b.chime i).pubTopic = some i.pubTopic

/-- Nothing is published in between, and neither the configuration nor a chime's topic changes. -/
structure Firmware.Silent (f f' : Firmware) : Prop where
  publishes : f'.session.chip.publishes = f.session.chip.publishes
  config : f'.config = f.config
  wired : f.bell.Wired → f'.bell.Wired

instance : IsPreorder Firmware Firmware.Silent where
  refl _ := ⟨rfl, rfl, id⟩
  trans _ _ _ h h' :=
    ⟨h'.publishes.trans h.publishes, h'.config.trans h.config, h'.wired ∘ h.wired⟩

section Silence
variable {d : Driver}

theorem client_silent {α : Type} {x : Attempt (Session Unit) α} (h : Moves Session.Silent x) :
    Moves Firmware.Silent (Firmware.client x) := fun f => ⟨h f.session, rfl, id⟩

theorem mqttSubscribeTopics_silent (c : SmartBellConfig) :
    Moves Session.Silent (mqttSubscribeTopics d c) :=
  .bind .read fun _ => .ite (fun _ => .pure ()) fun _ => .bind (subscribe_silent _ _) fun _ =>
    .bind (subscribe_silent _ _) fun _ => .pure ()

theorem openSession_silent : Moves Firmware.Silent (openSession d) :=
  .bind .read fun _ => .bind (client_silent (connect_silent _)) fun _ => .ite
    (fun _ => .bind (client_silent (mqttSubscribeTopics_silent _)) fun _ => .pure true)
    fun _ => .pure false

theorem retryConnect_silent : Moves Firmware.Silent (retryConnect d) :=
  .bind .read fun _ => .ite
    (fun _ => .bind (fun _ => ⟨rfl, rfl, id⟩) fun _ => openSession_silent) fun _ => .pure false

theorem saveConnect_silent : Moves Firmware.Silent (saveConnect d) := by
  intro f
  have hconsumed : f.Silent { f with
      console := { f.console with store := (consumeSaveFlag f.console.store).2 } } :=
    ⟨rfl, consumeSaveFlag_config _, id⟩
  have hrest (b b' : Bool) : Moves Firmware.Silent (if b then do
      .modify fun f => { f with mqttConfigured := hasBroker f.config }
      if b' then openSession d else pure false
    else pure false : Attempt Firmware Bool) :=
    .ite (fun _ => .bind (fun _ => ⟨rfl, rfl, id⟩) fun _ => .ite (fun _ => openSession_silent)
      fun _ => .pure false) fun _ => .pure false
  exact trans_of Firmware.Silent hconsumed (hrest _ _ _)

theorem polled_pubTopic (b : Bell) (i : ChimeId) (t : Nat) (pind : UInt8) :
    (b.polled i t pind).pubTopic = (b.chime i).pubTopic := by
  unfold Bell.polled ChimeState.debounce ChimeState.accept
  split_ifs <;> rfl

/-- Nothing that reaches the chimes sets a topic. -/
theorem step_wired {b : Bell} (h : b.Wired) (e : Event) : (b.step e).Wired := by
  intro j
  cases hcall : e.timeOf j with
  | none =>
    obtain ⟨_, enabled, pending, hchime, _⟩ := step_elsewhere (b := b) hcall
    rw [hchime]
    exact h j
  | some t =>
    obtain ⟨pind, connected, published, rfl⟩ := Event.call_of_timeOf hcall
    cases hlock : (b.startLoop (counter t)).isLocked (counter t) with
    | true =>
      rw [step_of_locked hlock, Bell.chime_setChime]
      exact h j
    | false =>
      obtain ⟨sent, hstep⟩ := step_of_unlocked hlock j pind connected published
      rw [hstep]
      dsimp only
      split_ifs <;> simpa [polled_pubTopic] using h j

/-- A call that returns is one of the events that the chimes know. -/
theorem processChime_step {publish : PubTopic → Attempt (Session Unit) Bool} {t : Nat}
    {pind : UInt8} {i : ChimeId} {b b' : Bell} {s : Session Unit}
    (h : (processChime isConnected publish (counter t) pind i b s).1 = some b') :
    ∃ connected published, b' = b.step (.call i t pind connected published) := by
  refine ⟨s.mqtt.state = .connected, ?_⟩
  cases hlock : (b.startLoop (counter t)).isLocked (counter t) with
  | true =>
    simp only [processChime, hlock, if_true, pure_apply, Option.some.injEq] at h
    exact ⟨false, by rw [step_of_locked hlock, ← h, Bell.chime_startLoop]⟩
  | false =>
    simp only [processChime, hlock, Bool.false_eq_true, if_false, bind_pure_apply, sendEvent_apply]
      at h
    simp only [step_eq_of_unlocked hlock, sendEvent_of_attempt]
    generalize (b.startLoop (counter t)).service i (rawState pind i) (counter t) = served at h ⊢
    cases hattempt : (served.chime i).attempt (s.mqtt.state = .connected) with
    | none =>
      rw [hattempt] at h
      exact ⟨false, (Option.some.inj h).symm⟩
    | some topic =>
      rw [hattempt] at h
      obtain ⟨c, hc, rfl⟩ := Option.map_eq_some_iff.mp h
      obtain ⟨published, _, rfl⟩ := Option.map_eq_some_iff.mp hc
      exact ⟨published, by simp⟩

theorem clientRound_silent : Moves Firmware.Silent (clientRound d) := by
  refine .bind (client_silent loop_silent) fun calls f => ⟨rfl, rfl, fun hwired => ?_⟩
  have hkeep (b : Bell) (c : Call Unit) (hb : b.Wired) :
      (onMqttMessageReceived c.topic c.payload b).Wired :=
    step_wired hb (.message c.topic c.payload)
  exact run_invariant hkeep hwired calls

theorem boot_silent (pind : UInt8) : Moves Firmware.Silent (boot d pind) := by
  refine .bind (.bind .read fun _ => .ite (fun _ => openSession_silent) fun _ => .pure false)
    fun opened => .bind (fun f => ⟨rfl, rfl, fun hwired i => ?_⟩) fun _ => .pure opened
  cases i with
  | chime1 => exact hwired .chime1
  | chime2 => exact hwired .chime2

theorem delayRound_silent (elapsed : Nat) : Moves Firmware.Silent (delayRound elapsed) := by
  intro f
  simp only [delayRound, modify_apply]
  split_ifs <;> exact ⟨rfl, rfl, id⟩

end Silence

/-! ## What a part does -/

/-- The configuration behind a part. -/
def Firmware.configAfter (f : Firmware) : Stage → SmartBellConfig
  | .console uart => (f.console.feed uart).store.config
  | _ => f.config

/-- What a part publishes, and what it does to the topics. -/
structure Firmware.After (f : Firmware) (st : Stage) (f' : Firmware) : Prop where
  publishes : f'.session.chip.publishes = f.published st ++ f.session.chip.publishes
  config : f'.config = f.configAfter st
  wired : f.bell.Wired → f'.bell.Wired

theorem chimeRound_after (d : Driver) (i : ChimeId) (pind : UInt8) (f : Firmware) :
    f.After (.chime i pind) (chimeRound d i pind f).2 := by
  refine ⟨chimeRound_publishes i pind f, ?_, ?_⟩
  · rw [chimeRound_apply]
    rfl
  · intro hwired
    rw [chimeRound_apply]
    dsimp only
    cases hcall : (processChime isConnected
        (fun topic => MinimalMQTT.publish d (topic.text f.config) (ascii "1"))
        (counter f.session.chip.clock) pind i f.bell f.session).1 with
    | none => exact hwired
    | some b =>
      obtain ⟨connected, published, rfl⟩ := processChime_step hcall
      exact step_wired hwired (.call i f.session.chip.clock pind connected published)

theorem consoleRound_after (uart : List UInt8) (f : Firmware) :
    f.After (.console uart) (consoleRound uart f).2 := by
  have hstate : (consoleRound uart f).2 = { f with console := f.console.feed uart } := by
    simp only [consoleRound, bind_apply, modify_apply, read_apply, Attempt.require,
      Attempt.ite_apply]
    split_ifs <;> rfl
  rw [hstate]
  exact ⟨rfl, rfl, id⟩

theorem perform_after (d : Driver) (st : Stage) (f : Firmware) :
    f.After st (st.perform d f).2 := by
  have after {st : Stage} {f' : Firmware} (h : f.Silent f') (hpublished : f.published st = [])
      (hconfig : f.configAfter st = f.config) : f.After st f' :=
    ⟨by rw [hpublished, h.publishes, List.nil_append], h.config.trans hconfig.symm, h.wired⟩
  have hwatchdog : Moves Session.Silent (MinimalMQTT.io wdtReset : Attempt (Session Unit) Unit) :=
    fun _ => rfl
  cases st with
  | boot pind => exact after (Moves.bind (boot_silent pind) (fun _ => .pure ()) f) rfl rfl
  | watchdog => exact after (client_silent hwatchdog f) rfl rfl
  | client => exact after (clientRound_silent f) rfl rfl
  | retry => exact after (Moves.bind retryConnect_silent (fun _ => .pure ()) f) rfl rfl
  | save => exact after (Moves.bind saveConnect_silent (fun _ => .pure ()) f) rfl rfl
  | chime i pind => exact chimeRound_after d i pind f
  | console uart => exact consoleRound_after uart f
  | delay elapsed => exact after (delayRound_silent elapsed f) rfl rfl

/-! ## Legal publications -/

/-- The topic of a packet that is a well-formed PUBLISH. -/
def publishTopic (packet : List UInt8) : Option (List UInt8) :=
  match decode packet with
  | some (.publish _ _ _ topic _ _) => some topic
  | _ => none

/-- A PUBLISH with a topic name that it may have. -/
def LegalPublish (packet : List UInt8) : Prop :=
  ∃ topic, publishTopic packet = some topic ∧ LegalTopic topic

/-- Every PUBLISH so far was legal. -/
def Firmware.LegalPublishes (f : Firmware) : Prop :=
  ∀ packet ∈ f.session.chip.publishes, LegalPublish packet

/-- A chime whose input topic is not configured publishes nothing. -/
def Firmware.UnsetSilent (d : Driver) (f : Firmware) : Stage → Prop
  | .chime i pind => i.pubTopic.text f.config = [] →
    (chimeRound d i pind f).2.session.chip.publishes = f.session.chip.publishes
  | _ => True

/-- Every part that is reached meets the condition. -/
def AtEachPart (d : Driver) (C : Firmware → Stage → Prop) (f : Firmware) (es : List Stage) : Prop :=
  Along (next (Stage.perform d)) (Reached C) (some (), f) es

/-- All that is published in a run is legal, and nothing is where there is no topic. -/
structure PublishesLegally (d : Driver) (f : Firmware) (es : List Stage) : Prop where
  legal : Throughout (next (Stage.perform d)) (fun o => o.2.LegalPublishes) (some (), f) es
  unset : AtEachPart d (Firmware.UnsetSilent d) f es

/-- Where it comes to a publish, the topic is legal, or does not fit into the client's buffer. -/
def Firmware.Guarded (f : Firmware) : Stage → Prop
  | .chime i pind => ∀ topic, f.publication i pind = some topic →
    (topic.text f.config).length ≤ 59 → LegalTopic (topic.text f.config)
  | _ => True

instance (f : Firmware) (st : Stage) : Decidable (f.Guarded st) :=
  match st with
  | .chime i pind => inferInstanceAs (Decidable (∀ topic ∈ f.publication i pind, _ → _))
  | .boot _ | .watchdog | .client | .retry | .save | .console _ | .delay _ => isTrue trivial

instance (d : Driver) (f : Firmware) (es : List Stage) :
    Decidable (AtEachPart d Firmware.Guarded f es) :=
  have (o : Option Unit × Firmware) (st : Stage) : Decidable (Reached Firmware.Guarded o st) :=
    inferInstanceAs (Decidable (_ → _))
  inferInstanceAs (Decidable (Along _ _ _ _))

section Legal
variable {d : Driver}

theorem legalPublish_iff {topic : List UInt8} (hlen : topic.length ≤ 59) (hnul : 0 ∉ topic) :
    LegalPublish (publishPacket topic (ascii "1")) ↔ LegalTopic topic := by
  have hone : (ascii "1").length = 1 := rfl
  have htopic : publishTopic (publishPacket topic (ascii "1")) = some topic := by
    rw [publishTopic, decode_publishPacket (by omega) hnul]
  constructor
  · rintro ⟨topic', hdecoded, hlegal⟩
    obtain rfl := Option.some.inj (htopic.symm.trans hdecoded)
    exact hlegal
  · intro hlegal
    exact ⟨topic, htopic, hlegal⟩

theorem zero_not_mem_text (c : SmartBellConfig) (topic : PubTopic) : 0 ∉ topic.text c := by
  cases topic <;> exact zero_not_mem_cstring _

theorem guarded_iff (f : Firmware) (st : Stage) :
    f.Guarded st ↔ ∀ packet ∈ f.published st, LegalPublish packet := by
  cases st with
  | chime i pind =>
    simp only [Firmware.Guarded, Firmware.published, publicationPacket]
    cases f.publication i pind with
    | none => simp
    | some topic =>
      by_cases hlen : (topic.text f.config).length ≤ 59
      · simp [hlen, legalPublish_iff hlen (zero_not_mem_text f.config topic)]
      · simp [hlen]
  | _ => simp [Firmware.Guarded, Firmware.published]

/-- A part keeps everything legal exactly if it is guarded. -/
theorem perform_legalPublishes_iff {f : Firmware} (st : Stage) (h : f.LegalPublishes) :
    (st.perform d f).2.LegalPublishes ↔ f.Guarded st := by
  rw [Firmware.LegalPublishes, (perform_after d st f).publishes, List.forall_mem_append,
    ← guarded_iff]
  exact and_iff_left h

theorem publication_wired {f : Firmware} (hwired : f.bell.Wired) {i : ChimeId} {pind : UInt8}
    {topic : PubTopic} (h : f.publication i pind = some topic) : topic = i.pubTopic := by
  simp only [Firmware.publication, ChimeState.attempt] at h
  split_ifs at h
  rw [polled_pubTopic, hwired i] at h
  exact (Option.some.inj h).symm

theorem unsetSilent_of_guarded {f : Firmware} {st : Stage} (hwired : f.bell.Wired)
    (h : f.Guarded st) : f.UnsetSilent d st := by
  cases st with
  | chime i pind =>
    intro hunset
    have hpublishes := (chimeRound_after d i pind f).publishes
    cases hpublication : f.publication i pind with
    | none => simpa [Firmware.published, hpublication] using hpublishes
    | some topic =>
      obtain rfl := publication_wired hwired hpublication
      have hlegal := h _ hpublication (by simp [hunset])
      exact absurd hunset hlegal.1
  | _ => trivial

theorem publishesLegally_iff {f : Firmware} (hwired : f.bell.Wired) (hlegal : f.LegalPublishes)
    (es : List Stage) : PublishesLegally d f es ↔ AtEachPart d Firmware.Guarded f es := by
  have hguarded :
      Throughout (next (Stage.perform d)) (fun o => o.2.LegalPublishes) (some (), f) es ↔
        AtEachPart d Firmware.Guarded f es :=
    throughout_next_iff (fun f st h => perform_legalPublishes_iff st h) hlegal es
  constructor
  · intro h
    exact hguarded.mp h.legal
  · intro h
    have hkeeps (f : Firmware) (st : Stage) (hf : f.bell.Wired) (_ : True) :
        (st.perform d f).2.bell.Wired := (perform_after d st f).wired hf
    have hwires := (throughout_next hkeeps hwired
      (along_next_of_forall (fun _ _ => trivial) (some (), f) es)).along
    exact ⟨hguarded.mpr h, (hwires.and h).mono fun o st hboth hreached =>
      unsetSilent_of_guarded hboth.1 (hboth.2 hreached)⟩

end Legal

/-! ## Topics from outside -/

/-- The end of a line does not run an `input` command with a wildcard. -/
def Console.WildcardFree (k : Console) (c : UInt8) : Prop :=
  k.running = true → isLineEnd c = true → 0 < k.cmdIndex →
    (commandOf (k.cmdBuffer.toList.set k.cmdIndex 0)).WildcardFree

/-- No `input` command with a wildcard is typed. -/
def Firmware.TypesWildcardFree (f : Firmware) : Stage → Prop
  | .console uart => Along Console.readByte Console.WildcardFree f.console uart
  | _ => True

/-- Where it comes to a publish, there is a topic. -/
def Firmware.Configured (f : Firmware) : Stage → Prop
  | .chime i pind => ∀ topic, f.publication i pind = some topic → topic.text f.config ≠ []
  | _ => True

section Plain
variable {d : Driver}

theorem readByte_plainTopics {k : Console} {c : UInt8} (h : PlainTopics k.store.config)
    (hc : k.WildcardFree c) : PlainTopics (k.readByte c).store.config := by
  have hstore : k.endLine.store =
      ((commandOf (k.cmdBuffer.toList.set k.cmdIndex 0)).run k.store).store := by
    simp only [Console.endLine, processCommand, Vector.toList_set]
  unfold Console.readByte
  split_ifs with hrunning hend hline
  · exact h
  · rw [hstore]
    exact run_plainTopics (hc (by simpa using hrunning) hend hline) h
  · exact h
  · exact h
  · exact h
  · exact h
  · exact h

theorem perform_plainTopics {f : Firmware} {st : Stage} (h : PlainTopics f.config)
    (hst : f.TypesWildcardFree st) : PlainTopics (st.perform d f).2.config := by
  rw [(perform_after d st f).config]
  cases st with
  | console uart =>
    have hkeeps (k : Console) (c : UInt8) (hk : PlainTopics k.store.config)
        (hc : k.WildcardFree c) : PlainTopics (k.readByte c).store.config :=
      readByte_plainTopics hk hc
    exact run_of_along (I := fun k : Console => PlainTopics k.store.config) hkeeps h hst
  | _ => exact h

theorem text_plain {c : SmartBellConfig} (h : PlainTopics c) (topic : PubTopic) :
    (topic.text c).length ≤ 24 ∧ WildcardFree (topic.text c) := by
  have hfield {v : Vector UInt8 25} (hv : PlainTopic v) :
      (cstring v.toList).length ≤ 24 ∧ WildcardFree (cstring v.toList) :=
    ⟨Nat.le_of_lt_succ hv.terminated.cstring_length_lt, hv.wildcardFree⟩
  cases topic with
  | input1Topic =>
    rw [PubTopic.text, input1TopicString_of_terminated h.input1Topic.terminated]
    exact hfield h.input1Topic
  | input2Topic =>
    rw [PubTopic.text, input2TopicString_of_terminated h.input2Topic.terminated]
    exact hfield h.input2Topic

theorem guarded_iff_configured {f : Firmware} (h : PlainTopics f.config) (st : Stage) :
    f.Guarded st ↔ f.Configured st := by
  cases st with
  | chime i pind =>
    refine forall_congr' fun topic => forall_congr' fun _ => ?_
    obtain ⟨hlen, hplain⟩ := text_plain h topic
    simp only [LegalTopic, hplain, and_true]
    exact ⟨fun hlegal => hlegal (hlen.trans (by omega)), fun hne _ => hne⟩
  | _ => rfl

end Plain

/-- The firmware as it is switched on. -/
def Firmware.poweredUp (eeprom : Memory) (portB : UInt8) (chip : Chip) : Firmware :=
  .loaded eeprom portB { chip with sent := [] }

/-- In a run from boot everything that is published is legal exactly if each publish that it comes
to finds a legal topic, or one that is too long to be sent. Where no wildcard was loaded or typed
that is, exactly if each finds a topic at all. -/
theorem publications_legal_iff (d : Driver) (eeprom : Memory) (portB pind : UInt8) (chip : Chip)
    (rs : List Round) :
    let f := Firmware.poweredUp eeprom portB chip
    (PublishesLegally d f (stages pind rs) ↔ AtEachPart d Firmware.Guarded f (stages pind rs)) ∧
    ((∀ c, acceptedRecord eeprom = some c → PlainTopics c) →
      AtEachPart d Firmware.TypesWildcardFree f (stages pind rs) →
      (PublishesLegally d f (stages pind rs) ↔
        AtEachPart d Firmware.Configured f (stages pind rs))) := by
  intro f
  have hwired : f.bell.Wired := fun i => by cases i <;> rfl
  have hlegal : f.LegalPublishes := fun packet hpacket => nomatch hpacket
  have hguarded := publishesLegally_iff (d := d) hwired hlegal (stages pind rs)
  refine ⟨hguarded, fun hrecord htyped => hguarded.trans ?_⟩
  have hplain : PlainTopics f.config := load_plainTopics hrecord
  have hkeeps (f : Firmware) (st : Stage) (hf : PlainTopics f.config)
      (hst : f.TypesWildcardFree st) : PlainTopics (st.perform d f).2.config :=
    perform_plainTopics hf hst
  exact along_next_congr hkeeps (fun f st hf _ => guarded_iff_configured hf st) hplain htyped

/-! ### A press -/

/-- Four seconds after the start of the loop somebody rings at the first chime. -/
def pressRounds : List Round :=
  [⟨0xFF, 0xFF, [], 4000⟩, ⟨0xFB, 0xFF, [], 100⟩, ⟨0xFB, 0xFF, [], 1⟩]

/-- A firmware that starts with this EEPROM, and whose broker accepts the session. -/
def acceptedFirmware (eeprom : Memory) : Firmware :=
  .poweredUp eeprom 0 ⟨0, 0, [.ofBytes connackBytes, ⟨0, []⟩, ⟨0, []⟩, ⟨0, []⟩], [], []⟩

/-- An EEPROM that was saved to with an input topic as well. -/
def configuredEeprom : Memory :=
  let c := (load (.boot savedEeprom)).1.config
  eepromWriteCfg { c with input1Topic := copyTopic (ascii "haus/klingel") 0 c.input1Topic }
    savedEeprom eepromAddr

theorem publications_legal_press :
    let es := stages 0xFF pressRounds
    PublishesLegally (workingDriver 0) (acceptedFirmware configuredEeprom) es ∧
      (run (next (Stage.perform (workingDriver 0))) (some (), acceptedFirmware configuredEeprom)
        es).2.session.chip.publishes = [publishPacket (ascii "haus/klingel") (ascii "1")] := by
  refine ⟨?_, by decide +kernel⟩
  exact (publications_legal_iff (workingDriver 0) configuredEeprom 0 0xFF _ pressRounds).1.mpr
    (by decide +kernel)

/-- Without an input topic the press is published to the empty topic. -/
theorem not_publishesLegally_press :
    ¬PublishesLegally (workingDriver 0) (acceptedFirmware savedEeprom)
      (stages 0xFF pressRounds) := by
  intro h
  have hpublishes : (run (next (Stage.perform (workingDriver 0)))
      (some (), acceptedFirmware savedEeprom) (stages 0xFF pressRounds)).2.session.chip.publishes =
        [publishPacket [] (ascii "1")] := by
    decide +kernel
  have hlegal := h.legal.last (publishPacket [] (ascii "1")) (by simp [hpublishes])
  have htopic := (legalPublish_iff (by decide) (by simp)).mp hlegal
  exact htopic.1 rfl

end SmartBell.App
