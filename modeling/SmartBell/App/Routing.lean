import SmartBell.App.SessionSetup
import SmartBell.App.Triggers

/-!
# Where a command goes

The topics of a session are built in `sub_topic`, copied into the table of subscriptions,
compared with the topic of a received PUBLISH, and looked at once more in the callback,
which goes by the last two characters. All of it has room for 31 characters, and a base
topic has 24 at most: a command gets to the gong it names, and to no other.
-/
namespace SmartBell.App
open Common Config MQTT MinimalMQTT Firmware

/-- The table holds the subscriptions of both gongs under this base topic. -/
def Routes (base : List UInt8) (m : MinimalMQTT Unit) : Prop :=
  ∃ u v : Subscription Unit, m.subscriptions.toList =
    [u.store (base ++ ChimeId.chime1.suffix) (some ()),
      v.store (base ++ ChimeId.chime2.suffix) (some ())]

variable {d : Driver}

theorem suffix_length (i : ChimeId) : i.suffix.length = 2 := by
  cases i <;> rfl

theorem zero_not_mem_suffix (i : ChimeId) : 0 ∉ i.suffix := by
  cases i <;> decide

theorem subscriptions_toList (m : MinimalMQTT Unit) :
    m.subscriptions.toList = [m.slot 0, m.slot 1] := by
  apply List.ext_getElem
  · simp
  · intro j h1 h2
    rcases j with _ | _ | j
    · rfl
    · rfl
    · simp at h2

/-- Two active subscriptions after `mqtt_subscribe_topics` are those of the two gongs. -/
theorem mqttSubscribeTopics_routes {c : SmartBellConfig} {s s' : Session Unit}
    (hstate : s.mqtt.state = .connected) (hclear : s.Unsubscribed)
    (hrun : mqttSubscribeTopics d c s = (some (), s'))
    (hbase : c.gongBaseTopicString.length ≤ 29)
    (hactive : ∀ j, (s'.mqtt.slot j).active = true) :
    Routes c.gongBaseTopicString s'.mqtt := by
  obtain ⟨first, second, s₁, s₂, hrun₂, hfirst, hsecond, _⟩ :=
    mqttSubscribeTopics_steps (d := d) c hstate hclear
  obtain rfl : s₂ = s' := (Prod.mk.inj (hrun₂.symm.trans hrun)).2
  have hquiet : s₁.mqtt.slot 1 = s.mqtt.slot 1 := by
    rw [hfirst.slot 1]
    split_ifs
    · exact subscribed_of_ne s.mqtt (by decide) _ _
    · rfl
  -- a packet that was not taken leaves the second slot as `connect` has left it
  have htaken : first = true ∧ second = true := by
    have hfree : (s.mqtt.slot 1).active = false := hclear 1
    have hone := hactive 1
    rw [hsecond.slot 1] at hone
    cases first with
    | false =>
      have hother : (s₁.mqtt.subscribed 0 (subTopic c.gongBaseTopicString (ascii "/2"))
          (some ())).slot 1 = s₁.mqtt.slot 1 := subscribed_of_ne s₁.mqtt (by decide) _ _
      simp [hother, hquiet, hfree] at hone
    | true =>
      refine ⟨rfl, ?_⟩
      by_contra hnot
      rw [if_neg hnot, hquiet, hfree] at hone
      cases hone
  obtain ⟨rfl, rfl⟩ := htaken
  have htopic (suffix : List UInt8) :
      subTopic c.gongBaseTopicString suffix = c.gongBaseTopicString ++ suffix := by
    rw [subTopic, List.take_of_length_le hbase]
  have hkept : s₂.mqtt.slot 0 = s₁.mqtt.slot 0 := by
    rw [hsecond.slot 0, if_pos rfl]
    exact subscribed_of_ne s₁.mqtt (by decide) _ _
  refine ⟨s.mqtt.slot 0, s₁.mqtt.slot 1, ?_⟩
  rw [subscriptions_toList, hkept, hfirst.slot 0, hsecond.slot 1, if_pos rfl, if_pos rfl,
    if_pos rfl, subscribed_slot, subscribed_slot, htopic, htopic]
  rfl

/-- A session whose two subscriptions are active has those of the two gongs. -/
theorem openSession_routes {before opened : Firmware}
    (hopen : openSession d before = (some true, opened))
    (hbase : before.config.gongBaseTopicString.length ≤ 29)
    (hactive : ∀ j, (opened.session.mqtt.slot j).active = true) :
    Routes before.config.gongBaseTopicString opened.session.mqtt := by
  obtain ⟨s, s', hconnect, hrun, rfl⟩ := openSession_accepted hopen
  have hattempt := connect_attempted hconnect
  exact mqttSubscribeTopics_routes hattempt.state hattempt.unsubscribed hrun hbase hactive

/-! ## Who listens -/

section Listeners
variable {base topic : List UInt8} {m : MinimalMQTT Unit}

/-- A stored topic that fits is compared as it is. -/
theorem matchesTopic_store (u : Subscription Unit) {stored : List UInt8} (hlen : stored.length ≤ 31)
    (hstored : 0 ∉ stored) (htopic : 0 ∉ topic) :
    (u.store stored (some ())).matchesTopic topic = (stored == topic) := by
  rw [Subscription.matchesTopic, store_topic u (some ()) hlen hstored, cstring_eq_self htopic]
  rfl

theorem Routes.listeners_eq (h : Routes base m) (hbase : base.length ≤ 29) (hnul : 0 ∉ base)
    (htopic : 0 ∉ topic) : listeners m.subscriptions topic =
      (if base ++ ChimeId.chime1.suffix = topic then [()] else []) ++
        if base ++ ChimeId.chime2.suffix = topic then [()] else [] := by
  obtain ⟨u, v, htable⟩ := h
  have hmatch (w : Subscription Unit) (i : ChimeId) :
      (w.store (base ++ i.suffix) (some ())).matchesTopic topic = (base ++ i.suffix == topic) := by
    refine matchesTopic_store w ?_ (by simp [hnul, zero_not_mem_suffix]) htopic
    rw [List.length_append, suffix_length]
    omega
  have hcallback (w : Subscription Unit) (stored : List UInt8) :
      (w.store stored (some ())).callback = some () := rfl
  simp [listeners, htable, hmatch, hcallback]

/-- The callback is called once for the topic of a gong. -/
theorem Routes.listeners_gong (h : Routes base m) (hbase : base.length ≤ 29) (hnul : 0 ∉ base)
    (i : ChimeId) : listeners m.subscriptions (base ++ i.suffix) = [()] := by
  have hne : ChimeId.chime1.suffix ≠ ChimeId.chime2.suffix := by decide
  rw [h.listeners_eq hbase hnul (by simp [hnul, zero_not_mem_suffix])]
  cases i
  · simp [hne.symm]
  · simp [hne]

/-- Nobody listens to any other topic. -/
theorem Routes.listeners_other (h : Routes base m) (hbase : base.length ≤ 29) (hnul : 0 ∉ base)
    (htopic : 0 ∉ topic) (hother : ∀ i : ChimeId, topic ≠ base ++ i.suffix) :
    listeners m.subscriptions topic = [] := by
  rw [h.listeners_eq hbase hnul htopic, if_neg (hother .chime1).symm, if_neg (hother .chime2).symm,
    List.append_nil]

end Listeners

/-! ## A round of the client -/

/-- What a command does to its chime, and nothing else. -/
theorem onMqttMessageReceived_gong (base payload : List UInt8) (i : ChimeId) (b : Bell) :
    onMqttMessageReceived (base ++ i.suffix) payload b =
      b.setChime i ((b.chime i).command payload) := by
  have htarget : targetChime (base ++ i.suffix) = some i :=
    targetChime_eq_some_iff.mpr (List.suffix_append _ _)
  rw [onMqttMessageReceived, htarget]

/-- A round of the client takes a read to the callback. -/
theorem clientRound_read {f : Firmware} {poll : Poll} {rx : List Poll}
    (hsocket : d.getSnSR f.session.chip.calls = sockEstablished)
    (hconnected : f.session.mqtt.state = .connected) (hrx : f.session.chip.rx = poll :: rx)
    (hdata : poll.data ≠ []) (hfits : TopicLengthFits poll.data) :
    ∃ f', clientRound d f = (some (), f') ∧
      f'.bell = (meaning f.session.mqtt.subscriptions poll.data).foldl
        (fun b call => onMqttMessageReceived call.topic call.payload b) f.bell := by
  obtain ⟨s', hloop, _⟩ := loop_cons hsocket hconnected hrx hdata hfits
  have hround : clientRound d f = (some (), { f with
      session := s'
      bell := (meaning f.session.mqtt.subscriptions poll.data).foldl
        (fun b call => onMqttMessageReceived call.topic call.payload b) f.bell }) := by
    simp only [clientRound, Attempt.bind_apply, client, Attempt.zoom_apply, hloop]
    rfl
  exact ⟨_, hround, rfl⟩

section Round
variable {f : Firmware} {base : List UInt8} {dup retain : Bool} {qos : Fin 3}
  {topic payload : List UInt8} {packetId : UInt16} {poll : Poll} {rx : List Poll}

/-- A PUBLISH that arrives alone is a command for the gong it names, and nothing otherwise. -/
theorem clientRound_publish (hroutes : Routes base f.session.mqtt) (hbase : base.length ≤ 24)
    (hnul : 0 ∉ base) (hsocket : d.getSnSR f.session.chip.calls = sockEstablished)
    (hconnected : f.session.mqtt.state = .connected) (hrx : f.session.chip.rx = poll :: rx)
    (hwell : (Packet.publish dup retain qos topic packetId payload).WellFormed)
    (hread : poll.data = (Packet.publish dup retain qos topic packetId payload).bytes) :
    ∃ f', clientRound d f = (some (), f') ∧
      (∀ i : ChimeId, topic = base ++ i.suffix →
        f'.bell = f.bell.setChime i ((f.bell.chime i).command payload)) ∧
      ((∀ i : ChimeId, topic ≠ base ++ i.suffix) → f'.bell = f.bell) := by
  have htopic : 0 ∉ topic := hwell.2
  have hdata : poll.data ≠ [] := by
    rw [hread]
    simp [Packet.bytes]
  have hfits : TopicLengthFits poll.data := by
    rw [hread]
    exact topicLengthFits_publish hwell.1
  obtain ⟨f', hround, hbell⟩ := clientRound_read hsocket hconnected hrx hdata hfits
  rw [hread, meaning_publish hwell] at hbell
  refine ⟨f', hround, fun i hi => ?_, fun hother => ?_⟩
  · subst hi
    have hwhole : (base ++ i.suffix).take (copyLength (base ++ i.suffix).length) =
        base ++ i.suffix := by
      refine List.take_of_length_le ?_
      rw [copyLength_eq, List.length_append, suffix_length]
      omega
    rw [hwhole, hroutes.listeners_gong (by omega) hnul i] at hbell
    rw [hbell]
    exact onMqttMessageReceived_gong base payload i f.bell
  · have hcut : ∀ i : ChimeId, topic.take (copyLength topic.length) ≠ base ++ i.suffix := by
      intro i hi
      have hlen := congrArg List.length hi
      rw [List.length_take, copyLength_eq, List.length_append, suffix_length] at hlen
      rw [List.take_of_length_le (by rw [copyLength_eq]; omega)] at hi
      exact hother i hi
    rw [hroutes.listeners_other (by omega) hnul (fun h => htopic (List.mem_of_mem_take h)) hcut]
      at hbell
    exact hbell

end Round

/-- In a session that was opened under a configuration that commands have made, and as long as
both of its subscriptions are active, a PUBLISH that arrives alone changes the bell if its topic is
that of a gong: ON and OFF enable and disable it, RING triggers it, and nothing else happens. With
any other topic it changes nothing. -/
theorem commands_routed (d : Driver) (eeprom : Memory) (texts : List (List UInt8))
    {before opened f : Firmware} (hconfig : before.config = commanded eeprom texts)
    (hopen : openSession d before = (some true, opened))
    (htable : f.session.mqtt.subscriptions = opened.session.mqtt.subscriptions)
    (hactive : ∀ j, (f.session.mqtt.slot j).active = true)
    (hconnected : f.session.mqtt.state = .connected)
    (hsocket : d.getSnSR f.session.chip.calls = sockEstablished) (dup retain : Bool) (qos : Fin 3)
    (topic payload : List UInt8) (packetId : UInt16)
    (hwell : (Packet.publish dup retain qos topic packetId payload).WellFormed) {poll : Poll}
    {rx : List Poll} (hrx : f.session.chip.rx = poll :: rx)
    (hread : poll.data = (Packet.publish dup retain qos topic packetId payload).bytes) :
    let base := cstring before.config.gongBaseTopic.toList
    base.length ≤ 24 ∧ ∃ f', clientRound d f = (some (), f') ∧
      (∀ i : ChimeId, topic = base ++ i.suffix →
        (payload = ascii "ON" →
          f'.bell = f.bell.setChime i { f.bell.chime i with enabled := true }) ∧
        (payload = ascii "OFF" →
          f'.bell = f.bell.setChime i { f.bell.chime i with enabled := false }) ∧
        (payload = ascii "RING" →
          f'.bell = f.bell.setChime i { f.bell.chime i with triggerPending := true })) ∧
      ((∀ i : ChimeId, topic ≠ base ++ i.suffix) → f'.bell = f.bell) := by
  intro base
  have hstrings : StringsTerminated before.config :=
    hconfig ▸ (commanded_wellFormed eeprom texts).toStringsTerminated
  have hbase : base.length ≤ 24 := Nat.le_of_lt_succ hstrings.gongBaseTopic.cstring_length_lt
  have hstring : before.config.gongBaseTopicString = base :=
    gongBaseTopicString_of_terminated hstrings.gongBaseTopic
  have hroutes : Routes base f.session.mqtt := by
    have hslot (j : Fin 2) : opened.session.mqtt.slot j = f.session.mqtt.slot j := by
      rw [slot, slot, htable]
    rw [Routes, htable, ← hstring]
    refine openSession_routes hopen ?_ ?_
    · rw [hstring]
      omega
    · intro j
      rw [hslot j]
      exact hactive j
  obtain ⟨f', hround, hgong, hother⟩ := clientRound_publish hroutes hbase
    (zero_not_mem_cstring _) hsocket hconnected hrx hwell hread
  refine ⟨hbase, f', hround, fun i hi => ?_, hother⟩
  refine ⟨fun h => ?_, fun h => ?_, fun h => ?_⟩
  · rw [hgong i hi, h]
    rfl
  · rw [hgong i hi, h]
    rfl
  · rw [hgong i hi, h]
    rfl

/-! ### A command -/

/-- A retained command for the second gong, with QoS 2. -/
def ringPacket : Packet :=
  .publish false true (Fin.last 2) (ascii "haus/gong/2") 7 (ascii "RING")

/-- A broker that accepts the session and then sends the command. -/
def rungFirmware : Firmware :=
  .loaded savedEeprom 0
    ⟨0, 0, [.ofBytes [0x20, 2, 0, 0], .ofBytes ringPacket.bytes], [], []⟩

theorem commands_routed_rung :
    let f := (openSession (workingDriver 0) rungFirmware).2
    ∃ f', clientRound (workingDriver 0) f = (some (), f') ∧ f'.bell =
      f.bell.setChime .chime2 { f.bell.chime .chime2 with triggerPending := true } := by
  have hopened : (openSession (workingDriver 0) rungFirmware).1 = some true := by decide +kernel
  have hopen : openSession (workingDriver 0) rungFirmware =
      (some true, (openSession (workingDriver 0) rungFirmware).2) := by rw [← hopened]
  have hrx : (openSession (workingDriver 0) rungFirmware).2.session.chip.rx =
      [.ofBytes ringPacket.bytes] := by
    decide +kernel
  obtain ⟨_, f', hround, hgong, _⟩ := commands_routed (workingDriver 0) (fun _ => 0xFF) savedTexts
    (by decide +kernel) hopen rfl (by decide +kernel) (by decide +kernel) (by decide +kernel)
    false true (Fin.last 2) (ascii "haus/gong/2") (ascii "RING") 7 (by decide +kernel) hrx
    (by decide +kernel)
  exact ⟨f', hround, (hgong .chime2 (by decide +kernel)).2.2 rfl⟩

end SmartBell.App
