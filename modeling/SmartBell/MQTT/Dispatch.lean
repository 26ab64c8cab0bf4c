import SmartBell.MQTT.Requests
import SmartBell.MQTT.SendLimits

/-!
# From topic to callback

A PUBLISH that arrives alone goes through the dispatch loop: slot after slot, what is
stored of a subscription's topic is compared with what `topic_str` holds of the packet's.
Both are cut after 31 characters. Up to there a client gets its own packets back as they
were published; beyond, two topics that begin alike are taken for one. The client of the runs
has no send buffer; a topic of up to 57 characters fits into it (see `BufferedRuns`).
-/
namespace SmartBell.MQTT
open Common MinimalMQTT

/-! ## The dispatch loop -/

section Dispatch
variable {κ : Type} {d : Driver} {s : Session κ} {dup retain : Bool} {qos : Fin 3}
  {topic payload : List UInt8} {packetId : UInt16} {poll : Poll} {rx : List Poll}

/-- The call that one round of the dispatch loop makes, if any. -/
def Subscription.invoked (sub : Subscription κ) (topicStr payload : List UInt8) : List (Call κ) :=
  if sub.matchesTopic topicStr then sub.callback.toList.map (⟨·, topicStr, payload⟩) else []

theorem listeners_map (table : Vector (Subscription κ) 2) (topicStr payload : List UInt8) :
    (listeners table topicStr).map (⟨·, topicStr, payload⟩) =
      table.toList.flatMap fun sub => sub.invoked topicStr payload := by
  rw [listeners, List.map_flatMap]
  refine List.flatMap_congr fun sub _ => ?_
  rw [Subscription.invoked]
  split_ifs
  · rfl
  · rfl

/-- A PUBLISH that arrives alone goes through the loop with its payload and what there is room for
of its topic. -/
theorem processIncomingPacket_publish (hrx : s.chip.rx = poll :: rx)
    (hwell : (Packet.publish dup retain qos topic packetId payload).WellFormed)
    (hread : poll.data = (Packet.publish dup retain qos topic packetId payload).bytes) :
    (processIncomingPacket d s).1 = some (s.mqtt.subscriptions.toList.flatMap fun sub =>
      sub.invoked (topic.take 31) payload) := by
  have hne : poll.data ≠ [] := by
    rw [hread]
    simp [Packet.bytes]
  have hfits : TopicLengthFits poll.data := hread ▸ topicLengthFits_publish hwell.1
  have hcut : topic.take (copyLength topic.length) = topic.take 31 := by
    rw [copyLength_eq, List.take_eq_take_iff]
    omega
  rw [processIncomingPacket_cons hrx, if_neg (mt List.length_eq_zero_iff.mp hne),
    packetCalls_filled s.mqtt _ hne poll.data_length_le hfits, hread, meaning_publish hwell, hcut,
    listeners_map]

end Dispatch

/-! ## From client to client -/

section RoundTrip
variable {κ κ' : Type}

/-- What `publish` sends is what a broker sends with QoS 0. -/
theorem publishPacket_bytes (topic payload : List UInt8) :
    publishPacket topic payload = (Packet.publish false false 0 topic 0 payload).bytes := by
  have hheader : publishHeader false false 0 = 0x30 := by decide
  have hid : packetIdField 0 0 = [] := rfl
  simp [publishPacket, Packet.bytes, hheader, hid]

/-- The calls that a packet is to lead to: those of the active subscriptions to its topic, in the
order of the slots. -/
def subscribersCalled (table : Vector (Subscription κ) 2) (topic payload : List UInt8) :
    List (Call κ) :=
  (table.toList.filter fun sub => sub.active && cstring sub.topic.toList == topic).flatMap
    fun sub => sub.callback.toList.map (⟨·, topic, payload⟩)

theorem flatMap_invoked (table : Vector (Subscription κ) 2) {topic : List UInt8}
    (payload : List UInt8) (hnul : 0 ∉ topic) :
    (table.toList.flatMap fun sub => sub.invoked topic payload) =
      subscribersCalled table topic payload := by
  rw [subscribersCalled]
  induction table.toList with
  | nil => rfl
  | cons sub subs ih =>
    have hmatch : sub.matchesTopic topic =
        (sub.active && cstring sub.topic.toList == topic) := by
      rw [Subscription.matchesTopic, cstring_eq_self hnul]
    rw [List.flatMap_cons, ih, Subscription.invoked, hmatch, List.filter_cons]
    split_ifs
    · rfl
    · rfl

/-- What one client publishes, and another one reads alone, leads to exactly the calls of the
other's active subscriptions to the topic, with the topic and the payload as they were published. -/
theorem publish_round_trip (d : Driver) (s : Session κ) (sendBuffer : Vector UInt8 64)
    (topic payload : List UInt8) (hstate : s.mqtt.state = .connected) (hlen : topic.length ≤ 31)
    (hnul : 0 ∉ topic) (hfits : topic.length + payload.length ≤ 60) :
    ∃ bytes n, (Buffered.publish d topic payload sendBuffer s).2.chip.sent =
        (bytes, n) :: s.chip.sent ∧
      ∀ (d' : Driver) (r : Session κ') (poll : Poll) (rx : List Poll),
        r.chip.rx = poll :: rx → poll.data = bytes → (processIncomingPacket d' r).1 =
          some (subscribersCalled r.mqtt.subscriptions topic payload) := by
  obtain ⟨b, hbuild, hwritten, _⟩ := buildPublish_carries payload sendBuffer
    (show 2 + topic.length + payload.length ≤ 62 by omega) hnul
  obtain ⟨result, b', s', n, hrun, hbuild', hsent⟩ :=
    buffered_publish_sends (d := d) sendBuffer hstate
      (show (2 + topic.length + payload.length + 2) % 65536 ≤ 64 by omega)
  obtain rfl : b = b' := (Prod.mk.inj (hbuild.symm.trans hbuild')).2
  refine ⟨b.written, n, by rw [hrun, hsent], fun d' r poll rx hrx hread => ?_⟩
  rw [hwritten, publishPacket_bytes] at hread
  have hwell : (Packet.publish false false 0 topic 0 payload).WellFormed := by
    refine ⟨?_, hnul⟩
    rw [← hread]
    exact poll.data_length_le
  rw [processIncomingPacket_publish hrx hwell hread, List.take_of_length_le hlen,
    flatMap_invoked _ payload hnul]

/-- A client in a session with a subscription to `gong/1`, and this read waiting. -/
def gongReceiver (read : List UInt8) : Session Unit :=
  { openedSession with
    mqtt := { openedSession.mqtt with subscriptions := gongTable }
    chip := { openedSession.chip with rx := [.ofBytes read] } }

theorem publish_round_trip_gong :
    ∃ bytes n, (Buffered.publish (workingDriver 0) (ascii "gong/1") (ascii "RING")
        (Vector.replicate 64 0) openedSession).2.chip.sent = [(bytes, n)] ∧
      (processIncomingPacket (workingDriver 0) (gongReceiver bytes)).1 =
        some [⟨(), ascii "gong/1", ascii "RING"⟩] := by
  obtain ⟨bytes, n, hsent, hread⟩ := publish_round_trip (workingDriver 0) openedSession
    (Vector.replicate 64 0) (ascii "gong/1") (ascii "RING") rfl (by decide) (by decide) (by decide)
  have hbytes : (Buffered.publish (workingDriver 0) (ascii "gong/1") (ascii "RING")
      (Vector.replicate 64 0) openedSession).2.chip.sent =
      [(publishPacket (ascii "gong/1") (ascii "RING"), 14)] := by decide +kernel
  obtain ⟨⟨rfl, _⟩, _⟩ : (publishPacket (ascii "gong/1") (ascii "RING") = bytes ∧ 14 = n) ∧ _ := by
    simpa using hbytes.symm.trans hsent
  refine ⟨_, n, hsent, ?_⟩
  rw [hread (workingDriver 0) (gongReceiver _) (.ofBytes _) [] rfl
    (by decide)]
  decide

end RoundTrip

/-! ## Topics that are cut -/

section Topics
variable {κ : Type} {d : Driver}

end Topics

end SmartBell.MQTT
