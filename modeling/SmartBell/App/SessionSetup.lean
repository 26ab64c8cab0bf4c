import SmartBell.App.Subscriptions
import SmartBell.Config.WellFormed
import SmartBell.MQTT.Framing
import SmartBell.MQTT.SendBuffer

/-!
# What opens a session

`main` opens a session with one CONNECT and two SUBSCRIBE packets. Client id and base topic
come from arrays of 16 and 25 characters, which no command leaves without a NUL; so they
are not cut on their way into the packets, and the packets fit into the send buffer.
-/
namespace SmartBell.App
open Common Config MQTT MinimalMQTT Firmware

/-- A session that was opened: what the socket got, whoever took it. -/
theorem openSession_sent {d : Driver} {f f' : Firmware}
    (hopen : openSession d f = (some true, f')) :
    let base := f.config.gongBaseTopicString
    let connect := connectPacket (mqttConfig f.config)
    let first := subscribePacket f.session.mqtt.packetId (subTopic base (ascii "/1"))
    let second := subscribePacket (f.session.mqtt.packetId + 1) (subTopic base (ascii "/2"))
    ∃ n₁ n₂, f'.session.chip.sent =
      [(second, d.send n₂ second), (first, d.send n₁ first), (connect, (connect.length : Int))] ++
        f.session.chip.sent := by
  intro base connect first second
  obtain ⟨s, s', hconnect, hrun, rfl⟩ := openSession_accepted hopen
  obtain ⟨⟨recvBuffer, hmqtt⟩, hsent⟩ := connect_accepted hconnect
  have hattempt := connect_attempted hconnect
  obtain ⟨_, _, _, s₂, hrun₂, _, _, n₁, n₂, hpackets⟩ :=
    mqttSubscribeTopics_steps (d := d) f.config hattempt.state hattempt.unsubscribed
  obtain rfl : s₂ = s' := (Prod.mk.inj (hrun₂.symm.trans hrun)).2
  have hid : s.mqtt.packetId = f.session.mqtt.packetId := by
    rw [hmqtt]
    rfl
  rw [hid, hsent] at hpackets
  exact ⟨n₁, n₂, hpackets⟩

/-- A terminated client id is not cut. -/
theorem mqttConfig_clientId {c : SmartBellConfig} (h : StringsTerminated c) :
    (mqttConfig c).clientId = cstring c.clientId.toList ∧
      (mqttConfig c).clientId.length ≤ 15 := by
  have hlen := h.clientId.cstring_length_lt
  have hwhole : (mqttConfig c).clientId = cstring c.clientId.toList := by
    rw [mqttConfig, clientIdString_of_terminated h.clientId, kMaxClientIdLength]
    exact List.take_of_length_le (by omega)
  refine ⟨hwhole, ?_⟩
  rw [hwhole]
  omega

/-- A terminated base topic is not cut. -/
theorem subTopic_of_terminated {c : SmartBellConfig} (h : StringsTerminated c)
    (suffix : List UInt8) :
    subTopic c.gongBaseTopicString suffix = cstring c.gongBaseTopic.toList ++ suffix ∧
      (cstring c.gongBaseTopic.toList).length ≤ 24 := by
  have hlen := h.gongBaseTopic.cstring_length_lt
  rw [subTopic, gongBaseTopicString_of_terminated h.gongBaseTopic,
    List.take_of_length_le (by omega)]
  exact ⟨rfl, by omega⟩

/-- The SUBSCRIBE for a gong. -/
theorem buildSubscribe_subTopic {c : SmartBellConfig} (h : StringsTerminated c)
    (packetId : UInt16) {suffix : List UInt8} (hlen : suffix.length = 2) (hnul : 0 ∉ suffix)
    (sendBuffer : Vector UInt8 64) :
    let topic := subTopic c.gongBaseTopicString suffix
    (buildSubscribe packetId topic sendBuffer).written = subscribePacket packetId topic ∧
      (buildSubscribe packetId topic sendBuffer).Carries
        (.subscribe packetId.toNat [(cstring c.gongBaseTopic.toList ++ suffix, 0)]) := by
  intro topic
  obtain ⟨htopic, hbase⟩ := subTopic_of_terminated h suffix
  rw [show topic = cstring c.gongBaseTopic.toList ++ suffix from htopic]
  generalize hstring : cstring c.gongBaseTopic.toList = base at hbase ⊢
  have hbaseNul : 0 ∉ base := hstring ▸ zero_not_mem_cstring _
  have hlength : (base ++ suffix).length ≤ 26 := by
    rw [List.length_append]
    omega
  have hpacket := subscribePacket_length packetId (show (base ++ suffix).length + 5 < 128 by omega)
  refine ⟨(buildSubscribe_holds packetId _ sendBuffer (by omega)).written, ?_⟩
  refine buildSubscribe_carries packetId sendBuffer (by omega) ?_ (by simp [hnul, hbaseNul])
  intro hempty
  simp [(List.append_eq_nil_iff.mp hempty).2] at hlen

/-- The bytes handed to the socket for a session are one CONNECT and two SUBSCRIBE packets. Each is
built inside of the send buffer, whatever that held before, and a server finds the client id, the
clean session and the keepalive in the first, and one gong's topic with QoS 0 in each of the
others. -/
theorem session_setup (d : Driver) (hd : Healthy d) (eeprom : Memory) (texts : List (List UInt8))
    {f f' : Firmware} (hconfig : f.config = commanded eeprom texts)
    (hopen : openSession d f = (some true, f')) (sendBuffer : Vector UInt8 64) :
    let c := f.config
    let packetId := f.session.mqtt.packetId
    let base := cstring c.gongBaseTopic.toList
    let connect := buildConnect (mqttConfig c) sendBuffer
    let first := buildSubscribe packetId (subTopic c.gongBaseTopicString (ascii "/1")) connect.cells
    let second :=
      buildSubscribe (packetId + 1) (subTopic c.gongBaseTopicString (ascii "/2")) first.cells
    f'.session.chip.sent =
        [second, first, connect].map (fun b => (b.written, (b.written.length : Int))) ++
          f.session.chip.sent ∧
      connect.Carries (.connect
        { protocolLevel := 4, cleanSession := true, keepAlive := 60
          clientId := cstring c.clientId.toList, will := none, userName := none
          password := none }) ∧
      first.Carries (.subscribe packetId.toNat [(base ++ ascii "/1", 0)]) ∧
      second.Carries (.subscribe (packetId + 1).toNat [(base ++ ascii "/2", 0)]) := by
  intro c packetId base connect first second
  have hc : c = commanded eeprom texts := hconfig
  have hstrings : StringsTerminated c :=
    hc ▸ (commanded_wellFormed eeprom texts).toStringsTerminated
  obtain ⟨hid, hidLength⟩ := mqttConfig_clientId hstrings
  have hidNul : 0 ∉ (mqttConfig c).clientId := hid ▸ zero_not_mem_cstring _
  have hfits : (connectPacket (mqttConfig c)).length ≤ 64 := by
    simp [connectPacket, mqttConfig, ascii] at hidLength ⊢
    omega
  have hconnect : connect.Carries (.connect (connectOf (mqttConfig c))) :=
    buildConnect_carries sendBuffer hfits hidNul (by simp [mqttConfig])
  obtain ⟨hfirst, hfirstCarries⟩ :=
    buildSubscribe_subTopic hstrings packetId rfl (show 0 ∉ ascii "/1" by decide) connect.cells
  obtain ⟨hsecond, hsecondCarries⟩ :=
    buildSubscribe_subTopic hstrings (packetId + 1) rfl (show 0 ∉ ascii "/2" by decide) first.cells
  obtain ⟨n₁, n₂, hsent⟩ := openSession_sent hopen
  refine ⟨?_, ?_, hfirstCarries, hsecondCarries⟩
  · rw [hsent, hd.send, hd.send]
    simp only [List.map_cons, List.map_nil]
    rw [hfirst, hsecond, (buildConnect_holds sendBuffer hfits).written]
  · have hserver : connectOf (mqttConfig c) =
        { protocolLevel := 4, cleanSession := true, keepAlive := 60
          clientId := cstring c.clientId.toList, will := none, userName := none
          password := none } := by
      rw [← hid]
      rfl
    rw [hserver] at hconnect
    exact hconnect

/-! ### A session -/

/-- What was typed to get to the saved configuration. -/
def savedTexts : List (List UInt8) := [ascii "br 192.168.1.10:1883", ascii "gong sub haus/gong"]

theorem session_setup_saved :
    let f := savedFirmware
    let sendBuffer := Vector.replicate 64 0
    let connect := buildConnect (mqttConfig f.config) sendBuffer
    let first := buildSubscribe f.session.mqtt.packetId
      (subTopic f.config.gongBaseTopicString (ascii "/1")) connect.cells
    first.Carries (.subscribe f.session.mqtt.packetId.toNat
      [(cstring f.config.gongBaseTopic.toList ++ ascii "/1", 0)]) := by
  have hopened : (openSession (workingDriver 0) savedFirmware).1 = some true := by decide +kernel
  have hopen : openSession (workingDriver 0) savedFirmware =
      (some true, (openSession (workingDriver 0) savedFirmware).2) := by rw [← hopened]
  have hconfig : savedFirmware.config = commanded (fun _ => 0xFF) savedTexts := by decide +kernel
  exact (session_setup (workingDriver 0) (workingDriver_healthy 0) (fun _ => 0xFF) savedTexts
    hconfig hopen (Vector.replicate 64 0)).2.2.1

end SmartBell.App
