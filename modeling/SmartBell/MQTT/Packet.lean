import SmartBell.Common.Segments
import SmartBell.MQTT.MinimalMQTT

/-!
# Packets of the broker

The packets a broker sends, as they stand in the stream, and the meaning of a read: the
calls that the client makes for the bytes of one `socket_recv`. A read that begins where
a PUBLISH for a subscription begins and reaches behind its header is taken for that
PUBLISH, with everything up to the end of the read as its payload.
-/
namespace SmartBell.MQTT
open Common

/-! ## Well-formed packets -/

inductive Packet where
  | publish (dup retain : Bool) (qos : Fin 3) (topic : List UInt8) (packetId : UInt16)
      (payload : List UInt8)
  | suback (packetId : UInt16) (returnCodes : List UInt8)
  | pingresp
  deriving DecidableEq, Repr

def publishHeader (dup retain : Bool) (qos : Fin 3) : UInt8 :=
  0x30 + (if dup then 8 else 0) + UInt8.ofNat (2 * qos) + if retain then 1 else 0

/-- The packet id is there for QoS 1 and 2 only. -/
def packetIdField (qos : Fin 3) (packetId : UInt16) : List UInt8 :=
  if 0 < qos.val then bigEndian packetId.toNat else []

namespace Packet

def bytes : Packet → List UInt8
  | publish dup retain qos topic packetId payload =>
    publishHeader dup retain qos ::
      encodeRemainingLength
        (2 + topic.length + (packetIdField qos packetId).length + payload.length) ++
      encodeString topic ++ packetIdField qos packetId ++ payload
  | suback packetId returnCodes =>
    0x90 :: encodeRemainingLength (2 + returnCodes.length) ++ bigEndian packetId.toNat ++
      returnCodes
  | pingresp => [0xD0, 0]

def topicName : Packet → List UInt8
  | publish _ _ _ topic _ _ => topic
  | suback _ _ => []
  | pingresp => []

/-- No NUL in a topic name, and no more than 64 bytes. -/
def WellFormed (p : Packet) : Prop := p.bytes.length ≤ 64 ∧ 0 ∉ p.topicName

instance (p : Packet) : Decidable p.WellFormed := inferInstanceAs (Decidable (_ ∧ _))

end Packet

/-- A packet as a broker may send it. -/
structure WirePacket where
  packet : Packet
  wellFormed : packet.WellFormed

def WirePacket.bytes (p : WirePacket) : List UInt8 := p.packet.bytes

section Calls
variable {κ : Type} (table : Vector (Subscription κ) 2)

/-- The calls a packet is due: one for each active subscription to its topic. -/
def WirePacket.due (p : WirePacket) : List (Call κ) :=
  match p.packet with
  | .publish _ _ _ topic _ payload => (listeners table topic).map (⟨·, topic, payload⟩)
  | .suback _ _ => []
  | .pingresp => []

/-- The calls made for `len` received bytes whose topic length does not wrap. -/
def received (mem : Nat → UInt8) (len : Nat) : List (Call κ) :=
  if isPublish (mem 0) then
    match topicField mem len with
    | none => []
    | some (p, topicLen) =>
      let start := payloadStart (qosOf (mem 0)) p topicLen
      let topicStr := (List.range' p (copyLength topicLen)).map mem
      if start ≤ len then
        (listeners table topicStr).map
          (⟨·, cstring topicStr, (List.range' start (len - start)).map mem⟩)
      else []
  else []

/-- What a read is taken for. -/
def meaning (read : List UInt8) : List (Call κ) := received table (bufferOf read) read.length

/-- The topic length of a read, added to its position, stays below `2^16`. -/
def TopicLengthFits (read : List UInt8) : Prop :=
  isPublish (bufferOf read 0) → ∀ p topicLen,
    topicField (bufferOf read) read.length = some (p, topicLen) → p + topicLen < 65536

end Calls

/-! ## What the decoder makes of a read -/

section Received
variable {κ : Type} {table : Vector (Subscription κ) 2} {mem mem' : Nat → UInt8} {len : Nat}

theorem topicField_congr (h : ∀ i < len, mem i = mem' i) :
    topicField mem len = topicField mem' len := by
  have hend : remainingLengthEnd mem len = remainingLengthEnd mem' len := by
    unfold remainingLengthEnd
    refine List.find?_congr fun i hi => ?_
    rw [List.mem_range'_1] at hi
    rw [h i (by omega)]
  unfold topicField
  rw [hend]
  cases remainingLengthEnd mem' len with
  | none => simp only [Option.bind_none]
  | some e =>
    simp only [Option.bind_some]
    split_ifs with hlen
    · rw [h (e + 1) (by omega), h (e + 2) (by omega)]
    · rfl

theorem map_range'_congr {p n : Nat} (h : ∀ i < len, mem i = mem' i) (hn : p + n ≤ len) :
    (List.range' p n).map mem = (List.range' p n).map mem' := by
  refine List.map_congr_left fun i hi => h i ?_
  rw [List.mem_range'_1] at hi
  omega

/-- Only the bytes received matter. -/
theorem received_congr (hpos : 1 ≤ len) (h : ∀ i < len, mem i = mem' i) :
    received table mem len = received table mem' len := by
  unfold received
  rw [h 0 hpos, topicField_congr h]
  cases hfield : topicField mem' len with
  | none => rfl
  | some field =>
    obtain ⟨p, topicLen⟩ := field
    dsimp only
    split_ifs with hpublish hstart
    · have hcopy := (copyLength_le topicLen).1
      have hbounds : p + topicLen ≤ payloadStart (qosOf (mem' 0)) p topicLen := by
        simp [payloadStart]
      rw [map_range'_congr h (show p + copyLength topicLen ≤ len by omega),
        map_range'_congr h (show _ + (len - _) ≤ len by omega)]
    · rfl
    · rfl

/-- The calls that `process_incoming_packet` makes, unless the topic length wraps. -/
theorem processPacket_received (hpos : 1 ≤ len) (hlen : len ≤ 64)
    (hfits : isPublish (mem 0) → ∀ p topicLen,
      topicField mem len = some (p, topicLen) → p + topicLen < 65536) :
    (((processPacket mem len table ⟨[], []⟩).1).getD []).map (fun delivery =>
      ({ callback := delivery.callback, topic := cstring delivery.packet.topicStr
         payload := (List.range' delivery.packet.payload delivery.packet.payloadLen).map mem } :
        Call κ)) = received table mem len := by
  unfold received
  by_cases hpublish : isPublish (mem 0)
  swap
  · rw [processPacket_of_not_publish len table hpublish, if_neg hpublish]
    rfl
  rw [processPacket_of_publish len table hpublish, if_pos hpublish]
  cases hfield : topicField mem len with
  | none =>
    obtain ⟨reads, _, hrun⟩ := decodePublish_of_none hpos hlen (qosOf (mem 0)) ⟨[0], []⟩ hfield
    rw [List.nil_append, hrun]
    rfl
  | some field =>
    obtain ⟨p, topicLen⟩ := field
    have hsum := hfits hpublish p topicLen hfield
    dsimp only
    rw [List.nil_append, decodePublish_of_some hlen (qosOf (mem 0)) ⟨[0], []⟩ hfield]
    rcases Nat.lt_or_ge len (p + topicLen) with hout | hin
    · have hstart : ¬payloadStart (qosOf (mem 0)) p topicLen ≤ len := by
        unfold payloadStart
        omega
      rw [decodeTopic_of_lt hout hsum, if_neg hstart]
      rfl
    · have hguard : u16 (p + topicLen) ≤ len := by rwa [u16_of_lt hsum]
      rw [decodeTopic_of_guard hguard, behindPacketId_of_le hlen hin]
      split_ifs with hstart
      · simp [dispatch, Function.comp_def]
      · rfl

end Received

/-! ## Reads that begin at a PUBLISH -/

section Meaning
variable {κ : Type} {table : Vector (Subscription κ) 2} {dup retain : Bool} {qos : Fin 3}
  {topic payload : List UInt8} {packetId : UInt16}

/-- Everything of a PUBLISH in front of its payload. -/
def publishHead (dup retain : Bool) (qos : Fin 3) (topic : List UInt8) (packetId : UInt16)
    (payload : List UInt8) : List UInt8 :=
  publishHeader dup retain qos ::
    UInt8.ofNat (2 + topic.length + (packetIdField qos packetId).length + payload.length) ::
    UInt8.ofNat (topic.length / 256) :: UInt8.ofNat topic.length ::
    (topic ++ packetIdField qos packetId)

theorem packetIdField_length (qos : Fin 3) (packetId : UInt16) :
    (packetIdField qos packetId).length = if 0 < qos.val then 2 else 0 := by
  unfold packetIdField bigEndian
  split_ifs <;> rfl

theorem publishHeader_spec (dup retain : Bool) (qos : Fin 3) :
    isPublish (publishHeader dup retain qos) ∧ qosOf (publishHeader dup retain qos) = qos.val := by
  revert dup retain qos
  decide

/-- A packet of at most 64 bytes has a remaining length of one byte. -/
theorem publish_bytes
    (h : (Packet.publish dup retain qos topic packetId payload).bytes.length ≤ 64) :
    (Packet.publish dup retain qos topic packetId payload).bytes =
      publishHead dup retain qos topic packetId payload ++ payload ∧
    2 + topic.length + (packetIdField qos packetId).length + payload.length < 128 := by
  have hsmall : 2 + topic.length + (packetIdField qos packetId).length + payload.length < 128 := by
    simp only [Packet.bytes, encodeString, List.length_cons, List.length_append] at h
    omega
  refine ⟨?_, hsmall⟩
  simp [Packet.bytes, encodeRemainingLength, if_pos hsmall, publishHead, encodeString, bigEndian]

theorem publishHead_length (dup retain : Bool) (qos : Fin 3) (topic : List UInt8)
    (packetId : UInt16) (payload : List UInt8) :
    (publishHead dup retain qos topic packetId payload).length =
      payloadStart qos.val 4 topic.length := by
  simp [publishHead, payloadStart, packetIdField_length]
  omega

theorem map_bufferOf_range' (bytes : List UInt8) {p n : Nat} (h : p + n ≤ bytes.length) :
    (List.range' p n).map (bufferOf bytes) = (bytes.drop p).take n := by
  apply List.ext_getElem
  · simp
    omega
  · intro i h1 h2
    simp at h1
    simp [bufferOf, show p + i < bytes.length by omega]

/-- With a remaining length of one byte the topic follows at once. -/
theorem topicField_of_lt {mem : Nat → UInt8} {len : Nat} (h : mem 1 < 128) :
    topicField mem len =
      if 4 ≤ len then some (4, (mem 2).toNat * 256 + (mem 3).toNat) else none := by
  unfold topicField remainingLengthEnd
  rcases Nat.lt_or_ge len 2 with hshort | hlong
  · have hempty : len - 1 = 0 := by omega
    have hnot : ¬4 ≤ len := by omega
    simp [hempty, hnot]
  · obtain ⟨k, hk⟩ : ∃ k, len - 1 = k + 1 := ⟨len - 2, by omega⟩
    rw [hk, List.range'_succ, List.find?_cons_of_pos (by simpa using h)]
    rfl

theorem bufferOf_eq_of_append {bytes bytes' rest rest' : List UInt8}
    (h : bytes ++ rest = bytes' ++ rest') {i : Nat} (hi : i < bytes.length)
    (hi' : i < bytes'.length) : bufferOf bytes i = bufferOf bytes' i := by
  have hcell := congrArg (fun l => l[i]?) h
  simp only [List.getElem?_append_left hi, List.getElem?_append_left hi'] at hcell
  simp [bufferOf, List.getD_eq_getElem?_getD, hcell]

theorem bufferOf_of_le {bytes : List UInt8} {i : Nat} (h : bytes.length ≤ i) :
    bufferOf bytes i = 0 := by
  simp [bufferOf, List.getD_eq_getElem?_getD, h]

theorem take_drop_of_append {bytes bytes' rest rest' : List UInt8}
    (h : bytes ++ rest = bytes' ++ rest') {p n : Nat} (hn : p + n ≤ bytes.length)
    (hn' : p + n ≤ bytes'.length) : (bytes.drop p).take n = (bytes'.drop p).take n := by
  have hcut := congrArg (fun l => (l.drop p).take n) h
  simpa [List.drop_append_of_le_length (show p ≤ bytes.length by omega),
    List.drop_append_of_le_length (show p ≤ bytes'.length by omega),
    List.take_append_of_le_length (show n ≤ (bytes.drop p).length by simp; omega),
    List.take_append_of_le_length (show n ≤ (bytes'.drop p).length by simp; omega)] using hcut

/-- What a read at the place of a PUBLISH is taken for. -/
theorem meaning_at_publish
    (hbytes : 2 + topic.length + (packetIdField qos packetId).length + payload.length < 128)
    (hnul : 0 ∉ topic) {read rest rest' : List UInt8}
    (hplace : read ++ rest = publishHead dup retain qos topic packetId payload ++ rest') :
    meaning table read =
      if payloadStart qos.val 4 topic.length ≤ read.length then
        (listeners table (topic.take (copyLength topic.length))).map
          (⟨·, topic.take (copyLength topic.length),
            read.drop (payloadStart qos.val 4 topic.length)⟩)
      else [] := by
  have hhead := publishHead_length dup retain qos topic packetId payload
  have hstart : 4 + topic.length ≤ payloadStart qos.val 4 topic.length := by simp [payloadStart]
  have hcopy := (copyLength_le topic.length).1
  have hcell (i : Nat) (hi : i < read.length) (h4 : i < 4) :=
    bufferOf_eq_of_append hplace hi (show i < _ by omega)
  have hremaining : bufferOf read 1 < 128 := by
    rcases Nat.lt_or_ge 1 read.length with hlong | hshort
    · rw [hcell 1 hlong (by omega)]
      simp only [bufferOf, publishHead, List.getD_cons_succ, List.getD_cons_zero]
      rw [UInt8.lt_iff_toNat_lt, UInt8.toNat_ofNat']
      exact (Nat.mod_le _ _).trans_lt hbytes
    · rw [bufferOf_of_le hshort]
      decide
  unfold meaning received
  rw [topicField_of_lt hremaining]
  by_cases hlen : 4 ≤ read.length
  · have htopic : (bufferOf read 2).toNat * 256 + (bufferOf read 3).toNat = topic.length := by
      rw [hcell 2 (by omega) (by omega), hcell 3 (by omega) (by omega)]
      simp only [bufferOf, publishHead, List.getD_cons_succ, List.getD_cons_zero,
        UInt8.toNat_ofNat']
      omega
    have hfirst : bufferOf read 0 = publishHeader dup retain qos := by
      rw [hcell 0 (by omega) (by omega)]
      rfl
    obtain ⟨hpublish, hqos⟩ := publishHeader_spec dup retain qos
    rw [if_pos hlen, htopic, hfirst, if_pos hpublish, hqos]
    dsimp only
    split_ifs with hreach
    · have hstr : (List.range' 4 (copyLength topic.length)).map (bufferOf read) =
          topic.take (copyLength topic.length) := by
        rw [map_bufferOf_range' read (by omega),
          take_drop_of_append hplace (by omega) (by omega)]
        simp [publishHead, List.take_append_of_le_length hcopy]
      have hself : cstring (topic.take (copyLength topic.length)) =
          topic.take (copyLength topic.length) :=
        cstring_eq_self fun h => hnul (List.mem_of_mem_take h)
      have hrest : (List.range' (payloadStart qos.val 4 topic.length)
          (read.length - payloadStart qos.val 4 topic.length)).map (bufferOf read) =
          read.drop (payloadStart qos.val 4 topic.length) := by
        rw [map_bufferOf_range' read (by omega)]
        exact List.take_of_length_le (by simp)
      rw [hstr, hself, hrest]
    · rfl
  · have hshort : ¬payloadStart qos.val 4 topic.length ≤ read.length := by omega
    rw [if_neg hlen, if_neg hshort]
    simp

/-- The topic length of a PUBLISH of at most 64 bytes does not wrap. -/
theorem topicLengthFits_publish
    (h : (Packet.publish dup retain qos topic packetId payload).bytes.length ≤ 64) :
    TopicLengthFits (Packet.publish dup retain qos topic packetId payload).bytes := by
  obtain ⟨hbytes, hsmall⟩ := publish_bytes h
  intro _ p topicLen hfield
  rw [hbytes] at hfield
  have hremaining : bufferOf (publishHead dup retain qos topic packetId payload ++ payload) 1 <
      128 := by
    simp only [bufferOf, publishHead, List.cons_append, List.getD_cons_succ, List.getD_cons_zero]
    rw [UInt8.lt_iff_toNat_lt, UInt8.toNat_ofNat']
    exact (Nat.mod_le _ _).trans_lt hsmall
  rw [topicField_of_lt hremaining] at hfield
  split_ifs at hfield
  obtain ⟨rfl, rfl⟩ := Prod.mk.inj (Option.some.inj hfield)
  simp only [bufferOf, publishHead, List.cons_append, List.getD_cons_succ, List.getD_cons_zero,
    UInt8.toNat_ofNat']
  omega

/-- What the read of a whole PUBLISH is taken for. -/
theorem meaning_publish
    (h : (Packet.publish dup retain qos topic packetId payload).WellFormed) :
    meaning table (Packet.publish dup retain qos topic packetId payload).bytes =
      (listeners table (topic.take (copyLength topic.length))).map
        (⟨·, topic.take (copyLength topic.length), payload⟩) := by
  obtain ⟨hlength, hnul⟩ := h
  obtain ⟨hbytes, hsmall⟩ := publish_bytes hlength
  have hhead := publishHead_length dup retain qos topic packetId payload
  have hpayload : (Packet.publish dup retain qos topic packetId payload).bytes.drop
      (payloadStart qos.val 4 topic.length) = payload := by
    rw [hbytes, ← hhead, List.drop_left]
  rw [meaning_at_publish hsmall hnul (congrArg (· ++ []) hbytes |>.trans (List.append_assoc ..)),
    hpayload, if_pos]
  rw [hbytes, List.length_append, hhead]
  omega

/-! ## Reads and packets -/

/-- A topic that somebody has subscribed to fits into `topic_str`. -/
theorem topic_length_of_listeners (hnul : 0 ∉ topic) (h : listeners table topic ≠ []) :
    topic.length ≤ 31 := by
  obtain ⟨callback, hcallback⟩ := List.exists_mem_of_ne_nil _ h
  obtain ⟨s, _, hmatch, _⟩ := mem_listeners.mp hcallback
  have hstring : cstring s.topic.toList = topic := by
    simp [Subscription.matchesTopic, cstring_eq_self hnul] at hmatch
    exact hmatch.2
  rw [← hstring]
  exact cstring_length_le_of_cell (by omega) s.topic_last

/-- A packet somebody waits for is a PUBLISH with a topic that `topic_str` has room for. -/
theorem WirePacket.publish_of_due {p : WirePacket} (h : p.due table ≠ []) :
    ∃ dup retain qos topic packetId payload,
      p.packet = .publish dup retain qos topic packetId payload ∧
      p.bytes = publishHead dup retain qos topic packetId payload ++ payload ∧
      p.due table = (listeners table topic).map (⟨·, topic, payload⟩) ∧
      listeners table topic ≠ [] ∧ 0 ∉ topic ∧ topic.take (copyLength topic.length) = topic ∧
      2 + topic.length + (packetIdField qos packetId).length + payload.length < 128 := by
  obtain ⟨packet, hwell⟩ := p
  cases packet with
  | suback packetId returnCodes => exact absurd rfl h
  | pingresp => exact absurd rfl h
  | publish dup retain qos topic packetId payload =>
    obtain ⟨hlength, hnul⟩ := hwell
    obtain ⟨hbytes, hsmall⟩ := publish_bytes hlength
    replace hnul : 0 ∉ topic := hnul
    have hlisten : listeners table topic ≠ [] := fun hnobody => h (by simp [due, hnobody])
    have htopic := topic_length_of_listeners hnul hlisten
    refine ⟨dup, retain, qos, topic, packetId, payload, rfl, hbytes, rfl, hlisten, hnul, ?_,
      hsmall⟩
    refine List.take_of_length_le ?_
    unfold copyLength kMaxTopicLength
    split_ifs <;> omega

/-- Reads are faithful to the packets at whose place they begin. -/
theorem meaning_faithful (table : Vector (Subscription κ) 2) :
    Faithful WirePacket.bytes (WirePacket.due table) (meaning table) where
  bytes_ne_nil p := by
    obtain ⟨packet, _⟩ := p
    cases packet <;> simp [WirePacket.bytes, Packet.bytes]
  own p hdue := by
    obtain ⟨dup, retain, qos, topic, packetId, payload, hpacket, _, hcalls, _, _, htake, _⟩ :=
      WirePacket.publish_of_due hdue
    have hwell : (Packet.publish dup retain qos topic packetId payload).WellFormed :=
      hpacket ▸ p.wellFormed
    rw [WirePacket.bytes, hpacket, meaning_publish hwell, htake, hcalls]
  length read p rest rest' hmeans hdue hplace := by
    obtain ⟨dup, retain, qos, topic, packetId, payload, _, hbytes, hcalls, _, hnul, htake,
      hsmall⟩ := WirePacket.publish_of_due hdue
    rw [hbytes, List.append_assoc] at hplace
    rw [meaning_at_publish hsmall hnul hplace] at hmeans ⊢
    split_ifs at hmeans ⊢ with hreach
    · rw [hcalls, htake, List.length_map, List.length_map]
    · exact absurd rfl hmeans
  exact read p rest rest' hmeans hdue hplace hequal := by
    obtain ⟨dup, retain, qos, topic, packetId, payload, _, hbytes, hcalls, hlisten, hnul, htake,
      hsmall⟩ := WirePacket.publish_of_due hdue
    rw [hbytes, List.append_assoc] at hplace
    rw [meaning_at_publish hsmall hnul hplace] at hmeans hequal
    split_ifs at hmeans hequal with hreach
    · obtain ⟨callback, hcallback⟩ := List.exists_mem_of_ne_nil _ hlisten
      have hpayload : read.drop (payloadStart qos.val 4 topic.length) = payload := by
        rw [hcalls, htake] at hequal
        have hcall := List.map_inj_left.mp hequal callback hcallback
        exact congrArg Call.payload hcall
      have hhead : read.take (payloadStart qos.val 4 topic.length) =
          publishHead dup retain qos topic packetId payload := by
        have hlength := publishHead_length dup retain qos topic packetId payload
        have hcut := congrArg (List.take (payloadStart qos.val 4 topic.length)) hplace
        rwa [List.take_append_of_le_length hreach, ← hlength, List.take_left, hlength] at hcut
      have hwhole := List.take_append_drop (payloadStart qos.val 4 topic.length) read
      rw [hhead, hpayload] at hwhole
      rw [hbytes, hwhole]
    · exact absurd rfl hmeans

end Meaning
end SmartBell.MQTT
