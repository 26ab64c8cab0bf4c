import SmartBell.Common.WriteBuffer
import SmartBell.MQTT.ControlPacket

/-!
# The send buffer

`send_connect_packet` and `subscribe` put a packet together in `send_buffer_`, whose size
they do not look at: `client_id`, user name, password and topic are copied as long as they
are. What they leave there is the packet, and inside of the buffer, exactly if it fits.
-/
namespace SmartBell.MQTT
open Common

abbrev SendBuffer := WriteBuffer UInt8 64

namespace SendBuffer

/-- `send_buffer_[pos++] = a`; `pos` is a `uint16_t`. -/
def push (b : SendBuffer) (a : UInt8) : SendBuffer := (b.put a).moveTo (u16 (b.pos + 1))

/-- `memcpy(&send_buffer_[pos], s, n); pos += n`. -/
def copy (b : SendBuffer) (s : List UInt8) : SendBuffer :=
  (b.putAll s).moveTo (u16 (b.pos + s.length))

/-- `send_buffer_[pos++] = (n >> 8) & 0xFF; send_buffer_[pos++] = n & 0xFF`. -/
def putWord (b : SendBuffer) (n : Nat) : SendBuffer :=
  (b.push (UInt8.ofNat (n >>> 8 &&& 0xFF))).push (UInt8.ofNat (n &&& 0xFF))

/-- A string behind its length, a `uint16_t`. -/
def putString (b : SendBuffer) (s : List UInt8) : SendBuffer :=
  let len := u16 s.length
  (b.putWord len).copy (s.take len)

/-- The remaining length, in one or two bytes. -/
def putRemainingLength (b : SendBuffer) (remaining : Nat) : SendBuffer :=
  if remaining < 128 then b.push (UInt8.ofNat (remaining &&& 0x7F))
  else (b.push (UInt8.ofNat (remaining &&& 0x7F ||| 0x80))).push
    (UInt8.ofNat (remaining >>> 7 &&& 0x7F))

end SendBuffer

open SendBuffer

/-- `send_connect_packet` up to its `socket_send`. -/
def buildConnect (c : Config) (sendBuffer : Vector UInt8 64) : SendBuffer :=
  let b := WriteBuffer.start sendBuffer
  let b := push b 0x10
  let remaining := 10
  let remaining := u16 (remaining + (2 + c.clientId.length))
  let remaining :=
    if c.useAuth then
      u16 (u16 (remaining + (2 + c.username.length)) + (2 + c.password.length))
    else remaining
  let b := push b (UInt8.ofNat (remaining &&& 0x7F))
  let b := push (push (push (push (push (push b 0) 4) (chr 'M')) (chr 'Q')) (chr 'T')) (chr 'T')
  let b := push b kMQTTProtocolLevel
  let flags := 0x02
  let flags := if c.useAuth then flags ||| 0x80 ||| 0x40 else flags
  let b := push b flags
  let b := putWord b c.keepalive.toNat
  let b := putString b c.clientId
  if c.useAuth then putString (putString b c.username) c.password else b

/-- `subscribe` up to its `socket_send`. -/
def buildSubscribe (packetId : UInt16) (topic : List UInt8) (sendBuffer : Vector UInt8 64) :
    SendBuffer :=
  let b := WriteBuffer.start sendBuffer
  let b := push b 0x82
  let topicLen := u16 topic.length
  let remaining := u16 (2 + 2 + topicLen + 1)
  let b := putRemainingLength b remaining
  let b := putWord b packetId.toNat
  let b := putString b topic
  push b 0

/-- `publish` up to its `socket_send`, and whether it gets there. -/
def buildPublish (topic payload : List UInt8) (sendBuffer : Vector UInt8 64) : Bool × SendBuffer :=
  let b := WriteBuffer.start sendBuffer
  let b := push b 0x30
  let topicLen := u16 topic.length
  let remaining := u16 (2 + topicLen + payload.length)
  if u16 (remaining + 2) > kSendBufferSize then (false, b)
  else
    let b := putRemainingLength b remaining
    let b := putString b topic
    (true, copy b payload)

/-! ## What is built -/

theorem and_255 (n : Nat) : n &&& 0xFF = n % 256 := Nat.and_two_pow_sub_one_eq_mod n 8

theorem and_127 (n : Nat) : n &&& 0x7F = n % 128 := Nat.and_two_pow_sub_one_eq_mod n 7

theorem or_128 {n : Nat} (hn : n < 128) : n ||| 0x80 = n + 128 := by
  have hadd := Nat.two_pow_add_eq_or_of_lt (i := 7) hn 1
  rw [Nat.or_comm, Nat.add_comm]
  exact hadd.symm

theorem ofNat_mod_256 (n : Nat) : UInt8.ofNat (n % 256) = UInt8.ofNat n :=
  UInt8.toNat_inj.mp (by simp)

section Built
variable {b : SendBuffer} {bytes : List UInt8}

theorem SendBuffer.push_holds (h : b.Holds bytes) (a : UInt8) (hroom : bytes.length < 64) :
    (push b a).Holds (bytes ++ [a]) := by
  have hput := h.put a hroom
  have hpos : u16 (b.pos + 1) = (b.put a).pos := u16_of_lt (by rw [h.pos]; omega)
  rw [push, hpos]
  exact hput

theorem SendBuffer.copy_holds (h : b.Holds bytes) (s : List UInt8)
    (hroom : bytes.length + s.length ≤ 64) : (copy b s).Holds (bytes ++ s) := by
  have hall := h.putAll s hroom
  have hpos : u16 (b.pos + s.length) = (b.putAll s).pos := by
    rw [WriteBuffer.putAll_pos, u16_of_lt (by rw [h.pos]; omega)]
  rw [copy, hpos]
  exact hall

theorem SendBuffer.putWord_holds (h : b.Holds bytes) (n : Nat) (hroom : bytes.length + 2 ≤ 64) :
    (putWord b n).Holds (bytes ++ bigEndian n) := by
  have hput := push_holds (push_holds h (UInt8.ofNat (n / 256)) (by omega)) (UInt8.ofNat n)
    (by simp; omega)
  rw [List.append_assoc] at hput
  rwa [SendBuffer.putWord, and_255, and_255, ofNat_mod_256, ofNat_mod_256,
    Nat.shiftRight_eq_div_pow]

theorem SendBuffer.putString_holds (h : b.Holds bytes) (s : List UInt8)
    (hroom : bytes.length + (2 + s.length) ≤ 64) :
    (putString b s).Holds (bytes ++ encodeString s) := by
  have hword := putWord_holds h s.length (by omega)
  have hall := copy_holds hword s (by simp; omega)
  rw [List.append_assoc] at hall
  rw [putString, u16_of_lt (by omega), List.take_length]
  exact hall

/-- The remaining length as `subscribe` and `publish` write it. -/
theorem SendBuffer.putRemainingLength_holds (h : b.Holds bytes) (remaining : Nat)
    (hroom : bytes.length + (encodeRemainingLength remaining).length ≤ 64) :
    (putRemainingLength b remaining).Holds (bytes ++ encodeRemainingLength remaining) := by
  have hlow : remaining % 128 < 128 := Nat.mod_lt _ (by omega)
  unfold putRemainingLength
  unfold encodeRemainingLength at hroom ⊢
  split_ifs at hroom ⊢ with hsmall
  · rw [and_127, Nat.mod_eq_of_lt hsmall]
    exact push_holds h _ hroom
  · simp only [List.length_cons, List.length_nil] at hroom
    have hput := push_holds (push_holds h (UInt8.ofNat (remaining % 128 + 128)) (by omega))
      (UInt8.ofNat (remaining / 128 % 128)) (by simp; omega)
    rw [List.append_assoc] at hput
    rwa [and_127, or_128 hlow, and_127, Nat.shiftRight_eq_div_pow]

end Built

/-- A SUBSCRIBE that fits is built inside of the buffer. -/
theorem buildSubscribe_holds (packetId : UInt16) (topic : List UInt8) (sendBuffer : Vector UInt8 64)
    (hfits : (subscribePacket packetId topic).length ≤ 64) :
    (buildSubscribe packetId topic sendBuffer).Holds (subscribePacket packetId topic) := by
  simp [subscribePacket] at hfits
  have hheader := push_holds (WriteBuffer.Holds.start sendBuffer) 0x82 (by simp)
  have hlength := putRemainingLength_holds hheader (2 + 2 + topic.length + 1) (by simp; omega)
  have hid := putWord_holds hlength packetId.toNat (by simp; omega)
  have htopic := putString_holds hid topic (by simp; omega)
  have hremaining : u16 (2 + 2 + u16 topic.length + 1) = 2 + 2 + topic.length + 1 := by
    rw [u16_of_lt (show topic.length < 65536 by omega), u16_of_lt (by omega)]
  simp only [buildSubscribe, hremaining]
  exact push_holds htopic 0 (by simp; omega)

/-- A PUBLISH that fits is built inside of the buffer. -/
theorem buildPublish_holds (topic payload : List UInt8) (sendBuffer : Vector UInt8 64)
    (hfits : 2 + topic.length + payload.length ≤ 62) :
    ∃ b, buildPublish topic payload sendBuffer = (true, b) ∧
      b.Holds (publishPacket topic payload) := by
  have hsmall : 2 + topic.length + payload.length < 128 := by omega
  have hone : (encodeRemainingLength (2 + topic.length + payload.length)).length = 1 := by
    rw [encodeRemainingLength, if_pos hsmall]
    rfl
  have hheader := push_holds (WriteBuffer.Holds.start sendBuffer) 0x30 (by simp)
  have hlength := putRemainingLength_holds hheader (2 + topic.length + payload.length)
    (by simp; omega)
  have htopic := putString_holds hlength topic (by simp; omega)
  have hpayload := copy_holds htopic payload (by simp; omega)
  have hremaining : u16 (2 + u16 topic.length + payload.length) =
      2 + topic.length + payload.length := by
    rw [u16_of_lt (show topic.length < 65536 by omega), u16_of_lt (by omega)]
  have hguard : ¬u16 (2 + topic.length + payload.length + 2) > kSendBufferSize := by
    rw [u16_of_lt (by omega), kSendBufferSize]
    omega
  refine ⟨_, ?_, hpayload⟩
  simp only [buildPublish, hremaining, if_neg hguard]

/-- A CONNECT that fits is built inside of the buffer. -/
theorem buildConnect_holds {c : Config} (sendBuffer : Vector UInt8 64)
    (hfits : (connectPacket c).length ≤ 64) :
    (buildConnect c sendBuffer).Holds (connectPacket c) := by
  obtain ⟨brokerIp, brokerPort, clientId, username, password, keepalive, useAuth⟩ := c
  have hname : encodeString (ascii "MQTT") = [0, 4, chr 'M', chr 'Q', chr 'T', chr 'T'] := by
    decide
  -- the first ten bytes, up to the flags
  have hhead (remaining : Nat) (flags : UInt8) := copy_holds (WriteBuffer.Holds.start sendBuffer)
    [0x10, UInt8.ofNat (remaining &&& 0x7F), 0, 4, chr 'M', chr 'Q', chr 'T', chr 'T',
      kMQTTProtocolLevel, flags] (by simp)
  simp [connectPacket, hname] at hfits
  cases useAuth with
  | false =>
    simp at hfits
    have hremaining : u16 (10 + (2 + clientId.length)) = 10 + (2 + clientId.length) :=
      u16_of_lt (by omega)
    have hkeepalive := putWord_holds (hhead (10 + (2 + clientId.length)) 0x02) keepalive.toNat
      (by simp)
    have hid := putString_holds hkeepalive clientId (by simp; omega)
    convert hid using 1
    · simp only [buildConnect, hremaining]
      rfl
    · simp [connectPacket, hname, and_127]
  | true =>
    simp at hfits
    have hremaining : u16 (u16 (u16 (10 + (2 + clientId.length)) + (2 + username.length)) +
        (2 + password.length)) =
        10 + (2 + clientId.length) + (2 + username.length) + (2 + password.length) := by
      rw [u16_of_lt (show 10 + (2 + clientId.length) < 65536 by omega),
        u16_of_lt (show _ + (2 + username.length) < 65536 by omega), u16_of_lt (by omega)]
    have hkeepalive := putWord_holds
      (hhead (10 + (2 + clientId.length) + (2 + username.length) + (2 + password.length)) 0xC2)
      keepalive.toNat (by simp)
    have hid := putString_holds hkeepalive clientId (by simp; omega)
    have huser := putString_holds hid username (by simp; omega)
    have hpass := putString_holds huser password (by simp; omega)
    convert hpass using 1
    · simp only [buildConnect, if_true, hremaining]
      rfl
    · simp [connectPacket, hname, and_127, Nat.add_assoc]

/-! ## What is sent -/

/-- A packet that was built inside of the buffer, with the length of what follows in its second
byte, and that a server reads as `p`. -/
structure SendBuffer.Carries (b : SendBuffer) (p : ControlPacket) : Prop where
  inside : ∀ i ∈ b.writes, i < kSendBufferSize
  remainingLength : (b.written.getD 1 0).toNat = (b.written.drop 2).length
  decodes : decode b.written = some p

theorem remainingLength_byte (header : UInt8) {body : List UInt8} (hlen : body.length < 128) :
    let packet := header :: (encodeRemainingLength body.length ++ body)
    (packet.getD 1 0).toNat = (packet.drop 2).length := by
  simp [encodeRemainingLength, hlen]
  omega

/-- The CONNECT of a client whose strings fit. -/
theorem buildConnect_carries {c : Config} (sendBuffer : Vector UInt8 64)
    (hfits : (connectPacket c).length ≤ 64) (hclientId : 0 ∉ c.clientId)
    (husername : 0 ∉ c.username) :
    (buildConnect c sendBuffer).Carries (.connect (connectOf c)) := by
  have hbuilt := buildConnect_holds sendBuffer hfits
  obtain ⟨hsmall, hpacket⟩ := connectPacket_eq (show (connectPacket c).length < 130 by omega)
  refine ⟨hbuilt.writes, ?_, ?_⟩
  · rw [hbuilt.written, hpacket]
    exact remainingLength_byte 0x10 hsmall
  · rw [hbuilt.written]
    exact decode_connectPacket (by omega) hclientId husername

theorem subscribePacket_length (packetId : UInt16) {topic : List UInt8}
    (hlen : topic.length + 5 < 128) :
    (subscribePacket packetId topic).length = topic.length + 7 := by
  obtain ⟨hlength, hpacket⟩ := subscribePacket_eq packetId topic
  rw [hpacket, hlength, encodeRemainingLength, if_pos hlen]
  simp [hlength]

/-- The SUBSCRIBE for a topic that fits. -/
theorem buildSubscribe_carries (packetId : UInt16) {topic : List UInt8}
    (sendBuffer : Vector UInt8 64) (hfits : topic.length ≤ 57) (hne : topic ≠ [])
    (hnul : 0 ∉ topic) :
    (buildSubscribe packetId topic sendBuffer).Carries
      (.subscribe packetId.toNat [(topic, 0)]) := by
  have hlength := subscribePacket_length packetId (show topic.length + 5 < 128 by omega)
  have hbuilt := buildSubscribe_holds packetId topic sendBuffer (by omega)
  obtain ⟨hbody, hpacket⟩ := subscribePacket_eq packetId topic
  refine ⟨hbuilt.writes, ?_, ?_⟩
  · rw [hbuilt.written, hpacket]
    exact remainingLength_byte 0x82 (by omega)
  · rw [hbuilt.written]
    exact decode_subscribePacket packetId (by omega) hne hnul

end SmartBell.MQTT
