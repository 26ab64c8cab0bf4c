import SmartBell.Common.Attempt
import SmartBell.Common.Bytes

/-!
# Decoding a received packet

`process_incoming_packet` behind its `socket_recv`: `len` bytes have arrived at the
start of `recv_buffer_`, and behind the 64 bytes of that buffer comes other memory. The
decoder runs with a record of every byte it touches. Positions are `uint16_t`, and on
the target their sums wrap.
-/
namespace SmartBell.MQTT
open Common

def kRecvBufferSize : Nat := 64
def kMaxTopicLength : Nat := 32

/-- A `uint16_t` sum. -/
def u16 (n : Nat) : Nat := n % 65536

theorem u16_of_lt {n : Nat} (h : n < 65536) : u16 n = n := Nat.mod_eq_of_lt h

/-- Indices into `recv_buffer_` that were read and into `topic_str` that were written. -/
structure Accesses where
  reads : List Nat
  topicWrites : List Nat

/-- One subscription. The last byte of its topic is never anything but a NUL. -/
structure Subscription (κ : Type) where
  topic : Vector UInt8 32
  topic_last : topic[31] = 0
  callback : Option κ
  active : Bool

/-- An entry of the table that was never used. -/
def Subscription.unused {κ : Type} : Subscription κ :=
  ⟨Vector.replicate 32 0, by simp, none, false⟩

/-- Store a new subscription in an entry. -/
def Subscription.store {κ : Type} (s : Subscription κ) (topic : List UInt8)
    (callback : Option κ) : Subscription κ where
  topic := (strncpy s.topic topic 31).set 31 0
  topic_last := by simp
  callback := callback
  active := true

/-- What the decoder found out about a PUBLISH. -/
structure Publish where
  topicPos : Nat
  topicLen : Nat
  topicStr : List UInt8
  qos : Nat
  payload : Nat
  payloadLen : Nat
  deriving DecidableEq, Repr

/-- A callback together with the packet it is called for. -/
structure Delivery (κ : Type) where
  callback : κ
  packet : Publish

section Decoder
variable (mem : Nat → UInt8) (len : Nat)

/-- Read `recv_buffer_[i]`. -/
def recvByte (i : Nat) : Attempt Accesses UInt8 := fun a =>
  (some (mem i), { a with reads := a.reads ++ [i] })

/-- The loop over the remaining length at `pos`, `room` bytes before the end of the data. The
value is put together and left unused. -/
def decodeRemainingLength (multiplier remLen : UInt32) : Nat → Nat →
    Attempt Accesses (Nat × UInt32)
  | 0, _ => .stop
  | room + 1, pos => do
    let encodedByte ← recvByte mem pos
    let remLen := remLen + (encodedByte &&& 127).toUInt32 * multiplier
    if encodedByte &&& 128 ≠ 0 then
      decodeRemainingLength (multiplier * 128) remLen room (pos + 1)
    else pure (pos + 1, remLen)

/-- `memcpy` into `topic_str`, and the NUL behind it. -/
def copyTopicStr (pos copyLen : Nat) : Attempt Accesses (List UInt8) := fun a =>
  (some ((List.range' pos copyLen).map mem),
    { reads := a.reads ++ List.range' pos copyLen
      topicWrites := a.topicWrites ++ List.range copyLen ++ [copyLen] })

/-- Step over the packet id if there is one. -/
def skipPacketId (qos pos : Nat) : Attempt Accesses Nat :=
  if qos > 0 then do
    .require (u16 (pos + 2) ≤ len)
    pure (u16 (pos + 2))
  else pure pos

/-- The PUBLISH branch from the topic on, up to the callbacks. -/
def decodeTopic (qos topicPos topicLen : Nat) : Attempt Accesses Publish := do
  .require (u16 (topicPos + topicLen) ≤ len)
  let copyLen := if topicLen < kMaxTopicLength - 1 then topicLen else kMaxTopicLength - 1
  let topicStr ← copyTopicStr mem topicPos copyLen
  let payload ← skipPacketId len qos (u16 (topicPos + topicLen))
  pure { topicPos, topicLen, topicStr, qos, payload, payloadLen := len - payload }

/-- The PUBLISH branch up to the callbacks. -/
def decodePublish (qos : Nat) : Attempt Accesses Publish := do
  let (pos, _) ← decodeRemainingLength mem 1 0 (len - 1) 1
  .require (u16 (pos + 2) ≤ len)
  let high ← recvByte mem pos
  let low ← recvByte mem (pos + 1)
  decodeTopic mem len qos (u16 (pos + 2)) (high.toNat * 256 + low.toNat)

variable {κ : Type} (subscriptions : Vector (Subscription κ) 2)

/-- `strcmp(subscription.topic, topic_str) == 0` for an active subscription. -/
def Subscription.matchesTopic (s : Subscription κ) (topicStr : List UInt8) : Bool :=
  s.active && cstring s.topic.toList == cstring topicStr

/-- The callbacks of the subscriptions to a topic, in the order of the table. -/
def listeners (topicStr : List UInt8) : List κ :=
  subscriptions.toList.flatMap fun s => if s.matchesTopic topicStr then s.callback.toList else []

def dispatch (packet : Publish) : List (Delivery κ) :=
  (listeners subscriptions packet.topicStr).map (⟨·, packet⟩)

/-- `process_incoming_packet` on `len` received bytes. -/
def processPacket : Attempt Accesses (List (Delivery κ)) := do
  let headerByte ← recvByte mem 0
  let msgType := headerByte &&& 0xF0
  let qos := (headerByte &&& 0x06) >>> 1
  if msgType = 0xD0 then pure []
  else if msgType = 0x30 then do
    let packet ← decodePublish mem len qos.toNat
    pure (dispatch subscriptions packet)
  else pure []

end Decoder

/-! ## Where a packet has its topic -/

section Layout
variable (mem : Nat → UInt8) (len : Nat)

/-- The last byte of the remaining length: the first one without a continuation bit. -/
def remainingLengthEnd : Option Nat := (List.range' 1 (len - 1)).find? fun i => mem i < 128

/-- The position and the length of the topic, if the data goes that far. -/
def topicField : Option (Nat × Nat) :=
  (remainingLengthEnd mem len).bind fun e =>
    if e + 3 ≤ len then some (e + 3, (mem (e + 1)).toNat * 256 + (mem (e + 2)).toNat) else none

end Layout

section Spec
variable {mem : Nat → UInt8} {len : Nat}

theorem continues_iff (b : UInt8) : b &&& 128 ≠ 0 ↔ ¬b < 128 :=
  forall_byte (P := fun b => b &&& 128 ≠ 0 ↔ ¬b < 128) (by decide +kernel) b

/-- The decoder reads on to the end of the remaining length, and no further. -/
theorem decodeRemainingLength_eq (mem : Nat → UInt8) (multiplier remLen : UInt32)
    (room pos : Nat) (a : Accesses) :
    match (List.range' pos room).find? fun i => mem i < 128 with
    | none => decodeRemainingLength mem multiplier remLen room pos a =
        (none, { a with reads := a.reads ++ List.range' pos room })
    | some e => pos ≤ e ∧ e < pos + room ∧ ∃ value,
        decodeRemainingLength mem multiplier remLen room pos a =
          (some (e + 1, value), { a with reads := a.reads ++ List.range' pos (e + 1 - pos) }) := by
  induction room generalizing multiplier remLen pos a with
  | zero => simp [decodeRemainingLength]
  | succ room ih =>
    rw [List.range'_succ]
    by_cases hlast : mem pos < 128
    · have hstop : ¬(mem pos &&& 128 ≠ 0) := fun h => (continues_iff _).mp h hlast
      have hfind : (pos :: List.range' (pos + 1) room).find? (fun i => decide (mem i < 128)) =
          some pos := by simp [hlast]
      have hone : pos + 1 - pos = 1 := by omega
      rw [hfind]
      refine ⟨le_rfl, by omega, remLen + (mem pos &&& 127).toUInt32 * multiplier, ?_⟩
      simp only [decodeRemainingLength, Attempt.bind_apply, recvByte, if_neg hstop, hone]
      rfl
    · have hfind : (pos :: List.range' (pos + 1) room).find? (fun i => decide (mem i < 128)) =
          (List.range' (pos + 1) room).find? (fun i => decide (mem i < 128)) := by simp [hlast]
      have hgo : mem pos &&& 128 ≠ 0 := (continues_iff _).mpr hlast
      have hrest := ih (multiplier * 128) (remLen + (mem pos &&& 127).toUInt32 * multiplier)
        (pos + 1) { a with reads := a.reads ++ [pos] }
      have hstep : decodeRemainingLength mem multiplier remLen (room + 1) pos a =
          decodeRemainingLength mem (multiplier * 128)
            (remLen + (mem pos &&& 127).toUInt32 * multiplier) room (pos + 1)
            { a with reads := a.reads ++ [pos] } := by
        simp only [decodeRemainingLength, Attempt.bind_apply, recvByte, if_pos hgo]
      rw [hfind, hstep]
      cases hend : (List.range' (pos + 1) room).find? fun i => decide (mem i < 128) with
      | none =>
        simp only [hend] at hrest
        simpa using hrest
      | some e =>
        simp only [hend] at hrest
        obtain ⟨hlow, hhigh, value, heq⟩ := hrest
        have hrange : List.range' pos (e + 1 - pos) =
            pos :: List.range' (pos + 1) (e + 1 - (pos + 1)) := by
          rw [show e + 1 - pos = (e + 1 - (pos + 1)) + 1 by omega, List.range'_succ]
        refine ⟨by omega, by omega, value, ?_⟩
        rw [heq, hrange, List.append_assoc]
        rfl

theorem topicField_bounds {p topicLen : Nat} (h : topicField mem len = some (p, topicLen)) :
    4 ≤ p ∧ p ≤ len ∧ topicLen < 65536 := by
  simp only [topicField, Option.bind_eq_some_iff] at h
  obtain ⟨e, hend, h⟩ := h
  split_ifs at h with hlen
  obtain ⟨rfl, rfl⟩ : e + 3 = p ∧ (mem (e + 1)).toNat * 256 + (mem (e + 2)).toNat = topicLen := by
    simpa using h
  have hpos : 1 ≤ e := by
    have hmem := List.mem_of_find?_eq_some hend
    simp at hmem
    omega
  have hhigh := (mem (e + 1)).toNat_lt
  have hlow := (mem (e + 2)).toNat_lt
  omega

/-- Without a topic in the data the decoder gives up inside the data. -/
theorem decodePublish_of_none (hpos : 1 ≤ len) (hlen : len ≤ 64) (qos : Nat) (a : Accesses)
    (h : topicField mem len = none) :
    ∃ reads, (∀ i ∈ reads, i < len) ∧
      decodePublish mem len qos a = (none, { a with reads := a.reads ++ reads }) := by
  have hloop := decodeRemainingLength_eq mem 1 0 (len - 1) 1 a
  unfold decodePublish
  cases hend : remainingLengthEnd mem len with
  | none =>
    rw [remainingLengthEnd] at hend
    rw [hend] at hloop
    refine ⟨List.range' 1 (len - 1), fun i hi => ?_, Attempt.bind_none hloop⟩
    simp at hi
    omega
  | some e =>
    have hbehind : ¬e + 3 ≤ len := by
      intro hle
      simp [topicField, hend, hle] at h
    rw [remainingLengthEnd] at hend
    rw [hend] at hloop
    obtain ⟨hlow, hhigh, value, hloop⟩ := hloop
    have hguard : ¬u16 (e + 1 + 2) ≤ len := by rwa [u16_of_lt (by omega)]
    refine ⟨List.range' 1 (e + 1 - 1), fun i hi => ?_, ?_⟩
    · simp at hi
      omega
    · rw [Attempt.bind_some hloop]
      simp [Attempt.require, hguard, Attempt.bind_apply]

/-- With a topic in the data the decoder arrives at it. -/
theorem decodePublish_of_some (hlen : len ≤ 64) (qos : Nat) (a : Accesses) {p topicLen : Nat}
    (h : topicField mem len = some (p, topicLen)) :
    decodePublish mem len qos a =
      decodeTopic mem len qos p topicLen { a with reads := a.reads ++ List.range' 1 (p - 1) } := by
  have hloop := decodeRemainingLength_eq mem 1 0 (len - 1) 1 a
  simp only [topicField, Option.bind_eq_some_iff] at h
  obtain ⟨e, hend, h⟩ := h
  split_ifs at h with hbehind
  obtain ⟨rfl, rfl⟩ : e + 3 = p ∧ (mem (e + 1)).toNat * 256 + (mem (e + 2)).toNat = topicLen := by
    simpa using h
  rw [remainingLengthEnd] at hend
  rw [hend] at hloop
  obtain ⟨hlow, hhigh, value, hloop⟩ := hloop
  have hpos : u16 (e + 1 + 2) = e + 3 := u16_of_lt (by omega)
  have hrange : List.range' 1 (e + 3 - 1) = List.range' 1 e ++ [e + 1, e + 1 + 1] := by
    rw [show e + 3 - 1 = e + 1 + 1 by omega, List.range'_concat, List.range'_concat]
    simp
    omega
  unfold decodePublish
  rw [Attempt.bind_some hloop, hrange]
  simp [Attempt.require, hpos, hbehind, Attempt.bind_apply, recvByte]

/-! ## Decoding from the topic on -/

/-- The first byte behind the topic and the packet id. -/
def payloadStart (qos p topicLen : Nat) : Nat := p + topicLen + if 0 < qos then 2 else 0

/-- What `topic_str` receives: no more than 31 bytes. -/
def copyLength (topicLen : Nat) : Nat :=
  if topicLen < kMaxTopicLength - 1 then topicLen else kMaxTopicLength - 1

theorem copyLength_eq (topicLen : Nat) : copyLength topicLen = min topicLen 31 := by
  unfold copyLength kMaxTopicLength
  split_ifs <;> omega

theorem copyLength_le (topicLen : Nat) :
    copyLength topicLen ≤ topicLen ∧ copyLength topicLen ≤ 31 := by
  unfold copyLength kMaxTopicLength
  split_ifs <;> omega

/-- The accesses of a decoder that has copied the topic. -/
def Accesses.copied (a : Accesses) (p topicLen : Nat) : Accesses where
  reads := a.reads ++ List.range' p (copyLength topicLen)
  topicWrites := a.topicWrites ++ List.range (copyLength topicLen) ++ [copyLength topicLen]

/-- The outcome of `skipPacketId`, which touches no memory. -/
def behindPacketId (len qos pos : Nat) : Option Nat :=
  if 0 < qos then if u16 (pos + 2) ≤ len then some (u16 (pos + 2)) else none else some pos

theorem skipPacketId_eq (qos pos : Nat) (a : Accesses) :
    skipPacketId len qos pos a = (behindPacketId len qos pos, a) := by
  unfold skipPacketId behindPacketId
  by_cases hqos : 0 < qos
  · by_cases hfits : u16 (pos + 2) ≤ len
    · simp [hqos, hfits, Attempt.require, Attempt.bind_apply]
    · simp [hqos, hfits, Attempt.require, Attempt.bind_apply]
  · simp [hqos]

/-- Behind the guard the topic is copied whatever follows. -/
theorem decodeTopic_of_guard {qos p topicLen : Nat} (h : u16 (p + topicLen) ≤ len) (a : Accesses) :
    decodeTopic mem len qos p topicLen a =
      ((behindPacketId len qos (u16 (p + topicLen))).map fun payload =>
        { topicPos := p, topicLen, topicStr := (List.range' p (copyLength topicLen)).map mem
          qos, payload, payloadLen := len - payload },
        a.copied p topicLen) := by
  unfold decodeTopic
  simp only [h, decide_true, Attempt.require, if_true, Attempt.bind_apply, Attempt.pure_apply,
    copyTopicStr, skipPacketId_eq]
  cases behindPacketId len qos (u16 (p + topicLen)) with
  | none => rfl
  | some payload => rfl

theorem decodeTopic_of_lt {qos p topicLen : Nat} (h : len < p + topicLen)
    (hsum : p + topicLen < 65536) (a : Accesses) :
    decodeTopic mem len qos p topicLen a = (none, a) := by
  have hguard : ¬u16 (p + topicLen) ≤ len := by
    rw [u16_of_lt hsum]
    omega
  unfold decodeTopic
  simp [hguard, Attempt.require, Attempt.bind_apply]

/-- A packet id that is not there ends the decoding. -/
theorem behindPacketId_of_le {qos p topicLen : Nat} (hlen : len ≤ 64) (h : p + topicLen ≤ len) :
    behindPacketId len qos (u16 (p + topicLen)) =
      if payloadStart qos p topicLen ≤ len then some (payloadStart qos p topicLen) else none := by
  have hsum : u16 (p + topicLen) = p + topicLen := u16_of_lt (by omega)
  have hid : u16 (p + topicLen + 2) = p + topicLen + 2 := u16_of_lt (by omega)
  unfold behindPacketId payloadStart
  by_cases hqos : 0 < qos <;> simp [hsum, hid, hqos, h]

/-- A sum that wraps steps back, and passes the guard. -/
theorem u16_of_wrap {p topicLen : Nat} (hp : p ≤ len) (hlen : len ≤ 64) (htopic : topicLen < 65536)
    (hwrap : 65536 ≤ p + topicLen) :
    u16 (p + topicLen) + 1 ≤ p ∧ u16 (p + topicLen) ≤ len ∧ copyLength topicLen = 31 := by
  refine ⟨?_, ?_, if_neg (by unfold kMaxTopicLength; omega)⟩ <;> unfold u16 <;> omega

theorem behindPacketId_of_room {pos : Nat} (qos : Nat) (hlen : len ≤ 64) (h : pos + 2 ≤ len) :
    ∃ payload, behindPacketId len qos pos = some payload ∧ payload ≤ pos + 2 := by
  have hid : u16 (pos + 2) = pos + 2 := u16_of_lt (by omega)
  unfold behindPacketId
  by_cases hqos : 0 < qos
  · exact ⟨pos + 2, by simp [hqos, hid, h], le_rfl⟩
  · exact ⟨pos, by simp [hqos], by omega⟩

end Spec

/-! ## Memory safety -/

section Safety
variable {κ : Type} {mem : Nat → UInt8} {len : Nat} {subscriptions : Vector (Subscription κ) 2}

def isPublish (headerByte : UInt8) : Prop := headerByte &&& 0xF0 = 0x30

instance (headerByte : UInt8) : Decidable (isPublish headerByte) :=
  inferInstanceAs (Decidable (_ = _))

def qosOf (headerByte : UInt8) : Nat := ((headerByte &&& 0x06) >>> 1).toNat

theorem processPacket_of_publish (len : Nat) (subscriptions : Vector (Subscription κ) 2)
    (h : isPublish (mem 0)) (a : Accesses) :
    processPacket mem len subscriptions a =
      ((decodePublish mem len (qosOf (mem 0)) { a with reads := a.reads ++ [0] }).1.map
          (dispatch subscriptions),
        (decodePublish mem len (qosOf (mem 0)) { a with reads := a.reads ++ [0] }).2) := by
  have hheader : mem 0 &&& 0xF0 = 0x30 := h
  have hping : ¬((0x30 : UInt8) = 0xD0) := by decide
  simp only [processPacket, Attempt.bind_apply, recvByte, hheader, if_neg hping, if_true, qosOf]
  rcases decodePublish mem len _ _ with ⟨_ | packet, b⟩ <;> rfl

theorem processPacket_of_not_publish (len : Nat) (subscriptions : Vector (Subscription κ) 2)
    (h : ¬isPublish (mem 0)) (a : Accesses) :
    processPacket mem len subscriptions a = (some [], { a with reads := a.reads ++ [0] }) := by
  have hheader : ¬(mem 0 &&& 0xF0 = 0x30) := h
  simp only [processPacket, Attempt.bind_apply, recvByte, if_neg hheader]
  split_ifs <;> rfl

/-- A listener is the callback of an active subscription to the topic. -/
theorem mem_listeners {topicStr : List UInt8} {callback : κ} :
    callback ∈ listeners subscriptions topicStr ↔
      ∃ s ∈ subscriptions.toList, s.matchesTopic topicStr = true ∧ s.callback = some callback := by
  simp only [listeners, List.mem_flatMap]
  refine exists_congr fun s => and_congr_right fun _ => ?_
  cases hmatch : s.matchesTopic topicStr with
  | false => simp
  | true => simp

/-- Everything `process_incoming_packet` touches lies in the data received, in `topic_str`, and,
for the payload handed to a callback, behind the topic and the packet id. -/
structure Safe (mem : Nat → UInt8) (len : Nat) (subscriptions : Vector (Subscription κ) 2) :
    Prop where
  reads : ∀ i ∈ (processPacket mem len subscriptions ⟨[], []⟩).2.reads, i < len
  topicWrites : ∀ i ∈ (processPacket mem len subscriptions ⟨[], []⟩).2.topicWrites,
    i < kMaxTopicLength
  payload : ∀ deliveries, (processPacket mem len subscriptions ⟨[], []⟩).1 = some deliveries →
    ∀ delivery ∈ deliveries,
      payloadStart delivery.packet.qos delivery.packet.topicPos delivery.packet.topicLen ≤
        delivery.packet.payload ∧
      delivery.packet.payload + delivery.packet.payloadLen ≤ len

/-- The sum of the topic's position and length does not wrap; or it does, and there still are 31
bytes to copy and nobody has subscribed to them. -/
def TopicInBounds (mem : Nat → UInt8) (len : Nat) (subscriptions : Vector (Subscription κ) 2) :
    Prop :=
  isPublish (mem 0) → ∀ p topicLen, topicField mem len = some (p, topicLen) →
    p + topicLen < 65536 ∨
      p + 31 ≤ len ∧ listeners subscriptions ((List.range' p 31).map mem) = []

/-- The safety of a decoder that stopped before the callbacks, or made the calls of a packet. -/
theorem safe_of_publish {result : Option Publish} {reads topicWrites : List Nat}
    (h : isPublish (mem 0))
    (hrun : decodePublish mem len (qosOf (mem 0)) ⟨[0], []⟩ = (result, ⟨reads, topicWrites⟩)) :
    Safe mem len subscriptions ↔ (∀ i ∈ reads, i < len) ∧ (∀ i ∈ topicWrites, i < kMaxTopicLength) ∧
      ∀ packet, result = some packet → listeners subscriptions packet.topicStr ≠ [] →
        payloadStart packet.qos packet.topicPos packet.topicLen ≤ packet.payload ∧
          packet.payload + packet.payloadLen ≤ len := by
  have hprocess := processPacket_of_publish len subscriptions h ⟨[], []⟩
  rw [show ([] : List Nat) ++ [0] = [0] from rfl, hrun] at hprocess
  constructor
  · rintro ⟨hreads, hwrites, hpayload⟩
    rw [hprocess] at hreads hwrites hpayload
    refine ⟨hreads, hwrites, fun packet hpacket hlisten => ?_⟩
    subst hpacket
    obtain ⟨callback, hcallback⟩ := List.exists_mem_of_ne_nil _ hlisten
    exact hpayload _ rfl ⟨callback, packet⟩ (List.mem_map.mpr ⟨callback, hcallback, rfl⟩)
  · rintro ⟨hreads, hwrites, hpayload⟩
    refine ⟨by rwa [hprocess], by rwa [hprocess], fun deliveries hsome delivery hmem => ?_⟩
    rw [hprocess] at hsome
    obtain ⟨packet, hpacket, rfl⟩ := Option.map_eq_some_iff.mp hsome
    obtain ⟨callback, hcallback, rfl⟩ := List.mem_map.mp hmem
    exact hpayload packet hpacket (List.ne_nil_of_mem hcallback)

section Topic
variable {p topicLen : Nat} {reads : List Nat}

theorem copied_topicWrites (reads : List Nat) (p topicLen : Nat) :
    ∀ i ∈ (Accesses.copied ⟨reads, []⟩ p topicLen).topicWrites, i < kMaxTopicLength := by
  have hcopy := (copyLength_le topicLen).2
  intro i hi
  simp [Accesses.copied] at hi
  unfold kMaxTopicLength
  omega

/-- A topic that ends inside the data is decoded in bounds. -/
theorem safe_of_fits (h : isPublish (mem 0)) (hlen : len ≤ 64) (hreads : ∀ i ∈ reads, i < len)
    (hfits : p + topicLen ≤ len)
    (hrun : decodePublish mem len (qosOf (mem 0)) ⟨[0], []⟩ =
      decodeTopic mem len (qosOf (mem 0)) p topicLen ⟨reads, []⟩) :
    Safe mem len subscriptions := by
  have hguard : u16 (p + topicLen) ≤ len := by rwa [u16_of_lt (by omega)]
  have hcopy := (copyLength_le topicLen).1
  rw [decodeTopic_of_guard hguard, behindPacketId_of_le hlen hfits] at hrun
  refine (safe_of_publish h hrun).mpr ⟨fun i hi => ?_, copied_topicWrites reads p topicLen, ?_⟩
  · simp at hi
    rcases hi with hi | hi
    · exact hreads i hi
    · omega
  · intro packet hpacket _
    split_ifs at hpacket with hend
    · obtain rfl := Option.some.inj hpacket
      exact ⟨le_rfl, by simpa using Nat.le_of_eq (Nat.add_sub_of_le hend)⟩
    · simp at hpacket

/-- If the sum wraps, 31 bytes are copied from the topic on, and a callback gets a payload that
starts before the topic has ended. -/
theorem safe_of_wrap_iff (h : isPublish (mem 0)) (hlen : len ≤ 64) (hp : p ≤ len)
    (htopic : topicLen < 65536) (hwrap : 65536 ≤ p + topicLen) (hreads : ∀ i ∈ reads, i < len)
    (hrun : decodePublish mem len (qosOf (mem 0)) ⟨[0], []⟩ =
      decodeTopic mem len (qosOf (mem 0)) p topicLen ⟨reads, []⟩) :
    Safe mem len subscriptions ↔
      p + 31 ≤ len ∧ listeners subscriptions ((List.range' p 31).map mem) = [] := by
  obtain ⟨hback, hguard, hcopy⟩ := u16_of_wrap hp hlen htopic hwrap
  rw [decodeTopic_of_guard hguard] at hrun
  rw [safe_of_publish h hrun, hcopy]
  constructor
  · rintro ⟨hread, _, hpayload⟩
    have hroom : p + 31 ≤ len := by
      have := hread (p + 30) (by simp)
      omega
    refine ⟨hroom, by_contra fun hlisten => ?_⟩
    obtain ⟨payload, hbehind, hle⟩ := behindPacketId_of_room (qosOf (mem 0)) hlen
      (show u16 (p + topicLen) + 2 ≤ len by omega)
    have hstart := (hpayload _ (by rw [hbehind]; rfl) hlisten).1
    simp only [payloadStart] at hstart
    omega
  · rintro ⟨hroom, hnobody⟩
    have hwrites := copied_topicWrites reads p topicLen
    simp only [Accesses.copied, hcopy] at hwrites
    refine ⟨fun i hi => ?_, hwrites, fun packet hpacket hlisten => ?_⟩
    · simp at hi
      rcases hi with hi | hi
      · exact hreads i hi
      · omega
    · obtain ⟨payload, _, rfl⟩ := Option.map_eq_some_iff.mp hpacket
      exact absurd hnobody hlisten

end Topic

/-- Decoding stays in bounds exactly if the topic's end does not wrap around, or by luck. -/
theorem processPacket_safe_iff (mem : Nat → UInt8) (len : Nat) (hpos : 1 ≤ len) (hlen : len ≤ 64)
    (subscriptions : Vector (Subscription κ) 2) :
    Safe mem len subscriptions ↔ TopicInBounds mem len subscriptions := by
  by_cases hheader : isPublish (mem 0)
  swap
  · have hprocess := processPacket_of_not_publish len subscriptions hheader ⟨[], []⟩
    refine iff_of_true ⟨?_, ?_, ?_⟩ (fun h => absurd h hheader)
    · simp [hprocess]
      omega
    · simp [hprocess]
    · simp [hprocess]
  cases hfield : topicField mem len with
  | none =>
    obtain ⟨reads, hreads, hrun⟩ :=
      decodePublish_of_none hpos hlen (qosOf (mem 0)) ⟨[0], []⟩ hfield
    refine iff_of_true ((safe_of_publish hheader hrun).mpr ⟨?_, by simp, by simp⟩)
      (fun _ p topicLen h => by simp [hfield] at h)
    simpa using ⟨hpos, hreads⟩
  | some field =>
    obtain ⟨p, topicLen⟩ := field
    obtain ⟨hp4, hp, htopic⟩ := topicField_bounds hfield
    have hcond : TopicInBounds mem len subscriptions ↔ p + topicLen < 65536 ∨
        p + 31 ≤ len ∧ listeners subscriptions ((List.range' p 31).map mem) = [] := by
      refine ⟨fun h => h hheader p topicLen hfield, fun h _ p' topicLen' h' => ?_⟩
      obtain ⟨rfl, rfl⟩ : p = p' ∧ topicLen = topicLen' := by simpa [hfield] using h'
      exact h
    have hrun := decodePublish_of_some hlen (qosOf (mem 0)) ⟨[0], []⟩ hfield
    have hfirst : ∀ i ∈ [0] ++ List.range' 1 (p - 1), i < len := by
      intro i hi
      simp at hi
      omega
    rw [hcond]
    rcases Nat.lt_or_ge (p + topicLen) 65536 with hsum | hwrap
    · refine iff_of_true ?_ (Or.inl hsum)
      rcases Nat.lt_or_ge len (p + topicLen) with hout | hin
      · rw [decodeTopic_of_lt hout hsum] at hrun
        exact (safe_of_publish hheader hrun).mpr ⟨hfirst, by simp, by simp⟩
      · exact safe_of_fits hheader hlen hfirst hin hrun
    · rw [safe_of_wrap_iff hheader hlen hp htopic hwrap hfirst hrun]
      exact ⟨Or.inr, fun h => h.resolve_left (by omega)⟩

/-- A buffer that holds some bytes, and zeros behind them. -/
def bufferOf (bytes : List UInt8) (i : Nat) : UInt8 := bytes.getD i 0

def noSubscriptions : Vector (Subscription Unit) 2 := Vector.replicate 2 .unused

theorem processPacket_safe_bell :
    Safe (bufferOf (0x30 :: 9 :: 0 :: 6 :: ascii "bell/11")) 11 noSubscriptions := by
  refine (processPacket_safe_iff _ 11 (by decide) (by decide) _).mpr fun _ p topicLen h => ?_
  have hfield :
      topicField (bufferOf (0x30 :: 9 :: 0 :: 6 :: ascii "bell/11")) 11 = some (4, 6) := by decide
  obtain ⟨rfl, rfl⟩ : 4 = p ∧ 6 = topicLen := by simpa [hfield] using h
  exact Or.inl (by decide)

/-- A topic length of 65535 in a packet of five bytes: the copy reads 31 bytes from the topic on. -/
theorem not_safe_wrapping :
    ¬Safe (bufferOf [0x30, 3, 0xFF, 0xFF, 0]) 5 noSubscriptions := by
  intro h
  exact absurd (h.reads 34 (by decide)) (by decide)

end Safety
end SmartBell.MQTT
