import SmartBell.Common.Decoding
import SmartBell.MQTT.MinimalMQTT

/-!
# A reference decoder

The packets of an MQTT 3.1.1 client as a server reads them: one packet, its fixed header,
and a body of exactly the remaining length. What the strings spell is left open (UTF-8,
wildcards, the value of a packet id); they have no NUL, and a topic filter is not empty.
The packets that the client builds are read as what they are built for.
-/
namespace SmartBell.MQTT
open Common Decoder

/-- The message that the server publishes when the client is lost. -/
structure Will where
  topic : List UInt8
  message : List UInt8
  qos : Nat
  retain : Bool
  deriving DecidableEq, Repr

structure Connect where
  protocolLevel : UInt8
  cleanSession : Bool
  keepAlive : Nat
  clientId : List UInt8
  will : Option Will
  userName : Option (List UInt8)
  password : Option (List UInt8)
  deriving DecidableEq, Repr

inductive ControlPacket where
  | connect (c : Connect)
  | publish (dup retain : Bool) (qos : Nat) (topic : List UInt8) (packetId : Option Nat)
      (payload : List UInt8)
  | subscribe (packetId : Nat) (filters : List (List UInt8 × UInt8))
  | pingreq
  | disconnect
  deriving DecidableEq, Repr

/-! ## Fields -/

/-- A 16-bit number. -/
def word : Decoder UInt8 Nat := do
  let high ← next
  let low ← next
  pure (high.toNat * 256 + low.toNat)

/-- Binary data behind its length. -/
def binaryData : Decoder UInt8 (List UInt8) := do
  let n ← word
  take n

/-- A string behind its length. -/
def stringField : Decoder UInt8 (List UInt8) := do
  let s ← binaryData
  check (0 ∉ s)
  pure s

/-- The remaining length, in no more than `n` bytes. -/
def remainingLength : Nat → Decoder UInt8 Nat
  | 0 => failure
  | n + 1 => do
    let b ← next
    if b < 128 then pure b.toNat
    else do
      let high ← remainingLength n
      pure (b.toNat % 128 + 128 * high)

/-- Bit `i` of a byte of flags. -/
def flag (flags : UInt8) (i : Nat) : Bool := flags.toNat.testBit i

/-! ## Bodies -/

/-- The QoS of the will is in bits 3 and 4 of the connect flags. -/
def willQos (flags : UInt8) : Nat := flags.toNat / 8 % 4

/-- The reserved bit is clear, the will has its QoS and retain bits only if there is a will, and a
password comes with a user name. -/
def legalConnectFlags (flags : UInt8) : Bool :=
  !flag flags 0 && willQos flags ≠ 3 && (flag flags 2 || willQos flags = 0 && !flag flags 5) &&
    (flag flags 7 || !flag flags 6)

def willField (flags : UInt8) : Decoder UInt8 Will := do
  let topic ← stringField
  let message ← binaryData
  pure { topic, message, qos := willQos flags, retain := flag flags 5 }

def connectBody : Decoder UInt8 ControlPacket := do
  let protocolName ← stringField
  let protocolLevel ← next
  check (protocolName = ascii "MQTT" && protocolLevel = 4)
  let flags ← next
  check (legalConnectFlags flags)
  let keepAlive ← word
  let clientId ← stringField
  check (!clientId.isEmpty || flag flags 1)
  let will ← optional (flag flags 2) (willField flags)
  let userName ← optional (flag flags 7) stringField
  let password ← optional (flag flags 6) binaryData
  pure (.connect
    { protocolLevel, cleanSession := flag flags 1, keepAlive, clientId, will, userName, password })

/-- The flags of a PUBLISH are in the low half of its first byte. -/
def publishBody (header : UInt8) : Decoder UInt8 ControlPacket := do
  let qos := header.toNat / 2 % 4
  check (qos ≠ 3 && (0 < qos || !flag header 3))
  let topic ← stringField
  let packetId ← optional (0 < qos) word
  let payload ← remainder
  pure (.publish (flag header 3) (flag header 0) qos topic packetId payload)

/-- A topic filter with the QoS asked for. -/
def filterField : Decoder UInt8 (List UInt8 × UInt8) := do
  let filter ← stringField
  check (!filter.isEmpty)
  let qos ← next
  check (qos ≤ 2)
  pure (filter, qos)

/-- Every filter takes some of the body, so there are no more than it has bytes. -/
def subscribeBody (remaining : Nat) : Decoder UInt8 ControlPacket := do
  let packetId ← word
  let filters ← untilEnd filterField remaining
  check (!filters.isEmpty)
  pure (.subscribe packetId filters)

/-- A body, by the first byte of the packet; the types that a server sends are not here. -/
def bodyOf (header : UInt8) (remaining : Nat) : Decoder UInt8 ControlPacket :=
  match header.toNat / 16 with
  | 1 => do
    check (header.toNat % 16 = 0)
    connectBody
  | 3 => publishBody header
  | 8 => do
    check (header.toNat % 16 = 2)
    subscribeBody remaining
  | 12 => do
    check (header.toNat % 16 = 0)
    pure .pingreq
  | 14 => do
    check (header.toNat % 16 = 0)
    pure .disconnect
  | _ => failure

def controlPacket : Decoder UInt8 ControlPacket := do
  let header ← next
  let remaining ← remainingLength 4
  within remaining (bodyOf header remaining)

/-- The packet that these bytes are. -/
def decode (bytes : List UInt8) : Option ControlPacket := complete controlPacket bytes

/-! ## Fields that the client writes -/

theorem decodes_word {n : Nat} (hn : n < 65536) : Decodes word (bigEndian n) n := by
  intro rest
  have hhigh : (UInt8.ofNat (n / 256)).toNat = n / 256 := by
    rw [UInt8.toNat_ofNat']
    omega
  have hlow : (UInt8.ofNat n).toNat = n % 256 := UInt8.toNat_ofNat'
  have hvalue : n / 256 * 256 + n % 256 = n := by omega
  have hrun : word (bigEndian n ++ rest) =
      some ((UInt8.ofNat (n / 256)).toNat * 256 + (UInt8.ofNat n).toNat, rest) := rfl
  rw [hrun, hhigh, hlow, hvalue]

theorem decodes_binaryData {s : List UInt8} (hlen : s.length < 65536) :
    Decodes binaryData (encodeString s) s :=
  .bind (decodes_word hlen) (.take s)

theorem decodes_stringField {s : List UInt8} (hlen : s.length < 65536) (hnul : 0 ∉ s) :
    Decodes stringField (encodeString s) s := by
  have hfield : Decodes stringField (encodeString s ++ []) s :=
    .bind (decodes_binaryData hlen) (.check (by simpa using hnul) (.pure s))
  rwa [List.append_nil] at hfield

/-- The two bytes that the client has for the remaining length hold 14 bits. -/
theorem decodes_remainingLength_mod (n : Nat) :
    Decodes (remainingLength 4) (encodeRemainingLength n) (n % 16384) := by
  unfold encodeRemainingLength
  split_ifs with hsmall
  · have hbyte : (UInt8.ofNat n).toNat = n := by
      rw [UInt8.toNat_ofNat']
      omega
    have hlast : UInt8.ofNat n < 128 := by
      rw [UInt8.lt_iff_toNat_lt, hbyte]
      exact hsmall
    have hvalue : n % 16384 = n := Nat.mod_eq_of_lt (by omega)
    refine .next ?_
    rw [if_pos hlast, hbyte, hvalue]
    exact .pure n
  · have hlow : (UInt8.ofNat (n % 128 + 128)).toNat = n % 128 + 128 := by
      rw [UInt8.toNat_ofNat']
      omega
    have hhigh : (UInt8.ofNat (n / 128 % 128)).toNat = n / 128 % 128 := by
      rw [UInt8.toNat_ofNat']
      omega
    have hmore : ¬UInt8.ofNat (n % 128 + 128) < 128 := by
      rw [UInt8.lt_iff_toNat_lt, hlow]
      simp
    have hlast : UInt8.ofNat (n / 128 % 128) < 128 := by
      rw [UInt8.lt_iff_toNat_lt, hhigh]
      simp
      omega
    have hvalue : (n % 128 + 128) % 128 + 128 * (n / 128 % 128) = n % 16384 := by omega
    refine .next ?_
    rw [if_neg hmore, hlow]
    have hrest : Decodes (remainingLength 3) [UInt8.ofNat (n / 128 % 128)] (n / 128 % 128) := by
      refine .next ?_
      rw [if_pos hlast, hhigh]
      exact .pure (n / 128 % 128)
    have htwo := hrest.bind (f := fun high => pure ((n % 128 + 128) % 128 + 128 * high))
      (.pure ((n % 128 + 128) % 128 + 128 * (n / 128 % 128)))
    rwa [List.append_nil, hvalue] at htwo

theorem decodes_remainingLength {n : Nat} (hn : n < 16384) :
    Decodes (remainingLength 4) (encodeRemainingLength n) n := by
  have hmod := decodes_remainingLength_mod n
  rwa [Nat.mod_eq_of_lt hn] at hmod

/-! ## Packets that the client writes -/

/-- A fixed header in front of a body of the length it says. -/
theorem decode_of_body {header : UInt8} {body : List UInt8} {p : ControlPacket}
    (hlen : body.length < 16384) (hbody : complete (bodyOf header body.length) body = some p) :
    decode (header :: (encodeRemainingLength body.length ++ body)) = some p :=
  Decodes.complete (.next (.bind (decodes_remainingLength hlen) (.within hbody)))

/-- A clean session, and user name and password or none of them. -/
def connectFlags (useAuth : Bool) : UInt8 := if useAuth then 0xC2 else 0x02

theorem connectFlags_spec (useAuth : Bool) :
    legalConnectFlags (connectFlags useAuth) = true ∧ flag (connectFlags useAuth) 1 = true ∧
      flag (connectFlags useAuth) 2 = false ∧ flag (connectFlags useAuth) 7 = useAuth ∧
      flag (connectFlags useAuth) 6 = useAuth := by
  revert useAuth
  decide

/-- The body of a CONNECT, field after field. -/
def connectFields (c : Config) : List UInt8 :=
  encodeString (ascii "MQTT") ++ 4 :: connectFlags c.useAuth ::
    (bigEndian c.keepalive.toNat ++ (encodeString c.clientId ++
      ((if c.useAuth then encodeString c.username else []) ++
        if c.useAuth then encodeString c.password else [])))

/-- What a server learns about the client. -/
def connectOf (c : Config) : Connect where
  protocolLevel := 4
  cleanSession := true
  keepAlive := c.keepalive.toNat
  clientId := c.clientId
  will := none
  userName := if c.useAuth then some c.username else none
  password := if c.useAuth then some c.password else none

theorem connectPacket_eq {c : Config} (hlen : (connectPacket c).length < 130) :
    (connectFields c).length < 128 ∧
      connectPacket c =
        0x10 :: (encodeRemainingLength (connectFields c).length ++ connectFields c) := by
  have hauth : (if c.useAuth then encodeString c.username ++ encodeString c.password else []) =
      (if c.useAuth then encodeString c.username else []) ++
        if c.useAuth then encodeString c.password else [] := by
    split_ifs <;> rfl
  have hremaining : (connectFields c).length = 10 + (2 + c.clientId.length) +
      (if c.useAuth then encodeString c.username ++ encodeString c.password else []).length := by
    rw [hauth]
    simp [connectFields, encodeString, bigEndian, ascii]
    omega
  have hlength : (connectPacket c).length = (connectFields c).length + 2 := by
    simp [connectPacket, hremaining, encodeString, bigEndian, ascii]
    omega
  have hsmall : (connectFields c).length < 128 := by omega
  refine ⟨hsmall, ?_⟩
  rw [encodeRemainingLength, if_pos hsmall, hremaining]
  simp only [connectPacket]
  rw [Nat.mod_eq_of_lt (hremaining ▸ hsmall), hauth]
  simp [connectFields, connectFlags, kMQTTProtocolLevel]

theorem decodes_connectBody {c : Config} (hlen : (connectFields c).length < 128)
    (hclientId : 0 ∉ c.clientId) (husername : 0 ∉ c.username) :
    Decodes connectBody (connectFields c) (.connect (connectOf c)) := by
  have hname : Decodes stringField (encodeString (ascii "MQTT")) (ascii "MQTT") :=
    decodes_stringField (by decide) (by decide)
  have hkeepalive : Decodes word (bigEndian c.keepalive.toNat) c.keepalive.toNat :=
    decodes_word c.keepalive.toNat_lt
  have hid : Decodes stringField (encodeString c.clientId) c.clientId := by
    refine decodes_stringField ?_ hclientId
    simp [connectFields, encodeString] at hlen
    omega
  obtain ⟨hlegal, hclean, hwill, huserName, hpassword⟩ := connectFlags_spec c.useAuth
  have huser : Decodes (optional (flag (connectFlags c.useAuth) 7) stringField)
      (if c.useAuth then encodeString c.username else [])
      (if c.useAuth then some c.username else none) := by
    rw [huserName]
    refine .optional fun hauth => decodes_stringField ?_ husername
    simp [connectFields, hauth, encodeString] at hlen
    omega
  have hpass : Decodes (optional (flag (connectFlags c.useAuth) 6) binaryData)
      (if c.useAuth then encodeString c.password else [])
      (if c.useAuth then some c.password else none) := by
    rw [hpassword]
    refine .optional fun hauth => decodes_binaryData ?_
    simp [connectFields, hauth, encodeString] at hlen
    omega
  have hnowill : Decodes (optional (flag (connectFlags c.useAuth) 2)
      (willField (connectFlags c.useAuth))) [] none := by
    rw [hwill]
    exact .absent _
  have hbody : Decodes connectBody (connectFields c)
      (.connect { connectOf c with cleanSession := flag (connectFlags c.useAuth) 1 }) :=
    .bind hname <| .next <| .check rfl <| .next <| .check hlegal <| .bind hkeepalive <|
      .bind hid <| .check (by simp [hclean]) <| .skip hnowill <| .bind huser <| .last hpass _
  rwa [hclean] at hbody

/-- The CONNECT of a client, with user name and password exactly if they are used. -/
theorem decode_connectPacket {c : Config} (hlen : (connectPacket c).length < 130)
    (hclientId : 0 ∉ c.clientId) (husername : 0 ∉ c.username) :
    decode (connectPacket c) = some (.connect (connectOf c)) := by
  obtain ⟨hsmall, hpacket⟩ := connectPacket_eq hlen
  rw [hpacket]
  exact decode_of_body (by omega) (Decodes.complete
    (.check rfl (decodes_connectBody hsmall hclientId husername)))

/-- The body of a SUBSCRIBE for one filter, with QoS 0. -/
def subscribeFields (packetId : UInt16) (topic : List UInt8) : List UInt8 :=
  bigEndian packetId.toNat ++ (encodeString topic ++ [0])

theorem subscribePacket_eq (packetId : UInt16) (topic : List UInt8) :
    (subscribeFields packetId topic).length = topic.length + 5 ∧
      subscribePacket packetId topic = 0x82 ::
        (encodeRemainingLength (subscribeFields packetId topic).length ++
          subscribeFields packetId topic) := by
  have hlength : (subscribeFields packetId topic).length = 2 + 2 + topic.length + 1 := by
    simp [subscribeFields]
    omega
  refine ⟨by omega, ?_⟩
  rw [hlength]
  simp [subscribePacket, subscribeFields]

theorem complete_subscribeBody (packetId : UInt16) {topic : List UInt8} {n : Nat}
    (hlen : topic.length < 65536) (hne : topic ≠ []) (hnul : 0 ∉ topic) (hn : 1 ≤ n) :
    complete (subscribeBody n) (subscribeFields packetId topic) =
      some (.subscribe packetId.toNat [(topic, 0)]) := by
  have hfilter : Decodes filterField (encodeString topic ++ [0]) (topic, 0) :=
    .bind (decodes_stringField hlen hnul) <| .check (by simpa using hne) <| .next <|
      .check rfl <| .pure _
  have hfilters : untilEnd filterField n (encodeString topic ++ [0]) =
      some ([(topic, 0)], []) := by
    have hitem : ∀ f ∈ [(topic, (0 : UInt8))],
        Decodes filterField (encodeString f.1 ++ [f.2]) f ∧ encodeString f.1 ++ [f.2] ≠ [] := by
      simpa using hfilter
    have hall := untilEnd_encodings _ hitem (show [(topic, (0 : UInt8))].length ≤ n from hn)
    simpa using hall
  refine Decodes.thenComplete (decodes_word packetId.toNat_lt) ?_
  rw [complete, bind_apply, hfilters]
  rfl

/-- The SUBSCRIBE of a client asks for one filter. -/
theorem decode_subscribePacket (packetId : UInt16) {topic : List UInt8}
    (hlen : topic.length < 16379) (hne : topic ≠ []) (hnul : 0 ∉ topic) :
    decode (subscribePacket packetId topic) =
      some (.subscribe packetId.toNat [(topic, 0)]) := by
  obtain ⟨hlength, hpacket⟩ := subscribePacket_eq packetId topic
  rw [hpacket]
  exact decode_of_body (by omega)
    (complete_subscribeBody packetId (by omega) hne hnul (by omega))

/-- The body of a PUBLISH with QoS 0 has no packet id. -/
def publishFields (topic payload : List UInt8) : List UInt8 := encodeString topic ++ payload

theorem publishPacket_eq (topic payload : List UInt8) :
    (publishFields topic payload).length = 2 + topic.length + payload.length ∧
      publishPacket topic payload = 0x30 ::
        (encodeRemainingLength (publishFields topic payload).length ++
          publishFields topic payload) := by
  have hlength : (publishFields topic payload).length = 2 + topic.length + payload.length := by
    simp [publishFields]
  refine ⟨hlength, ?_⟩
  rw [hlength]
  simp [publishPacket, publishFields]

theorem complete_publishBody {topic : List UInt8} (payload : List UInt8)
    (hlen : topic.length < 65536) (hnul : 0 ∉ topic) :
    complete (publishBody 0x30) (publishFields topic payload) =
      some (.publish false false 0 topic none payload) := by
  exact complete_check rfl (Decodes.thenComplete (decodes_stringField hlen hnul) rfl)

/-- The PUBLISH of a client, with what follows the topic as its payload. -/
theorem decode_publishPacket {topic payload : List UInt8}
    (hlen : 2 + topic.length + payload.length < 16384) (hnul : 0 ∉ topic) :
    decode (publishPacket topic payload) =
      some (.publish false false 0 topic none payload) := by
  obtain ⟨hlength, hpacket⟩ := publishPacket_eq topic payload
  rw [hpacket]
  exact decode_of_body (by omega) (complete_publishBody payload (by omega) hnul)

end SmartBell.MQTT
