import SmartBell.MQTT.SendBuffer
import SmartBell.MQTT.Sessions

/-!
# What the send buffer has room for

`publish`, `subscribe` and `send_connect_packet` together with the buffer in which they
build their packets. Only `publish` looks at its size, in 16-bit arithmetic. For each of
them: exactly which arguments it has room for, and that the session is then that of the
client without a buffer.
-/
namespace SmartBell.MQTT
open Common MinimalMQTT SendBuffer

/-! ## Methods with their buffer -/

namespace Buffered
variable {κ : Type}

/-- `publish`; the result, and the buffer in the end. -/
def publish (d : Driver) (topic payload : List UInt8) (sendBuffer : Vector UInt8 64) :
    Attempt (Session κ) (Bool × SendBuffer) := do
  let s ← .read
  if s.mqtt.state ≠ .connected then pure (false, .start sendBuffer)
  else
    let (fits, b) := buildPublish topic payload sendBuffer
    if !fits then pure (false, b)
    else do
      let success ← io (socketSend d b.written)
      if success then do
        let now ← io millis
        update (·.touched now)
        pure (true, b)
      else pure (false, b)

/-- `subscribe`. -/
def subscribe (d : Driver) (topic : List UInt8) (callback : Option κ)
    (sendBuffer : Vector UInt8 64) : Attempt (Session κ) (Bool × SendBuffer) := do
  let s ← .read
  if s.mqtt.state ≠ .connected ∨ callback.isNone then pure (false, .start sendBuffer)
  else match s.mqtt.freeSlot with
    | none => pure (false, .start sendBuffer)
    | some slot => do
      let b := buildSubscribe s.mqtt.packetId topic sendBuffer
      update fun m => { m with packetId := m.packetId + 1 }
      let success ← io (socketSend d b.written)
      if success then do
        let now ← io millis
        update fun m => (m.subscribed slot topic callback).touched now
        pure (true, b)
      else pure (false, b)

/-- `send_connect_packet`. -/
def sendConnectPacket (d : Driver) (sendBuffer : Vector UInt8 64) :
    Attempt (Session κ) (Bool × SendBuffer) := do
  let s ← .read
  let b := buildConnect s.mqtt.config sendBuffer
  let success ← io (socketSend d b.written)
  pure (success, b)

end Buffered

/-! ## Where the writes are -/

section Inside
variable {b : SendBuffer}

namespace SendBuffer

@[simp] theorem push_pos (a : UInt8) : (push b a).pos = u16 (b.pos + 1) := rfl

@[simp] theorem push_inside (a : UInt8) : (push b a).Inside ↔ b.Inside ∧ b.pos < 64 :=
  WriteBuffer.inside_put a

@[simp] theorem copy_pos (s : List UInt8) : (copy b s).pos = u16 (b.pos + s.length) := rfl

@[simp] theorem copy_inside (s : List UInt8) :
    (copy b s).Inside ↔ b.Inside ∧ (s = [] ∨ b.pos + s.length ≤ 64) :=
  WriteBuffer.inside_putAll s

theorem u16_add_u16 (m n : Nat) : u16 (u16 m + n) = u16 (m + n) := by
  unfold u16
  omega

@[simp] theorem putWord_pos (n : Nat) : (putWord b n).pos = u16 (b.pos + 2) := by
  rw [putWord, push_pos, push_pos, u16_add_u16]

@[simp] theorem putWord_inside (n : Nat) :
    (putWord b n).Inside ↔ b.Inside ∧ b.pos + 2 ≤ 64 := by
  rw [putWord, push_inside, push_inside, push_pos, and_assoc]
  refine and_congr_right fun _ => ?_
  unfold u16
  omega

theorem putString_pos (s : List UInt8) :
    (putString b s).pos = u16 (b.pos + (2 + u16 s.length)) := by
  have hlen : (s.take (u16 s.length)).length = u16 s.length :=
    List.length_take_of_le (Nat.mod_le _ _)
  rw [putString, copy_pos, putWord_pos, hlen, u16_add_u16, Nat.add_assoc]

theorem putString_inside (s : List UInt8) :
    (putString b s).Inside ↔ b.Inside ∧ b.pos + (2 + u16 s.length) ≤ 64 := by
  have hlen : (s.take (u16 s.length)).length = u16 s.length :=
    List.length_take_of_le (Nat.mod_le _ _)
  rw [putString, copy_inside, putWord_inside, putWord_pos, hlen, and_assoc,
    ← List.length_eq_zero_iff, hlen]
  refine and_congr_right fun _ => ?_
  generalize u16 s.length = len
  unfold u16
  omega

theorem putRemainingLength_pos (remaining : Nat) : (putRemainingLength b remaining).pos =
    u16 (b.pos + if remaining < 128 then 1 else 2) := by
  unfold putRemainingLength
  split_ifs
  · rw [push_pos]
  · rw [push_pos, push_pos, u16_add_u16]

theorem putRemainingLength_inside (remaining : Nat) : (putRemainingLength b remaining).Inside ↔
    b.Inside ∧ b.pos + (if remaining < 128 then 1 else 2) ≤ 64 := by
  unfold putRemainingLength
  split_ifs
  · rw [push_inside]
    rfl
  · rw [push_inside, push_inside, push_pos, and_assoc]
    refine and_congr_right fun _ => ?_
    unfold u16
    omega

end SendBuffer

/-- The writes of `subscribe` stay inside up to 57 characters. -/
theorem buildSubscribe_inside (packetId : UInt16) (topic : List UInt8)
    (sendBuffer : Vector UInt8 64) :
    (buildSubscribe packetId topic sendBuffer).Inside ↔ u16 topic.length ≤ 57 := by
  simp only [buildSubscribe, push_inside, putString_inside, putString_pos, putWord_inside,
    putWord_pos, putRemainingLength_inside, putRemainingLength_pos, push_pos,
    WriteBuffer.start_pos, WriteBuffer.inside_start, true_and]
  have hlen : u16 topic.length < 65536 := Nat.mod_lt _ (by decide)
  generalize u16 topic.length = len at hlen ⊢
  unfold u16
  split_ifs <;> omega

/-- A CONNECT is ten bytes up to the flags, and then the keepalive and the strings. -/
theorem buildConnect_eq (c : Config) (sendBuffer : Vector UInt8 64) :
    ∃ head : List UInt8, head.length = 10 ∧ buildConnect c sendBuffer =
      let b := putString (putWord (copy (.start sendBuffer) head) c.keepalive.toNat) c.clientId
      if c.useAuth then putString (putString b c.username) c.password else b :=
  ⟨[0x10, _, 0, 4, chr 'M', chr 'Q', chr 'T', chr 'T', kMQTTProtocolLevel, _], rfl, rfl⟩

/-- The writes of `send_connect_packet` stay inside if its strings are short. -/
theorem buildConnect_inside (c : Config) (sendBuffer : Vector UInt8 64)
    (hclientId : c.clientId.length ≤ 23) (husername : c.username.length ≤ 23)
    (hpassword : c.password.length ≤ 23) :
    (buildConnect c sendBuffer).Inside ↔
      (c.useAuth = true → c.clientId.length + c.username.length + c.password.length ≤ 46) := by
  obtain ⟨head, hhead, hbuild⟩ := buildConnect_eq c sendBuffer
  have hsmall {n : Nat} (hn : n ≤ 23) : u16 n = n := u16_of_lt (by omega)
  have hne : head ≠ [] := by
    rintro rfl
    cases hhead
  rw [hbuild]
  cases hauth : c.useAuth with
  | false =>
    simp only [Bool.false_eq_true, if_false, putString_inside, putWord_inside, putWord_pos,
      copy_inside, copy_pos, hhead, hne, WriteBuffer.start_pos, WriteBuffer.inside_start,
      hsmall hclientId, true_and, false_or, false_imp_iff, iff_true]
    unfold u16
    omega
  | true =>
    simp only [if_true, putString_inside, putString_pos, putWord_inside, putWord_pos,
      copy_inside, copy_pos, hhead, hne, WriteBuffer.start_pos, WriteBuffer.inside_start,
      hsmall hclientId, hsmall husername, hsmall hpassword, true_and, false_or, forall_const]
    unfold u16
    omega

end Inside

/-! ## CONNECT -/

/-- Each string ends inside of its array. -/
structure Config.Terminated (c : Config) : Prop where
  clientId : c.clientId.length < kMaxClientIdLength ∧ 0 ∉ c.clientId
  username : c.username.length < kMaxUsernameLength ∧ 0 ∉ c.username
  password : c.password.length < kMaxPasswordLength ∧ 0 ∉ c.password

section Connect
variable {κ : Type} {d : Driver}

theorem sendConnectPacket_eq (sendBuffer : Vector UInt8 64) (s : Session κ) :
    let b := buildConnect s.mqtt.config sendBuffer
    Buffered.sendConnectPacket d sendBuffer s =
      (some (decide (d.send s.chip.calls b.written = b.written.length), b),
        ⟨s.mqtt, s.chip.sending d b.written⟩) := rfl

/-- One packet is handed over, built inside of the buffer, and a server reads in it what the client
was configured with. -/
def Buffered.ConnectExact (d : Driver) (s : Session κ) (sendBuffer : Vector UInt8 64) : Prop :=
  ∃ result b s', sendConnectPacket d sendBuffer s = (some (result, b), s') ∧
    (∃ n, s'.chip.sent = (b.written, n) :: s.chip.sent) ∧
    b.Carries (.connect (connectOf s.mqtt.config))

theorem Buffered.ConnectExact.inside {s : Session κ} {sendBuffer : Vector UInt8 64}
    (h : ConnectExact d s sendBuffer) : (buildConnect s.mqtt.config sendBuffer).Inside := by
  obtain ⟨result, b, s', hrun, _, hcarries⟩ := h
  rw [sendConnectPacket_eq] at hrun
  obtain ⟨_, rfl⟩ := Prod.mk.inj (Option.some.inj (Prod.mk.inj hrun).1)
  exact hcarries.inside

theorem connectPacket_length (c : Config) : (connectPacket c).length =
    14 + c.clientId.length +
      if c.useAuth then 4 + (c.username.length + c.password.length) else 0 := by
  cases hauth : c.useAuth <;> simp [connectPacket, hauth, ascii] <;> omega

theorem sendConnectPacket_exact_iff (d : Driver) (s : Session κ) (sendBuffer : Vector UInt8 64)
    (hstrings : s.mqtt.config.Terminated) :
    Buffered.ConnectExact d s sendBuffer ↔
      (s.mqtt.config.useAuth = true → s.mqtt.config.clientId.length +
        s.mqtt.config.username.length + s.mqtt.config.password.length ≤ 46) := by
  obtain ⟨⟨hid, hidNul⟩, ⟨huser, huserNul⟩, ⟨hpass, _⟩⟩ := hstrings
  have hinside := buildConnect_inside s.mqtt.config sendBuffer (Nat.le_of_lt_succ hid)
    (Nat.le_of_lt_succ huser) (Nat.le_of_lt_succ hpass)
  constructor
  · intro hexact
    exact hinside.mp hexact.inside
  · intro hshort
    have hfits : (connectPacket s.mqtt.config).length ≤ 64 := by
      rw [connectPacket_length]
      unfold kMaxClientIdLength at hid
      split_ifs with hauth
      · have hsum := hshort hauth
        omega
      · omega
    exact ⟨_, _, _, sendConnectPacket_eq sendBuffer s, ⟨_, rfl⟩,
      buildConnect_carries sendBuffer hfits hidNul huserNul⟩

/-- A CONNECT that fits is the one that the client without a buffer sends. -/
theorem sendConnectPacket_refines (sendBuffer : Vector UInt8 64) {s : Session κ}
    (hfits : (connectPacket s.mqtt.config).length ≤ 64) :
    ((Buffered.sendConnectPacket d sendBuffer s).1.map Prod.fst,
      (Buffered.sendConnectPacket d sendBuffer s).2) =
      io (socketSend d (connectPacket s.mqtt.config)) s := by
  rw [sendConnectPacket_eq, (buildConnect_holds sendBuffer hfits).written]
  rfl

/-- A client with user name and password, each of its strings of `n` characters. -/
def authSession (n : Nat) : Session Unit :=
  let text := List.replicate n (chr 'a')
  ⟨{ MinimalMQTT.start with
      config := { brokerConfig with
        clientId := text, username := text, password := text, useAuth := true } },
    ⟨0, 0, [], [], []⟩⟩

theorem sendConnectPacket_exact_short :
    Buffered.ConnectExact (workingDriver 0) (authSession 15) (Vector.replicate 64 0) := by
  have hstrings : (authSession 15).mqtt.config.Terminated :=
    ⟨by decide, by decide, by decide⟩
  exact (sendConnectPacket_exact_iff (workingDriver 0) (authSession 15) _ hstrings).mpr (by decide)

/-- Strings that fill their arrays do not fit into the buffer. -/
theorem not_sendConnectPacket_exact :
    (authSession 23).mqtt.config.Terminated ∧
      ¬Buffered.ConnectExact (workingDriver 0) (authSession 23) (Vector.replicate 64 0) := by
  refine ⟨⟨by decide, by decide, by decide⟩, fun hexact => ?_⟩
  have hsum := (buildConnect_inside (authSession 23).mqtt.config (Vector.replicate 64 0)
    (by decide) (by decide) (by decide)).mp hexact.inside
  exact absurd (hsum rfl) (by decide)

end Connect

/-! ## SUBSCRIBE -/

section Subscribe
variable {κ : Type} {d : Driver}

theorem buffered_subscribe_refused {s : Session κ} {callback : Option κ} (topic : List UInt8)
    (sendBuffer : Vector UInt8 64)
    (h : s.mqtt.state ≠ .connected ∨ callback = none ∨ s.mqtt.freeSlot = none) :
    Buffered.subscribe d topic callback sendBuffer s =
      (some (false, .start sendBuffer), s) := by
  simp only [Buffered.subscribe, Attempt.bind_apply, Attempt.read_apply, Attempt.ite_apply,
    Option.isNone_iff_eq_none]
  split_ifs with hguard
  · rfl
  · have hslot : s.mqtt.freeSlot = none := by tauto
    rw [hslot]
    rfl

theorem buffered_subscribe_eq {s : Session κ} {slot : Fin 2} (topic : List UInt8) (callback : κ)
    (sendBuffer : Vector UInt8 64) (hstate : s.mqtt.state = .connected)
    (hslot : s.mqtt.freeSlot = some slot) :
    let b := buildSubscribe s.mqtt.packetId topic sendBuffer
    let m := { s.mqtt with packetId := s.mqtt.packetId + 1 }
    Buffered.subscribe d topic (some callback) sendBuffer s =
      if d.send s.chip.calls b.written = b.written.length then
        (some (true, b), ⟨(m.subscribed slot topic (some callback)).touched
          (s.chip.sending d b.written).millis, s.chip.sending d b.written⟩)
      else (some (false, b), ⟨m, s.chip.sending d b.written⟩) := by
  simp only [Buffered.subscribe, Attempt.bind_apply, Attempt.read_apply, hstate, ne_eq,
    not_true_eq_false, Option.isNone_some, Bool.false_eq_true, or_self, if_false, hslot,
    update_apply, io_apply, socketSend_apply]
  by_cases htaken : d.send s.chip.calls (buildSubscribe s.mqtt.packetId topic sendBuffer).written =
      (buildSubscribe s.mqtt.packetId topic sendBuffer).written.length
  · simp only [htaken, decide_true, if_true]
    rfl
  · simp only [htaken, decide_false, if_false]
    rfl

/-- Either nothing comes of it, or one packet is handed over that is built inside of the buffer and
that a server reads as a SUBSCRIBE for the topic; and true means that it is stored. -/
def Buffered.SubscribeExact (s : Session κ) (topic : List UInt8) (callback : Option κ)
    (sendBuffer : Vector UInt8 64) : Prop :=
  ∀ d, ∃ result b s', subscribe d topic callback sendBuffer s = (some (result, b), s') ∧
    ((result = false ∧ s'.mqtt.subscriptions = s.mqtt.subscriptions ∧ b.Inside) ∨
      ((∃ n, s'.chip.sent = (b.written, n) :: s.chip.sent) ∧ b.written.length ≤ 64 ∧
        (∃ packetId, b.Carries (.subscribe packetId [(topic, 0)])) ∧
        (result = true →
          ∃ i, (s'.mqtt.slot i).active = true ∧ (s'.mqtt.slot i).callback = callback)))

/-- Of a topic of 65536 characters or more only the rest is written. -/
theorem buildSubscribe_take (packetId : UInt16) (topic : List UInt8)
    (sendBuffer : Vector UInt8 64) : buildSubscribe packetId topic sendBuffer =
      buildSubscribe packetId (topic.take (u16 topic.length)) sendBuffer := by
  have hlen : (topic.take (u16 topic.length)).length = u16 topic.length :=
    List.length_take_of_le (Nat.mod_le _ _)
  have hsame : u16 (u16 topic.length) = u16 topic.length := Nat.mod_mod _ _
  simp only [buildSubscribe, putString, hlen, hsame, List.take_take, Nat.min_self]

/-- A server does not take a SUBSCRIBE without a topic. -/
theorem decode_subscribePacket_nil (packetId : UInt16) :
    decode (subscribePacket packetId []) = none := rfl

/-- What is built inside of the buffer for a topic that is longer is not a SUBSCRIBE for it. -/
theorem not_buildSubscribe_carries (packetId : UInt16) {topic : List UInt8}
    (sendBuffer : Vector UInt8 64) (hlong : 57 < topic.length) (hnul : 0 ∉ topic) (id : Nat) :
    ¬(buildSubscribe packetId topic sendBuffer).Carries (.subscribe id [(topic, 0)]) := by
  intro hcarries
  have hshort := (buildSubscribe_inside packetId topic sendBuffer).mp hcarries.inside
  have hlen : (topic.take (u16 topic.length)).length = u16 topic.length :=
    List.length_take_of_le (Nat.mod_le _ _)
  have hdecodes := hcarries.decodes
  rw [buildSubscribe_take] at hdecodes
  generalize htaken : topic.take (u16 topic.length) = taken at hlen hdecodes
  have hpacket := subscribePacket_length packetId (show taken.length + 5 < 128 by omega)
  rw [(buildSubscribe_holds packetId taken sendBuffer (by omega)).written] at hdecodes
  by_cases hempty : taken = []
  · rw [hempty, decode_subscribePacket_nil] at hdecodes
    cases hdecodes
  · have htakenNul : 0 ∉ taken := fun h => hnul (List.mem_of_mem_take (htaken ▸ h))
    rw [decode_subscribePacket packetId (by omega) hempty htakenNul] at hdecodes
    obtain ⟨_, rfl⟩ : packetId.toNat = id ∧ taken = topic := by
      simpa using Option.some.inj hdecodes
    omega

theorem subscribe_exact_iff (s : Session κ) {slot : Fin 2} {topic : List UInt8}
    (callback : Option κ) (sendBuffer : Vector UInt8 64) (hstate : s.mqtt.state = .connected)
    (hslot : s.mqtt.freeSlot = some slot) (hne : topic ≠ []) (hnul : 0 ∉ topic) :
    Buffered.SubscribeExact s topic callback sendBuffer ↔
      callback = none ∨ topic.length ≤ 57 := by
  cases callback with
  | none =>
    have hrun (d : Driver) : Buffered.subscribe d topic none sendBuffer s =
        (some (false, .start sendBuffer), s) :=
      buffered_subscribe_refused topic sendBuffer (Or.inr (Or.inl rfl))
    refine iff_of_true (fun d => ⟨false, _, s, hrun d, Or.inl ⟨rfl, rfl, ?_⟩⟩) (Or.inl rfl)
    exact WriteBuffer.inside_start sendBuffer
  | some callback =>
    have hrun (d : Driver) :=
      buffered_subscribe_eq (d := d) topic callback sendBuffer hstate hslot
    simp only [reduceCtorEq, false_or]
    constructor
    · intro hexact
      by_contra hlong
      -- the packet is taken
      obtain ⟨result, b, s', hrun', houtcome⟩ := hexact (workingDriver 0)
      have htaken (n : Nat) (data : List UInt8) :
          (workingDriver 0).send n data = data.length := rfl
      rw [hrun (workingDriver 0), if_pos (htaken _ _)] at hrun'
      obtain ⟨rfl, rfl⟩ := Prod.mk.inj (Option.some.inj (Prod.mk.inj hrun').1)
      rcases houtcome with ⟨hfalse, _⟩ | ⟨_, _, ⟨id, hcarries⟩, _⟩
      · cases hfalse
      · exact not_buildSubscribe_carries _ sendBuffer (by omega) hnul id hcarries
    · intro hfits d
      have hcarries := buildSubscribe_carries s.mqtt.packetId sendBuffer hfits hne hnul
      have hlength : (buildSubscribe s.mqtt.packetId topic sendBuffer).written.length ≤ 64 := by
        simp [WriteBuffer.written]
      have hdone := hrun d
      simp only at hdone
      split_ifs at hdone
      · refine ⟨true, _, _, hdone, Or.inr ⟨⟨_, rfl⟩, hlength, ⟨_, hcarries⟩, fun _ => ?_⟩⟩
        refine ⟨slot, ?_⟩
        rw [touched_slot, subscribed_slot]
        exact ⟨rfl, rfl⟩
      · exact ⟨false, _, _, hdone, Or.inr ⟨⟨_, rfl⟩, hlength, ⟨_, hcarries⟩,
          fun h => absurd h Bool.false_ne_true⟩⟩

/-- A SUBSCRIBE that fits is the one that the client without a buffer sends. -/
theorem subscribe_refines {s : Session κ} {topic : List UInt8} (callback : Option κ)
    (sendBuffer : Vector UInt8 64) (hfits : topic.length ≤ 57) :
    ((Buffered.subscribe d topic callback sendBuffer s).1.map Prod.fst,
      (Buffered.subscribe d topic callback sendBuffer s).2) =
      MinimalMQTT.subscribe d topic callback s := by
  by_cases hrefused : s.mqtt.state ≠ .connected ∨ callback = none ∨ s.mqtt.freeSlot = none
  · rw [buffered_subscribe_refused topic sendBuffer hrefused, subscribe_refused hrefused]
    rfl
  push Not at hrefused
  obtain ⟨hstate, hcallback, hslot⟩ := hrefused
  obtain ⟨registered, rfl⟩ := Option.ne_none_iff_exists'.mp hcallback
  obtain ⟨slot, hslot⟩ := Option.ne_none_iff_exists'.mp hslot
  have hpacket := subscribePacket_length s.mqtt.packetId (show topic.length + 5 < 128 by omega)
  have hwritten := (buildSubscribe_holds s.mqtt.packetId topic sendBuffer (by omega)).written
  rw [buffered_subscribe_eq topic registered sendBuffer hstate hslot,
    subscribe_eq topic registered hstate hslot, hwritten]
  split_ifs <;> rfl

/-- A client in a session without subscriptions. -/
def openedSession : Session Unit :=
  ⟨{ MinimalMQTT.start with state := .connected }, ⟨0, 0, [], [], []⟩⟩

theorem openedSession_freeSlot : openedSession.mqtt.freeSlot = some 0 := rfl

theorem subscribe_exact_gong :
    Buffered.SubscribeExact openedSession (ascii "gong/1") (some ()) (Vector.replicate 64 0) :=
  (subscribe_exact_iff openedSession (some ()) _ rfl openedSession_freeSlot (by decide)
    (by decide)).mpr (Or.inr (by decide))

/-- A topic of 58 characters is one too long. -/
theorem not_subscribe_exact : ¬Buffered.SubscribeExact openedSession (List.replicate 58 (chr 'a'))
    (some ()) (Vector.replicate 64 0) := by
  intro hexact
  obtain ⟨result, b, s', hrun, houtcome⟩ := hexact (workingDriver 0)
  have htaken (n : Nat) (data : List UInt8) : (workingDriver 0).send n data = data.length := rfl
  rw [buffered_subscribe_eq _ () _ rfl openedSession_freeSlot, if_pos (htaken _ _)] at hrun
  obtain ⟨rfl, rfl⟩ := Prod.mk.inj (Option.some.inj (Prod.mk.inj hrun).1)
  rcases houtcome with ⟨hfalse, _⟩ | ⟨_, _, ⟨id, hcarries⟩, _⟩
  · cases hfalse
  · exact not_buildSubscribe_carries _ _ (by decide) (by decide) id hcarries

end Subscribe

/-! ## PUBLISH -/

section Publish
variable {κ : Type} {d : Driver} {s : Session κ} {topic payload : List UInt8}

/-- The size check sees the size of the packet in 16 bits. -/
theorem publish_guard (topic payload : List UInt8) :
    u16 (u16 (2 + u16 topic.length + payload.length) + 2) =
      (2 + topic.length + payload.length + 2) % 65536 := by
  unfold u16
  omega

theorem buildPublish_refused (sendBuffer : Vector UInt8 64)
    (h : 64 < (2 + topic.length + payload.length + 2) % 65536) :
    buildPublish topic payload sendBuffer = (false, push (.start sendBuffer) 0x30) := by
  simp only [buildPublish, publish_guard, kSendBufferSize, gt_iff_lt, h, if_true]

theorem buildPublish_accepted (sendBuffer : Vector UInt8 64)
    (h : (2 + topic.length + payload.length + 2) % 65536 ≤ 64) :
    (buildPublish topic payload sendBuffer).1 = true := by
  simp only [buildPublish, publish_guard, kSendBufferSize, gt_iff_lt, not_lt.mpr h, if_false]

/-- A packet that is too large leaves the session alone. -/
theorem buffered_publish_refused {b : SendBuffer} {sendBuffer : Vector UInt8 64}
    (hstate : s.mqtt.state = .connected)
    (hbuild : buildPublish topic payload sendBuffer = (false, b)) :
    Buffered.publish d topic payload sendBuffer s = (some (false, b), s) := by
  simp only [Buffered.publish, Attempt.bind_apply, Attempt.read_apply, hstate, ne_eq,
    not_true_eq_false, if_false, hbuild, Bool.not_false, if_true, Attempt.pure_apply]

/-- Any other is handed to the socket. -/
theorem buffered_publish_eq {b : SendBuffer} {sendBuffer : Vector UInt8 64}
    (hstate : s.mqtt.state = .connected)
    (hbuild : buildPublish topic payload sendBuffer = (true, b)) :
    Buffered.publish d topic payload sendBuffer s =
      if d.send s.chip.calls b.written = b.written.length then
        (some (true, b), ⟨s.mqtt.touched (s.chip.sending d b.written).millis,
          s.chip.sending d b.written⟩)
      else (some (false, b), ⟨s.mqtt, s.chip.sending d b.written⟩) := by
  simp only [Buffered.publish, Attempt.bind_apply, Attempt.read_apply, hstate, ne_eq,
    not_true_eq_false, if_false, hbuild, Bool.not_true, Bool.false_eq_true, io_apply,
    socketSend_apply]
  by_cases htaken : d.send s.chip.calls b.written = b.written.length
  · simp only [htaken, decide_true, if_true]
    rfl
  · simp only [htaken, decide_false, if_false]
    rfl

/-- What is too large for the buffer is refused, and nothing is sent; anything else is handed over
as one packet that is built inside of the buffer and that a server reads as this PUBLISH. -/
def Buffered.PublishExact (d : Driver) (s : Session κ) (topic payload : List UInt8)
    (sendBuffer : Vector UInt8 64) : Prop :=
  ∃ result b s', publish d topic payload sendBuffer s = (some (result, b), s') ∧
    if 2 + topic.length + payload.length > 62 then
      result = false ∧ s'.chip.sent = s.chip.sent ∧ b.Inside
    else (∃ n, s'.chip.sent = (b.written, n) :: s.chip.sent) ∧ b.written.length ≤ 64 ∧
      b.Carries (.publish false false 0 topic none payload)

/-- The PUBLISH that fits. -/
theorem buildPublish_carries {topic : List UInt8} (payload : List UInt8)
    (sendBuffer : Vector UInt8 64) (hfits : 2 + topic.length + payload.length ≤ 62)
    (hnul : 0 ∉ topic) : ∃ b, buildPublish topic payload sendBuffer = (true, b) ∧
      b.written = publishPacket topic payload ∧
      b.Carries (.publish false false 0 topic none payload) := by
  obtain ⟨b, hbuild, hholds⟩ := buildPublish_holds topic payload sendBuffer hfits
  obtain ⟨hlength, hpacket⟩ := publishPacket_eq topic payload
  refine ⟨b, hbuild, hholds.written, hholds.writes, ?_, ?_⟩
  · rw [hholds.written, hpacket]
    exact remainingLength_byte 0x30 (by omega)
  · rw [hholds.written]
    exact decode_publishPacket (by omega) hnul

/-- Whatever passes the size check is handed over. -/
theorem buffered_publish_sends (sendBuffer : Vector UInt8 64) (hstate : s.mqtt.state = .connected)
    (h : (2 + topic.length + payload.length + 2) % 65536 ≤ 64) :
    ∃ result b s' n, Buffered.publish d topic payload sendBuffer s = (some (result, b), s') ∧
      buildPublish topic payload sendBuffer = (true, b) ∧
      s'.chip.sent = (b.written, n) :: s.chip.sent := by
  rcases hbuild : buildPublish topic payload sendBuffer with ⟨fits, b⟩
  have haccepted := buildPublish_accepted sendBuffer h
  rw [hbuild] at haccepted
  obtain rfl : fits = true := haccepted
  rw [buffered_publish_eq hstate hbuild]
  split_ifs
  · exact ⟨_, b, _, _, rfl, rfl, rfl⟩
  · exact ⟨_, b, _, _, rfl, rfl, rfl⟩

/-- A packet that is too large and passes the size check is handed over nevertheless. -/
theorem not_publish_exact_of_wrap (d : Driver) (sendBuffer : Vector UInt8 64)
    (hstate : s.mqtt.state = .connected) (hlarge : 62 < 2 + topic.length + payload.length)
    (hguard : (2 + topic.length + payload.length + 2) % 65536 ≤ 64) :
    ¬Buffered.PublishExact d s topic payload sendBuffer := by
  rintro ⟨result, b, s', hrun, hexact⟩
  obtain ⟨result', b', s'', n, hrun', _, hsent⟩ :=
    buffered_publish_sends (d := d) sendBuffer hstate hguard
  obtain rfl : s'' = s' := (Prod.mk.inj (hrun'.symm.trans hrun)).2
  rw [if_pos hlarge] at hexact
  have hsame := hexact.2.1
  rw [hsent] at hsame
  simpa using congrArg List.length hsame

/-- `publish` is exact unless a size that does not fit wraps to one that does. -/
theorem publish_exact_iff (d : Driver) (s : Session κ) (topic payload : List UInt8)
    (sendBuffer : Vector UInt8 64) (hstate : s.mqtt.state = .connected) (hnul : 0 ∉ topic) :
    Buffered.PublishExact d s topic payload sendBuffer ↔
      2 + topic.length + payload.length ≤ 62 ∨
        64 < (2 + topic.length + payload.length + 2) % 65536 := by
  constructor
  · intro hexact
    by_contra! hwraps
    exact not_publish_exact_of_wrap d sendBuffer hstate hwraps.1 hwraps.2 hexact
  · rintro (hfits | hguard)
    · obtain ⟨b, hbuild, _, hcarries⟩ := buildPublish_carries payload sendBuffer hfits hnul
      obtain ⟨result, b', s', n, hrun, hbuild', hsent⟩ :=
        buffered_publish_sends (d := d) sendBuffer hstate
          (show (2 + topic.length + payload.length + 2) % 65536 ≤ 64 by omega)
      obtain rfl : b = b' := (Prod.mk.inj (hbuild.symm.trans hbuild')).2
      refine ⟨result, b, s', hrun, ?_⟩
      rw [if_neg (by omega)]
      exact ⟨⟨n, hsent⟩, by simp [WriteBuffer.written], hcarries⟩
    · have hrun := buffered_publish_refused (d := d) hstate
        (buildPublish_refused sendBuffer hguard)
      refine ⟨false, _, s, hrun, ?_⟩
      rw [if_pos (show 2 + topic.length + payload.length > 62 by omega)]
      exact ⟨rfl, rfl, by simp⟩

/-- Where the size does not wrap this is the `publish` of the client without a buffer. -/
theorem publish_refines (sendBuffer : Vector UInt8 64)
    (h : 2 + topic.length + payload.length ≤ 62 ∨
      64 < (2 + topic.length + payload.length + 2) % 65536) :
    ((Buffered.publish d topic payload sendBuffer s).1.map Prod.fst,
      (Buffered.publish d topic payload sendBuffer s).2) =
      MinimalMQTT.publish d topic payload s := by
  have hguard : u16 (u16 (2 + topic.length + payload.length) + 2) =
      (2 + topic.length + payload.length + 2) % 65536 := by
    unfold u16
    omega
  by_cases hstate : s.mqtt.state = .connected
  swap
  · simp only [Buffered.publish, MinimalMQTT.publish, Attempt.bind_apply, Attempt.read_apply,
      ne_eq, hstate, not_false_eq_true, if_true, Attempt.pure_apply]
    rfl
  rcases h with hfits | hlarge
  · obtain ⟨b, hbuild, hholds⟩ := buildPublish_holds topic payload sendBuffer hfits
    have hsmall : ¬(2 + topic.length + payload.length + 2) % 65536 > kSendBufferSize := by
      unfold kSendBufferSize
      omega
    rw [buffered_publish_eq hstate hbuild, hholds.written]
    simp only [MinimalMQTT.publish, Attempt.bind_apply, Attempt.read_apply, hstate, ne_eq,
      not_true_eq_false, if_false, hguard, hsmall, io_apply, socketSend_apply]
    by_cases htaken : d.send s.chip.calls (publishPacket topic payload) =
        (publishPacket topic payload).length
    · simp only [htaken, decide_true, if_true]
      rfl
    · simp only [htaken, decide_false, if_false]
      rfl
  · rw [buffered_publish_refused hstate (buildPublish_refused sendBuffer hlarge)]
    simp only [MinimalMQTT.publish, Attempt.bind_apply, Attempt.read_apply, hstate, ne_eq,
      not_true_eq_false, if_false, hguard, kSendBufferSize, gt_iff_lt, hlarge, if_true,
      Attempt.pure_apply]
    rfl

theorem publish_exact_gong : Buffered.PublishExact (workingDriver 0) openedSession (ascii "gong/1")
    (ascii "RING") (Vector.replicate 64 0) :=
  (publish_exact_iff (workingDriver 0) openedSession _ _ _ rfl (by decide)).mpr
    (Or.inl (by decide))

/-- A payload of 65535 bytes passes the size check. -/
theorem not_publish_exact : ¬Buffered.PublishExact (workingDriver 0) openedSession (ascii "a")
    (List.replicate 65535 0) (Vector.replicate 64 0) := by
  have hlength : 2 + (ascii "a").length + (List.replicate 65535 (0 : UInt8)).length = 65538 := by
    rw [List.length_replicate]
    rfl
  refine not_publish_exact_of_wrap (workingDriver 0) _ rfl ?_ ?_
  · omega
  · omega

end Publish

end SmartBell.MQTT
