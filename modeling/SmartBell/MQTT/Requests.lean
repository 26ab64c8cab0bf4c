import SmartBell.MQTT.ControlPacket
import SmartBell.MQTT.Framing
import SmartBell.MQTT.Keepalive
import SmartBell.MQTT.Sessions

/-!
# Runs of the client

A run is a list of calls of the client's methods in any order, each at some time and with
what it will find in the receive buffer; the ioLibrary answers what it likes. A call that
looks at the receive buffer once more than there are polls ends there. Two things are
followed through such runs: where a subscription comes from, and the packet id. The client
has no send buffer here; `BufferedRuns` says of which runs that is the same.
-/
namespace SmartBell.MQTT
open Common MinimalMQTT Attempt

/-! ## Turns -/

/-- A call of one of the client's methods. -/
inductive Request (κ : Type) where
  | connect (config : Config)
  | disconnect
  | subscribe (topic : List UInt8) (callback : Option κ)
  | publish (topic payload : List UInt8)
  | loop

/-- What came of a request: the result, true for a method that has none, and the callbacks that it
called. -/
structure Outcome (κ : Type) where
  result : Bool
  calls : List (Call κ)
  deriving DecidableEq

/-- A request, the time at which it is made, and the polls it will take. -/
structure Turn (κ : Type) where
  time : Nat
  rx : List Poll
  request : Request κ

section Turns
variable {κ : Type} (d : Driver)

/-- The request ends the session before it. -/
def Request.renews : Request κ → Bool
  | .connect _ => true
  | .disconnect => true
  | .subscribe _ _ => false
  | .publish _ _ => false
  | .loop => false

def Request.perform (d : Driver) : Request κ → Attempt (Session κ) (Outcome κ)
  | .connect config => do
    let connected ← MinimalMQTT.connect d config
    pure ⟨connected, []⟩
  | .disconnect => do
    MinimalMQTT.disconnect d
    pure ⟨true, []⟩
  | .subscribe topic callback => do
    let success ← MinimalMQTT.subscribe d topic callback
    pure ⟨success, []⟩
  | .publish topic payload => do
    let success ← MinimalMQTT.publish d topic payload
    pure ⟨success, []⟩
  | .loop => do
    let calls ← MinimalMQTT.loop d
    pure ⟨true, calls⟩

/-- What comes of the next turn. -/
def Session.outcome (s : Session κ) (e : Turn κ) : Option (Outcome κ) :=
  (e.request.perform d (s.atTime e.time e.rx)).1

/-- The session after the next turn. -/
def Session.turn (s : Session κ) (e : Turn κ) : Session κ :=
  (e.request.perform d (s.atTime e.time e.rx)).2

/-- The next turn hands a SUBSCRIBE to the socket. -/
def Session.subscribes (s : Session κ) (e : Turn κ) : Bool :=
  match e.request with
  | .subscribe _ callback =>
    s.mqtt.state = .connected && callback.isSome && s.mqtt.freeSlot.isSome
  | _ => false

end Turns

/-! ## What is sent -/

section Traffic
variable {κ : Type} {d : Driver} {P : List UInt8 → Prop}

/-- All packets handed to the socket in between satisfy `P`, and the packet id is the same. -/
structure Session.Traffic (P : List UInt8 → Prop) (s s' : Session κ) : Prop where
  packetId : s'.mqtt.packetId = s.mqtt.packetId
  sent : ∃ packets, s'.chip.sent = packets ++ s.chip.sent ∧ ∀ entry ∈ packets, P entry.1

instance : IsPreorder (Session κ) (Session.Traffic P) where
  refl s := ⟨rfl, [], rfl, by simp⟩
  trans s s' s'' := by
    rintro ⟨hid, packets, hsent, hpackets⟩ ⟨hid', packets', hsent', hpackets'⟩
    refine ⟨hid'.trans hid, packets' ++ packets, by simp [hsent, hsent'], fun entry hentry => ?_⟩
    rcases List.mem_append.mp hentry with hlater | hearlier
    · exact hpackets' entry hlater
    · exact hpackets entry hearlier

theorem Session.Traffic.mono {P' : List UInt8 → Prop} (hP : ∀ packet, P packet → P' packet)
    {s s' : Session κ} (h : s.Traffic P s') : s.Traffic P' s' := by
  obtain ⟨hid, packets, hsent, hpackets⟩ := h
  exact ⟨hid, packets, hsent, fun entry hentry => hP _ (hpackets entry hentry)⟩

theorem update_traffic {f : MinimalMQTT κ → MinimalMQTT κ} (h : ∀ m, (f m).packetId = m.packetId) :
    Moves (@Session.Traffic κ P) (update f) := fun s => ⟨h s.mqtt, [], rfl, by simp⟩

theorem quiet_traffic {α : Type} {x : Attempt Chip α} (h : ∀ c, (x c).2.sent = c.sent) :
    Moves (@Session.Traffic κ P) (io x) := fun s => ⟨rfl, [], h s.chip, by simp⟩

theorem send_traffic {packet : List UInt8} (h : P packet) :
    Moves (@Session.Traffic κ P) (io (socketSend d packet)) := fun s =>
  ⟨rfl, [(packet, d.send s.chip.calls packet)], rfl, by simpa using h⟩

theorem millis_traffic : Moves (@Session.Traffic κ P) (io millis) :=
  quiet_traffic fun _ => rfl

theorem receive_traffic : Moves (@Session.Traffic κ P) (receive d) := by
  refine .bind (quiet_traffic fun c => ?_) fun bytes =>
    .bind (update_traffic fun m => by simp only [filled]) fun _ => .pure _
  cases hrx : c.rx with
  | nil => rw [kRecvBufferSize, socketRecv_nil hrx]
  | cons poll rx => rw [kRecvBufferSize, socketRecv_cons hrx, Chip.polled_sent]

theorem connackLoop_traffic (start : UInt32) (n : Nat) :
    Moves (@Session.Traffic κ P) (connackLoop d start n) := by
  induction n with
  | zero => exact .stop
  | succ n ih =>
    refine .bind millis_traffic fun now => .ite (fun _ => ?_) fun _ => .pure false
    exact .bind receive_traffic fun len => .bind .read fun s =>
      .ite (fun _ => .pure _) fun _ => ih

theorem connectFailed_traffic : Moves (@Session.Traffic κ P) (connectFailed d) :=
  .bind (quiet_traffic fun _ => rfl) fun _ => .bind (update_traffic fun _ => rfl) fun _ =>
    .pure false

theorem finishConnect_traffic : Moves (@Session.Traffic κ P) (finishConnect d) := by
  refine .bind ?_ fun accepted => .ite (fun _ => connectFailed_traffic) fun _ =>
    .bind millis_traffic fun now => .bind (update_traffic fun _ => rfl) fun _ => .pure true
  exact .bind millis_traffic fun start => .bind .read fun s => connackLoop_traffic start _

theorem connect_traffic (config : Config) (h : P (connectPacket config)) :
    Moves (@Session.Traffic κ P) (MinimalMQTT.connect d config) := by
  refine .bind (update_traffic fun _ => rfl) fun _ => .bind (quiet_traffic fun c => ?_) fun _ =>
    .ite (fun _ => .bind (update_traffic fun _ => rfl) fun _ => .pure false) fun _ =>
    .bind (send_traffic h) fun _ => .ite (fun _ => connectFailed_traffic) fun _ =>
    finishConnect_traffic
  obtain ⟨connected, c', hrun, _, hsent⟩ :=
    socketConnect_traffic (d := d) config.brokerIp config.brokerPort c
  rw [hrun, hsent]

theorem disconnect_traffic (h : P disconnectPacket) :
    Moves (@Session.Traffic κ P) (MinimalMQTT.disconnect d) :=
  .bind .read fun _ => .ite (fun _ => .pure ()) fun _ => .bind (send_traffic h) fun _ =>
    .bind (quiet_traffic fun _ => rfl) fun _ => update_traffic fun _ => rfl

theorem publish_traffic (topic payload : List UInt8) (h : P (publishPacket topic payload)) :
    Moves (@Session.Traffic κ P) (MinimalMQTT.publish d topic payload) :=
  .bind .read fun _ => .ite (fun _ => .pure false) fun _ => .ite (fun _ => .pure false) fun _ =>
    .bind (send_traffic h) fun _ => .ite (fun _ => .bind millis_traffic fun _ =>
      .bind (update_traffic fun _ => rfl) fun _ => .pure true) fun _ => .pure false

theorem keepalive_traffic (h : P pingreqPacket) :
    Moves (@Session.Traffic κ P) (keepalive d) := by
  refine .bind millis_traffic fun now => .bind .read fun s => .bind ?_ fun _ => ?_
  · refine .bind .read fun _ => .ite (fun _ => ?_) fun _ => .pure ()
    exact .bind (send_traffic h) fun _ => .ite (fun _ => .bind millis_traffic fun _ =>
      update_traffic fun _ => rfl) fun _ => .pure ()
  · exact .bind .read fun _ => .ite (fun _ => update_traffic fun _ => rfl) fun _ => .pure ()

theorem loop_traffic (h : P pingreqPacket) :
    Moves (@Session.Traffic κ P) (MinimalMQTT.loop d) := by
  refine .bind .read fun _ => .ite (fun _ => .pure []) fun _ =>
    .bind (quiet_traffic fun _ => rfl) fun _ => .ite (fun _ => ?_) fun _ => .bind ?_ fun calls =>
    .bind (keepalive_traffic h) fun _ => .pure calls
  · exact .bind (update_traffic fun _ => rfl) fun _ => .pure []
  · exact .bind receive_traffic fun _ => .ite (fun _ => .pure []) fun _ =>
      .bind millis_traffic fun _ => .bind (update_traffic fun _ => rfl) fun _ =>
      .bind .read fun _ => .pure _

end Traffic

/-! ## What is published -/

section Published
variable {κ : Type} {d : Driver}

/-- The type in the first byte is that of a PUBLISH. -/
def isPublishPacket (packet : List UInt8) : Bool := packet.head?.any fun b => isPublish b

/-- The PUBLISH packets that were handed to the socket, the last one first. -/
def Chip.publishes (c : Chip) : List (List UInt8) := (c.sent.map Prod.fst).filter isPublishPacket

/-- Nothing is published in between. -/
def Session.Silent (s s' : Session κ) : Prop := s'.chip.publishes = s.chip.publishes

instance : IsPreorder (Session κ) Session.Silent where
  refl _ := rfl
  trans _ _ _ h h' := Eq.trans h' h

theorem Session.Traffic.silent {s s' : Session κ}
    (h : s.Traffic (fun packet => isPublishPacket packet = false) s') : s.Silent s' := by
  obtain ⟨_, packets, hsent, hother⟩ := h
  have hnone : (packets.map Prod.fst).filter isPublishPacket = [] := by
    simpa using hother
  rw [Session.Silent, Chip.publishes, hsent, List.map_append, List.filter_append, hnone]
  rfl

theorem connect_silent (config : Config) :
    Moves (@Session.Silent κ) (MinimalMQTT.connect d config) := by
  intro s
  have hother : isPublishPacket (connectPacket config) = false := rfl
  exact (connect_traffic config hother s).silent

theorem loop_silent : Moves (@Session.Silent κ) (MinimalMQTT.loop d) := fun s =>
  (loop_traffic (by decide) s).silent

theorem subscribe_silent (topic : List UInt8) (callback : Option κ) :
    Moves (@Session.Silent κ) (MinimalMQTT.subscribe d topic callback) := by
  refine .bind .read fun s => .ite (fun _ => .pure false) fun _ => ?_
  cases s.mqtt.freeSlot with
  | none => exact .pure false
  | some slot =>
    have hother : isPublishPacket (subscribePacket s.mqtt.packetId topic) = false := rfl
    exact .bind (fun _ => rfl) fun _ => .bind (fun t => (send_traffic hother t).silent) fun _ =>
      .ite (fun _ => .bind (fun _ => rfl) fun _ => .bind (fun _ => rfl) fun _ => .pure true)
        fun _ => .pure false

/-- A client in a session publishes what is not too large. -/
theorem publish_publishes (topic payload : List UInt8) (s : Session κ)
    (hlen : 2 + topic.length + payload.length < 65534) :
    (MinimalMQTT.publish d topic payload s).2.chip.publishes =
      (if s.mqtt.state = .connected ∧ 2 + topic.length + payload.length ≤ 62 then
        [publishPacket topic payload] else []) ++ s.chip.publishes := by
  have hsize : u16 (u16 (2 + topic.length + payload.length) + 2) =
      2 + topic.length + payload.length + 2 := by
    unfold u16
    omega
  by_cases hstate : s.mqtt.state = .connected
  · by_cases hfits : 2 + topic.length + payload.length ≤ 62
    · have hroom : ¬2 + topic.length + payload.length + 2 > 64 := by omega
      rw [if_pos ⟨hstate, hfits⟩]
      simp only [MinimalMQTT.publish, bind_apply, read_apply, Attempt.ite_apply, hstate, ne_eq,
        not_true_eq_false, if_false, hsize, kSendBufferSize, hroom, io_apply, socketSend_apply]
      split_ifs <;> rfl
    · have hroom : 2 + topic.length + payload.length + 2 > 64 := by omega
      have hrefused : MinimalMQTT.publish d topic payload s = (some false, s) := by
        simp only [MinimalMQTT.publish, bind_apply, read_apply, Attempt.ite_apply, hstate, ne_eq,
          not_true_eq_false, if_false, hsize, kSendBufferSize, if_pos hroom, pure_apply]
      rw [hrefused, if_neg fun h => hfits h.2, List.nil_append]
  · have hrefused : MinimalMQTT.publish d topic payload s = (some false, s) := by
      simp [MinimalMQTT.publish, bind_apply, hstate]
    rw [hrefused, if_neg fun h => hstate h.1, List.nil_append]

end Published

/-! ## What a turn does to the subscriptions -/

section Table
variable {κ : Type} {d : Driver}

theorem finishConnect_unsubscribed {s : Session κ} (h : s.Unsubscribed) :
    (finishConnect d s).2.Unsubscribed := by
  have hwait : s.Keeps (waitForConnack d s).2 := connackLoop_keeps _ _ s
  rcases hresult : waitForConnack d s with ⟨_ | accepted, t⟩
  · rw [hresult] at hwait
    rw [finishConnect_of_stopped hresult]
    exact hwait.unsubscribed h
  · rw [hresult] at hwait
    cases accepted with
    | false =>
      rw [finishConnect_of_refused hresult]
      exact hwait.unsubscribed h
    | true =>
      rw [finishConnect_of_accepted hresult]
      exact hwait.unsubscribed h

/-- Wherever `connect` ends, no subscription is left. -/
theorem connect_unsubscribed (config : Config) (s : Session κ) :
    (MinimalMQTT.connect d config s).2.Unsubscribed := by
  obtain ⟨reached, c, hsocket, _⟩ :=
    socketConnect_traffic (d := d) config.brokerIp config.brokerPort s.chip
  have hclear (c : Chip) := connecting_unsubscribed s.mqtt config c
  rw [connect_eq d config s hsocket]
  split_ifs
  · exact hclear c
  · exact finishConnect_unsubscribed (hclear _)
  · exact hclear c

theorem disconnect_eq (s : Session κ) : MinimalMQTT.disconnect d s =
    if s.mqtt.state = .disconnected then (some (), s)
    else (some (), ⟨(s.mqtt.withState .disconnected).clearSubscriptions,
      ((s.chip.sending d disconnectPacket).called d).called d⟩) := by
  simp only [MinimalMQTT.disconnect, bind_apply, read_apply, Attempt.ite_apply]
  rfl

/-- A client that is disconnected already has to be without subscriptions. -/
theorem disconnect_unsubscribed {s : Session κ}
    (h : s.mqtt.state = .disconnected → s.Unsubscribed) :
    (MinimalMQTT.disconnect d s).2.Unsubscribed := by
  rw [disconnect_eq]
  split_ifs with hstate
  · exact h hstate
  · intro i
    simp [clearSubscriptions, slot]

theorem subscriptions_ext {m m' : MinimalMQTT κ} (h : ∀ i, m'.slot i = m.slot i) :
    m'.subscriptions = m.subscriptions :=
  Vector.ext fun i hi => h ⟨i, hi⟩

/-- A `subscribe` that returns true has filled a slot, and one that returns false has left the
subscriptions alone. -/
theorem subscribe_cases (topic : List UInt8) (callback : Option κ) (s : Session κ) :
    (∃ registered slot s', callback = some registered ∧ s.mqtt.freeSlot = some slot ∧
      MinimalMQTT.subscribe d topic callback s = (some true, s') ∧
      s.Subscribed s' slot topic registered true) ∨
    ∃ s', MinimalMQTT.subscribe d topic callback s = (some false, s') ∧ s.Keeps s' := by
  by_cases hrefused : s.mqtt.state ≠ .connected ∨ callback = none ∨ s.mqtt.freeSlot = none
  · exact Or.inr ⟨s, subscribe_refused hrefused, .refl s⟩
  push Not at hrefused
  obtain ⟨hstate, hcallback, hslot⟩ := hrefused
  obtain ⟨registered, rfl⟩ := Option.ne_none_iff_exists'.mp hcallback
  obtain ⟨slot, hslot⟩ := Option.ne_none_iff_exists'.mp hslot
  obtain ⟨taken, s', hrun, hsubscribed⟩ :=
    subscribe_subscribed (d := d) topic registered hstate hslot
  cases taken with
  | true => exact Or.inl ⟨registered, slot, s', rfl, hslot, hrun, hsubscribed⟩
  | false =>
    refine Or.inr ⟨s', hrun, Or.inl (hsubscribed.state.trans hstate.symm), ?_, hsubscribed.sent⟩
    exact subscriptions_ext hsubscribed.slot

/-- This entry is active, with this callback and this topic. -/
structure Subscription.Holds (s : Subscription κ) (callback : κ) (topic : List UInt8) : Prop where
  active : s.active = true
  callback : s.callback = some callback
  topic : cstring s.topic.toList = topic

section Performing
variable (s : Session κ)

theorem perform_connect (config : Config) : Request.perform d (.connect config) s =
    ((MinimalMQTT.connect d config s).1.map (⟨·, []⟩), (MinimalMQTT.connect d config s).2) :=
  bind_pure_apply _ _ s

theorem perform_disconnect : Request.perform d .disconnect s =
    ((MinimalMQTT.disconnect d s).1.map fun _ => ⟨true, []⟩, (MinimalMQTT.disconnect d s).2) :=
  bind_pure_apply _ _ s

theorem perform_subscribe (topic : List UInt8) (callback : Option κ) :
    Request.perform d (.subscribe topic callback) s =
      ((MinimalMQTT.subscribe d topic callback s).1.map (⟨·, []⟩),
        (MinimalMQTT.subscribe d topic callback s).2) :=
  bind_pure_apply _ _ s

theorem perform_publish (topic payload : List UInt8) :
    Request.perform d (.publish topic payload) s =
      ((MinimalMQTT.publish d topic payload s).1.map (⟨·, []⟩),
        (MinimalMQTT.publish d topic payload s).2) :=
  bind_pure_apply _ _ s

theorem perform_loop : Request.perform d .loop s =
    ((MinimalMQTT.loop d s).1.map (⟨true, ·⟩), (MinimalMQTT.loop d s).2) :=
  bind_pure_apply _ _ s

end Performing

variable {s : Session κ} {e : Turn κ}

/-- What `atTime` sets is none of what is kept. -/
theorem Session.Keeps.ofTime {t : Nat} {rx : List Poll} {s' : Session κ}
    (h : (s.atTime t rx).Keeps s') : s.Keeps s' := ⟨h.state, h.subscriptions, h.sent⟩

/-- A request that ends the session leaves no subscription. -/
theorem turn_renews (h : e.request.renews = true)
    (hidle : s.mqtt.state = .disconnected → s.Unsubscribed) : (s.turn d e).Unsubscribed := by
  obtain ⟨t, rx, request⟩ := e
  cases request with
  | connect config =>
    rw [Session.turn, perform_connect]
    exact connect_unsubscribed config _
  | disconnect =>
    rw [Session.turn, perform_disconnect]
    exact disconnect_unsubscribed hidle
  | subscribe topic callback => cases h
  | publish topic payload => cases h
  | loop => cases h

/-- Any other request registers one subscription, and says so, or leaves the subscriptions
alone. -/
theorem turn_registers_or_keeps (h : e.request.renews = false) :
    (∃ topic callback slot, e.request = .subscribe topic (some callback) ∧
      s.outcome d e = some ⟨true, []⟩ ∧ s.mqtt.freeSlot = some slot ∧
      (s.atTime e.time e.rx).Subscribed (s.turn d e) slot topic callback true) ∨
    ((∀ topic callback, e.request = .subscribe topic callback →
      s.outcome d e = some ⟨false, []⟩) ∧ s.Keeps (s.turn d e)) := by
  obtain ⟨t, rx, request⟩ := e
  cases request with
  | connect config => cases h
  | disconnect => cases h
  | subscribe topic callback =>
    simp only [Session.turn, Session.outcome, perform_subscribe]
    obtain ⟨registered, slot, s', rfl, hslot, hrun, hsubscribed⟩ | ⟨s', hrun, hkeeps⟩ :=
      subscribe_cases (d := d) topic callback (s.atTime t rx)
    · rw [hrun]
      exact Or.inl ⟨topic, registered, slot, rfl, rfl, hslot, hsubscribed⟩
    · rw [hrun]
      exact Or.inr ⟨fun _ _ _ => rfl, hkeeps.ofTime⟩
  | publish topic payload =>
    simp only [Session.turn, perform_publish]
    exact Or.inr ⟨nofun, (publish_keeps topic payload _).ofTime⟩
  | loop =>
    simp only [Session.turn, perform_loop]
    exact Or.inr ⟨nofun, (loop_keeps _).ofTime⟩

end Table

/-! ## Where callbacks come from -/

section Current
variable {κ : Type}

/-- This turn is a `subscribe` that returns true, with this callback and for a topic of which this
is stored. -/
def Session.registers (d : Driver) (callback : κ) (stored : List UInt8) (s : Session κ)
    (e : Turn κ) : Prop :=
  ∃ topic, e.request = .subscribe topic (some callback) ∧
    s.outcome d e = some ⟨true, []⟩ ∧ (cstring topic).take 31 = stored

/-- It was registered in the run, and since then neither `connect` nor `disconnect` was called. -/
def Registered (d : Driver) (s₀ : Session κ) (es : List (Turn κ)) (callback : κ)
    (stored : List UInt8) : Prop :=
  ∃ j, Occurs (Session.turn d) (Session.registers d callback stored) s₀ es j ∧
    ∀ l e, j < l → es[l]? = some e → e.request.renews = false

/-- The invariant: active subscriptions were registered in the present session, and there are none
without one. -/
structure Current (d : Driver) (s₀ : Session κ) (es : List (Turn κ)) (s : Session κ) : Prop where
  registered : ∀ i callback stored, (s.mqtt.slot i).Holds callback stored →
    Registered d s₀ es callback stored
  idle : s.mqtt.state = .disconnected → s.Unsubscribed

variable {d : Driver} {s₀ s : Session κ} {es : List (Turn κ)} {e : Turn κ} {callback : κ}
  {stored : List UInt8}

theorem Registered.snoc (h : Registered d s₀ es callback stored)
    (he : e.request.renews = false) : Registered d s₀ (es ++ [e]) callback stored := by
  obtain ⟨j, hj, hlater⟩ := h
  refine ⟨j, (occurs_append_left hj.lt [e]).mpr hj, fun l e' hl he' => ?_⟩
  rcases Nat.lt_or_ge l es.length with hin | hend
  · rw [List.getElem?_append_left hin] at he'
    exact hlater l e' hl he'
  · rw [List.getElem?_append_right hend, List.getElem?_singleton] at he'
    split_ifs at he'
    obtain rfl := Option.some.inj he'
    exact he

/-- What the last turn registered is registered. -/
theorem registered_last (h : Session.registers d callback stored (run (Session.turn d) s₀ es) e) :
    Registered d s₀ (es ++ [e]) callback stored := by
  refine ⟨es.length, (occurs_last s₀ es e).mpr h, fun l e' hl he' => ?_⟩
  have hlt := (List.getElem?_eq_some_iff.mp he').1
  simp only [List.length_append, List.length_singleton] at hlt
  omega

theorem store_holds {sub : Subscription κ} {topic : List UInt8} {registered : κ}
    (h : (sub.store topic (some registered)).Holds callback stored) :
    registered = callback ∧ (cstring topic).take 31 = stored := by
  refine ⟨Option.some.inj h.callback, ?_⟩
  rw [← h.topic, store_topic_take]

theorem Session.Unsubscribed.not_holds (h : s.Unsubscribed) (i : Fin 2) :
    ¬(s.mqtt.slot i).Holds callback stored := by
  intro hholds
  have hactive := hholds.active
  rw [h i] at hactive
  cases hactive

/-- Every turn preserves the invariant. -/
theorem Current.step (h : Current d s₀ es (run (Session.turn d) s₀ es)) (e : Turn κ) :
    Current d s₀ (es ++ [e]) ((run (Session.turn d) s₀ es).turn d e) := by
  cases hrenews : e.request.renews with
  | true =>
    have hclear := turn_renews (d := d) hrenews h.idle
    exact ⟨fun i _ _ hholds => absurd hholds (hclear.not_holds i), fun _ => hclear⟩
  | false =>
    obtain ⟨topic, registered, slot, hrequest, houtcome, _, hsubscribed⟩ | ⟨_, hkeeps⟩ :=
      turn_registers_or_keeps (d := d) (s := run (Session.turn d) s₀ es) hrenews
    · refine ⟨fun i callback stored hholds => ?_, fun hstate => ?_⟩
      · rw [hsubscribed.slot i, if_pos rfl] at hholds
        by_cases hslot : i = slot
        · subst hslot
          rw [subscribed_slot] at hholds
          obtain ⟨rfl, rfl⟩ := store_holds hholds
          exact registered_last ⟨topic, hrequest, houtcome, rfl⟩
        · rw [subscribed_of_ne _ hslot] at hholds
          exact (h.registered i callback stored hholds).snoc hrenews
      · rw [hsubscribed.state] at hstate
        cases hstate
    · refine ⟨fun i callback stored hholds => ?_, fun hstate => ?_⟩
      · rw [hkeeps.slot i] at hholds
        exact (h.registered i callback stored hholds).snoc hrenews
      · rcases hkeeps.state with hsame | herror
        · exact hkeeps.unsubscribed (h.idle (hsame ▸ hstate))
        · rw [herror] at hstate
          cases hstate

end Current

/-! ## Packet ids -/

section PacketIds
variable {κ : Type} {d : Driver}

/-- The packet id of a SUBSCRIBE, behind its fixed header. -/
def subscribeId : Decoder UInt8 Nat := do
  let _ ← Decoder.next
  let _ ← remainingLength 4
  word

/-- In every SUBSCRIBE that was handed to the socket there is a packet id, and it is not zero. -/
def Chip.LegalIds (c : Chip) : Prop :=
  ∀ entry ∈ c.sent, entry.1.head? = some 0x82 →
    ∃ id rest, subscribeId entry.1 = some (id, rest) ∧ id ≠ 0

/-- A client that was just constructed, and has sent nothing. -/
def Session.constructed (chip : Chip) : Session κ := ⟨.start, { chip with sent := [] }⟩

theorem subscribeId_subscribePacket (packetId : UInt16) (topic : List UInt8) :
    ∃ rest, subscribeId (subscribePacket packetId topic) = some (packetId.toNat, rest) := by
  have hid : Decoder.Decodes subscribeId
      (0x82 :: (encodeRemainingLength (2 + 2 + topic.length + 1) ++ bigEndian packetId.toNat))
      packetId.toNat :=
    .next (.bind (decodes_remainingLength_mod _) (decodes_word packetId.toNat_lt))
  refine ⟨encodeString topic ++ [0], ?_⟩
  have hall := hid (encodeString topic ++ [0])
  simpa only [subscribePacket, List.cons_append, List.append_assoc] using hall

theorem legalIds_subscribe {c c' : Chip} {packetId : UInt16} {topic : List UInt8} {n : Int}
    (h : c'.sent = (subscribePacket packetId topic, n) :: c.sent) :
    c'.LegalIds ↔ packetId.toNat ≠ 0 ∧ c.LegalIds := by
  obtain ⟨rest, hrest⟩ := subscribeId_subscribePacket packetId topic
  rw [Chip.LegalIds, h, List.forall_mem_cons]
  refine and_congr_left fun _ => ⟨fun hlegal => ?_, fun hid _ => ⟨_, rest, hrest, hid⟩⟩
  obtain ⟨id, rest', hdecoded, hid⟩ := hlegal rfl
  obtain ⟨rfl, _⟩ := Prod.mk.inj (Option.some.inj (hrest.symm.trans hdecoded))
  exact hid

theorem Session.Traffic.legalIds {s s' : Session κ}
    (h : s.Traffic (fun packet => packet.head? ≠ some 0x82) s') :
    s'.chip.LegalIds ↔ s.chip.LegalIds := by
  obtain ⟨_, packets, hsent, hother⟩ := h
  rw [Chip.LegalIds, hsent]
  refine ⟨fun hlegal entry hentry => hlegal entry (List.mem_append_right _ hentry),
    fun hlegal entry hentry hhead => ?_⟩
  rcases List.mem_append.mp hentry with hnew | hold
  · exact absurd hhead (hother entry hnew)
  · exact hlegal entry hold hhead

/-- A turn that hands no SUBSCRIBE to the socket leaves the packet id alone. -/
theorem turn_traffic {s : Session κ} {e : Turn κ} (h : s.subscribes e = false) :
    s.Traffic (fun packet => packet.head? ≠ some 0x82) (s.turn d e) := by
  obtain ⟨t, rx, request⟩ := e
  -- what `atTime` sets has to do with neither
  suffices hturn : (s.atTime t rx).Traffic (fun packet => packet.head? ≠ some 0x82)
      (s.turn d ⟨t, rx, request⟩) from ⟨hturn.packetId, hturn.sent⟩
  cases request with
  | connect config =>
    rw [Session.turn, perform_connect]
    exact connect_traffic config (by simp [connectPacket]) _
  | disconnect =>
    rw [Session.turn, perform_disconnect]
    exact disconnect_traffic (by decide) _
  | subscribe topic callback =>
    have hrefused : s.mqtt.state ≠ .connected ∨ callback = none ∨ s.mqtt.freeSlot = none := by
      simpa [Session.subscribes, imp_iff_not_or, or_assoc] using h
    rw [Session.turn, perform_subscribe, subscribe_refused (s := s.atTime t rx) hrefused]
    exact refl_of (Session.Traffic _) _
  | publish topic payload =>
    rw [Session.turn, perform_publish]
    exact publish_traffic topic payload (by simp [publishPacket]) _
  | loop =>
    rw [Session.turn, perform_loop]
    exact loop_traffic (by decide) _

/-- A turn that does uses up its packet id. -/
theorem turn_subscribe {s : Session κ} {e : Turn κ} (h : s.subscribes e = true) :
    ∃ topic n, (s.turn d e).mqtt.packetId = s.mqtt.packetId + 1 ∧
      (s.turn d e).chip.sent = (subscribePacket s.mqtt.packetId topic, n) :: s.chip.sent := by
  obtain ⟨t, rx, request⟩ := e
  cases request with
  | subscribe topic callback =>
    simp only [Session.subscribes, Bool.and_eq_true, decide_eq_true_eq, Option.isSome_iff_exists]
      at h
    obtain ⟨⟨hstate, registered, rfl⟩, slot, hslot⟩ := h
    obtain ⟨taken, s', hrun, _⟩ :=
      subscribe_subscribed (d := d) (s := s.atTime t rx) topic registered hstate hslot
    obtain ⟨hid, hsent⟩ := subscribe_sent (s := s.atTime t rx) hstate hslot hrun
    rw [Session.turn, perform_subscribe, hrun]
    exact ⟨topic, _, hid, hsent⟩
  | _ => cases h

/-- The invariant after `n` SUBSCRIBE packets: the next packet id, and whether all were legal. -/
structure Session.Numbered (s : Session κ) (n : Nat) : Prop where
  packetId : s.mqtt.packetId.toNat = (n + 1) % 65536
  legal : s.chip.LegalIds ↔ n ≤ 65535

theorem Session.Numbered.step {s : Session κ} {n : Nat} (h : s.Numbered n) (e : Turn κ) :
    (s.turn d e).Numbered (n + (s.subscribes e).toNat) := by
  cases hsubscribes : s.subscribes e with
  | false =>
    have htraffic := turn_traffic (d := d) hsubscribes
    exact ⟨htraffic.packetId ▸ h.packetId, htraffic.legalIds.trans h.legal⟩
  | true =>
    obtain ⟨topic, result, hid, hsent⟩ := turn_subscribe (d := d) hsubscribes
    have hnext := h.packetId
    refine ⟨?_, ?_⟩
    · rw [hid, UInt16.toNat_add, hnext]
      simp
    · rw [legalIds_subscribe hsent, hnext, h.legal, Bool.toNat_true]
      omega

end PacketIds

end SmartBell.MQTT
