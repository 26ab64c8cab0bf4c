import SmartBell.MQTT.MinimalMQTT

/-!
# What the methods do to a session

All methods but `connect`, `disconnect` and `subscribe` leave the subscriptions alone and
can at most give the session up. `connect` starts without subscriptions, and `subscribe`
adds one if the driver takes the packet. What was sent stays on record. The packets are
those of a client without a send buffer, whose limits are the matter of `SendLimits`.
-/
namespace SmartBell.MQTT
open Common MinimalMQTT

/-- The driver took every SUBSCRIBE packet as a whole. -/
def Chip.SubscribesTaken (c : Chip) : Prop :=
  ∀ sent ∈ c.sent, sent.1.head? = some 0x82 → sent.2 = sent.1.length

instance (c : Chip) : Decidable c.SubscribesTaken :=
  inferInstanceAs (Decidable (∀ sent ∈ c.sent, _ → _))

theorem Chip.SubscribesTaken.earlier {c c' : Chip} (h : c'.SubscribesTaken)
    (hsent : c.sent <:+ c'.sent) : c.SubscribesTaken := fun entry hentry =>
  h entry (hsent.subset hentry)

section Keeps
variable {κ : Type} {d : Driver}

/-- What all methods but those that open and close a session do to it. -/
structure Session.Keeps (s s' : Session κ) : Prop where
  state : s'.mqtt.state = s.mqtt.state ∨ s'.mqtt.state = .error
  subscriptions : s'.mqtt.subscriptions = s.mqtt.subscriptions
  sent : s.chip.sent <:+ s'.chip.sent

theorem Session.Keeps.refl (s : Session κ) : s.Keeps s := ⟨Or.inl rfl, rfl, List.suffix_rfl⟩

theorem Session.Keeps.slot {s s' : Session κ} (h : s.Keeps s') (i : Fin 2) :
    s'.mqtt.slot i = s.mqtt.slot i := by
  rw [MinimalMQTT.slot, h.subscriptions, MinimalMQTT.slot]

theorem Session.Keeps.trans {s s' s'' : Session κ} (h : s.Keeps s') (h' : s'.Keeps s'') :
    s.Keeps s'' := by
  refine ⟨?_, h'.subscriptions.trans h.subscriptions, h.sent.trans h'.sent⟩
  rcases h'.state with hsame | herror
  · rw [hsame]
    exact h.state
  · exact Or.inr herror

theorem processIncomingPacket_keeps (s : Session κ) : s.Keeps (processIncomingPacket d s).2 := by
  cases hrx : s.chip.rx with
  | nil =>
    rw [processIncomingPacket_nil hrx]
    exact .refl s
  | cons poll rx =>
    rw [processIncomingPacket_cons hrx]
    split_ifs
    · exact ⟨Or.inl (by simp), by simp, by simp⟩
    · exact ⟨Or.inl (by simp), by simp, by simp⟩

theorem keepalive_keeps (s : Session κ) : s.Keeps (keepalive d s).2 := by
  obtain ⟨s', hrun, hstate, htable, _, hsent⟩ := keepalive_spec d s
  rw [hrun]
  refine ⟨?_, htable, hsent⟩
  cases htime : s.timedOut <;> simp [hstate, htime]

theorem loop_keeps (s : Session κ) : s.Keeps (loop d s).2 := by
  simp only [loop, Attempt.bind_apply, Attempt.read_apply, Attempt.ite_apply, io_apply,
    socketIsConnected_apply]
  split_ifs
  · exact .refl s
  · exact ⟨Or.inr rfl, rfl, List.suffix_rfl⟩
  · have hpoll : s.Keeps ⟨s.mqtt, s.chip.called d⟩ := ⟨Or.inl rfl, rfl, List.suffix_rfl⟩
    have hread := hpoll.trans (processIncomingPacket_keeps (d := d) ⟨s.mqtt, s.chip.called d⟩)
    rcases hrun : processIncomingPacket d ⟨s.mqtt, s.chip.called d⟩ with ⟨_ | calls, s'⟩
    · rwa [hrun] at hread
    · rw [hrun] at hread
      have hrest := hread.trans (keepalive_keeps (d := d) s')
      rcases hkeep : keepalive d s' with ⟨_ | _, s''⟩ <;>
      · rw [hkeep] at hrest
        simpa only [hkeep, Attempt.pure_apply] using hrest

theorem publish_keeps (topic payload : List UInt8) (s : Session κ) :
    s.Keeps (publish d topic payload s).2 := by
  simp only [publish, Attempt.bind_apply, Attempt.read_apply, Attempt.ite_apply, io_apply,
    socketSend_apply]
  split_ifs
  · exact .refl s
  · exact .refl s
  · exact ⟨Or.inl rfl, rfl, List.suffix_cons _ _⟩
  · exact ⟨Or.inl rfl, rfl, List.suffix_cons _ _⟩

theorem connackLoop_keeps (start : UInt32) (n : Nat) (s : Session κ) :
    s.Keeps (connackLoop d start n s).2 := by
  obtain ⟨recvBuffer, hmqtt, hsent⟩ := connackLoop_waits (d := d) start n s
  refine ⟨Or.inl ?_, ?_, hsent ▸ List.suffix_rfl⟩
  · rw [hmqtt, withBuffer]
  · rw [hmqtt, withBuffer]

/-! ## Opening a session -/

/-- No subscription is active. -/
def Session.Unsubscribed (s : Session κ) : Prop :=
  ∀ i : Fin 2, (s.mqtt.slot i).active = false

theorem Session.Keeps.unsubscribed {s s' : Session κ} (h : s.Keeps s') (hs : s.Unsubscribed) :
    s'.Unsubscribed := by
  intro i
  rw [h.slot i]
  exact hs i

/-- What `connect` has come to. -/
structure Session.Attempted (s s' : Session κ) (connected : Bool) : Prop where
  state : s'.mqtt.state = if connected then .connected else .error
  unsubscribed : s'.Unsubscribed
  sent : s.chip.sent <:+ s'.chip.sent

theorem connecting_unsubscribed (m : MinimalMQTT κ) (config : Config) (c : Chip) :
    (⟨m.connecting config, c⟩ : Session κ).Unsubscribed := by
  intro i
  simp [connecting, clearSubscriptions, slot]

theorem finishConnect_attempted {s s' : Session κ} {connected : Bool} (h : s.Unsubscribed)
    (hrun : finishConnect d s = (some connected, s')) : s.Attempted s' connected := by
  have hwait : s.Keeps (waitForConnack d s).2 := connackLoop_keeps _ _ s
  rcases hresult : waitForConnack d s with ⟨_ | accepted, t⟩
  · rw [finishConnect_of_stopped hresult] at hrun
    cases hrun
  · rw [hresult] at hwait
    cases accepted with
    | false =>
      rw [finishConnect_of_refused hresult] at hrun
      obtain ⟨rfl, rfl⟩ : false = connected ∧ _ = s' := by simpa using hrun
      exact ⟨rfl, hwait.unsubscribed h, hwait.sent⟩
    | true =>
      rw [finishConnect_of_accepted hresult] at hrun
      obtain ⟨rfl, rfl⟩ : true = connected ∧ _ = s' := by simpa using hrun
      exact ⟨rfl, hwait.unsubscribed h, hwait.sent⟩

theorem connect_attempted {s s' : Session κ} {config : Config} {connected : Bool}
    (hrun : connect d config s = (some connected, s')) : s.Attempted s' connected := by
  obtain ⟨reached, c, hsocket, _, hsent⟩ :=
    socketConnect_traffic (d := d) config.brokerIp config.brokerPort s.chip
  have hclear (c : Chip) := connecting_unsubscribed s.mqtt config c
  rw [connect_eq d config s hsocket] at hrun
  cases reached with
  | false =>
    obtain ⟨rfl, rfl⟩ : false = connected ∧ _ = s' := by simpa using hrun
    exact ⟨rfl, hclear c, hsent ▸ List.suffix_rfl⟩
  | true =>
    simp only [Bool.not_true, Bool.false_eq_true, if_false] at hrun
    have hout : s.chip.sent <:+ (c.sending d (connectPacket config)).sent := by
      rw [Chip.sending_sent, hsent]
      exact List.suffix_cons _ _
    split_ifs at hrun
    · have hfinish := finishConnect_attempted (hclear _) hrun
      exact ⟨hfinish.state, hfinish.unsubscribed, hout.trans hfinish.sent⟩
    · obtain ⟨rfl, rfl⟩ : false = connected ∧ _ = s' := by
        simpa [connectFailed, Attempt.bind_apply, io_apply, update_apply] using hrun
      exact ⟨rfl, hclear s.chip, hout⟩

/-! ## Subscribing -/

/-- This slot holds an active subscription to this topic. -/
def ListensIn (m : MinimalMQTT κ) (i : Fin 2) (topic : List UInt8) : Prop :=
  (m.slot i).active = true ∧ cstring (m.slot i).topic.toList = topic

/-- There is an active subscription to this topic. -/
def Listens (m : MinimalMQTT κ) (topic : List UInt8) : Prop := ∃ i, ListensIn m i topic

instance (m : MinimalMQTT κ) (i : Fin 2) (topic : List UInt8) :
    Decidable (ListensIn m i topic) := inferInstanceAs (Decidable (_ ∧ _))

instance (m : MinimalMQTT κ) (topic : List UInt8) : Decidable (Listens m topic) :=
  inferInstanceAs (Decidable (∃ i, ListensIn m i topic))

theorem ListensIn.congr {m m' : MinimalMQTT κ} {i : Fin 2} {topic : List UInt8}
    (h : ListensIn m i topic) (hslot : m'.slot i = m.slot i) : ListensIn m' i topic := by
  rw [ListensIn, hslot]
  exact h

/-- What is stored of a topic are its first 31 characters. -/
theorem store_topic_take (s : Subscription κ) (topic : List UInt8) (callback : Option κ) :
    cstring (s.store topic callback).topic.toList = (cstring topic).take 31 := by
  unfold Subscription.store
  have hnul : 0 ∉ (cstring topic).take 31 := fun h =>
    zero_not_mem_cstring topic (List.mem_of_mem_take h)
  refine cstring_toList_eq hnul (by simp) (fun i hi => ?_) ?_
  · have hlt : i < 31 ∧ i < (cstring topic).length := by simpa using hi
    have hne31 : 31 ≠ i := by omega
    simp [Vector.getElem_set_ne, hne31, hlt]
  · rcases Nat.lt_or_ge (cstring topic).length 31 with hlt | hge
    · have hend : ((cstring topic).take 31).length = (cstring topic).length := by simp; omega
      have hne31 : 31 ≠ (cstring topic).length := by omega
      simp [hend, Vector.getElem_set_ne, hne31, hlt]
    · have hfull : ((cstring topic).take 31).length = 31 := by simp; omega
      simp [hfull]

/-- A topic that fits is stored as it is. -/
theorem store_topic (s : Subscription κ) {topic : List UInt8} (callback : Option κ)
    (hlen : topic.length ≤ 31) (hne : 0 ∉ topic) :
    cstring (s.store topic callback).topic.toList = topic := by
  rw [store_topic_take, cstring_eq_self hne]
  exact List.take_of_length_le hlen

@[simp] theorem subscribed_slot (m : MinimalMQTT κ) (i : Fin 2) (topic : List UInt8)
    (callback : Option κ) :
    (m.subscribed i topic callback).slot i = (m.slot i).store topic callback := by
  simp [slot, subscribed]

@[simp] theorem touched_slot (m : MinimalMQTT κ) (now : UInt32) (i : Fin 2) :
    (m.touched now).slot i = m.slot i := rfl

/-- The other slot is left alone. -/
theorem subscribed_of_ne (m : MinimalMQTT κ) {i j : Fin 2} (h : j ≠ i) (topic : List UInt8)
    (callback : Option κ) : (m.subscribed i topic callback).slot j = m.slot j := by
  have hval : i.val ≠ j.val := fun heq => h (Fin.ext heq.symm)
  simp [slot, subscribed, Vector.getElem_set_ne, hval]

theorem subscribed_listensIn (m : MinimalMQTT κ) (i : Fin 2) {topic : List UInt8}
    (callback : Option κ) (hlen : topic.length ≤ 31) (hne : 0 ∉ topic) :
    ListensIn (m.subscribed i topic callback) i topic := by
  rw [ListensIn, subscribed_slot]
  exact ⟨rfl, store_topic (m.slot i) callback hlen hne⟩

/-- Without a session, a callback or a slot `subscribe` does nothing. -/
theorem subscribe_refused {s : Session κ} {topic : List UInt8} {callback : Option κ}
    (h : s.mqtt.state ≠ .connected ∨ callback = none ∨ s.mqtt.freeSlot = none) :
    subscribe d topic callback s = (some false, s) := by
  simp only [subscribe, Attempt.bind_apply, Attempt.read_apply, Attempt.ite_apply,
    Option.isNone_iff_eq_none]
  split_ifs with hguard
  · rfl
  · have hslot : s.mqtt.freeSlot = none := by tauto
    rw [hslot]
    rfl

/-- A `subscribe` in a session with a free slot. -/
theorem subscribe_eq {s : Session κ} {slot : Fin 2} (topic : List UInt8) (callback : κ)
    (hstate : s.mqtt.state = .connected) (hslot : s.mqtt.freeSlot = some slot) :
    let packet := subscribePacket s.mqtt.packetId topic
    let m := { s.mqtt with packetId := s.mqtt.packetId + 1 }
    subscribe d topic (some callback) s =
      if d.send s.chip.calls packet = packet.length then
        (some true, ⟨(m.subscribed slot topic (some callback)).touched
          (s.chip.sending d packet).millis, s.chip.sending d packet⟩)
      else (some false, ⟨m, s.chip.sending d packet⟩) := by
  simp only [subscribe, Attempt.bind_apply, Attempt.read_apply, hstate, ne_eq, not_true_eq_false,
    Option.isNone_some, Bool.false_eq_true, or_self, if_false, hslot, update_apply, io_apply,
    socketSend_apply]
  by_cases htaken : d.send s.chip.calls (subscribePacket s.mqtt.packetId topic) =
      (subscribePacket s.mqtt.packetId topic).length
  · simp only [htaken, decide_true, if_true]
    rfl
  · simp only [htaken, decide_false, if_false]
    rfl

/-- What `subscribe` does to a session with a free slot. -/
structure Session.Subscribed (s s' : Session κ) (i : Fin 2) (topic : List UInt8) (callback : κ)
    (taken : Bool) : Prop where
  state : s'.mqtt.state = .connected
  slot : ∀ j, s'.mqtt.slot j =
    if taken then (s.mqtt.subscribed i topic (some callback)).slot j else s.mqtt.slot j
  sent : s.chip.sent <:+ s'.chip.sent
  onRecord : s'.chip.SubscribesTaken → taken = true

theorem subscribe_subscribed {s : Session κ} {slot : Fin 2} (topic : List UInt8) (callback : κ)
    (hstate : s.mqtt.state = .connected) (hslot : s.mqtt.freeSlot = some slot) :
    ∃ taken s', subscribe d topic (some callback) s = (some taken, s') ∧
      s.Subscribed s' slot topic callback taken := by
  rw [subscribe_eq topic callback hstate hslot]
  split_ifs with htaken
  · exact ⟨true, _, rfl, hstate, fun _ => rfl, List.suffix_cons _ _, fun _ => rfl⟩
  · refine ⟨false, _, rfl, hstate, fun _ => rfl, List.suffix_cons _ _, fun h => absurd ?_ htaken⟩
    exact h _ List.mem_cons_self rfl

/-- Taken or not, the packet was handed to the socket, and its id is used up. -/
theorem subscribe_sent {s s' : Session κ} {slot : Fin 2} {topic : List UInt8} {callback : κ}
    {taken : Bool} (hstate : s.mqtt.state = .connected) (hslot : s.mqtt.freeSlot = some slot)
    (h : subscribe d topic (some callback) s = (some taken, s')) :
    s'.mqtt.packetId = s.mqtt.packetId + 1 ∧
      s'.chip.sent = (subscribePacket s.mqtt.packetId topic,
        d.send s.chip.calls (subscribePacket s.mqtt.packetId topic)) :: s.chip.sent := by
  rw [subscribe_eq topic callback hstate hslot] at h
  split_ifs at h
  · obtain rfl := (Prod.mk.inj h).2
    exact ⟨rfl, rfl⟩
  · obtain rfl := (Prod.mk.inj h).2
    exact ⟨rfl, rfl⟩

theorem freeSlot_first {m : MinimalMQTT κ} (h : (m.slot 0).active = false) :
    m.freeSlot = some 0 := by
  have hfree : m.subscriptions[0].active = false := h
  simp [freeSlot, hfree]

theorem freeSlot_second {m : MinimalMQTT κ} (hfirst : (m.slot 0).active = true)
    (h : (m.slot 1).active = false) : m.freeSlot = some 1 := by
  have htaken : m.subscriptions[0].active = true := hfirst
  have hfree : m.subscriptions[1].active = false := h
  simp [freeSlot, htaken, hfree]

/-- After a first `subscribe` there is a slot for a second one. -/
theorem Session.Subscribed.freeSlot {s s' : Session κ} {topic : List UInt8} {callback : κ}
    {taken : Bool} (h : s.Subscribed s' 0 topic callback taken) (hclear : s.Unsubscribed) :
    s'.mqtt.freeSlot = some (if taken then 1 else 0) := by
  cases taken with
  | false =>
    refine freeSlot_first ?_
    rw [h.slot 0]
    exact hclear 0
  | true =>
    refine freeSlot_second ?_ ?_
    · rw [h.slot 0, if_pos rfl, subscribed_slot]
      rfl
    · rw [h.slot 1, if_pos rfl, subscribed_of_ne s.mqtt (by decide)]
      exact hclear 1

end Keeps
end SmartBell.MQTT
