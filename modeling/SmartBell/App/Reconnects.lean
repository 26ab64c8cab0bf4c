import SmartBell.App.Publications
import SmartBell.Common.Counter

/-!
# The pace of the reconnects

Without a session the main loop tries to connect again, and looks at the counter to do so
every five seconds. The time of the last attempt is kept as the counter showed it; the
pace holds in real time, across as many overflows of the counter as a run sees.
-/
namespace SmartBell.MQTT
open Common MinimalMQTT Attempt

/-! ## Time passes -/

section Time
variable {d : Driver} {α : Type}

/-- The clock does not go back. -/
def Chip.Later (c c' : Chip) : Prop := c.clock ≤ c'.clock

instance : IsPreorder Chip Chip.Later where
  refl _ := Nat.le_refl _
  trans _ _ _ := Nat.le_trans

theorem ioCall_later (answer : Nat → α) : Moves Chip.Later (ioCall d answer) := fun c =>
  Nat.le_add_right c.clock (d.tick c.calls)

theorem wdtReset_later : Moves Chip.Later wdtReset := fun c => Nat.le_refl c.clock

theorem waitForLink_later (n : Nat) : Moves Chip.Later (waitForLink d n) := by
  induction n with
  | zero => exact .pure false
  | succ n ih =>
    exact .bind (ioCall_later _) fun _ => .ite (fun _ => .pure true) fun _ =>
      .bind wdtReset_later fun _ => ih

theorem waitForEstablished_later (n : Nat) : Moves Chip.Later (waitForEstablished d n) := by
  induction n with
  | zero => exact .pure false
  | succ n ih =>
    exact .bind wdtReset_later fun _ => .bind (ioCall_later _) fun _ =>
      .ite (fun _ => .pure true) fun _ => .ite (fun _ => .pure false) fun _ => ih

theorem socketConnect_later (ip : Vector UInt8 4) (port : UInt16) :
    Moves Chip.Later (socketConnect d ip port) := by
  refine .bind (ioCall_later _) fun _ => .bind (waitForLink_later 50) fun _ =>
    .ite (fun _ => .pure false) fun _ => .bind (ioCall_later _) fun _ =>
    .ite (fun _ => .pure false) fun _ => .bind (ioCall_later _) fun _ =>
    .ite (fun _ => ?_) fun _ => waitForEstablished_later 50
  exact .bind (ioCall_later _) fun _ => .pure false

theorem socketDisconnect_later : Moves Chip.Later (socketDisconnect d) :=
  .bind (ioCall_later _) fun _ => ioCall_later _

theorem socketSend_later (data : List UInt8) : Moves Chip.Later (socketSend d data) :=
  .bind (fun c => Nat.le_add_right c.clock (d.tick c.calls)) fun _ => .pure _

theorem getSnRxRsr_later : Moves Chip.Later (getSnRxRsr d) := by
  intro c
  unfold getSnRxRsr
  cases c.rx with
  | nil => exact Nat.le_refl c.clock
  | cons poll rx => exact Nat.le_add_right c.clock (d.tick c.calls)

theorem socketRecv_later (maxLength : Nat) : Moves Chip.Later (socketRecv d maxLength) :=
  .bind getSnRxRsr_later fun _ => .ite (fun _ => .pure []) fun _ => ioCall_later _

theorem socketIsConnected_later : Moves Chip.Later (socketIsConnected d) :=
  .bind (ioCall_later _) fun _ => .pure _

end Time

section Methods
variable {κ α : Type} {d : Driver}

/-- Neither does the one of a session. -/
def Session.Later (s s' : Session κ) : Prop := s.chip.Later s'.chip

instance : IsPreorder (Session κ) Session.Later where
  refl s := refl_of Chip.Later s.chip
  trans _ _ _ h h' := trans_of Chip.Later h h'

theorem io_later {x : Attempt Chip α} (h : Moves Chip.Later x) :
    Moves (@Session.Later κ) (MinimalMQTT.io x) := fun s => h s.chip

theorem update_later (f : MinimalMQTT κ → MinimalMQTT κ) :
    Moves (@Session.Later κ) (update f) := fun s => Nat.le_refl s.chip.clock

theorem millis_later : Moves (@Session.Later κ) (MinimalMQTT.io millis) := fun s =>
  Nat.le_refl s.chip.clock

theorem receive_later : Moves (@Session.Later κ) (receive d) :=
  .bind (io_later (socketRecv_later _)) fun _ => .bind (update_later _) fun _ => .pure _

theorem connackLoop_later (start : UInt32) (n : Nat) :
    Moves (@Session.Later κ) (connackLoop d start n) := by
  induction n with
  | zero => exact .stop
  | succ n ih =>
    refine .bind millis_later fun now => .ite (fun _ => ?_) fun _ => .pure false
    exact .bind receive_later fun len => .bind .read fun s => .ite (fun _ => .pure _) fun _ => ih

theorem connectFailed_later : Moves (@Session.Later κ) (connectFailed d) :=
  .bind (io_later socketDisconnect_later) fun _ => .bind (update_later _) fun _ => .pure false

theorem connect_later (config : MQTT.Config) : Moves (@Session.Later κ) (connect d config) := by
  refine .bind (update_later _) fun _ => .bind (io_later (socketConnect_later _ _)) fun _ =>
    .ite (fun _ => .bind (update_later _) fun _ => .pure false) fun _ =>
    .bind (io_later (socketSend_later _)) fun _ => .ite (fun _ => connectFailed_later) fun _ =>
    .bind (.bind millis_later fun _ => .bind .read fun _ => connackLoop_later _ _) fun _ =>
    .ite (fun _ => connectFailed_later) fun _ => ?_
  exact .bind millis_later fun _ => .bind (update_later _) fun _ => .pure true

theorem publish_later (topic payload : List UInt8) :
    Moves (@Session.Later κ) (publish d topic payload) :=
  .bind .read fun _ => .ite (fun _ => .pure false) fun _ => .ite (fun _ => .pure false) fun _ =>
    .bind (io_later (socketSend_later _)) fun _ => .ite (fun _ => .bind millis_later fun _ =>
      .bind (update_later _) fun _ => .pure true) fun _ => .pure false

theorem subscribe_later (topic : List UInt8) (callback : Option κ) :
    Moves (@Session.Later κ) (subscribe d topic callback) := by
  refine .bind .read fun s => .ite (fun _ => .pure false) fun _ => ?_
  cases s.mqtt.freeSlot with
  | none => exact .pure false
  | some slot =>
    exact .bind (update_later _) fun _ => .bind (io_later (socketSend_later _)) fun _ =>
      .ite (fun _ => .bind millis_later fun _ => .bind (update_later _) fun _ => .pure true)
        fun _ => .pure false

theorem keepalive_later : Moves (@Session.Later κ) (keepalive d) := by
  refine .bind millis_later fun now => .bind .read fun s => .bind ?_ fun _ => ?_
  · refine .bind .read fun _ => .ite (fun _ => ?_) fun _ => .pure ()
    exact .bind (io_later (socketSend_later _)) fun _ => .ite (fun _ => .bind millis_later fun _ =>
      update_later _) fun _ => .pure ()
  · exact .bind .read fun _ => .ite (fun _ => update_later _) fun _ => .pure ()

theorem loop_later : Moves (@Session.Later κ) (MinimalMQTT.loop d) := by
  refine .bind .read fun _ => .ite (fun _ => .pure []) fun _ =>
    .bind (io_later socketIsConnected_later) fun _ => .ite (fun _ => ?_) fun _ => .bind ?_
    fun calls => .bind keepalive_later fun _ => .pure calls
  · exact .bind (update_later _) fun _ => .pure []
  · exact .bind receive_later fun _ => .ite (fun _ => .pure []) fun _ =>
      .bind millis_later fun _ => .bind (update_later _) fun _ => .bind .read fun _ => .pure _

end Methods
end SmartBell.MQTT

namespace SmartBell.App
open Common Config MQTT MinimalMQTT Attempt

/-! ## What is kept of the last attempt -/

/-- Time has passed, and no attempt was made. -/
structure Firmware.Later (f f' : Firmware) : Prop where
  clock : f.session.chip.clock ≤ f'.session.chip.clock
  lastMqttRetryMs : f'.lastMqttRetryMs = f.lastMqttRetryMs

instance : IsPreorder Firmware Firmware.Later where
  refl _ := ⟨Nat.le_refl _, rfl⟩
  trans _ _ _ h h' :=
    ⟨h.clock.trans h'.clock, h'.lastMqttRetryMs.trans h.lastMqttRetryMs⟩

/-- The main loop tries to connect again. -/
def Firmware.RetryDue (f : Firmware) : Prop :=
  f.mqttConfigured ∧ f.session.mqtt.state ≠ .connected ∧
    f.session.chip.millis - f.lastMqttRetryMs ≥ 5000

instance (f : Firmware) : Decidable f.RetryDue := inferInstanceAs (Decidable (_ ∧ _ ∧ _))

section Parts
variable {d : Driver}

theorem client_later {α : Type} {x : Attempt (Session Unit) α} (h : Moves Session.Later x) :
    Moves Firmware.Later (Firmware.client x) := fun f => ⟨h f.session, rfl⟩

theorem openSession_later : Moves Firmware.Later (openSession d) := by
  refine .bind .read fun f => .bind (client_later (connect_later _)) fun _ =>
    .ite (fun _ => .bind (client_later ?_) fun _ => .pure true) fun _ => .pure false
  exact .bind .read fun _ => .ite (fun _ => .pure ()) fun _ =>
    .bind (subscribe_later _ _) fun _ => .bind (subscribe_later _ _) fun _ => .pure ()

theorem processChime_later (f : Firmware) (i : ChimeId) (pind : UInt8) :
    Moves (@Session.Later Unit) (processChime isConnected
      (fun topic => MinimalMQTT.publish d (topic.text f.config) (ascii "1"))
      (counter f.session.chip.clock) pind i f.bell) := by
  intro s
  rw [processChime_session]
  split_ifs
  · exact refl_of Session.Later s
  · cases (f.bell.polled i f.session.chip.clock pind).attempt (s.mqtt.state = .connected) with
    | none => exact refl_of Session.Later s
    | some topic => exact publish_later _ _ s

theorem saveConnect_later : Moves Firmware.Later (saveConnect d) :=
  .bind .read fun _ => .bind (fun _ => ⟨Nat.le_refl _, rfl⟩) fun _ => .ite
    (fun _ => .bind (fun _ => ⟨Nat.le_refl _, rfl⟩) fun _ => .ite (fun _ => openSession_later)
      fun _ => .pure false) fun _ => .pure false

/-- A part other than the retry makes no attempt of its own. -/
theorem perform_later {st : Stage} (hst : st ≠ .retry) :
    Moves Firmware.Later (st.perform d) := by
  cases st with
  | boot pind =>
    exact .bind (.bind (.bind .read fun _ => .ite (fun _ => openSession_later)
      fun _ => .pure false) fun opened => .bind (fun _ => ⟨Nat.le_refl _, rfl⟩) fun _ =>
      .pure opened) fun _ => .pure ()
  | watchdog => exact client_later (io_later wdtReset_later)
  | client => exact .bind (client_later loop_later) fun _ _ => ⟨Nat.le_refl _, rfl⟩
  | retry => exact absurd rfl hst
  | save => exact .bind saveConnect_later fun _ => .pure ()
  | chime i pind =>
    intro f
    rw [Stage.perform, chimeRound_apply]
    exact ⟨processChime_later f i pind f.session, rfl⟩
  | console uart =>
    exact .bind (fun _ => ⟨Nat.le_refl _, rfl⟩) fun _ => .bind .read fun _ =>
      .ite (fun _ => .pure ()) fun _ => .stop
  | delay elapsed =>
    intro f
    simp only [Stage.perform, delayRound, modify_apply]
    split_ifs <;> exact ⟨by dsimp only; omega, rfl⟩

/-- A retry that is not due does nothing. -/
theorem retry_idle {f : Firmware} (h : ¬f.RetryDue) :
    (Stage.perform d .retry f).2 = f := by
  have hidle : retryConnect d f = (some false, f) := by
    simp only [retryConnect, bind_apply, read_apply, Attempt.ite_apply]
    exact if_neg h
  simp only [Stage.perform, bind_pure_apply, hidle]

/-- One that is due notes the time, and opens a session if it can. -/
theorem retry_due {f : Firmware} (h : f.RetryDue) :
    (Stage.perform d .retry f).2 =
      (openSession d { f with lastMqttRetryMs := f.session.chip.millis }).2 := by
  have hdue : retryConnect d f =
      openSession d { f with lastMqttRetryMs := f.session.chip.millis } := by
    simp only [retryConnect, bind_apply, read_apply, Attempt.ite_apply]
    exact if_pos h
  simp only [Stage.perform, bind_pure_apply, hdue]

end Parts

/-! ## Runs -/

/-- The time of the attempt that a part makes, if the run gets there. -/
def retriesAt (o : Option Unit × Firmware) : Stage → List Nat
  | .retry => if o.1.isSome ∧ o.2.RetryDue then [o.2.session.chip.clock] else []
  | _ => []

/-- The attempts so far have kept the pace, and what is kept of the last one is its time. -/
structure Paced (times : List Nat) (f : Firmware) : Prop where
  spaced : times.Pairwise fun a b => a + 5000 ≤ b
  last : ∃ t, f.lastMqttRetryMs = counter t ∧ t ≤ f.session.chip.clock ∧
    (∀ a ∈ times, a ≤ t) ∧ times.length * 5000 ≤ t

theorem Paced.later {times : List Nat} {f f' : Firmware} (h : Paced times f) (hf : f.Later f') :
    Paced times f' := by
  obtain ⟨t, hlast, hpast, htimes, hcount⟩ := h.last
  exact ⟨h.spaced, t, hf.lastMqttRetryMs.trans hlast, hpast.trans hf.clock, htimes, hcount⟩

/-- An attempt that is due comes five seconds after the one before, whatever the counter has done
in between. -/
theorem Paced.retry {times : List Nat} {f : Firmware} (h : Paced times f) (hdue : f.RetryDue) :
    Paced (times ++ [f.session.chip.clock])
      { f with lastMqttRetryMs := f.session.chip.millis } := by
  obtain ⟨t, hlast, hpast, htimes, hcount⟩ := h.last
  have helapsed := hdue.2.2
  rw [hlast, Chip.millis, ge_iff_le, le_counter_sub_iff hpast] at helapsed
  have hpace : t + 5000 ≤ f.session.chip.clock := by
    have hmod := Nat.mod_le (f.session.chip.clock - t) period
    have hfive : (5000 : UInt32).toNat = 5000 := rfl
    omega
  refine ⟨List.pairwise_append.mpr ⟨h.spaced, List.pairwise_singleton _ _, ?_⟩,
    f.session.chip.clock, rfl, le_rfl, ?_, ?_⟩
  · intro a ha b hb
    obtain rfl := List.mem_singleton.mp hb
    have hbefore := htimes a ha
    omega
  · intro a ha
    rcases List.mem_append.mp ha with hearlier | hnow
    · have hbefore := htimes a hearlier
      omega
    · exact (List.mem_singleton.mp hnow).le
  · rw [List.length_append, List.length_singleton, Nat.add_mul]
    exact (Nat.add_le_add_right hcount 5000).trans hpace

theorem Paced.step {d : Driver} {times : List Nat} {o : Option Unit × Firmware}
    (h : Paced times o.2) (st : Stage) :
    Paced (times ++ retriesAt o st) (next (Stage.perform d) o st).2 := by
  obtain ⟨_ | _, f⟩ := o
  · have hnone : retriesAt ((none, f) : Option Unit × Firmware) st = [] := by
      cases st <;> rfl
    rwa [hnone, List.append_nil]
  · by_cases hretry : st = .retry
    · subst hretry
      by_cases hdue : f.RetryDue
      · have hone : retriesAt (some (), f) .retry = [f.session.chip.clock] := if_pos ⟨rfl, hdue⟩
        rw [hone, next, retry_due hdue]
        exact (h.retry hdue).later (openSession_later _)
      · have hnone : retriesAt (some (), f) .retry = [] := if_neg fun hboth => hdue hboth.2
        rwa [hnone, List.append_nil, next, retry_idle hdue]
    · have hnone : retriesAt (some (), f) st = [] := by
        cases st with
        | retry => exact absurd rfl hretry
        | _ => rfl
      rw [hnone, List.append_nil]
      exact h.later (perform_later hretry f)

/-- Over any run, however long and whatever the ioLibrary answers: between two attempts of the
main loop to connect again there are at least five seconds of real time, and so in all there are
no more of them than the run has lasted five seconds. -/
theorem retries_paced (d : Driver) (eeprom : Memory) (portB : UInt8) (chip : Chip)
    (es : List Stage) :
    let main := next (Stage.perform d)
    let o := (some (), Firmware.loaded eeprom portB chip)
    (outputs main retriesAt o es).Pairwise (fun a b => a + 5000 ≤ b) ∧
      (outputs main retriesAt o es).length * 5000 ≤ (run main o es).2.session.chip.clock := by
  intro main o
  have hstart : Paced [] o.2 :=
    ⟨List.Pairwise.nil, 0, rfl, Nat.zero_le _, by simp, Nat.le_refl _⟩
  have hpaced := outputs_invariant (I := fun times (o : Option Unit × Firmware) => Paced times o.2)
    (fun _ _ st h => Paced.step (d := d) h st) hstart es
  obtain ⟨t, _, hpast, _, hcount⟩ := hpaced.last
  exact ⟨hpaced.spaced, hcount.trans hpast⟩

end SmartBell.App
