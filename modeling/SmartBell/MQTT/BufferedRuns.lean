import SmartBell.MQTT.Requests
import SmartBell.MQTT.SendLimits

/-!
# Runs with the send buffer

The runs so far were runs of a client without a send buffer. As long as every packet of a
run fits into `send_buffer_`, the client with the buffer goes through the same sessions and
makes the same calls, whatever each call finds in the buffer, and writes nowhere else.
Nothing is said of a run in which a topic of more than 57 characters is subscribed to, or
in which a CONNECT or a wrapped size leads past the buffer: there the sessions of the other
client are not those of the program.
-/
namespace SmartBell.MQTT
open Common MinimalMQTT Attempt

/-! ## Requests -/

/-- What is to be sent fits into the buffer, or `publish` refuses it. -/
def Request.Fits {κ : Type} : Request κ → Prop
  | .connect config => (connectPacket config).length ≤ 64
  | .subscribe topic _ => topic.length ≤ 57
  | .publish topic payload =>
    2 + topic.length + payload.length ≤ 62 ∨ 64 < (2 + topic.length + payload.length + 2) % 65536
  | .disconnect => True
  | .loop => True

namespace Buffered
variable {κ : Type}

/-- `connect`; the result, and the buffer in the end. -/
def connect (d : Driver) (config : Config) (sendBuffer : Vector UInt8 64) :
    Attempt (Session κ) (Bool × SendBuffer) := do
  update fun m => { m.clearSubscriptions with config, state := .connecting }
  let connected ← io (socketConnect d config.brokerIp config.brokerPort)
  if !connected then do
    update (·.withState .error)
    pure (false, .start sendBuffer)
  else do
    let sent ← sendConnectPacket d sendBuffer
    if !sent.1 then do
      let failed ← connectFailed d
      pure (failed, sent.2)
    else do
      let accepted ← finishConnect d
      pure (accepted, sent.2)

/-- A request to the client with its buffer. The packets of the other methods are two bytes. -/
def perform (d : Driver) (sendBuffer : Vector UInt8 64) :
    Request κ → Attempt (Session κ) (Outcome κ)
  | .connect config => do
    let connected ← connect d config sendBuffer
    pure ⟨connected.1, []⟩
  | .subscribe topic callback => do
    let success ← subscribe d topic callback sendBuffer
    pure ⟨success.1, []⟩
  | .publish topic payload => do
    let success ← publish d topic payload sendBuffer
    pure ⟨success.1, []⟩
  | .disconnect => Request.perform d .disconnect
  | .loop => Request.perform d .loop

/-- What comes of the next turn, with what it finds in the buffer. -/
def outcome (d : Driver) (s : Session κ) (e : Turn κ × Vector UInt8 64) : Option (Outcome κ) :=
  (perform d e.2 e.1.request (s.atTime e.1.time e.1.rx)).1

/-- The session after the next turn. -/
def turn (d : Driver) (s : Session κ) (e : Turn κ × Vector UInt8 64) : Session κ :=
  (perform d e.2 e.1.request (s.atTime e.1.time e.1.rx)).2

end Buffered

/-! ## One request -/

section Requests
variable {κ : Type} {d : Driver}

/-- A result that comes with the buffer is used without it. -/
theorem bind_of_refines {σ α β γ : Type} {x : Attempt σ (α × β)} {y : Attempt σ α}
    (h : ∀ s, ((x s).1.map Prod.fst, (x s).2) = y s) (f : α → Attempt σ γ) :
    (x >>= fun r => f r.1) = y >>= f := by
  funext s
  have hs := h s
  rcases hx : x s with ⟨_ | r, t⟩
  · rw [hx] at hs
    rw [bind_none hx, bind_none hs.symm]
  · rw [hx] at hs
    rw [bind_some hx, bind_some hs.symm]

/-- A CONNECT that fits makes the `connect` of the client without a buffer. -/
theorem connect_refines (sendBuffer : Vector UInt8 64) {config : Config}
    (hfits : (connectPacket config).length ≤ 64) (s : Session κ) :
    ((Buffered.connect d config sendBuffer s).1.map Prod.fst,
      (Buffered.connect d config sendBuffer s).2) = MinimalMQTT.connect d config s := by
  obtain ⟨connected, c, hsocket, _⟩ :=
    socketConnect_traffic (d := d) config.brokerIp config.brokerPort s.chip
  have hsent : ∃ b, Buffered.sendConnectPacket d sendBuffer ⟨s.mqtt.connecting config, c⟩ =
      (some (decide (d.send c.calls (connectPacket config) = (connectPacket config).length), b),
        ⟨s.mqtt.connecting config, c.sending d (connectPacket config)⟩) := by
    obtain ⟨hresult, hsession⟩ := Prod.mk.inj (sendConnectPacket_refines (d := d) sendBuffer
      (s := ⟨s.mqtt.connecting config, c⟩) hfits)
    obtain ⟨r, hr, hfst⟩ := Option.map_eq_some_iff.mp hresult
    exact ⟨r.2, Prod.ext (hr.trans (congrArg some (Prod.ext hfst rfl))) hsession⟩
  obtain ⟨b, hsend⟩ := hsent
  have hupdate : update (fun m : MinimalMQTT κ =>
      { m.clearSubscriptions with config, state := .connecting }) s =
      (some (), ⟨s.mqtt.connecting config, s.chip⟩) := rfl
  have hconnect : io (socketConnect d config.brokerIp config.brokerPort)
      ⟨s.mqtt.connecting config, s.chip⟩ =
      (some connected, ⟨s.mqtt.connecting config, c⟩) := by
    rw [io_apply, hsocket]
  rw [connect_eq d config s hsocket, Buffered.connect, bind_some hupdate, bind_some hconnect]
  cases connected with
  | false => rfl
  | true =>
    simp only [Bool.not_true, Bool.false_eq_true, if_false]
    rw [bind_some hsend]
    by_cases htaken : d.send c.calls (connectPacket config) = (connectPacket config).length
    · simp only [htaken, decide_true, Bool.not_true, Bool.false_eq_true, if_false, if_true]
      rw [bind_pure_apply]
      exact Prod.ext (by simp [Function.comp_def]) rfl
    · simp only [htaken, decide_false, Bool.not_false, if_false, if_true]
      rw [bind_pure_apply]
      exact Prod.ext (by simp [Function.comp_def]) rfl

theorem perform_refines (sendBuffer : Vector UInt8 64) {request : Request κ}
    (hfits : request.Fits) :
    Buffered.perform d sendBuffer request = request.perform d := by
  let answer (success : Bool) : Attempt (Session κ) (Outcome κ) := pure ⟨success, []⟩
  cases request with
  | connect config => exact bind_of_refines (connect_refines (d := d) sendBuffer hfits) answer
  | subscribe topic callback =>
    exact bind_of_refines (fun s => subscribe_refines (d := d) (s := s) callback sendBuffer hfits)
      answer
  | publish topic payload =>
    exact bind_of_refines (fun s => publish_refines (d := d) (s := s) sendBuffer hfits) answer
  | disconnect => rfl
  | loop => rfl

end Requests

/-- What the request puts into the buffer, if it gets that far. -/
def Request.built {κ : Type} (packetId : UInt16) (sendBuffer : Vector UInt8 64) :
    Request κ → SendBuffer
  | .connect config => buildConnect config sendBuffer
  | .subscribe topic _ => buildSubscribe packetId topic sendBuffer
  | .publish topic payload => (buildPublish topic payload sendBuffer).2
  | .disconnect => (SendBuffer.push (.start sendBuffer) 0xE0).push 0
  | .loop => (SendBuffer.push (.start sendBuffer) 0xC0).push 0

/-- A request that fits writes to the buffer only. -/
theorem Request.Fits.inside {κ : Type} {request : Request κ} (h : request.Fits)
    (packetId : UInt16) (sendBuffer : Vector UInt8 64) :
    (request.built packetId sendBuffer).Inside := by
  cases request with
  | connect config => exact (buildConnect_holds sendBuffer h).writes
  | subscribe topic callback =>
    refine (buildSubscribe_inside packetId topic sendBuffer).mpr ?_
    exact (Nat.mod_le _ _).trans h
  | publish topic payload =>
    rcases h with hfits | hlarge
    · obtain ⟨b, hbuild, hholds⟩ := buildPublish_holds topic payload sendBuffer hfits
      rw [Request.built, hbuild]
      exact hholds.writes
    · rw [Request.built, buildPublish_refused sendBuffer hlarge]
      simp
  | disconnect => simp [Request.built, u16]
  | loop => simp [Request.built, u16]

/-! ## Runs -/

section Runs
variable {κ : Type} {d : Driver}

/-- A run whose packets fit is the run of the client without a buffer, whatever each call finds in
the buffer. -/
theorem run_refines (s : Session κ) {es : List (Turn κ × Vector UInt8 64)}
    (hfits : ∀ e ∈ es, e.1.request.Fits) :
    run (Buffered.turn d) s es = run (Session.turn d) s (es.map Prod.fst) := by
  induction es generalizing s with
  | nil => rfl
  | cons e es ih =>
    have hturn : Buffered.turn d s e = s.turn d e.1 := by
      rw [Buffered.turn, perform_refines e.2 (hfits e List.mem_cons_self)]
      rfl
    rw [run_cons, hturn, List.map_cons, run_cons]
    exact ih _ fun e he => hfits e (List.mem_cons_of_mem _ he)

/-- What comes of a turn after such a run is the same, too. -/
theorem outcome_refines (s : Session κ) {es : List (Turn κ × Vector UInt8 64)}
    {e : Turn κ × Vector UInt8 64} (hfits : ∀ e' ∈ es ++ [e], e'.1.request.Fits) :
    Buffered.outcome d (run (Buffered.turn d) s es) e =
      (run (Session.turn d) s (es.map Prod.fst)).outcome d e.1 := by
  rw [run_refines s fun e' he => hfits e' (List.mem_append_left _ he), Buffered.outcome,
    perform_refines e.2 (hfits e (by simp))]
  rfl

/-- A call of the main loop as a turn. -/
def ClientCall.turn (t : Nat) : ClientCall κ → Turn κ
  | .loop poll => ⟨t, [poll], .loop⟩
  | .publish topic payload => ⟨t, [], .publish topic payload⟩
  | .subscribe topic callback => ⟨t, [], .subscribe topic callback⟩

theorem turn_call (s : Session κ) (t : Nat) (c : ClientCall κ) :
    s.turn d (c.turn t) = s.call d t c := by
  have hdropped {α : Type} (x : Attempt (Session κ) α) (f : α → Outcome κ) (s' : Session κ) :
      ((x >>= fun a => pure (f a)) s').2 = (x s').2 := by
    rw [bind_pure_apply]
  cases c with
  | loop poll => exact hdropped _ _ _
  | publish topic payload => exact hdropped _ _ _
  | subscribe topic callback => exact hdropped _ _ _

/-- An observed run is one of the client with its buffer, too. -/
theorem observed_refines (o : Observed κ) {calls : List ((Nat × ClientCall κ) × Vector UInt8 64)}
    (hfits : ∀ c ∈ calls, (c.1.2.turn c.1.1).request.Fits) :
    (run (Observed.step d) o (calls.map Prod.fst)).session =
      run (Buffered.turn d) o.session (calls.map fun c => (c.1.2.turn c.1.1, c.2)) := by
  have hturns : ∀ e ∈ calls.map (fun c => (c.1.2.turn c.1.1, c.2)), e.1.request.Fits := by
    intro e he
    obtain ⟨c, hc, rfl⟩ := List.mem_map.mp he
    exact hfits c hc
  rw [run_refines o.session hturns, List.map_map]
  clear hturns
  induction calls generalizing o with
  | nil => rfl
  | cons c calls ih =>
    have hstep : (o.step d c.1).session = o.session.turn d (c.1.2.turn c.1.1) :=
      (turn_call _ _ _).symm
    rw [List.map_cons, run_cons, List.map_cons, run_cons, Function.comp_apply, ← hstep]
    exact ih (o.step d c.1) fun c' hc => hfits c' (List.mem_cons_of_mem _ hc)

end Runs

end SmartBell.MQTT
