import SmartBell.Common.Runs

/-!
# `SmartBell::MQTTClient`

A wrapper of a library client, which keeps the flag `isconnected` of its own. A lost connection
is made good by `try_reconnect`, if `reconnect_pending_` is set; the operations have to set it
when the library has cleared its flag.
-/
namespace SmartBell.Network
open Common

inductive MQTTStatus where
  | disconnected
  | connecting
  | connected
  | error
  deriving DecidableEq, Repr

structure MQTTConfig where
  brokerIp : List UInt8
  brokerPort : UInt16
  clientId : List UInt8
  keepaliveSec : UInt16
  cleanSession : Bool
  deriving DecidableEq, Repr

structure MQTTCredentials where
  username : Option (List UInt8)
  password : Option (List UInt8)
  deriving DecidableEq, Repr

/-- What a call of the library returns, and whether it clears `isconnected`, which it may do if it
returns an error. -/
structure Reply where
  rc : Int
  cleared : Bool
  deriving DecidableEq, Repr

/-- `isconnected` behind the call. -/
def Reply.flag (r : Reply) (isconnected : Bool) : Bool :=
  if r.rc ≠ 0 ∧ r.cleared then false else isconnected

/-- The calls of `connect`: the result of `ConnectNetwork`, `isconnected` as `MQTTClientInit` leaves
it, and the reply of `MQTTConnect`. -/
structure ConnectReply where
  network : Int
  isconnected : Bool
  connect : Reply
  deriving DecidableEq, Repr

/-- `isconnected` belongs to the client that `mqtt_client_` points to, if it points to one. -/
structure MQTTClient where
  status : MQTTStatus
  lastConfig : MQTTConfig
  lastCredentials : MQTTCredentials
  hasCredentials : Bool
  reconnectIntervalSec : UInt32
  lastDisconnectTime : UInt32
  reconnectPending : Bool
  isconnected : Option Bool
  initialized : Bool
  deriving DecidableEq, Repr

namespace MQTTClient

def kDefaultReconnectInterval : UInt32 := 30

/-- As constructed. -/
def start : MQTTClient where
  status := .disconnected
  lastConfig := ⟨[0, 0, 0, 0], 0, [], 0, false⟩
  lastCredentials := ⟨none, none⟩
  hasCredentials := false
  reconnectIntervalSec := kDefaultReconnectInterval
  lastDisconnectTime := 0
  reconnectPending := false
  isconnected := none
  initialized := false

def init (s : MQTTClient) : MQTTClient :=
  { s with
    isconnected := some (s.isconnected.getD false)
    initialized := true
    status := .disconnected }

def isConnected (s : MQTTClient) : Bool := s.initialized && s.isconnected.getD false

/-- What the failing paths of `connect` store. -/
def connectFailed (now : UInt32) (s : MQTTClient) : MQTTClient :=
  { s with status := .error, lastDisconnectTime := now, reconnectPending := true }

def connect (config : MQTTConfig) (credentials : Option MQTTCredentials) (now : UInt32)
    (reply : ConnectReply) (s : MQTTClient) : Bool × MQTTClient :=
  if !s.initialized then (false, s)
  else
    let s := { s with
      status := .connecting
      reconnectPending := false
      lastConfig := config
      lastCredentials := credentials.getD s.lastCredentials
      hasCredentials := credentials.isSome }
    if reply.network ≠ 0 then (false, s.connectFailed now)
    else if reply.connect.rc ≠ 0 then
      let s := { s with isconnected := some (reply.connect.flag reply.isconnected) }
      (false, s.connectFailed now)
    else (true, { s with isconnected := some true, status := .connected })

/-- The client behind a call of the library. -/
def replied (reply : Reply) (s : MQTTClient) : MQTTClient :=
  { s with isconnected := s.isconnected.map reply.flag }

/-- A call of the library for a client that is connected, and what is stored if the connection
was lost in it. -/
def request (reply : Reply) (lost : MQTTClient → MQTTClient) (s : MQTTClient) :
    Bool × MQTTClient :=
  if !s.isConnected then (false, s)
  else
    let s := s.replied reply
    if reply.rc ≠ 0 then (false, if !s.isConnected then lost s else s) else (true, s)

def disconnected (now : UInt32) (s : MQTTClient) : MQTTClient :=
  { s with status := .disconnected, lastDisconnectTime := now, reconnectPending := true }

def publish (now : UInt32) (reply : Reply) : MQTTClient → Bool × MQTTClient :=
  request reply (disconnected now)

def subscribe (reply : Reply) : MQTTClient → Bool × MQTTClient := request reply id

def unsubscribe (reply : Reply) : MQTTClient → Bool × MQTTClient := request reply id

def yield (now : UInt32) (reply : Reply) : MQTTClient → Bool × MQTTClient :=
  request reply (disconnected now)

/-- `failed` is the time when the attempt has failed. -/
def tryReconnect (now failed : UInt32) (reply : ConnectReply) (s : MQTTClient) :
    Bool × MQTTClient :=
  if !s.reconnectPending then (false, s)
  else if now - s.lastDisconnectTime < s.reconnectIntervalSec then (false, s)
  else
    s.connect s.lastConfig (if s.hasCredentials then some s.lastCredentials else none) failed reply

/-- The calls of a user who does not disconnect, with what the library and the clock reply. -/
inductive Event where
  | init
  | connect (config : MQTTConfig) (credentials : Option MQTTCredentials) (now : UInt32)
      (reply : ConnectReply)
  | publish (now : UInt32) (reply : Reply)
  | subscribe (reply : Reply)
  | unsubscribe (reply : Reply)
  | yield (now : UInt32) (reply : Reply)
  | tryReconnect (now failed : UInt32) (reply : ConnectReply)
  deriving DecidableEq, Repr

/-- The result of a call, and the client behind it. -/
def perform (s : MQTTClient) : Event → Bool × MQTTClient
  | .init => (true, s.init)
  | .connect config credentials now reply => s.connect config credentials now reply
  | .publish now reply => s.publish now reply
  | .subscribe reply => s.subscribe reply
  | .unsubscribe reply => s.unsubscribe reply
  | .yield now reply => s.yield now reply
  | .tryReconnect now failed reply => s.tryReconnect now failed reply

def step (s : MQTTClient) (e : Event) : MQTTClient := (s.perform e).2

/-- The event is a connect that succeeds. -/
def Connects (s : MQTTClient) : Event → Prop
  | .connect config credentials now reply => (s.connect config credentials now reply).1 = true
  | .tryReconnect now failed reply => (s.tryReconnect now failed reply).1 = true
  | _ => False

/-- A client that is not connected will try again. -/
def Scheduled (s : MQTTClient) : Prop := s.isConnected = false → s.reconnectPending = true

/-- From the first connect that succeeds on, every operation leaves the client scheduled. -/
def AlwaysScheduled (es : List Event) : Prop :=
  ∀ pre e post, es = pre ++ e :: post → (run step start pre).Connects e →
    Throughout step Scheduled (run step start (pre ++ [e])) post

/-- The connection is not lost in a subscribe or unsubscribe, unless a reconnect is pending
already. -/
def Kept (s : MQTTClient) : Event → Prop
  | .subscribe reply | .unsubscribe reply =>
    s.isConnected = true → reply.rc ≠ 0 ∧ reply.cleared = true → s.reconnectPending = true
  | _ => True

instance : DecidablePred Scheduled := fun _ => inferInstanceAs (Decidable (_ → _))

/-! ## Operations -/

variable {s : MQTTClient}

/-- A connect that succeeds leaves the client connected. -/
theorem isConnected_of_connect {config : MQTTConfig} {credentials : Option MQTTCredentials}
    {now : UInt32} {reply : ConnectReply} (h : (s.connect config credentials now reply).1 = true) :
    (s.connect config credentials now reply).2.isConnected = true := by
  unfold connect at *
  dsimp only at *
  split_ifs at * with hinit hnetwork hconnect
  have hready : s.initialized = true := by simpa using hinit
  simp [isConnected, hready]

/-- Every other leaves a reconnect pending, or nothing changed. -/
theorem scheduled_connect (h : s.Scheduled) (config : MQTTConfig)
    (credentials : Option MQTTCredentials) (now : UInt32) (reply : ConnectReply) :
    (s.connect config credentials now reply).2.Scheduled := by
  cases hresult : (s.connect config credentials now reply).1 with
  | true =>
    intro hlost
    rw [isConnected_of_connect hresult] at hlost
    cases hlost
  | false =>
    unfold connect at *
    dsimp only at *
    split_ifs at * with hinit hnetwork hconnect
    · exact h
    · exact fun _ => rfl
    · exact fun _ => rfl

theorem scheduled_tryReconnect (h : s.Scheduled) (now failed : UInt32) (reply : ConnectReply) :
    (s.tryReconnect now failed reply).2.Scheduled := by
  unfold tryReconnect
  split_ifs
  · exact h
  · exact h
  all_goals exact scheduled_connect h _ _ _ _

theorem scheduled_of_connects {e : Event} (h : s.Connects e) : (s.step e).Scheduled := by
  have hconnected : (s.step e).isConnected = true := by
    cases e with
    | connect config credentials now reply => exact isConnected_of_connect h
    | tryReconnect now failed reply =>
      have hresult : (s.tryReconnect now failed reply).1 = true := h
      change (s.tryReconnect now failed reply).2.isConnected = true
      unfold tryReconnect at *
      split_ifs at *
      all_goals exact isConnected_of_connect hresult
    | _ => cases h
  intro hlost
  rw [hconnected] at hlost
  cases hlost

/-- The reply of a call decides whether a connected client still is. -/
theorem isConnected_replied (h : s.isConnected = true) (reply : Reply) :
    (s.replied reply).isConnected = reply.flag true := by
  simp only [isConnected, Bool.and_eq_true] at h
  obtain ⟨hinit, hflag⟩ := h
  cases hclient : s.isconnected with
  | none => simp [hclient] at hflag
  | some flag =>
    obtain rfl : flag = true := by simpa [hclient] using hflag
    simp [isConnected, replied, hclient, hinit]

/-- A call that loses the connection leaves what `lost` makes of the client. -/
theorem request_scheduled_iff (h : s.Scheduled) (reply : Reply) (lost : MQTTClient → MQTTClient)
    (hlost : ∀ s, (lost s).isConnected = s.isConnected) :
    (request reply lost s).2.Scheduled ↔
      (s.isConnected = true → reply.rc ≠ 0 ∧ reply.cleared = true →
        (lost (s.replied reply)).reconnectPending = true) := by
  cases hconnected : s.isConnected with
  | false => simp [request, hconnected, h]
  | true =>
    have hafter := isConnected_replied hconnected reply
    by_cases hbad : reply.rc ≠ 0 ∧ reply.cleared = true
    · rw [Reply.flag, if_pos hbad] at hafter
      have hresult : (request reply lost s).2 = lost (s.replied reply) := by
        simp [request, hconnected, hafter, hbad.1]
      rw [hresult, Scheduled, hlost, hafter]
      exact ⟨fun hpending _ _ => hpending rfl, fun hpending _ => hpending rfl hbad⟩
    · rw [Reply.flag, if_neg hbad] at hafter
      have hresult : (request reply lost s).2 = s.replied reply := by
        simp only [request, hconnected, hafter, Bool.not_true, Bool.false_eq_true, if_false]
        split_ifs <;> rfl
      rw [hresult, Scheduled, hafter]
      exact ⟨fun _ _ h => absurd h hbad, fun _ h => by cases h⟩

/-- `publish` and `yield` note a connection that they lose. -/
theorem scheduled_request (h : s.Scheduled) (now : UInt32) (reply : Reply) :
    (request reply (disconnected now) s).2.Scheduled :=
  (request_scheduled_iff h reply (disconnected now) fun _ => rfl).mpr fun _ _ => rfl

/-- What one operation preserves: only `subscribe` and `unsubscribe` can lose the connection
without a note. -/
theorem scheduled_step_iff (h : s.Scheduled) (e : Event) : (s.step e).Scheduled ↔ s.Kept e := by
  cases e with
  | init =>
    refine iff_of_true (fun hlost => h ?_) trivial
    have hflag : s.isconnected.getD false = false := by
      simpa [step, perform, init, isConnected] using hlost
    simp [isConnected, hflag]
  | connect config credentials now reply =>
    exact iff_of_true (scheduled_connect h config credentials now reply) trivial
  | publish now reply => exact iff_of_true (scheduled_request h now reply) trivial
  | subscribe reply => exact request_scheduled_iff h reply id fun _ => rfl
  | unsubscribe reply => exact request_scheduled_iff h reply id fun _ => rfl
  | yield now reply => exact iff_of_true (scheduled_request h now reply) trivial
  | tryReconnect now failed reply =>
    exact iff_of_true (scheduled_tryReconnect h now failed reply) trivial

/-- Not connected, and nothing to change that. -/
def Lost (s : MQTTClient) : Prop :=
  s.initialized = true ∧ s.isConnected = false ∧ s.reconnectPending = false

/-- The client stays lost, whatever is called, until the user connects. -/
theorem Lost.step (h : s.Lost) {e : Event}
    (he : ∀ config credentials now reply, e ≠ .connect config credentials now reply) :
    (s.step e).Lost := by
  obtain ⟨hinit, hlost, hpending⟩ := h
  have hflag : s.isconnected.getD false = false := by
    simpa [isConnected, hinit] using hlost
  have hrequest (reply : Reply) (lost : MQTTClient → MQTTClient) :
      (request reply lost s).2 = s := by
    simp [request, hlost]
  have hquiet : (s.step e).Lost ∨ s.step e = s := by
    cases e with
    | init => exact .inl ⟨rfl, hflag, hpending⟩
    | connect config credentials now reply => exact absurd rfl (he _ _ _ _)
    | tryReconnect now failed reply =>
      refine .inr ?_
      simp [MQTTClient.step, perform, tryReconnect, hpending]
    | publish now reply => exact .inr (hrequest reply _)
    | subscribe reply => exact .inr (hrequest reply _)
    | unsubscribe reply => exact .inr (hrequest reply _)
    | yield now reply => exact .inr (hrequest reply _)
  rcases hquiet with hnext | hsame
  · exact hnext
  · rw [hsame]
    exact ⟨hinit, hlost, hpending⟩

theorem Lost.run (h : s.Lost) {es : List Event}
    (hes : ∀ e ∈ es, ∀ config credentials now reply, e ≠ .connect config credentials now reply) :
    (Common.run MQTTClient.step s es).Lost :=
  run_of_along (fun _ _ h he => h.step he) h (along_of_forall hes)

/-! ## Runs -/

/-- From the first connect on, a lost connection is always scheduled for a reconnect exactly if no
subscribe and no unsubscribe loses it. -/
theorem alwaysScheduled_iff (es : List Event) : AlwaysScheduled es ↔
    ∀ pre e post, es = pre ++ e :: post → (run step start pre).Connects e →
      Along step Kept (run step start (pre ++ [e])) post := by
  refine forall_congr' fun pre => forall_congr' fun e => forall_congr' fun post =>
    imp_congr_right fun _ => imp_congr_right fun hconnects => ?_
  have hstep (s : MQTTClient) (e : Event) (h : s.Scheduled) : (s.step e).Scheduled ↔ s.Kept e :=
    scheduled_step_iff h e
  refine throughout_iff_along hstep ?_
  rw [run_snoc]
  exact scheduled_of_connects hconnects

/-- A subscription that finds the connection broken. -/
theorem not_alwaysScheduled_subscribe :
    ¬AlwaysScheduled [.init, .connect ⟨[192, 168, 0, 1], 1883, [98], 60, true⟩ none 0
      ⟨0, false, ⟨0, false⟩⟩, .subscribe ⟨-1, true⟩] := by
  intro h
  have hscheduled := h [.init] _ _ rfl rfl
  exact absurd hscheduled.last (by decide)

end MQTTClient
end SmartBell.Network
