import SmartBell.Common.Bytes
import SmartBell.Common.Counter
import SmartBell.Common.Polling
import SmartBell.Common.Runs

/-!
# The two chimes

The state machine behind each bell button and its gong: `process_chime`, which the main
loop calls for both chimes in every round, and the MQTT callback that switches a gong
on and off or rings it. `out_port` and `in_port` are `PORTB` and `PIND` for both chimes;
these and the two pins are never assigned and are not part of the state. What the
callback writes to its log is left out.
-/
namespace SmartBell.App
open Common

inductive ChimeId where
  | chime1 | chime2
  deriving DecidableEq, Repr

/-- The configuration field that a `pub_topic` points to. -/
inductive PubTopic where
  | input1Topic | input2Topic
  deriving DecidableEq, Repr

structure ChimeState where
  enabled : Bool
  triggerPending : Bool
  isRinging : Bool
  ringStartMs : UInt32
  pubTopic : Option PubTopic
  buttonPressed : Bool
  mqttSent : Bool
  lastRawState : Bool
  lastDebounceMs : UInt32
  lastEventMs : UInt32
  deriving DecidableEq, Repr

/-- The chimes, the static variables of `process_chime` and the output register. -/
structure Bell where
  chime1 : ChimeState
  chime2 : ChimeState
  isLoopStarted : Bool
  loopStartMs : UInt32
  portB : UInt8
  deriving DecidableEq, Repr

def ChimeId.outPin : ChimeId → UInt8
  | .chime1 => 1 <<< (0 : UInt8)
  | .chime2 => 1 <<< (1 : UInt8)

def ChimeId.inPin : ChimeId → UInt8
  | .chime1 => 1 <<< (2 : UInt8)
  | .chime2 => 1 <<< (3 : UInt8)

namespace Bell

def chime (b : Bell) : ChimeId → ChimeState
  | .chime1 => b.chime1
  | .chime2 => b.chime2

def setChime (b : Bell) (i : ChimeId) (c : ChimeState) : Bell :=
  match i with
  | .chime1 => { b with chime1 := c }
  | .chime2 => { b with chime2 := c }

def withPort (b : Bell) (portB : UInt8) : Bell := { b with portB }

/-- The chime's output pin is driven high. -/
def High (b : Bell) (i : ChimeId) : Prop := b.portB &&& i.outPin ≠ 0

instance (b : Bell) (i : ChimeId) : Decidable (b.High i) := inferInstanceAs (Decidable (_ ≠ _))

end Bell

/-! ## Start -/

/-- A `ChimeState` as it is initialised, with its topic set by `main`. -/
def ChimeState.initial (pubTopic : PubTopic) : ChimeState where
  enabled := true
  triggerPending := false
  isRinging := false
  ringStartMs := 0
  pubTopic := some pubTopic
  buttonPressed := false
  mqttSent := false
  lastRawState := true
  lastDebounceMs := 0
  lastEventMs := 0

/-- The chime's input reads high, that is, the button is not pressed. -/
def rawState (pind : UInt8) (i : ChimeId) : Bool := pind &&& i.inPin != 0

/-- What `setup_GPIO` makes of `PORTB`: both outputs low, the W5500 not selected. -/
def setupGpio (portB : UInt8) : UInt8 :=
  (portB &&& ~~~(ChimeId.chime1.outPin ||| ChimeId.chime2.outPin)) ||| 1 <<< (2 : UInt8)

def initChime (raw : Bool) (now : UInt32) (c : ChimeState) : ChimeState :=
  { c with
    lastRawState := raw, lastDebounceMs := now, buttonPressed := false, mqttSent := false
    isRinging := false, triggerPending := false }

/-- The static variables, with `PORTB` as `setup_GPIO` left it. -/
def Bell.static (portB : UInt8) : Bell where
  chime1 := .initial .input1Topic
  chime2 := .initial .input2Topic
  isLoopStarted := false
  loopStartMs := 0
  portB := portB

def Bell.init (pind : UInt8) (now : UInt32) (b : Bell) : Bell :=
  { b with
    chime1 := initChime (rawState pind .chime1) now b.chime1
    chime2 := initChime (rawState pind .chime2) now b.chime2 }

/-- The chimes as they enter the main loop. -/
def Bell.boot (portB pind : UInt8) (now : UInt32) : Bell :=
  (Bell.static (setupGpio portB)).init pind now

/-! ## MQTT commands -/

/-- The chime that a topic is about, by the end of the topic. -/
def targetChime (topic : List UInt8) : Option ChimeId :=
  let tLen := topic.length
  if tLen ≥ 2 ∧ topic[tLen - 2]? = some (chr '/') then
    if topic[tLen - 1]? = some (chr '1') then some .chime1
    else if topic[tLen - 1]? = some (chr '2') then some .chime2
    else none
  else none

/-- What a payload does to its chime. -/
def ChimeState.command (payload : List UInt8) (c : ChimeState) : ChimeState :=
  if payload.take 2 = ascii "ON" then { c with enabled := true }
  else if payload.take 3 = ascii "OFF" then { c with enabled := false }
  else if payload.take 4 = ascii "RING" then { c with triggerPending := true }
  else c

def onMqttMessageReceived (topic payload : List UInt8) (b : Bell) : Bell :=
  match targetChime topic with
  | none => b
  | some i => b.setChime i ((b.chime i).command payload)

/-! ## `process_chime` -/

/-- The first call notes the time. -/
def Bell.startLoop (b : Bell) (now : UInt32) : Bell :=
  if !b.isLoopStarted then { b with loopStartMs := now, isLoopStarted := true } else b

/-- The start-up lock, as the code tests it. -/
def Bell.isLocked (b : Bell) (now : UInt32) : Bool := now - b.loopStartMs < 3000

/-- What the lock does instead of the rest. -/
def ChimeState.lock (raw : Bool) (now : UInt32) (c : ChimeState) : ChimeState :=
  { c with
    lastRawState := raw, lastDebounceMs := now, buttonPressed := false, mqttSent := false
    triggerPending := false }

/-- The sample of a call, and since when the input has had this level. -/
def ChimeState.sample (raw : Bool) (now : UInt32) (c : ChimeState) : ChimeState :=
  { c with
    lastDebounceMs := if raw ≠ c.lastRawState then now else c.lastDebounceMs
    lastRawState := raw }

/-- A stable low input is a new press. -/
def ChimeState.pressed (now : UInt32) (c : ChimeState) : Prop :=
  !c.buttonPressed ∧ now - c.lastEventMs > 3000

instance (now : UInt32) (c : ChimeState) : Decidable (c.pressed now) :=
  inferInstanceAs (Decidable (_ ∧ _))

def ChimeState.accept (now : UInt32) (c : ChimeState) : ChimeState :=
  { c with lastEventMs := now, buttonPressed := true, mqttSent := false, triggerPending := true }

/-- Polling and debouncing, behind the sample. -/
def ChimeState.debounce (raw : Bool) (now : UInt32) (c : ChimeState) : ChimeState :=
  if now - c.lastDebounceMs > 50 then
    if !raw then if c.pressed now then c.accept now else c
    else { c with buttonPressed := false }
  else c

/-- Start the gong, if a trigger asks for it and it may. -/
def Bell.switchOutput (b : Bell) (i : ChimeId) (now : UInt32) : Bell :=
  let c := b.chime i
  if c.triggerPending then
    if c.enabled ∧ !c.isRinging then
      (b.withPort (b.portB ||| i.outPin)).setChime i
        { c with triggerPending := false, isRinging := true, ringStartMs := now }
    else b.setChime i { c with triggerPending := false }
  else b

/-- Stop the gong after its 1.5 seconds. -/
def Bell.ringTimer (b : Bell) (i : ChimeId) (now : UInt32) : Bell :=
  let c := b.chime i
  if c.isRinging then
    if now - c.ringStartMs ≥ 1500 then
      (b.withPort (b.portB &&& ~~~i.outPin)).setChime i { c with isRinging := false }
    else b
  else b

/-- Everything between the lock and the MQTT event. -/
def Bell.service (b : Bell) (i : ChimeId) (raw : Bool) (now : UInt32) : Bell :=
  ((b.setChime i (((b.chime i).sample raw now).debounce raw now)).switchOutput i now).ringTimer
    i now

section Publish
variable {m : Type → Type} [Monad m] (isConnected : m Bool) (publish : PubTopic → m Bool)

/-- Publish the press until it succeeds, as long as it lasts. -/
def ChimeState.sendEvent (c : ChimeState) : m ChimeState :=
  if c.buttonPressed ∧ !c.mqttSent then do
    let connected ← isConnected
    match connected, c.pubTopic with
    | true, some topic => do
      let published ← publish topic
      pure (if published then { c with mqttSent := true } else c)
    | _, _ => pure c
  else pure c

def processChime (now : UInt32) (pind : UInt8) (i : ChimeId) (b : Bell) : m Bell :=
  let b := b.startLoop now
  let raw := rawState pind i
  if b.isLocked now then pure (b.setChime i ((b.chime i).lock raw now))
  else do
    let b := b.service i raw now
    let c ← (b.chime i).sendEvent isConnected publish
    pure (b.setChime i c)

end Publish

/-! ## Runs -/

/-- What reaches the chimes: a call of `process_chime` at a real time, with the input register,
the connection state and the result of a publish if it comes to one, or an MQTT message. -/
inductive Event where
  | call (i : ChimeId) (time : Nat) (pind : UInt8) (connected published : Bool)
  | message (topic payload : List UInt8)

/-- The time of a call. -/
def Event.time : Event → Option Nat
  | .call _ t _ _ _ => some t
  | .message _ _ => none

/-- The time of a call on this chime. -/
def Event.timeOf (i : ChimeId) : Event → Option Nat
  | .call j t _ _ _ => if j = i then some t else none
  | .message _ _ => none

@[simp] theorem Event.timeOf_call (i : ChimeId) (t : Nat) (pind : UInt8)
    (connected published : Bool) :
    (Event.call i t pind connected published).timeOf i = some t := if_pos rfl

/-- Only a call on the chime has a time for it. -/
theorem Event.call_of_timeOf {e : Event} {i : ChimeId} {t : Nat} (h : e.timeOf i = some t) :
    ∃ pind connected published, e = .call i t pind connected published := by
  cases e with
  | message topic payload => cases h
  | call j t' pind connected published =>
    simp only [timeOf, Option.ite_none_right_eq_some, Option.some.injEq] at h
    obtain ⟨rfl, rfl⟩ := h
    exact ⟨pind, connected, published, rfl⟩

theorem Event.time_of_timeOf {e : Event} {i : ChimeId} {t : Nat} (h : e.timeOf i = some t) :
    e.time = some t := by
  obtain ⟨pind, connected, published, rfl⟩ := call_of_timeOf h
  rfl

def Bell.step (b : Bell) : Event → Bell
  | .call i t pind connected published =>
    processChime (m := Id) connected (fun _ => published) (counter t) pind i b
  | .message topic payload => onMqttMessageReceived topic payload b

/-! ## What the parts do -/

section Fields
variable (b : Bell) (i : ChimeId) (c : ChimeState) (portB : UInt8) (raw : Bool) (now : UInt32)

@[simp] theorem Bell.chime_setChime : (b.setChime i c).chime i = c := by cases i <;> rfl

@[simp] theorem Bell.setChime_setChime (c' : ChimeState) :
    (b.setChime i c).setChime i c' = b.setChime i c' := by cases i <;> rfl

@[simp] theorem Bell.setChime_chime : b.setChime i (b.chime i) = b := by cases i <;> rfl

@[simp] theorem Bell.portB_setChime : (b.setChime i c).portB = b.portB := by cases i <;> rfl

@[simp] theorem Bell.loopStartMs_setChime : (b.setChime i c).loopStartMs = b.loopStartMs := by
  cases i <;> rfl

@[simp] theorem Bell.isLoopStarted_setChime : (b.setChime i c).isLoopStarted = b.isLoopStarted := by
  cases i <;> rfl

@[simp] theorem Bell.chime_withPort : (b.withPort portB).chime i = b.chime i := by cases i <;> rfl

@[simp] theorem Bell.portB_withPort : (b.withPort portB).portB = portB := rfl

@[simp] theorem Bell.loopStartMs_withPort : (b.withPort portB).loopStartMs = b.loopStartMs := rfl

@[simp] theorem Bell.isLoopStarted_withPort :
    (b.withPort portB).isLoopStarted = b.isLoopStarted := rfl

@[simp] theorem Bell.withPort_setChime :
    (b.setChime i c).withPort portB = (b.withPort portB).setChime i c := by cases i <;> rfl

@[simp] theorem Bell.chime_startLoop : (b.startLoop now).chime i = b.chime i := by
  unfold startLoop
  cases i <;> split <;> rfl

@[simp] theorem Bell.portB_startLoop : (b.startLoop now).portB = b.portB := by
  unfold startLoop
  split <;> rfl

@[simp] theorem Bell.isLoopStarted_startLoop : (b.startLoop now).isLoopStarted = true := by
  unfold startLoop
  split <;> simp_all

@[simp] theorem sample_isRinging : (c.sample raw now).isRinging = c.isRinging := rfl
@[simp] theorem sample_ringStartMs : (c.sample raw now).ringStartMs = c.ringStartMs := rfl
@[simp] theorem sample_enabled : (c.sample raw now).enabled = c.enabled := rfl
@[simp] theorem sample_lastEventMs : (c.sample raw now).lastEventMs = c.lastEventMs := rfl
@[simp] theorem sample_buttonPressed : (c.sample raw now).buttonPressed = c.buttonPressed := rfl
@[simp] theorem sample_triggerPending : (c.sample raw now).triggerPending = c.triggerPending := rfl
@[simp] theorem sample_lastRawState : (c.sample raw now).lastRawState = raw := rfl

@[simp] theorem debounce_isRinging : (c.debounce raw now).isRinging = c.isRinging := by
  unfold ChimeState.debounce ChimeState.accept
  split_ifs <;> rfl

@[simp] theorem debounce_ringStartMs : (c.debounce raw now).ringStartMs = c.ringStartMs := by
  unfold ChimeState.debounce ChimeState.accept
  split_ifs <;> rfl

@[simp] theorem debounce_enabled : (c.debounce raw now).enabled = c.enabled := by
  unfold ChimeState.debounce ChimeState.accept
  split_ifs <;> rfl

@[simp] theorem debounce_lastRawState : (c.debounce raw now).lastRawState = c.lastRawState := by
  unfold ChimeState.debounce ChimeState.accept
  split_ifs <;> rfl

@[simp] theorem debounce_lastDebounceMs :
    (c.debounce raw now).lastDebounceMs = c.lastDebounceMs := by
  unfold ChimeState.debounce ChimeState.accept
  split_ifs <;> rfl

/-- Polling sets triggers, it takes none back. -/
theorem debounce_triggerPending (h : c.triggerPending = true) :
    (c.debounce raw now).triggerPending = true := by
  unfold ChimeState.debounce ChimeState.accept
  split_ifs <;> first | rfl | exact h

end Fields

theorem Bell.chime_setChime_of_ne (b : Bell) {i j : ChimeId} (h : j ≠ i) (c : ChimeState) :
    (b.setChime i c).chime j = b.chime j := by
  cases i <;> cases j <;> first | rfl | exact absurd rfl h

/-! ### The output pins -/

theorem high_of_set (p : UInt8) (i : ChimeId) : (p ||| i.outPin) &&& i.outPin ≠ 0 := by
  cases i
  · exact forall_byte (P := fun p => (p ||| _) &&& _ ≠ 0) (by decide +kernel) p
  · exact forall_byte (P := fun p => (p ||| _) &&& _ ≠ 0) (by decide +kernel) p

theorem low_of_cleared (p : UInt8) (i : ChimeId) : (p &&& ~~~i.outPin) &&& i.outPin = 0 := by
  cases i
  · exact forall_byte (P := fun p => (p &&& ~~~_) &&& _ = 0) (by decide +kernel) p
  · exact forall_byte (P := fun p => (p &&& ~~~_) &&& _ = 0) (by decide +kernel) p

/-- Driving one output leaves the other pin alone. -/
theorem other_pin (p : UInt8) {i j : ChimeId} (h : j ≠ i) :
    (p ||| i.outPin) &&& j.outPin = p &&& j.outPin ∧
      (p &&& ~~~i.outPin) &&& j.outPin = p &&& j.outPin := by
  cases i <;> cases j <;> first
    | exact absurd rfl h
    | exact forall_byte (P := fun p => (p ||| _) &&& _ = p &&& _ ∧ (p &&& ~~~_) &&& _ = p &&& _)
        (by decide +kernel) p

/-! ### One call -/

/-- `service` in one piece: the gong is started, or stopped, or neither. -/
theorem Bell.service_eq (b : Bell) (i : ChimeId) (raw : Bool) (now : UInt32) :
    b.service i raw now =
      let c := ((b.chime i).sample raw now).debounce raw now
      if c.triggerPending ∧ c.enabled ∧ !c.isRinging then
        (b.withPort (b.portB ||| i.outPin)).setChime i
          { c with triggerPending := false, isRinging := true, ringStartMs := now }
      else if c.isRinging ∧ now - c.ringStartMs ≥ 1500 then
        (b.withPort (b.portB &&& ~~~i.outPin)).setChime i
          { c with triggerPending := false, isRinging := false }
      else b.setChime i { c with triggerPending := false } := by
  unfold service switchOutput ringTimer
  simp only [chime_setChime]
  generalize ((b.chime i).sample raw now).debounce raw now = c
  obtain ⟨enabled, triggerPending, isRinging, _, _, _, _, _, _, _⟩ := c
  cases triggerPending <;> cases enabled <;> cases isRinging <;> simp

/-- The MQTT event changes nothing but its own flag. -/
theorem sendEvent_eq (connected published : Bool) (c : ChimeState) :
    ∃ sent, c.sendEvent (m := Id) connected (fun _ => published) = { c with mqttSent := sent } := by
  obtain ⟨_, _, _, _, pubTopic, _, mqttSent, _, _, _⟩ := c
  unfold ChimeState.sendEvent
  split_ifs
  · cases connected <;> cases pubTopic <;> cases published <;>
      first | exact ⟨true, rfl⟩ | exact ⟨mqttSent, rfl⟩
  · exact ⟨mqttSent, rfl⟩

variable {b : Bell} {i : ChimeId} {t : Nat} {pind : UInt8} {connected published : Bool}

/-- A call during the lock. -/
theorem step_of_locked (h : (b.startLoop (counter t)).isLocked (counter t) = true) :
    b.step (.call i t pind connected published) =
      (b.startLoop (counter t)).setChime i
        ((b.chime i).lock (rawState pind i) (counter t)) := by
  simp only [Bell.step, processChime, h, if_true, Bell.chime_startLoop]
  rfl

/-- What a call after the lock has polled. -/
def Bell.polled (b : Bell) (i : ChimeId) (t : Nat) (pind : UInt8) : ChimeState :=
  ((b.chime i).sample (rawState pind i) (counter t)).debounce (rawState pind i) (counter t)

/-- A call after the lock, in two parts. -/
theorem step_eq_of_unlocked (h : (b.startLoop (counter t)).isLocked (counter t) = false)
    (i : ChimeId) (pind : UInt8) (connected published : Bool) :
    b.step (.call i t pind connected published) =
      let served := (b.startLoop (counter t)).service i (rawState pind i) (counter t)
      served.setChime i ((served.chime i).sendEvent (m := Id) connected fun _ => published) := by
  simp only [Bell.step, processChime, h]
  rfl

/-- A call after the lock starts the gong, or stops it, or does neither. -/
theorem step_of_unlocked (h : (b.startLoop (counter t)).isLocked (counter t) = false)
    (i : ChimeId) (pind : UInt8) (connected published : Bool) :
    ∃ sent, b.step (.call i t pind connected published) =
      let b₀ := b.startLoop (counter t)
      let c : ChimeState := { b.polled i t pind with triggerPending := false, mqttSent := sent }
      if (b.polled i t pind).triggerPending ∧ c.enabled ∧ !c.isRinging then
        (b₀.withPort (b.portB ||| i.outPin)).setChime i
          { c with isRinging := true, ringStartMs := counter t }
      else if c.isRinging ∧ counter t - c.ringStartMs ≥ 1500 then
        (b₀.withPort (b.portB &&& ~~~i.outPin)).setChime i { c with isRinging := false }
      else b₀.setChime i c := by
  obtain ⟨sent, hsend⟩ := sendEvent_eq connected published
    (((b.startLoop (counter t)).service i (rawState pind i) (counter t)).chime i)
  refine ⟨sent, ?_⟩
  rw [step_eq_of_unlocked h i pind connected published]
  dsimp only
  rw [hsend, Bell.service_eq]
  simp only [Bell.chime_startLoop, Bell.portB_startLoop]
  rw [show ((b.chime i).sample (rawState pind i) (counter t)).debounce (rawState pind i)
    (counter t) = b.polled i t pind from rfl]
  generalize b.polled i t pind = c
  split_ifs <;> simp

/-- What polling recorded is what a call after the lock leaves behind. -/
theorem step_polled (h : (b.startLoop (counter t)).isLocked (counter t) = false)
    (i : ChimeId) (pind : UInt8) (connected published : Bool) :
    let c := (b.step (.call i t pind connected published)).chime i
    c.lastRawState = (b.polled i t pind).lastRawState ∧
      c.lastDebounceMs = (b.polled i t pind).lastDebounceMs ∧
      c.buttonPressed = (b.polled i t pind).buttonPressed ∧
      c.lastEventMs = (b.polled i t pind).lastEventMs := by
  obtain ⟨sent, hstep⟩ := step_of_unlocked h i pind connected published
  rw [hstep]
  simp only
  split_ifs <;> simp

/-- A call that finds nothing to do changes nothing. -/
theorem step_quiet (hstarted : b.isLoopStarted = true) (hlock : b.isLocked (counter t) = false)
    (hraw : rawState pind i = true) (hlast : (b.chime i).lastRawState = true)
    (hpressed : (b.chime i).buttonPressed = false)
    (hpending : (b.chime i).triggerPending = false) (hringing : (b.chime i).isRinging = false) :
    b.step (.call i t pind connected published) = b := by
  have hstart : b.startLoop (counter t) = b := by simp [Bell.startLoop, hstarted]
  have hkeep : ((b.chime i).sample true (counter t)).debounce true (counter t) = b.chime i := by
    generalize b.chime i = c at *
    obtain ⟨_, _, _, _, _, _, _, _, _, _⟩ := c
    simp_all [ChimeState.sample, ChimeState.debounce]
  have hservice : b.service i true (counter t) = b := by
    simp [Bell.service, hkeep, Bell.switchOutput, Bell.ringTimer, hpending, hringing]
  have hsend : (b.chime i).sendEvent (m := Id) connected (fun _ => published) = b.chime i := by
    simp [ChimeState.sendEvent, hpressed]
    rfl
  simp only [Bell.step, processChime, hstart, hlock, hraw, hservice]
  exact (congrArg (b.setChime i) hsend).trans (Bell.setChime_chime b i)

/-! ### Frames -/

@[simp] theorem polled_isRinging : (b.polled i t pind).isRinging = (b.chime i).isRinging := by
  simp [Bell.polled]

@[simp] theorem polled_ringStartMs : (b.polled i t pind).ringStartMs = (b.chime i).ringStartMs := by
  simp [Bell.polled]

@[simp] theorem polled_enabled : (b.polled i t pind).enabled = (b.chime i).enabled := by
  simp [Bell.polled]

/-- What of a bell belongs to one chime. -/
def Bell.SameChime (b b' : Bell) (j : ChimeId) : Prop :=
  b'.chime j = b.chime j ∧ b'.portB &&& j.outPin = b.portB &&& j.outPin

/-- A call leaves the other chime alone. -/
theorem step_other {j : ChimeId} (h : j ≠ i) (t : Nat) (pind : UInt8)
    (connected published : Bool) :
    b.SameChime (b.step (.call i t pind connected published)) j := by
  cases hlock : (b.startLoop (counter t)).isLocked (counter t) with
  | true =>
    rw [step_of_locked hlock]
    exact ⟨by simp [Bell.chime_setChime_of_ne _ h], by simp⟩
  | false =>
    obtain ⟨sent, hstep⟩ := step_of_unlocked hlock i pind connected published
    rw [hstep]
    obtain ⟨hset, hcleared⟩ := other_pin b.portB h
    simp only [Bell.SameChime]
    split_ifs <;> simp [Bell.chime_setChime_of_ne _ h, hset, hcleared]

/-- A message changes the flags of one chime, and no output. -/
theorem step_message (topic payload : List UInt8) (j : ChimeId) :
    (b.step (.message topic payload)).portB = b.portB ∧
      ∃ enabled pending, (b.step (.message topic payload)).chime j =
        { b.chime j with enabled, triggerPending := pending } ∧
        ((b.chime j).triggerPending = true → pending = true) := by
  cases htarget : targetChime topic with
  | none =>
    simp only [Bell.step, onMqttMessageReceived, htarget]
    exact ⟨trivial, _, _, rfl, id⟩
  | some i =>
    simp only [Bell.step, onMqttMessageReceived, htarget]
    refine ⟨by simp, ?_⟩
    by_cases hj : j = i
    · subst hj
      simp only [Bell.chime_setChime, ChimeState.command]
      split_ifs
      · exact ⟨true, _, rfl, id⟩
      · exact ⟨false, _, rfl, id⟩
      · exact ⟨_, true, rfl, fun _ => rfl⟩
      · exact ⟨_, _, rfl, id⟩
    · simp only [Bell.chime_setChime_of_ne _ hj]
      exact ⟨_, _, rfl, id⟩

/-- An event that is not a call on chime `j` can change only that chime's flags. -/
theorem step_elsewhere {e : Event} {j : ChimeId} (h : e.timeOf j = none) :
    (b.step e).portB &&& j.outPin = b.portB &&& j.outPin ∧
      ∃ enabled pending, (b.step e).chime j =
        { b.chime j with enabled, triggerPending := pending } ∧
        ((b.chime j).triggerPending = true → pending = true) := by
  cases e with
  | call i t pind connected published =>
    have hne : j ≠ i := by
      rintro rfl
      simp [Event.timeOf] at h
    obtain ⟨hchime, hport⟩ := step_other (b := b) hne t pind connected published
    exact ⟨hport, _, _, hchime, id⟩
  | message topic payload =>
    obtain ⟨hport, hflags⟩ := step_message (b := b) topic payload j
    exact ⟨by rw [hport], hflags⟩

/-! ### The output follows the ring state -/

/-- Both outputs are high exactly while their gong rings. -/
def Bell.Mirrors (b : Bell) : Prop := ∀ i, b.High i ↔ (b.chime i).isRinging = true

theorem setupGpio_low (portB : UInt8) (i : ChimeId) : setupGpio portB &&& i.outPin = 0 := by
  cases i <;>
    exact forall_byte (P := fun p => setupGpio p &&& _ = 0) (by decide +kernel) portB

theorem boot_mirrors (portB pind : UInt8) (now : UInt32) : (Bell.boot portB pind now).Mirrors := by
  intro i
  refine iff_of_false (fun h => h (setupGpio_low portB i)) ?_
  cases i <;> exact Bool.false_ne_true

theorem step_mirrors (h : b.Mirrors) (e : Event) : (b.step e).Mirrors := by
  intro j
  cases hcall : e.timeOf j with
  | none =>
    obtain ⟨hport, enabled, pending, hchime, _⟩ := step_elsewhere (b := b) hcall
    rw [Bell.High, hport, hchime]
    exact h j
  | some t =>
    obtain ⟨pind, connected, published, rfl⟩ := Event.call_of_timeOf hcall
    have hj := h j
    cases hlock : (b.startLoop (counter t)).isLocked (counter t) with
    | true =>
      rw [step_of_locked hlock]
      simpa [Bell.High, ChimeState.lock] using hj
    | false =>
      obtain ⟨sent, hstep⟩ := step_of_unlocked hlock j pind connected published
      rw [hstep]
      simp only
      split_ifs
      · simpa [Bell.High] using high_of_set b.portB j
      · simpa [Bell.High] using low_of_cleared b.portB j
      · simpa [Bell.High] using hj

theorem run_mirrors (portB pind : UInt8) (now : UInt32) (es : List Event) :
    (run Bell.step (.boot portB pind now) es).Mirrors :=
  run_invariant (I := Bell.Mirrors) (fun _ e h => step_mirrors h e) (boot_mirrors portB pind now) es

/-! ### The start of the loop -/

/-- The time of the first call of a run, from which the start-up lock is measured. -/
def loopStart (es : List Event) : Nat := (es.filterMap Event.time).headD 0

/-- Real time does not run backwards. -/
def Ordered (es : List Event) : Prop := (es.filterMap Event.time).Pairwise (· ≤ ·)

/-- A call that comes later has no earlier time. -/
theorem Ordered.le {es pre post : List Event} {e f : Event} {s : Nat} (h : Ordered es)
    (hsplit : es = pre ++ post) (he : e ∈ pre) (hs : e.time = some s) (hf : f ∈ post)
    (ht : f.time = some t) : s ≤ t := by
  exact time_le_of_pairwise h hsplit he hs hf ht

/-- The bell has seen calls at these times. -/
def Bell.StartedBy (b : Bell) : List Nat → Prop
  | [] => b.isLoopStarted = false
  | t₀ :: _ => b.isLoopStarted = true ∧ b.loopStartMs = counter t₀

/-- Only the first of the calls matters. -/
theorem Bell.StartedBy.first {ts : List Nat} (h : b.StartedBy (ts ++ [t])) (later : List Nat) :
    b.StartedBy [(ts ++ t :: later).headD 0] := by
  cases ts with
  | nil => exact h
  | cons t₀ ts => exact h

/-- A started bell is locked for three seconds of each period. -/
theorem Bell.StartedBy.isLocked_iff {t₀ : Nat} (h : b.StartedBy [t₀]) (hle : t₀ ≤ t) :
    b.isLocked (counter t) = true ↔ (t - t₀) % period < 3000 := by
  rw [Bell.isLocked, h.2, decide_eq_true_eq, counter_sub_lt_iff hle]
  rfl

theorem startLoop_startedBy {ts : List Nat} (h : b.StartedBy ts) (t : Nat) :
    (b.startLoop (counter t)).StartedBy (ts ++ [t]) := by
  cases ts with
  | nil =>
    have hfirst : b.isLoopStarted = false := h
    simp [Bell.startLoop, hfirst, Bell.StartedBy]
  | cons t₀ ts =>
    have hlater : b.isLoopStarted = true := h.1
    simpa [Bell.startLoop, hlater, Bell.StartedBy] using h.2

/-- After its first statement a call does not touch the start of the loop any more. -/
theorem step_call_started (i : ChimeId) (t : Nat) (pind : UInt8) (connected published : Bool) :
    (b.step (.call i t pind connected published)).isLoopStarted =
      (b.startLoop (counter t)).isLoopStarted ∧
    (b.step (.call i t pind connected published)).loopStartMs =
      (b.startLoop (counter t)).loopStartMs := by
  cases hlock : (b.startLoop (counter t)).isLocked (counter t) with
  | true =>
    rw [step_of_locked hlock]
    simp
  | false =>
    obtain ⟨sent, hstep⟩ := step_of_unlocked hlock i pind connected published
    rw [hstep]
    simp only
    split_ifs <;> simp

theorem step_startedBy {ts : List Nat} (h : b.StartedBy ts) (e : Event) :
    (b.step e).StartedBy (ts ++ e.time.toList) := by
  cases e with
  | call i t pind connected published =>
    have hstart := startLoop_startedBy h t
    obtain ⟨hstarted, hms⟩ := step_call_started (b := b) i t pind connected published
    cases ts <;> simpa [Bell.StartedBy, hstarted, hms, Event.time] using hstart
  | message topic payload =>
    have hkeep : (b.step (.message topic payload)).isLoopStarted = b.isLoopStarted ∧
        (b.step (.message topic payload)).loopStartMs = b.loopStartMs := by
      cases htarget : targetChime topic <;> simp [Bell.step, onMqttMessageReceived, htarget]
    cases ts <;> simpa [Bell.StartedBy, hkeep, Event.time] using h

theorem run_startedBy {ts : List Nat} (h : b.StartedBy ts) (es : List Event) :
    (run Bell.step b es).StartedBy (ts ++ es.filterMap Event.time) := by
  induction es generalizing b ts with
  | nil => simpa using h
  | cons e es ih =>
    have hrest := ih (step_startedBy h e)
    cases hcall : e.time <;> simpa [hcall] using hrest

/-- After its first call a run measures the lock from there. -/
theorem run_startedBy_loopStart (portB pind₀ : UInt8) (now : UInt32) {pre post : List Event}
    {e : Event} {es : List Event} (hsplit : es = pre ++ e :: post) (hcall : e.time = some t) :
    (run Bell.step (.boot portB pind₀ now) (pre ++ [e])).StartedBy [loopStart es] := by
  have hboot : (Bell.boot portB pind₀ now).StartedBy [] := rfl
  have hstart := run_startedBy hboot (pre ++ [e])
  rw [List.filterMap_append, List.filterMap_cons, hcall] at hstart
  rw [loopStart, hsplit, List.filterMap_append, List.filterMap_cons, hcall]
  exact hstart.first (post.filterMap Event.time)

/-- In a run, the lock is a matter of the time since the first call, modulo the period. -/
theorem locked_iff (portB pind₀ : UInt8) (now : UInt32) {pre post : List Event} {e : Event}
    {es : List Event} (hsplit : es = pre ++ e :: post) (hcall : e.time = some t)
    (horder : Ordered es) :
    (((run Bell.step (.boot portB pind₀ now) pre).startLoop (counter t)).isLocked (counter t) =
      true ↔ (t - loopStart es) % period < 3000) ∧ loopStart es ≤ t := by
  have hboot : (Bell.boot portB pind₀ now).StartedBy [] := rfl
  have hstart := (startLoop_startedBy (run_startedBy hboot pre) t).first
    (post.filterMap Event.time)
  have htimes : es.filterMap Event.time =
      pre.filterMap Event.time ++ t :: post.filterMap Event.time := by
    rw [hsplit, List.filterMap_append, List.filterMap_cons, hcall]
  have hle : loopStart es ≤ t := by
    rw [Ordered, htimes] at horder
    rw [loopStart, htimes]
    cases hpre : pre.filterMap Event.time with
    | nil => exact le_rfl
    | cons t₀ ts =>
      rw [hpre] at horder
      exact (List.pairwise_append.mp horder).2.2 t₀ List.mem_cons_self t List.mem_cons_self
  refine ⟨?_, hle⟩
  rw [List.nil_append, ← htimes] at hstart
  exact hstart.isLocked_iff hle

end SmartBell.App
