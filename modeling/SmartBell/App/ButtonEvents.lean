import SmartBell.Common.Runs

/-!
# Button events of `SmartBellApp`

An interrupt sets `interrupt_pending`; `process_button_events` clears it, reads the pin,
compares it with the level it has stored, publishes and stores. The level may change and the
interrupt may come between any two of these steps.
-/
namespace SmartBell.App.SmartBellApp
open Common

inductive ButtonId where
  | frontdoor
  | office
  deriving DecidableEq, Repr

/-- What `process_button_events` calls for a button: `publish_button_event`, and
`gong_controller_.trigger` for both gongs. -/
inductive Call where
  | publish (active : Bool)
  | trigger
  deriving DecidableEq, Repr

/-- A `ButtonState` with the pin (true = HIGH = released) and the number of its changes that
`on_button_interrupt` has not reported yet. -/
structure Button where
  interruptPending : Bool
  lastState : Bool
  currentState : Bool
  pin : Bool
  unreported : Nat
  deriving DecidableEq, Repr

/-- The step that the block of `process_button_events` for a button is about to take. -/
inductive Stage where
  | test
  | clear
  | read
  | compare (current : Bool)
  | publish (current : Bool)
  | trigger (current : Bool)
  | store (current : Bool)
  deriving DecidableEq, Repr

namespace Button

/-- As constructed, with the pin high. -/
def start : Button := ⟨false, true, true, true, 0⟩

def change (x : Button) : Button := { x with pin := !x.pin, unreported := x.unreported + 1 }

/-- `on_button_interrupt`. -/
def interrupt (x : Button) : Button :=
  { x with interruptPending := true, unreported := x.unreported - 1 }

/-- One step of the block: the button after it and the next step, none at the end of the block. -/
def process (x : Button) : Stage → Button × Option Stage
  | .test => (x, if x.interruptPending then some .clear else none)
  | .clear => ({ x with interruptPending := false }, some .read)
  | .read => ({ x with currentState := x.pin }, some (.compare x.pin))
  | .compare current => (x, if current != x.lastState then some (.publish current) else none)
  | .publish current => (x, some (if current then .trigger current else .store current))
  | .trigger current => (x, some (.store current))
  | .store current => ({ x with lastState := current }, none)

end Button

def Stage.calls : Stage → List Call
  | .publish current => [.publish (!current)]
  | .trigger _ => [.trigger]
  | _ => []

/-- The two buttons and where `process_button_events` is, if it is running. -/
structure Buttons where
  button : ButtonId → Button
  place : Option (ButtonId × Stage)

namespace Buttons

def start : Buttons := ⟨fun _ => .start, none⟩

def setButton (b : ButtonId) (x : Button) (s : Buttons) : Buttons :=
  { s with button := Function.update s.button b x }

/-- Where `process_button_events` is behind the block of a button. -/
def behind : ButtonId → Option (ButtonId × Stage)
  | .frontdoor => some (.office, .test)
  | .office => none

/-- One step of `process_button_events`; the first one if it is not running. -/
def process (s : Buttons) : Buttons :=
  match s.place with
  | none => { s with place := some (.frontdoor, .test) }
  | some (b, stage) =>
    let (x, next) := (s.button b).process stage
    { s.setButton b x with place := (next.map (b, ·)).or (behind b) }

inductive Event where
  | change (b : ButtonId)
  | interrupt (b : ButtonId)
  | process
  deriving DecidableEq, Repr

def step (s : Buttons) : Event → Buttons
  | .change b => s.setButton b (s.button b).change
  | .interrupt b => s.setButton b (s.button b).interrupt
  | .process => s.process

def calls (s : Buttons) : Event → List (ButtonId × Call)
  | .process => s.place.toList.flatMap fun (b, stage) => stage.calls.map (b, ·)
  | _ => []

/-- The calls for one button among those of a run. -/
def callsFor (b : ButtonId) (calls : List (ButtonId × Call)) : List Call :=
  calls.filterMap fun (b', call) => if b' = b then some call else none

end Buttons

/-- The events that were published, `true` for active. -/
def events (calls : List Call) : List Bool :=
  calls.filterMap fun
    | .publish active => some active
    | .trigger => none

/-- Active, inactive, active, and so on. -/
def alternating (n : Nat) : List Bool := (List.range n).map fun k => k % 2 = 0

/-- The calls that an event stands for. -/
def handling : Bool → List Call
  | true => [.publish true]
  | false => [.publish false, .trigger]

/-! ## One button -/

/-- A button and the step its block is about to take, if it is running. -/
structure Watch where
  button : Button
  stage : Option Stage
  deriving DecidableEq, Repr

namespace Watch

inductive Event where
  | change
  | interrupt
  | process
  deriving DecidableEq, Repr

def start : Watch := ⟨.start, none⟩

def step (w : Watch) : Event → Watch
  | .change => { w with button := w.button.change }
  | .interrupt => { w with button := w.button.interrupt }
  | .process =>
    match w.stage with
    | none => { w with stage := some .test }
    | some stage =>
      let (x, next) := w.button.process stage
      ⟨x, next⟩

def calls (w : Watch) : Event → List Call
  | .process => w.stage.toList.flatMap Stage.calls
  | _ => []

end Watch

namespace Buttons

def stageOf (b : ButtonId) (s : Buttons) : Option Stage :=
  match s.place with
  | none => none
  | some (b', stage) => if b' = b then some stage else none

def watch (b : ButtonId) (s : Buttons) : Watch := ⟨s.button b, s.stageOf b⟩

/-- The steps of a button in a step of both: that of its block, if it is running or about to. -/
def seen (b : ButtonId) (s : Buttons) : Event → List Watch.Event
  | .change b' => if b' = b then [.change] else []
  | .interrupt b' => if b' = b then [.interrupt] else []
  | .process => if s.stageOf b ≠ none ∨ s.process.stageOf b ≠ none then [.process] else []

section Watch
variable {b b' : ButtonId} {s : Buttons}

theorem watch_setButton (x : Button) :
    (s.setButton b x).watch b = { s.watch b with button := x } := by
  simp [watch, setButton, stageOf]

theorem watch_setButton_of_ne (h : b ≠ b') (x : Button) :
    (s.setButton b' x).watch b = s.watch b := by
  simp [watch, setButton, stageOf, Function.update_of_ne h]

theorem stageOf_eq_some_iff {stage : Stage} :
    s.stageOf b = some stage ↔ s.place = some (b, stage) := by
  unfold stageOf
  rcases s.place with _ | ⟨b', stage'⟩
  · simp
  · by_cases hb : b' = b <;> simp [hb]

theorem stageOf_of_not_running (h : s.place = none) : s.stageOf b = none := by
  simp [stageOf, h]

/-- The block of the button whose turn it is. -/
theorem watch_process_of_running {stage : Stage} (h : s.place = some (b, stage)) :
    s.process.watch b = (s.watch b).step .process := by
  have hstage : s.stageOf b = some stage := stageOf_eq_some_iff.mpr h
  simp only [process, h, watch, Watch.step, hstage]
  cases hnext : ((s.button b).process stage).2 with
  | some next => simp [stageOf, setButton]
  | none =>
    cases b <;> simp [stageOf, setButton, behind]

/-- The other block is entered or left alone. -/
theorem watch_process_of_waiting (h : s.stageOf b = none) :
    (s.process.watch b).button = s.button b ∧
      (s.process.stageOf b = none ∨ s.process.stageOf b = some .test) := by
  unfold process
  rcases hplace : s.place with _ | ⟨b', stage⟩
  · refine ⟨rfl, ?_⟩
    cases b <;> simp [stageOf]
  · have hne : b ≠ b' := by
      rintro rfl
      simp [stageOf, hplace] at h
    refine ⟨by simp [watch, setButton, Function.update_of_ne hne], ?_⟩
    cases hnext : ((s.button b').process stage).2 with
    | some next => simp [stageOf, hnext, hne.symm]
    | none => cases b <;> cases b' <;> simp_all [stageOf, behind]

/-- What happens to a button outside of its block. -/
theorem watch_outside (b b' : ButtonId) (s : Buttons) {f : Button → Button} {e : Watch.Event}
    (hstep : ∀ w : Watch, w.step e = { w with button := f w.button }) :
    (s.setButton b' (f (s.button b'))).watch b =
      run Watch.step (s.watch b) (if b' = b then [e] else []) := by
  by_cases hb : b' = b
  · subst hb
    rw [watch_setButton, if_pos rfl, run_cons, run_nil, hstep]
    rfl
  · rw [watch_setButton_of_ne (Ne.symm hb), if_neg hb, run_nil]

/-- A button takes part in a step of both as a step of its own, or not at all. -/
theorem watch_step (b : ButtonId) (s : Buttons) (e : Event) :
    (s.step e).watch b = run Watch.step (s.watch b) (seen b s e) := by
  cases e with
  | change b' => exact watch_outside b b' s fun _ => rfl
  | interrupt b' => exact watch_outside b b' s fun _ => rfl
  | process =>
    cases hstage : s.stageOf b with
    | some stage =>
      simp only [step, seen, hstage, ne_eq, reduceCtorEq, not_false_eq_true, true_or, if_true]
      exact watch_process_of_running (stageOf_eq_some_iff.mp hstage)
    | none =>
      obtain ⟨hbutton, hnext | hnext⟩ := watch_process_of_waiting hstage
      · simp only [step, seen, hstage, hnext, ne_eq, not_true_eq_false, or_self, if_false, run_nil]
        simp [watch, hstage, hnext] at hbutton ⊢
        exact hbutton
      · simp only [step, seen, hstage, hnext, ne_eq, reduceCtorEq, not_false_eq_true, or_true,
          if_true, run_cons, run_nil]
        simp [watch, hstage, hnext, Watch.step] at hbutton ⊢
        exact hbutton

theorem callsFor_map_of_ne (h : b' ≠ b) (cs : List Call) :
    callsFor b (cs.map (b', ·)) = [] := by
  simp [callsFor, h]

theorem callsFor_map (cs : List Call) : callsFor b (cs.map (b, ·)) = cs := by
  simp [callsFor]

/-- What a step calls for a button, its own step calls. -/
theorem callsFor_calls (b : ButtonId) (s : Buttons) (e : Event) :
    callsFor b (s.calls e) = outputs Watch.step Watch.calls (s.watch b) (seen b s e) := by
  cases e with
  | change b' => by_cases hb : b' = b <;> simp [calls, seen, hb, outputs, Watch.calls, callsFor]
  | interrupt b' => by_cases hb : b' = b <;> simp [calls, seen, hb, outputs, Watch.calls, callsFor]
  | process =>
    cases hstage : s.stageOf b with
    | some stage =>
      have hplace := stageOf_eq_some_iff.mp hstage
      simp [calls, seen, hplace, hstage, outputs, Watch.calls, callsFor_map, watch]
    | none =>
      have hquiet : callsFor b (s.calls .process) = [] := by
        rcases hplace : s.place with _ | ⟨b', stage⟩
        · simp [calls, hplace, callsFor]
        · have hne : b' ≠ b := by
            rintro rfl
            simp [stageOf, hplace] at hstage
          simp [calls, hplace, callsFor_map_of_ne hne]
      rw [hquiet]
      simp only [seen]
      split_ifs
      · simp [outputs, Watch.calls, watch, hstage]
      · rfl

end Watch
end Buttons

/-! ## Levels and events -/

/-- The level that a block has read. -/
def Stage.current : Stage → Option Bool
  | .compare current | .publish current | .trigger current | .store current => some current
  | _ => none

theorem alternating_succ (n : Nat) :
    alternating (n + 1) = alternating n ++ [decide (n % 2 = 0)] := by
  simp [alternating, List.range_succ]

theorem not_even_eq (n : Nat) : (!decide (n % 2 = 0)) = decide ((n + 1) % 2 = 0) := by
  rcases Nat.mod_two_eq_zero_or_one n with h | h
  · have hnext : (n + 1) % 2 = 1 := by omega
    simp [h, hnext]
  · have hnext : (n + 1) % 2 = 0 := by omega
    simp [h, hnext]

@[simp] theorem events_append (cs ds : List Call) : events (cs ++ ds) = events cs ++ events ds :=
  List.filterMap_append

namespace Watch

theorem step_test (x : Button) : (⟨x, some .test⟩ : Watch).step .process =
    ⟨x, if x.interruptPending then some .clear else none⟩ := rfl

theorem step_compare (x : Button) (current : Bool) :
    (⟨x, some (.compare current)⟩ : Watch).step .process =
      ⟨x, if current != x.lastState then some (.publish current) else none⟩ := rfl

/-- The level that was read last. -/
def sampled (w : Watch) : Bool := (w.stage.bind Stage.current).getD w.button.lastState

/-- The level whose event was published last. -/
def told (w : Watch) : Bool :=
  match w.stage with
  | some (.trigger current) | some (.store current) => current
  | _ => w.button.lastState

/-- The trigger that an inactive event still waits for. -/
def owed (w : Watch) : List Call :=
  match w.stage with
  | some (.trigger _) => [.trigger]
  | _ => []

/-- With nothing left to report or to look at, the level read last is that of the pin. -/
def Settled (w : Watch) : Prop :=
  w.button.unreported = 0 → w.button.interruptPending = false → w.stage ≠ some .read →
    w.sampled = w.button.pin

/-- Each event is about a new level, and an inactive one is followed by a trigger. -/
structure Orderly (cs : List Call) (w : Watch) : Prop where
  events : ∃ n, events cs = alternating n ∧ w.told = decide (n % 2 = 0)
  fresh : ∀ current, w.stage = some (.publish current) → current ≠ w.button.lastState
  released : ∀ current, w.stage = some (.trigger current) → current = true
  handled : cs ++ w.owed = (SmartBellApp.events cs).flatMap handling

theorem Settled.step {w : Watch} (h : w.Settled) (e : Event) : (w.step e).Settled := by
  cases e with
  | change =>
    intro hreported
    cases hreported
  | interrupt =>
    intro _ hpending
    cases hpending
  | process =>
    obtain ⟨x, stage⟩ := w
    cases stage with
    | none => exact fun hreported hpending _ => h hreported hpending nofun
    | some stage =>
      cases stage with
      | test =>
        rw [step_test]
        split_ifs
        · exact fun hreported hpending _ => h hreported hpending nofun
        · exact fun hreported hpending _ => h hreported hpending nofun
      | clear => exact fun _ _ hread => absurd rfl hread
      | read => exact fun _ _ _ => rfl
      | compare current =>
        rw [step_compare]
        split_ifs with hnew
        · exact fun hreported hpending _ => h hreported hpending nofun
        · intro hreported hpending _
          have hlast : current = x.lastState := by simpa using hnew
          have hsame : current = x.pin := h hreported hpending nofun
          exact hlast.symm.trans hsame
      | publish current =>
        intro hreported hpending _
        have hsame : current = x.pin := h hreported hpending nofun
        cases hlevel : current <;>
          simp [Watch.step, Button.process, sampled, Stage.current, ← hsame, hlevel]
      | trigger current => exact fun hreported hpending _ => h hreported hpending nofun
      | store current => exact fun hreported hpending _ => h hreported hpending nofun

/-- A step without a call. -/
theorem Orderly.quiet {cs : List Call} {w w' : Watch} (h : w.Orderly cs) (htold : w'.told = w.told)
    (howed : w'.owed = w.owed)
    (hfresh : ∀ current, w'.stage = some (.publish current) → current ≠ w'.button.lastState)
    (hreleased : ∀ current, w'.stage = some (.trigger current) → current = true) :
    w'.Orderly (cs ++ []) := by
  obtain ⟨n, hevents, heven⟩ := h.events
  rw [List.append_nil]
  exact ⟨⟨n, hevents, htold.trans heven⟩, hfresh, hreleased, howed ▸ h.handled⟩

/-- The step that publishes. -/
theorem Orderly.publish {cs : List Call} {x : Button} {current : Bool}
    (h : (⟨x, some (.publish current)⟩ : Watch).Orderly cs) :
    (⟨x, some (if current then .trigger current else .store current)⟩ : Watch).Orderly
      (cs ++ [.publish (!current)]) := by
  obtain ⟨n, hevents, htold⟩ := h.events
  have hnew : current ≠ x.lastState := h.fresh current rfl
  have hactive : (!current) = decide (n % 2 = 0) := by
    rw [← htold]
    exact (Bool.eq_not_of_ne hnew.symm).symm
  have hall : SmartBellApp.events (cs ++ [.publish (!current)]) = alternating (n + 1) := by
    rw [events_append, hevents, alternating_succ, ← hactive]
    rfl
  have hlevel : current = decide ((n + 1) % 2 = 0) := by
    rw [← not_even_eq, ← hactive, Bool.not_not]
  have hbefore : cs = (SmartBellApp.events cs).flatMap handling := by
    simpa [owed] using h.handled
  cases current with
  | true =>
    refine ⟨⟨n + 1, hall, hlevel⟩, nofun, fun _ hstage => ?_, ?_⟩
    · cases hstage
      rfl
    · rw [events_append, List.flatMap_append, ← hbefore, List.append_assoc]
      rfl
  | false =>
    refine ⟨⟨n + 1, hall, hlevel⟩, nofun, nofun, ?_⟩
    rw [events_append, List.flatMap_append, ← hbefore, List.append_assoc]
    rfl

/-- The step that triggers. -/
theorem Orderly.trigger {cs : List Call} {x : Button} {current : Bool}
    (h : (⟨x, some (.trigger current)⟩ : Watch).Orderly cs) :
    (⟨x, some (.store current)⟩ : Watch).Orderly (cs ++ [.trigger]) := by
  have hevents : SmartBellApp.events (cs ++ [.trigger]) = SmartBellApp.events cs := by
    rw [events_append]
    exact List.append_nil _
  refine ⟨?_, nofun, nofun, ?_⟩
  · rw [hevents]
    exact h.events
  · rw [hevents, ← h.handled]
    exact List.append_nil _

theorem Orderly.step {cs : List Call} {w : Watch} (h : w.Orderly cs) (e : Event) :
    (w.step e).Orderly (cs ++ w.calls e) := by
  cases e with
  | change => exact h.quiet rfl rfl h.fresh h.released
  | interrupt => exact h.quiet rfl rfl h.fresh h.released
  | process =>
    obtain ⟨x, stage⟩ := w
    cases stage with
    | none => exact h.quiet rfl rfl nofun nofun
    | some stage =>
      cases stage with
      | test =>
        rw [step_test]
        split_ifs
        · exact h.quiet rfl rfl nofun nofun
        · exact h.quiet rfl rfl nofun nofun
      | clear => exact h.quiet rfl rfl nofun nofun
      | read => exact h.quiet rfl rfl nofun nofun
      | compare current =>
        rw [step_compare]
        split_ifs with hnew
        · refine h.quiet rfl rfl ?_ nofun
          rintro _ ⟨⟩
          simpa using hnew
        · exact h.quiet rfl rfl nofun nofun
      | publish current => exact h.publish
      | trigger current => exact h.trigger
      | store current => exact h.quiet rfl rfl nofun nofun

end Watch

/-! ## Runs -/

namespace Buttons

/-- The calls for a button in a run of both are those of a run of its own. -/
theorem callsFor_outputs (b : ButtonId) (s : Buttons) (es : List Event) :
    callsFor b (outputs step calls s es) =
      outputs Watch.step Watch.calls (s.watch b) (outputs step (seen b) s es) := by
  rw [callsFor, filterMap_outputs]
  exact outputs_view (watch_step b) (callsFor_calls b) s es

theorem watch_run (b : ButtonId) (s : Buttons) (es : List Event) :
    (run step s es).watch b = run Watch.step (s.watch b) (outputs step (seen b) s es) :=
  view_run (watch_step b) s es

theorem settled_run (b : ButtonId) (es : List Event) : ((run step start es).watch b).Settled := by
  rw [watch_run]
  exact run_invariant (fun _ e h => h.step e) (fun _ _ _ => rfl) _

theorem orderly_run (b : ButtonId) (es : List Event) :
    ((run step start es).watch b).Orderly (callsFor b (outputs step calls start es)) := by
  rw [watch_run, callsFor_outputs]
  exact outputs_invariant (fun _ _ e h => h.step e) ⟨⟨0, rfl, rfl⟩, nofun, nofun, rfl⟩ _

/-- In every run the events of a button alternate and begin with an active one, each inactive one
is followed by one trigger, the last of them unless it is still to come, and with nothing
left to report or to look at, the level stored is that of the pin. -/
theorem events_alternate (es : List Event) (b : ButtonId) :
    let s := run step start es
    let cs := callsFor b (outputs step calls start es)
    (∃ n, events cs = alternating n) ∧
      cs ++ (s.watch b).owed = (events cs).flatMap handling ∧
      (s.place = none → (s.button b).unreported = 0 → (s.button b).interruptPending = false →
        (s.button b).lastState = (s.button b).pin) := by
  intro s cs
  have horderly := orderly_run b es
  obtain ⟨n, hevents, _⟩ := horderly.events
  refine ⟨⟨n, hevents⟩, horderly.handled, ?_⟩
  intro hidle hreported hpending
  have hstage : (s.watch b).stage = none := stageOf_of_not_running hidle
  have hsame := settled_run b es hreported hpending (by rw [hstage]; nofun)
  rwa [Watch.sampled, hstage] at hsame

end Buttons
end SmartBell.App.SmartBellApp
