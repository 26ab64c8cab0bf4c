import SmartBell.App.ButtonEvents

/-!
# Presses between two polls

`loop` runs `process_button_events` in `kRunning` and `kReconnectWait`, and waits for the
broker in `kMQTTConnecting` without it. The handler looks at a level and not at edges: what it
answers is the levels it gets to read.
-/
namespace SmartBell.App.SmartBellApp
open Common

inductive AppState where
  | init
  | configCheck
  | configMode
  | networkInit
  | mqttConnecting
  | running
  | reconnectWait
  | error
  deriving DecidableEq, Repr

/-- The handlers that call `process_button_events`. -/
inductive Caller where
  | running
  | reconnectWait
  deriving DecidableEq, Repr

/-- Where `loop` is: outside, in `mqtt_client_.connect`, in `mqtt_client_.loop`, in
`process_button_events`, in `gong_controller_.update`, or before the test of the connection. -/
inductive LoopPlace where
  | top
  | connecting
  | polling
  | buttons (caller : Caller)
  | updating (caller : Caller)
  | checking
  deriving DecidableEq, Repr

/-- The application as far as its buttons go. -/
structure Loop where
  state : AppState
  place : LoopPlace
  buttons : Buttons

namespace Loop

/-- Behind the constructor and `init`. -/
def start : Loop := ⟨.configCheck, .top, .start⟩

/-- The next step of `loop`. What it asks the rest of the program is answered by `answer`: whether
the configuration is valid, or complete, whether `connect` returned true, whether the client is
connected, whether the time of a wait is over. -/
def main (answer : Bool) (s : Loop) : Loop :=
  match s.place with
  | .top =>
    match s.state with
    | .init => { s with state := .configCheck }
    | .configCheck => { s with state := if answer then .networkInit else .configMode }
    | .configMode => { s with state := if answer then .networkInit else .configMode }
    | .networkInit => { s with state := .mqttConnecting }
    | .mqttConnecting => { s with place := .connecting }
    | .running => { s with place := .polling }
    | .reconnectWait =>
      { state := if answer then .mqttConnecting else .reconnectWait
        place := .buttons .reconnectWait
        buttons := s.buttons.process }
    | .error => { s with state := if answer then .networkInit else .error }
  | .connecting => { s with state := if answer then .running else .reconnectWait, place := .top }
  | .polling => { s with place := .buttons .running, buttons := s.buttons.process }
  | .buttons caller =>
    let buttons := s.buttons.process
    { s with
      place := if buttons.place.isNone then .updating caller else .buttons caller
      buttons }
  | .updating .running => { s with place := .checking }
  | .updating .reconnectWait => { s with place := .top }
  | .checking => { s with state := if answer then s.state else .reconnectWait, place := .top }

/-- The next step of `loop` is one of `process_button_events`. -/
def handles (s : Loop) : Bool :=
  match s.place with
  | .top => s.state = .reconnectWait
  | .polling => true
  | .buttons _ => true
  | _ => false

inductive Event where
  | change (b : ButtonId)
  | interrupt (b : ButtonId)
  | main (answer : Bool)
  deriving DecidableEq, Repr

def step (s : Loop) : Event → Loop
  | .change b => { s with buttons := s.buttons.step (.change b) }
  | .interrupt b => { s with buttons := s.buttons.step (.interrupt b) }
  | .main answer => s.main answer

/-- What the buttons and their handler see of a step. -/
def seen (s : Loop) : Event → List Buttons.Event
  | .change b => [.change b]
  | .interrupt b => [.interrupt b]
  | .main _ => if s.handles then [.process] else []

def calls (s : Loop) (e : Event) : List (ButtonId × Call) := (s.seen e).flatMap s.buttons.calls

def watch (b : ButtonId) (s : Loop) : Watch := s.buttons.watch b

/-- An edge comes only when the level before it has been read, and `interrupt_pending` is tested
only when all edges have been reported. -/
def Polled (b : ButtonId) (s : Loop) : Event → Prop
  | .change b' => b' = b → (s.watch b).sampled = (s.watch b).button.pin
  | .interrupt _ => True
  | .main _ => s.buttons.place = some (b, .test) → (s.watch b).button.unreported = 0

instance (b : ButtonId) (s : Loop) : (e : Event) → Decidable (s.Polled b e)
  | .change _ => inferInstanceAs (Decidable (_ → _))
  | .interrupt _ => isTrue trivial
  | .main _ => inferInstanceAs (Decidable (_ → _))

/-- A read of the pin finds it high. -/
def Unread (b : ButtonId) (s : Loop) : Event → Prop
  | .main _ => s.buttons.place = some (b, .read) → (s.watch b).button.pin = true
  | _ => True

/-- A run in which a button is pressed behind `pre` and released behind `mid`, `poll` starts a call
of `process_button_events` some time later, and that call has ended behind `call`. -/
structure Press (b : ButtonId) (pre mid before : List Event) (poll : Event) (call : List Event) :
    Prop where
  high : ((run step start pre).watch b).button.pin = true
  held : .change b ∉ mid
  idle : (run step start (pre ++ .change b :: mid ++ .change b :: before)).buttons.place = none
  begins : (run step start (pre ++ .change b :: mid ++ .change b :: before ++ [poll])).buttons.place
    ≠ none
  ends : (run step start
    (pre ++ .change b :: mid ++ .change b :: before ++ poll :: call)).buttons.place = none

/-- Between the press and the end of the call the gongs are triggered for the button. -/
def Answered (b : ButtonId) (pre mid before : List Event) (poll : Event) (call : List Event) :
    Prop :=
  (b, .trigger) ∈ outputs step calls (run step start (pre ++ [.change b]))
    (mid ++ .change b :: before ++ poll :: call)

end Loop

/-! ## One button -/

namespace Watch

/-- An edge comes only when the level before it has been read, and `interrupt_pending` is tested
only when all edges have been reported. -/
def Polled (w : Watch) : Event → Prop
  | .change => w.sampled = w.button.pin
  | .interrupt => True
  | .process => w.stage = some .test → w.button.unreported = 0

/-- Released, and low when it was read last. -/
def Waiting (w : Watch) : Prop := w.button.pin = true ∧ w.sampled = false

/-- Read high for the first time, with the trigger still to come. -/
def Due (w : Watch) : Prop :=
  w.button.lastState = false ∧ (w.stage = some (.compare true) ∨
    w.stage = some (.publish true) ∨ w.stage = some (.trigger true))

/-- The block of the button is running and has not read the pin yet. -/
def Ahead (w : Watch) : Prop :=
  w.stage = some .test ∨ w.stage = some .clear ∨ w.stage = some .read

theorem Due.step {w : Watch} (h : w.Due) (e : Event) :
    .trigger ∈ w.calls e ∨ (w.step e).Due := by
  obtain ⟨x, stage⟩ := w
  cases e with
  | change => exact .inr h
  | interrupt => exact .inr h
  | process =>
    obtain ⟨hlast, rfl | rfl | rfl⟩ := h
    · refine .inr ⟨hlast, .inr (.inl ?_)⟩
      have hlow : x.lastState = false := hlast
      simp [Watch.step, Button.process, hlow]
    · exact .inr ⟨hlast, .inr (.inr rfl)⟩
    · exact .inl List.mem_cons_self

/-- A block that is ahead of its read finds an interrupt pending. -/
theorem Waiting.pending {w : Watch} (h : w.Waiting) (hsettled : w.Settled)
    (htest : w.stage = some .test) (hreported : w.button.unreported = 0) :
    w.button.interruptPending = true := by
  by_contra hidle
  have hsame := hsettled hreported (Bool.eq_false_of_not_eq_true hidle) (by rw [htest]; nofun)
  rw [h.1, h.2] at hsame
  cases hsame

/-- No edge comes while the release has not been read. -/
theorem Waiting.not_change {w : Watch} (h : w.Waiting) : ¬w.Polled .change := by
  intro hpolled
  have hsame : w.sampled = w.button.pin := hpolled
  rw [h.1, h.2] at hsame
  cases hsame

theorem Waiting.step {w : Watch} (h : w.Waiting) (hsettled : w.Settled) {e : Event}
    (hpolled : w.Polled e) :
    .trigger ∈ w.calls e ∨ (w.step e).Waiting ∨ (w.step e).Due := by
  cases e with
  | change => exact absurd hpolled h.not_change
  | interrupt => exact .inr (.inl h)
  | process =>
    have hpending := h.pending hsettled
    obtain ⟨x, stage⟩ := w
    obtain ⟨hpin, hlow⟩ := h
    cases stage with
    | none => exact .inr (.inl ⟨hpin, hlow⟩)
    | some stage =>
      cases stage with
      | test =>
        have hready : x.interruptPending = true := hpending rfl (hpolled rfl)
        rw [step_test, if_pos hready]
        exact .inr (.inl ⟨hpin, hlow⟩)
      | clear => exact .inr (.inl ⟨hpin, hlow⟩)
      | read =>
        refine .inr (.inr ⟨hlow, .inl ?_⟩)
        have hhigh : x.pin = true := hpin
        simp [Watch.step, Button.process, hhigh]
      | compare current =>
        obtain rfl : current = false := hlow
        refine .inr (.inl ⟨hpin, ?_⟩)
        cases hlast : x.lastState <;>
          simp [Watch.step, Button.process, hlast, sampled, Stage.current]
      | publish current =>
        obtain rfl : current = false := hlow
        exact .inr (.inl ⟨hpin, rfl⟩)
      | trigger current => exact .inl List.mem_cons_self
      | store current => exact .inr (.inl ⟨hpin, hlow⟩)

/-- A block that is ahead of its read goes on to trigger. -/
theorem Waiting.step_ahead {w : Watch} (h : w.Waiting) (hsettled : w.Settled) (hahead : w.Ahead)
    {e : Event} (hpolled : w.Polled e) :
    ((w.step e).Waiting ∧ (w.step e).Ahead) ∨ (w.step e).Due := by
  cases e with
  | change => exact absurd hpolled h.not_change
  | interrupt => exact .inl ⟨h, hahead⟩
  | process =>
    have hpending := h.pending hsettled
    obtain ⟨x, stage⟩ := w
    obtain ⟨hpin, hlow⟩ := h
    rcases hahead with rfl | rfl | rfl
    · have hready : x.interruptPending = true := hpending rfl (hpolled rfl)
      rw [step_test, if_pos hready]
      exact .inl ⟨⟨hpin, hlow⟩, .inr (.inl rfl)⟩
    · exact .inl ⟨⟨hpin, hlow⟩, .inr (.inr rfl)⟩
    · refine .inr ⟨hlow, .inl ?_⟩
      have hhigh : x.pin = true := hpin
      simp [Watch.step, Button.process, hhigh]

/-- High when it was read last, and that is not news. -/
def Quiet (w : Watch) : Prop :=
  w.button.lastState = true ∧
      (w.stage = none ∨ w.Ahead ∨ w.stage = some (.compare true)) ∨
    w.stage = some (.store true)

/-- Without a read that finds the pin low there is nothing to trigger. -/
theorem Quiet.step {w : Watch} (h : w.Quiet) {e : Event}
    (hread : e = .process → w.stage = some .read → w.button.pin = true) :
    .trigger ∉ w.calls e ∧ (w.step e).Quiet := by
  obtain ⟨x, stage⟩ := w
  cases e with
  | change => exact ⟨List.not_mem_nil, h⟩
  | interrupt => exact ⟨List.not_mem_nil, h⟩
  | process =>
    obtain ⟨hlast, rfl | (rfl | rfl | rfl) | rfl⟩ | rfl := h
    · exact ⟨List.not_mem_nil, .inl ⟨hlast, .inr (.inl (.inl rfl))⟩⟩
    · refine ⟨List.not_mem_nil, .inl ⟨hlast, ?_⟩⟩
      cases hpending : x.interruptPending <;> simp [Watch.step, Button.process, Ahead, hpending]
    · exact ⟨List.not_mem_nil, .inl ⟨hlast, .inr (.inl (.inr (.inr rfl)))⟩⟩
    · have hhigh : x.pin = true := hread rfl rfl
      refine ⟨List.not_mem_nil, .inl ⟨hlast, .inr (.inr ?_)⟩⟩
      simp [Watch.step, Button.process, hhigh]
    · have hsame : x.lastState = true := hlast
      refine ⟨List.not_mem_nil, .inl ⟨hlast, .inl ?_⟩⟩
      simp [Watch.step, Button.process, hsame]
    · exact ⟨List.not_mem_nil, .inl ⟨rfl, .inl rfl⟩⟩

end Watch

/-! ## Both buttons -/

namespace Buttons
variable {b : ButtonId} {s : Buttons} {e : Event}

def Polled (b : ButtonId) (s : Buttons) : Event → Prop
  | .change b' => b' = b → (s.watch b).sampled = (s.watch b).button.pin
  | .interrupt _ => True
  | .process => s.place = some (b, .test) → (s.watch b).button.unreported = 0

/-- A condition on the button's own step, if it takes one. -/
theorem along_seen {C : Watch → Watch.Event → Prop}
    (hchange : e = .change b → C (s.watch b) .change)
    (hinterrupt : e = .interrupt b → C (s.watch b) .interrupt)
    (hprocess : e = .process → C (s.watch b) .process) :
    Along Watch.step C (s.watch b) (seen b s e) := by
  cases e with
  | change b' =>
    simp only [seen]
    split_ifs with hb
    · exact ⟨hchange (by rw [hb]), trivial⟩
    · trivial
  | interrupt b' =>
    simp only [seen]
    split_ifs with hb
    · exact ⟨hinterrupt (by rw [hb]), trivial⟩
    · trivial
  | process =>
    simp only [seen]
    split_ifs
    · exact ⟨hprocess rfl, trivial⟩
    · trivial

theorem Polled.watch (h : s.Polled b e) :
    Along Watch.step Watch.Polled (s.watch b) (seen b s e) := by
  apply along_seen
  · rintro rfl
    exact h rfl
  · exact fun _ => trivial
  · rintro rfl hstage
    exact h (stageOf_eq_some_iff.mp hstage)

theorem mem_callsFor_iff {call : Call} {cs : List (ButtonId × Call)} :
    call ∈ callsFor b cs ↔ (b, call) ∈ cs := by
  simp [callsFor]

/-- What a button keeps or triggers instead in its own steps, it does in those of both. -/
theorem keeps_or_triggers {I : Watch → Prop}
    (hstep : ∀ w e, I w → w.Polled e → .trigger ∈ w.calls e ∨ I (w.step e))
    (hI : I (s.watch b)) (hpolled : s.Polled b e) :
    (b, .trigger) ∈ s.calls e ∨ I ((s.step e).watch b) := by
  rw [watch_step]
  refine (mem_outputs_or hstep hI hpolled.watch).imp_left fun h => mem_callsFor_iff.mp ?_
  rwa [callsFor_calls]

/-- A read of the pin finds it high. -/
def Unread (b : ButtonId) (s : Buttons) (e : Event) : Prop :=
  e = .process → s.place = some (b, .read) → (s.watch b).button.pin = true

theorem Unread.watch (h : s.Unread b e) :
    Along Watch.step (fun w e => e = .process → w.stage = some .read → w.button.pin = true)
      (s.watch b) (seen b s e) := by
  apply along_seen
  · exact fun _ hprocess => absurd hprocess (by simp)
  · exact fun _ hprocess => absurd hprocess (by simp)
  · intro he _ hstage
    exact h he (stageOf_eq_some_iff.mp hstage)

theorem quiet_step (h : (s.watch b).Quiet) (hunread : s.Unread b e) :
    (b, .trigger) ∉ s.calls e ∧ ((s.step e).watch b).Quiet := by
  rw [← mem_callsFor_iff, callsFor_calls, watch_step]
  exact ⟨not_mem_outputs (fun _ _ hw hread => hw.step hread) h hunread.watch,
    run_of_along (fun _ _ hw hread => (hw.step hread).2) h hunread.watch⟩

/-- The release of the button is still to be answered. -/
def Asked (b : ButtonId) (s : Buttons) : Prop :=
  (s.watch b).Settled ∧ ((s.watch b).Waiting ∨ (s.watch b).Due)

/-- The running call is still to answer it: it has not got to the block of the button, the block
has not read the pin, or the trigger is still to come. -/
def InCall (b : ButtonId) (s : Buttons) : Prop :=
  (s.watch b).Settled ∧
    ((∃ stage, s.place = some (.frontdoor, stage)) ∧ b = .office ∧ (s.watch b).Waiting ∨
      (s.watch b).Waiting ∧ (s.watch b).Ahead ∨ (s.watch b).Due)

theorem Asked.step (h : s.Asked b) (hpolled : s.Polled b e) :
    (b, .trigger) ∈ s.calls e ∨ (s.step e).Asked b := by
  refine keeps_or_triggers (I := fun w => w.Settled ∧ (w.Waiting ∨ w.Due)) ?_ h hpolled
  rintro w e ⟨hsettled, hwait | hdue⟩ hw
  · exact (hwait.step hsettled hw).imp_right fun hnext => ⟨hsettled.step e, hnext⟩
  · exact (hdue.step e).imp_right fun hnext => ⟨hsettled.step e, .inr hnext⟩

/-- The block of the other button goes on, or is over. -/
theorem place_process_frontdoor {stage : Stage} (h : s.place = some (.frontdoor, stage)) :
    (∃ stage', s.process.place = some (.frontdoor, stage')) ∨
      s.process.place = some (.office, .test) := by
  cases hnext : ((s.button .frontdoor).process stage).2 with
  | some next => exact .inl ⟨next, by simp [process, h, hnext]⟩
  | none => exact .inr (by simp [process, h, hnext, behind])

theorem InCall.step (h : s.InCall b) (hpolled : s.Polled b e) :
    (b, .trigger) ∈ s.calls e ∨ (s.step e).InCall b := by
  obtain ⟨hsettled, ⟨⟨stage, hplace⟩, rfl, hwait⟩ | hturn⟩ := h
  · -- until its block begins the button waits
    rcases Asked.step ⟨hsettled, .inl hwait⟩ hpolled with hnow | ⟨hsettled, hwait | hdue⟩
    · exact .inl hnow
    · refine .inr ⟨hsettled, ?_⟩
      cases e with
      | change b' => exact .inl ⟨⟨stage, hplace⟩, rfl, hwait⟩
      | interrupt b' => exact .inl ⟨⟨stage, hplace⟩, rfl, hwait⟩
      | process =>
        rcases place_process_frontdoor hplace with hstill | hturn
        · exact .inl ⟨hstill, rfl, hwait⟩
        · exact .inr (.inl ⟨hwait, .inl (stageOf_eq_some_iff.mpr hturn)⟩)
    · exact .inr ⟨hsettled, .inr (.inr hdue)⟩
  · refine keeps_or_triggers (I := fun w => w.Settled ∧ (w.Waiting ∧ w.Ahead ∨ w.Due)) ?_
      ⟨hsettled, hturn⟩ hpolled |>.imp_right fun h => ⟨h.1, .inr h.2⟩
    rintro w e ⟨hsettled, ⟨hwait, hahead⟩ | hdue⟩ hw
    · exact .inr ⟨hsettled.step e, hwait.step_ahead hsettled hahead hw⟩
    · exact (hdue.step e).imp_right fun hnext => ⟨hsettled.step e, .inr hnext⟩

theorem pin_process (b : ButtonId) (s : Buttons) : (s.process.button b).pin = (s.button b).pin := by
  have hblock (x : Button) (stage : Stage) : (x.process stage).1.pin = x.pin := by
    cases stage <;> rfl
  unfold process
  rcases s.place with _ | ⟨b', stage⟩
  · rfl
  · by_cases hb : b = b'
    · subst hb
      simp [setButton, hblock]
    · simp [setButton, Function.update_of_ne hb]

/-- A call that has ended has nothing left to answer. -/
theorem InCall.running (h : s.InCall b) : s.place ≠ none := by
  intro hnone
  have hstage : (s.watch b).stage = none := stageOf_of_not_running hnone
  obtain ⟨_, ⟨⟨stage, hplace⟩, _⟩ | ⟨_, hahead⟩ | ⟨_, hdue⟩⟩ := h
  · simp [hplace] at hnone
  · simp [Watch.Ahead, hstage] at hahead
  · simp [hstage] at hdue

/-- A call that begins after the release will get to the button. -/
theorem Asked.call (h : s.Asked b) (hidle : s.place = none) : s.process.InCall b := by
  obtain ⟨hsettled, hasked⟩ := h
  have hwatch : s.watch b = ⟨s.button b, none⟩ := by rw [watch, stageOf_of_not_running hidle]
  rw [hwatch] at hsettled hasked
  have hwait : (⟨s.button b, none⟩ : Watch).Waiting := by
    refine hasked.resolve_right fun hdue => ?_
    rcases hdue.2 with h | h | h <;> cases h
  have hprocess : s.process = { s with place := some (.frontdoor, .test) } := by
    simp [process, hidle]
  rw [hprocess]
  cases b with
  | frontdoor =>
    exact ⟨fun hreported hpending _ => hsettled hreported hpending (by simp),
      .inr (.inl ⟨hwait, .inl rfl⟩)⟩
  | office => exact ⟨hsettled, .inl ⟨⟨.test, rfl⟩, rfl, hwait⟩⟩

/-- A release whose press was read is answered by the end of a call that begins after it. -/
theorem triggers_of_polled (hasked : s.Asked b) {before call : List Event}
    (hidle : (run step s before).place = none)
    (hends : (run step s (before ++ .process :: call)).place = none)
    (hpolled : Along step (Polled b) s (before ++ .process :: call)) :
    (b, .trigger) ∈ outputs step calls s (before ++ .process :: call) := by
  obtain ⟨hfirst, _, hrest⟩ := (along_append s before _).mp hpolled
  rw [outputs_append, List.mem_append]
  rcases mem_outputs_or (fun _ _ h hp => Asked.step h hp) hasked hfirst with hthen | hstill
  · exact .inl hthen
  · right
    rcases mem_outputs_or (fun _ _ h hp => InCall.step h hp) (hstill.call hidle) hrest with
      hthen | hopen
    · exact List.mem_append_right _ hthen
    · rw [run_append] at hends
      exact absurd hends hopen.running

end Buttons

/-! ## The buttons in the loop -/

namespace Loop

instance (b : ButtonId) (pre mid before : List Event) (poll : Event) (call : List Event) :
    Decidable (Answered b pre mid before poll call) := inferInstanceAs (Decidable (_ ∈ _))

theorem buttons_main (answer : Bool) (s : Loop) :
    (s.main answer).buttons = if s.handles then s.buttons.process else s.buttons := by
  obtain ⟨state, place, buttons⟩ := s
  cases place with
  | top => cases state <;> rfl
  | updating caller => cases caller <;> rfl
  | _ => rfl

theorem buttons_step (s : Loop) (e : Event) :
    (s.step e).buttons = run Buttons.step s.buttons (s.seen e) := by
  cases e with
  | change b => rfl
  | interrupt b => rfl
  | main answer =>
    simp only [step, buttons_main, seen]
    split_ifs <;> rfl

theorem buttons_run (s : Loop) (es : List Event) :
    (run step s es).buttons = run Buttons.step s.buttons (outputs step seen s es) :=
  view_run buttons_step s es

theorem calls_outputs (s : Loop) (es : List Event) :
    outputs step calls s es =
      outputs Buttons.step Buttons.calls s.buttons (outputs step seen s es) := by
  refine outputs_view buttons_step (fun s e => ?_) s es
  cases e with
  | change b => rfl
  | interrupt b => rfl
  | main answer =>
    simp only [calls, seen]
    split_ifs <;> simp [outputs]

theorem polled_seen {b : ButtonId} {s : Loop} {e : Event} (h : s.Polled b e) :
    Along Buttons.step (Buttons.Polled b) s.buttons (s.seen e) := by
  cases e with
  | change b' => exact ⟨h, trivial⟩
  | interrupt b' => exact ⟨trivial, trivial⟩
  | main answer =>
    simp only [seen]
    split_ifs
    · exact ⟨h, trivial⟩
    · trivial

theorem unread_seen {b : ButtonId} {s : Loop} {e : Event} (h : s.Unread b e) :
    Along Buttons.step (Buttons.Unread b) s.buttons (s.seen e) := by
  cases e with
  | change b' => exact ⟨nofun, trivial⟩
  | interrupt b' => exact ⟨nofun, trivial⟩
  | main answer =>
    simp only [seen]
    split_ifs
    · exact ⟨fun _ => h, trivial⟩
    · trivial

theorem settled_run (b : ButtonId) (es : List Event) : ((run step start es).watch b).Settled := by
  rw [watch, buttons_run]
  exact Buttons.settled_run b _

/-- The step in which a call of `process_button_events` begins is a step of it. -/
theorem seen_of_begins {s : Loop} {e : Event} (hidle : s.buttons.place = none)
    (hbegins : (s.step e).buttons.place ≠ none) : s.seen e = [.process] := by
  cases e with
  | change b => exact absurd hidle hbegins
  | interrupt b => exact absurd hidle hbegins
  | main answer =>
    simp only [step, buttons_main] at hbegins
    simp only [seen]
    split_ifs at hbegins ⊢
    · rfl
    · exact absurd hidle hbegins

/-- Only its edges change a pin. -/
theorem pin_step {b : ButtonId} {s : Loop} {e : Event} (h : e ≠ .change b) :
    ((s.step e).watch b).button.pin = (s.watch b).button.pin := by
  cases e with
  | change b' =>
    have hne : b ≠ b' := fun hb => h (by rw [hb])
    exact congrArg (·.button.pin) (Buttons.watch_setButton_of_ne hne _)
  | interrupt b' =>
    by_cases hb : b = b'
    · subst hb
      exact congrArg (·.button.pin) (Buttons.watch_setButton _)
    · exact congrArg (·.button.pin) (Buttons.watch_setButton_of_ne hb _)
  | main answer =>
    simp only [step, watch, buttons_main]
    split_ifs
    · exact Buttons.pin_process b s.buttons
    · rfl

theorem pin_run {b : ButtonId} {s : Loop} {es : List Event} (h : .change b ∉ es) :
    ((run step s es).watch b).button.pin = (s.watch b).button.pin := by
  induction es generalizing s with
  | nil => rfl
  | cons e es ih =>
    rw [List.mem_cons, not_or] at h
    rw [run_cons, ih h.2, pin_step (Ne.symm h.1)]

/-- Behind the release of a press that was read, its answer is still to come. -/
theorem asked_of_released {b : ButtonId} {s : Loop} (hsettled : (s.watch b).Settled)
    (hpin : (s.watch b).button.pin = false) (hpolled : s.Polled b (.change b)) :
    (s.step (.change b)).buttons.Asked b := by
  have hread : (s.watch b).sampled = false := (hpolled rfl).trans hpin
  have hwatch : (s.step (.change b)).buttons.watch b =
      { s.watch b with button := (s.watch b).button.change } := Buttons.watch_setButton _
  rw [Buttons.Asked, hwatch]
  exact ⟨hsettled.step .change, .inl ⟨by rw [Button.change, hpin]; rfl, hread⟩⟩

/-- If no edge of the button comes before the level that the edge before it left has been read,
and none is still unreported when `interrupt_pending` is tested, its press is answered by the end
of the first call that begins after its release, or of any other. -/
theorem answered_of_polled {b : ButtonId} {pre mid before call : List Event} {poll : Event}
    (h : Press b pre mid before poll call)
    (hpolled : Along step (Polled b) (run step start (pre ++ [.change b]))
      (mid ++ .change b :: before ++ poll :: call)) : Answered b pre mid before poll call := by
  obtain ⟨hhigh, hheld, hidle, hbegins, hends⟩ := h
  let pressed := run step start (pre ++ [.change b])
  let released := run step pressed (mid ++ [.change b])
  have hrun (es : List Event) :
      run step start (pre ++ .change b :: mid ++ .change b :: es) = run step released es := by
    simp [released, pressed, run_append]
  have hsplit : mid ++ .change b :: before ++ poll :: call =
      (mid ++ [.change b]) ++ (before ++ poll :: call) := by simp
  rw [hrun] at hidle
  rw [List.append_assoc, List.cons_append, hrun, run_snoc] at hbegins
  rw [List.append_assoc, List.cons_append, hrun] at hends
  rw [hsplit, along_append, along_append] at hpolled
  obtain ⟨⟨_, hrelease, _⟩, hafter⟩ := hpolled
  have hlow : ((run step pressed mid).watch b).button.pin = false := by
    have hfall : (pressed.watch b).button.pin = !((run step start pre).watch b).button.pin := by
      simp only [pressed, run_snoc]
      exact congrArg (·.button.pin) (Buttons.watch_setButton _)
    rw [pin_run hheld, hfall, hhigh]
    rfl
  have hasked : released.buttons.Asked b := by
    have hsettled : ((run step pressed mid).watch b).Settled := by
      simp only [pressed, ← run_append]
      exact settled_run b _
    simp only [released, run_snoc]
    exact asked_of_released hsettled hlow hrelease
  -- from here on it is a run of the buttons with one call in it
  have hpoll := seen_of_begins hidle hbegins
  have hlist : outputs step seen released (before ++ poll :: call) =
      outputs step seen released before ++ .process ::
        outputs step seen (run step released (before ++ [poll])) call := by
    rw [outputs_append, outputs, hpoll, run_snoc]
    rfl
  have hbuttons := along_view buttons_step (fun _ _ h => polled_seen h) hafter
  rw [hlist] at hbuttons
  have hcalls := Buttons.triggers_of_polled hasked (by rw [← buttons_run]; exact hidle)
    (by rw [← hlist, ← buttons_run]; exact hends) hbuttons
  rw [← hlist, ← calls_outputs] at hcalls
  rw [Answered, hsplit, outputs_append]
  exact List.mem_append_right _ hcalls

/-- A press in `kRunning` that lasts for a whole call is answered by the next one. -/
theorem answered_while_running :
    Answered .frontdoor (.replicate 5 (.main true))
      (.interrupt .frontdoor :: .replicate 11 (.main true)) [.interrupt .frontdoor] (.main true)
      (.replicate 8 (.main true)) := by
  refine answered_of_polled ⟨?_, ?_, ?_, ?_, ?_⟩ ?_
  · decide
  · decide
  · decide
  · decide
  · decide
  · decide

/-- A press whose low level is never read is not answered, unless the button had an event to come
when it was pressed. -/
theorem not_answered_of_unread {b : ButtonId} {pre mid before call : List Event} {poll : Event}
    (hquiet : ((run step start pre).watch b).Quiet)
    (hunread : Along step (Unread b) (run step start (pre ++ [.change b]))
      (mid ++ .change b :: before ++ poll :: call)) : ¬Answered b pre mid before poll call := by
  have hpressed : ((run step start (pre ++ [.change b])).watch b).Quiet := by
    have hwatch : (run step start (pre ++ [.change b])).watch b =
        ((run step start pre).watch b).step .change := by
      rw [run_snoc]
      exact Buttons.watch_setButton _
    rw [hwatch]
    exact hquiet
  have hseen := along_view buttons_step (fun _ _ h => unread_seen h) hunread
  rw [Answered, calls_outputs]
  exact not_mem_outputs (I := fun s => (s.watch b).Quiet) (fun _ _ h hread =>
    Buttons.quiet_step h hread) hpressed hseen

/-- Pressed and released in `connect`, a button triggers nothing when `loop` polls it again. -/
theorem not_answered_while_connecting :
    ¬∀ b pre mid before poll call, Press b pre mid before poll call →
      Answered b pre mid before poll call := by
  intro h
  have hanswered := h .frontdoor (.replicate 3 (.main true)) [.interrupt .frontdoor]
    [.interrupt .frontdoor, .main true, .main true] (.main true) (.replicate 5 (.main true))
    ⟨by decide, by decide, by decide, by decide, by decide⟩
  exact absurd hanswered (by decide)

end Loop
end SmartBell.App.SmartBellApp
