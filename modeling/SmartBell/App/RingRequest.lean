import SmartBell.App.RingTime

/-!
# Ring requests

A RING command is served by the next call, and a press that is held long enough is
accepted before it ends, unless a call falls into a lock that holds again or the counter
hides that the cooldown is over. To speak of the previous accepted press a run keeps its
real time beside the bell.
-/
namespace SmartBell.App
open Common

/-- The call accepts a press: polling sets both flags. -/
def Bell.Accepts (b : Bell) (i : ChimeId) : Event → Prop
  | .call j t pind _ _ => j = i ∧ (b.startLoop (counter t)).isLocked (counter t) = false ∧
      (b.chime i).buttonPressed = false ∧ (b.polled i t pind).buttonPressed = true ∧
      (b.polled i t pind).triggerPending = true
  | .message _ _ => False

instance (b : Bell) (i : ChimeId) (e : Event) : Decidable (b.Accepts i e) := by
  cases e <;> unfold Bell.Accepts <;> infer_instance

/-- A bell, and when a press of the chime was last accepted. -/
structure Watched where
  bell : Bell
  accepted : Option Nat

def Watched.step (i : ChimeId) (w : Watched) (e : Event) : Watched where
  bell := w.bell.step e
  accepted := if w.bell.Accepts i e then e.timeOf i else w.accepted

def Watched.boot (portB pind : UInt8) (now : UInt32) : Watched := ⟨.boot portB pind now, none⟩

/-- What a call on the chime samples is low, that is, the button is pressed. -/
def Event.Low (i : ChimeId) : Event → Prop
  | .call _ _ pind _ _ => rawState pind i = false
  | .message _ _ => True

/-- The next call can ring the chime. -/
def Bell.Requested (b : Bell) (i : ChimeId) : Prop :=
  (b.chime i).enabled = true ∧ (b.chime i).isRinging = false ∧
    (b.chime i).triggerPending = true

/-- The button is released, as far as debouncing knows. -/
def Bell.Released (b : Bell) (i : ChimeId) : Prop :=
  (b.chime i).lastRawState = true ∧ (b.chime i).buttonPressed = false

/-- Once the first lock has ended, the next call after a request raises the output, if the chime
is then still enabled. -/
def RequestsHonoured (i : ChimeId) (b : Bell) (es : List Event) : Prop :=
  ∀ pre mid e post t, es = pre ++ mid ++ e :: post → (run Bell.step b pre).Requested i →
    (∀ f ∈ mid, f.timeOf i = none) → ((run Bell.step b (pre ++ mid)).chime i).enabled = true →
    e.timeOf i = some t → loopStart es + 3000 ≤ t → (run Bell.step b (pre ++ mid)).GoesHigh i e

/-- A button is held down: behind the call `e`, the last one before `p`, all calls come from `p`
on, and those before `r` sample low. -/
structure Held (i : ChimeId) (e : Event) (p r : Nat) (rest : List Event) : Prop where
  before : ∃ u, e.timeOf i = some u ∧ u < p
  calls : ∀ f ∈ rest, ∀ t, f.timeOf i = some t → p ≤ t ∧ (t < r → f.Low i)
  released : ∃ f ∈ rest, ∃ t, f.timeOf i = some t ∧ r ≤ t

/-- Once the first lock has ended, a press that follows a debounced release, comes more than three
seconds after the last accepted one and is held for more than `50 + 2 * D` ms is accepted. -/
def PressesAccepted (D : Nat) (i : ChimeId) (w : Watched) (es : List Event) : Prop :=
  ∀ pre e rest p r, es = pre ++ e :: rest → Held i e p r rest → p + (50 + 2 * D) < r →
    loopStart es + 3000 ≤ p → (run (Watched.step i) w (pre ++ [e])).bell.Released i →
    (∀ a, (run (Watched.step i) w (pre ++ [e])).accepted = some a → a + 3000 < p) →
    ∃ mid f post t, rest = mid ++ f :: post ∧ f.timeOf i = some t ∧ p ≤ t ∧ t < r ∧
      (run (Watched.step i) w (pre ++ e :: mid)).bell.Accepts i f

/-- The sampled level has been there for long enough, by the counter. -/
def Bell.Settled (b : Bell) (i : ChimeId) : Event → Prop
  | .call _ t pind _ _ =>
    50 < counter t - ((b.chime i).sample (rawState pind i) (counter t)).lastDebounceMs
  | .message _ _ => False

/-- A call that finds a request does not come while the lock holds again. -/
def RequestServiced (t₀ : Nat) (i : ChimeId) (w : Watched) (e : Event) : Prop :=
  ∀ t, e.timeOf i = some t → w.bell.Requested i → ¬Relocked t₀ t

/-- A call during a press that was not accepted yet does not come while the lock holds again,
and when the input has settled, the counter shows that the cooldown is over if it is. -/
def PressServiced (t₀ : Nat) (i : ChimeId) (w : Watched) (e : Event) : Prop :=
  ∀ t, e.timeOf i = some t → e.Low i → (w.bell.chime i).buttonPressed = false →
    ¬Relocked t₀ t ∧ (w.bell.Settled i e →
      (∀ a, w.accepted = some a → a + 3000 < t) → 3000 < (t - w.accepted.getD 0) % period)

section Steps
variable {i : ChimeId} {w : Watched} {t₀ : Nat} {e : Event}

theorem run_bell (w : Watched) (es : List Event) :
    (run (Watched.step i) w es).bell = run Bell.step w.bell es := by
  induction es generalizing w with
  | nil => rfl
  | cons e es ih => exact ih (w.step i e)

/-- Behind the first lock, a call is locked only if it is locked again. -/
theorem isLocked_of_not_relocked {b : Bell} (h : b.StartedBy [t₀]) {t : Nat} (hle : t₀ + 3000 ≤ t)
    (hnot : ¬Relocked t₀ t) : (b.startLoop (counter t)).isLocked (counter t) = false := by
  have hstart : (b.startLoop (counter t)).StartedBy [t₀] := (startLoop_startedBy h t).first []
  rw [← Bool.not_eq_true, hstart.isLocked_iff (by omega)]
  intro hlocked
  exact hnot (relocked_of_locked hle hlocked)

section Call
variable {b : Bell} {t : Nat} {pind : UInt8} {connected published : Bool}

/-- A press is accepted if the input has settled low and the cooldown is over. -/
theorem accepts_of_settled (hlock : (b.startLoop (counter t)).isLocked (counter t) = false)
    (hlow : rawState pind i = false) (hpressed : (b.chime i).buttonPressed = false)
    (hsettled : b.Settled i (.call i t pind connected published))
    (hcool : 3000 < counter t - (b.chime i).lastEventMs) :
    b.Accepts i (.call i t pind connected published) := by
  have hover : counter t - ((b.chime i).sample (rawState pind i) (counter t)).lastDebounceMs > 50 :=
    hsettled
  have hpolled : b.polled i t pind =
      ((b.chime i).sample (rawState pind i) (counter t)).accept (counter t) := by
    rw [Bell.polled, ChimeState.debounce, if_pos hover, hlow]
    simp [ChimeState.pressed, hpressed, hcool]
  exact ⟨rfl, hlock, hpressed, by rw [hpolled]; rfl, by rw [hpolled]; rfl⟩

/-- Polling accepts a press, or it changes nothing but the button, and does not set that. -/
theorem debounce_cases (raw : Bool) (now : UInt32) (c : ChimeState) :
    (c.pressed now ∧ c.debounce raw now = c.accept now) ∨
      ∃ pressed, c.debounce raw now = { c with buttonPressed := pressed } ∧
        (c.buttonPressed = false → pressed = false) := by
  unfold ChimeState.debounce
  split_ifs with _ _ hpressed
  · exact Or.inl ⟨hpressed, rfl⟩
  · exact Or.inr ⟨_, rfl, id⟩
  · exact Or.inr ⟨_, rfl, fun _ => rfl⟩
  · exact Or.inr ⟨_, rfl, id⟩

/-- Polling records the time of the call if it accepts a press. -/
theorem polled_lastEventMs (hlock : (b.startLoop (counter t)).isLocked (counter t) = false)
    (connected published : Bool) :
    (b.polled i t pind).lastEventMs =
      if b.Accepts i (.call i t pind connected published) then counter t
      else (b.chime i).lastEventMs := by
  rcases debounce_cases (rawState pind i) (counter t)
    ((b.chime i).sample (rawState pind i) (counter t)) with
    ⟨hpressed, haccept⟩ | ⟨button, hsame, hbutton⟩
  · have haccepts : b.Accepts i (.call i t pind connected published) := by
      refine ⟨rfl, hlock, by simpa using hpressed.1, ?_, ?_⟩ <;> rw [Bell.polled, haccept] <;> rfl
    rw [if_pos haccepts, Bell.polled, haccept]
    rfl
  · have hnot : ¬b.Accepts i (.call i t pind connected published) := by
      rintro ⟨_, _, hbefore, hafter, _⟩
      rw [Bell.polled, hsame] at hafter
      rw [hbutton hbefore] at hafter
      cases hafter
    rw [if_neg hnot, Bell.polled, hsame]
    rfl

/-- While the input has not settled, a call records its sample and nothing else. -/
theorem polled_of_unsettled (h : ¬b.Settled i (.call i t pind connected published)) :
    b.polled i t pind = (b.chime i).sample (rawState pind i) (counter t) := by
  have hearly : ¬(counter t -
      ((b.chime i).sample (rawState pind i) (counter t)).lastDebounceMs > 50) := h
  rw [Bell.polled, ChimeState.debounce, if_neg hearly]

end Call

/-! ## The watched bell -/

/-- Only a call on the chime itself accepts a press. -/
theorem Bell.not_accepts_of_elsewhere (b : Bell) (htime : e.timeOf i = none) :
    ¬b.Accepts i e := by
  intro haccepts
  cases e with
  | message topic payload => exact haccepts
  | call j t pind connected published =>
    obtain ⟨rfl, _⟩ := haccepts
    simp [Event.timeOf] at htime

/-- The cooldown is measured from the last accepted press, or from the start of the counter. -/
def Watched.Dated (w : Watched) (i : ChimeId) : Prop :=
  (w.bell.chime i).lastEventMs = counter (w.accepted.getD 0)

theorem Watched.Dated.step (h : w.Dated i) (e : Event) : (w.step i e).Dated i := by
  cases htime : e.timeOf i with
  | none =>
    have hnot := w.bell.not_accepts_of_elsewhere htime
    obtain ⟨_, enabled, pending, hchime, _⟩ := step_elsewhere (b := w.bell) htime
    rw [Dated, Watched.step, if_neg hnot, hchime]
    exact h
  | some t =>
    obtain ⟨pind, connected, published, rfl⟩ := Event.call_of_timeOf htime
    cases hlock : (w.bell.startLoop (counter t)).isLocked (counter t) with
    | true =>
      have hnot : ¬w.bell.Accepts i (.call i t pind connected published) := by
        rintro ⟨_, hopen, _⟩
        rw [hlock] at hopen
        cases hopen
      rw [Dated, Watched.step, if_neg hnot, step_of_locked hlock]
      simpa [ChimeState.lock, Dated] using h
    | false =>
      obtain ⟨_, _, _, hevent⟩ := step_polled hlock i pind connected published
      rw [Dated, Watched.step, hevent, polled_lastEventMs hlock connected published]
      split_ifs
      · rw [htime]
        rfl
      · exact h

theorem run_dated (portB pind : UInt8) (now : UInt32) (es : List Event) :
    (run (Watched.step i) (.boot portB pind now) es).Dated i :=
  run_invariant (I := fun w => Watched.Dated w i) (fun _ e h => h.step e) (by cases i <;> rfl) es

/-- An unpressed button, with the last accepted press and the start of the loop on record. -/
structure Watched.Waiting (w : Watched) (i : ChimeId) (t₀ : Nat) (last : Option Nat) : Prop where
  started : w.bell.StartedBy [t₀]
  dated : w.Dated i
  accepted : w.accepted = last
  unpressed : (w.bell.chime i).buttonPressed = false

variable {last : Option Nat}

/-- What is not a call on the chime leaves its button alone. -/
theorem Watched.Waiting.elsewhere (h : w.Waiting i t₀ last) (htime : e.timeOf i = none) :
    (w.step i e).Waiting i t₀ last ∧
      ((w.step i e).bell.chime i).lastRawState = (w.bell.chime i).lastRawState ∧
      ((w.step i e).bell.chime i).lastDebounceMs = (w.bell.chime i).lastDebounceMs := by
  have hnot := w.bell.not_accepts_of_elsewhere htime
  obtain ⟨_, enabled, pending, hchime, _⟩ := step_elsewhere (b := w.bell) htime
  have hkept : (w.step i e).bell.chime i =
      { w.bell.chime i with enabled, triggerPending := pending } := hchime
  refine ⟨⟨step_startedBy h.started e, h.dated.step e, ?_, ?_⟩, ?_, ?_⟩
  · rw [Watched.step, if_neg hnot, h.accepted]
  · rw [hkept, h.unpressed]
  · rw [hkept]
  · rw [hkept]

/-- A call that finds the input unsettled samples it. -/
theorem Watched.Waiting.sample (h : w.Waiting i t₀ last) {t : Nat} {pind : UInt8}
    {connected published : Bool}
    (hlock : (w.bell.startLoop (counter t)).isLocked (counter t) = false)
    (hearly : ¬w.bell.Settled i (.call i t pind connected published)) :
    (w.step i (.call i t pind connected published)).Waiting i t₀ last ∧
      ((w.step i (.call i t pind connected published)).bell.chime i).lastRawState =
        rawState pind i ∧
      ((w.step i (.call i t pind connected published)).bell.chime i).lastDebounceMs =
        ((w.bell.chime i).sample (rawState pind i) (counter t)).lastDebounceMs := by
  have hpolled := polled_of_unsettled hearly
  obtain ⟨hraw, hdebounce, hbutton, _⟩ := step_polled hlock i pind connected published
  rw [hpolled] at hraw hdebounce hbutton
  have hnot : ¬w.bell.Accepts i (.call i t pind connected published) := by
    rintro ⟨_, _, hbefore, hafter, _⟩
    rw [hpolled, sample_buttonPressed, hbefore] at hafter
    cases hafter
  refine ⟨⟨step_startedBy h.started _, h.dated.step _, ?_, hbutton.trans h.unpressed⟩, hraw,
    hdebounce⟩
  rw [Watched.step, if_neg hnot, h.accepted]

/-- A press under way: sampled low since real time `t₁`. -/
structure Watched.Pressing (w : Watched) (i : ChimeId) (t₀ : Nat) (last : Option Nat) (t₁ : Nat) :
    Prop where
  waiting : w.Waiting i t₀ last
  low : (w.bell.chime i).lastRawState = false
  since : (w.bell.chime i).lastDebounceMs = counter t₁

/-- A call finds its input low, and no lock is in its way. -/
def Watched.Sees (w : Watched) (i : ChimeId) (e : Event) : Prop :=
  ∀ t, e.timeOf i = some t →
    e.Low i ∧ (w.bell.startLoop (counter t)).isLocked (counter t) = false

theorem Watched.Waiting.firstSample (h : w.Waiting i t₀ last)
    (hreleased : (w.bell.chime i).lastRawState = true) {t : Nat} (htime : e.timeOf i = some t)
    (hsees : w.Sees i e) : (w.step i e).Pressing i t₀ last t := by
  obtain ⟨pind, connected, published, rfl⟩ := Event.call_of_timeOf htime
  obtain ⟨hlow, hlock⟩ := hsees t htime
  have hedge : ((w.bell.chime i).sample (rawState pind i) (counter t)).lastDebounceMs =
      counter t := by
    simp [ChimeState.sample, show rawState pind i = false from hlow, hreleased]
  have hearly : ¬w.bell.Settled i (.call i t pind connected published) := by
    rw [Bell.Settled, hedge, UInt32.sub_self]
    decide
  obtain ⟨hwait, hraw, hsince⟩ := h.sample hlock hearly
  exact ⟨hwait, hraw.trans hlow, hsince.trans hedge⟩

/-- Another low sample belongs to the same press. -/
theorem Watched.Pressing.sample_since {t₁ : Nat} (h : w.Pressing i t₀ last t₁) {pind : UInt8}
    (hlow : rawState pind i = false) (now : UInt32) :
    ((w.bell.chime i).sample (rawState pind i) now).lastDebounceMs = counter t₁ := by
  simp [ChimeState.sample, hlow, h.low, h.since]

/-- For the first 50 ms of a press no call makes a difference. -/
theorem Watched.Pressing.step {t₁ : Nat} (h : w.Pressing i t₀ last t₁)
    (hcall : ∀ t, e.timeOf i = some t → t₁ ≤ t ∧ t < t₁ + 51) (hsees : w.Sees i e) :
    (w.step i e).Pressing i t₀ last t₁ := by
  cases htime : e.timeOf i with
  | none =>
    obtain ⟨hwait, hraw, hsince⟩ := h.waiting.elsewhere htime
    exact ⟨hwait, hraw.trans h.low, hsince.trans h.since⟩
  | some t =>
    obtain ⟨hfrom, hbefore⟩ := hcall t htime
    obtain ⟨pind, connected, published, rfl⟩ := Event.call_of_timeOf htime
    obtain ⟨hlow, hlock⟩ := hsees t htime
    have hearly : ¬w.bell.Settled i (.call i t pind connected published) := by
      rw [Bell.Settled, h.sample_since hlow, lt_counter_sub_iff hfrom,
        Nat.mod_eq_of_lt (by unfold period; omega)]
      exact Nat.not_lt.mpr (by simpa using (by omega : t - t₁ ≤ 50))
    obtain ⟨hwait, hraw, hsince⟩ := h.waiting.sample hlock hearly
    exact ⟨hwait, hraw.trans hlow, hsince.trans (h.sample_since hlow _)⟩

/-- The first call after that accepts the press, if the counter shows the end of the cooldown. -/
theorem Watched.Pressing.accepts {t₁ t : Nat} (h : w.Pressing i t₀ last t₁)
    (htime : e.timeOf i = some t) (hsees : w.Sees i e) (hover : t₁ + 51 ≤ t)
    (hclose : t - t₁ < period) (hlast : last.getD 0 ≤ t)
    (hcool : w.bell.Settled i e → 3000 < (t - last.getD 0) % period) : w.bell.Accepts i e := by
  obtain ⟨pind, connected, published, rfl⟩ := Event.call_of_timeOf htime
  obtain ⟨hlow, hlock⟩ := hsees t htime
  have hsettled : w.bell.Settled i (.call i t pind connected published) := by
    rw [Bell.Settled, h.sample_since hlow, lt_counter_sub_iff (by omega), Nat.mod_eq_of_lt hclose]
    exact (by omega : 50 < t - t₁)
  refine accepts_of_settled hlock hlow h.waiting.unpressed hsettled ?_
  rw [h.waiting.dated, h.waiting.accepted, lt_counter_sub_iff hlast]
  exact hcool hsettled

/-- A call in a press that is not accepted yet sees it, where the calls are serviced. -/
theorem Watched.Waiting.sees (h : w.Waiting i t₀ last)
    (hcall : ∀ t, e.timeOf i = some t → t₀ + 3000 ≤ t ∧ e.Low i)
    (hserviced : PressServiced t₀ i w e) : w.Sees i e := by
  intro t htime
  obtain ⟨hlate, hlow⟩ := hcall t htime
  exact ⟨hlow, isLocked_of_not_relocked h.started hlate
    (hserviced t htime hlow h.unpressed).1⟩

/-- Without calls on the chime its button stays as it is. -/
theorem Watched.Waiting.idle {es : List Event} (h : w.Waiting i t₀ last)
    (hes : ∀ e ∈ es, e.timeOf i = none) : (run (Watched.step i) w es).Waiting i t₀ last ∧
      ((run (Watched.step i) w es).bell.chime i).lastRawState =
        (w.bell.chime i).lastRawState := by
  refine run_of_along (I := fun v => Watched.Waiting v i t₀ last ∧
    (v.bell.chime i).lastRawState = (w.bell.chime i).lastRawState) ?_ ⟨h, rfl⟩
    (along_of_forall hes)
  rintro v e ⟨hv, hraw⟩ he
  obtain ⟨hv', hraw', _⟩ := hv.elsewhere he
  exact ⟨hv', hraw'.trans hraw⟩

/-- The calls of the first 50 ms sample the same press. -/
theorem Watched.Pressing.hold {t₁ : Nat} {es : List Event} (h : w.Pressing i t₀ last t₁)
    (hcalls : ∀ e ∈ es, ∀ t, e.timeOf i = some t →
      (t₁ ≤ t ∧ t < t₁ + 51) ∧ t₀ + 3000 ≤ t ∧ e.Low i)
    (hserviced : Along (Watched.step i) (PressServiced t₀ i) w es) :
    (run (Watched.step i) w es).Pressing i t₀ last t₁ := by
  refine run_of_along (I := fun v => Watched.Pressing v i t₀ last t₁) ?_ h
    (hserviced.and (along_of_forall hcalls))
  rintro v e hv ⟨hserved, hcall⟩
  exact hv.step (fun t ht => (hcall t ht).1)
    (hv.waiting.sees (fun t ht => (hcall t ht).2) hserved)

/-- The first call that sees a press and the calls of the 50 ms after it belong to that press. -/
theorem Watched.Waiting.pressing {t₁ : Nat} {before mid : List Event} {f : Event}
    (h : w.Waiting i t₀ last) (hreleased : (w.bell.chime i).lastRawState = true)
    (hnone : ∀ e ∈ before, e.timeOf i = none) (hfirst : f.timeOf i = some t₁)
    (hmid : ∀ e ∈ mid, ∀ t, e.timeOf i = some t → t₁ ≤ t ∧ t < t₁ + 51)
    (hlow : ∀ e ∈ f :: mid, ∀ t, e.timeOf i = some t → t₀ + 3000 ≤ t ∧ e.Low i)
    (hserviced : Along (Watched.step i) (PressServiced t₀ i) w (before ++ f :: mid)) :
    (run (Watched.step i) w (before ++ f :: mid)).Pressing i t₀ last t₁ := by
  obtain ⟨_, hserved, hrest⟩ := (along_append w before (f :: mid)).mp hserviced
  obtain ⟨hwait, hraw⟩ := h.idle hnone
  have hsees := hwait.sees (hlow f List.mem_cons_self) hserved
  have hpress := hwait.firstSample (hraw.trans hreleased) hfirst hsees
  rw [run_append, run_cons]
  exact hpress.hold
    (fun e he t ht => ⟨hmid e he t ht, hlow e (List.mem_cons_of_mem f he) t ht⟩) hrest

/-- A press that nobody has seen yet is accepted if it is held for long enough. -/
theorem Watched.Waiting.press {D u p r : Nat} {rest : List Event} (h : w.Waiting i t₀ last)
    (hreleased : (w.bell.chime i).lastRawState = true) (hD : D + 50 < period)
    (hpaced : PacedFrom (Event.timeOf i) D u rest) (hu : u < p) (hp : t₀ + 3000 ≤ p)
    (hlong : p + (50 + 2 * D) < r) (hcool : ∀ a, last = some a → a + 3000 < p)
    (hcalls : ∀ f ∈ rest, ∀ t, f.timeOf i = some t → p ≤ t ∧ (t < r → f.Low i))
    (hend : ∃ f ∈ rest, ∃ t, f.timeOf i = some t ∧ r ≤ t)
    (hserviced : Along (Watched.step i) (PressServiced t₀ i) w rest) :
    ∃ mid f post t, rest = mid ++ f :: post ∧ f.timeOf i = some t ∧ p ≤ t ∧ t < r ∧
      (run (Watched.step i) w mid).bell.Accepts i f := by
  have hlater {s : Nat} (hs : s ≤ r) : ∃ f ∈ rest, ∃ t, f.timeOf i = some t ∧ s ≤ t := by
    obtain ⟨f, hf, t, ht, hr⟩ := hend
    exact ⟨f, hf, t, ht, hs.trans hr⟩
  -- the first call of the press, and the first one more than 50 ms after it
  obtain ⟨before, f, after, t₁, rfl, hfirst, hclose⟩ := hpaced.first_after p hu (hlater (by omega))
  obtain ⟨mid, g, post, t₂, rfl, hsecond, hclose₂⟩ :=
    (hpaced.paced.from rfl hfirst.poll).first_after (t₁ + 51) (by omega)
      (hfirst.later (by omega) (hlater (by omega)))
  have hp₁ := hfirst.reached
  have hp₂ := hsecond.reached
  have hlow (e : Event) (he : e ∈ before ++ f :: (mid ++ g :: post)) (t : Nat)
      (ht : e.timeOf i = some t) (hbefore : t < r) : t₀ + 3000 ≤ t ∧ e.Low i := by
    obtain ⟨hfrom, hheld⟩ := hcalls e he t ht
    exact ⟨by omega, hheld hbefore⟩
  have hsplit : before ++ f :: (mid ++ g :: post) = (before ++ f :: mid) ++ g :: post := by simp
  rw [hsplit] at hserviced
  obtain ⟨hpressed, hlast, _⟩ := (along_append w (before ++ f :: mid) (g :: post)).mp hserviced
  have hnone : ∀ e ∈ before, e.timeOf i = none := by
    intro e he
    cases htime : e.timeOf i with
    | none => rfl
    | some t =>
      have hlate := (hcalls e (List.mem_append_left _ he) t htime).1
      have hearly := (hfirst.earlier e he t htime).2
      omega
  have hheld := h.pressing hreleased hnone hfirst.poll hsecond.earlier (fun e he t ht => by
    have hbefore : t < t₁ + 51 := by
      rcases List.mem_cons.mp he with rfl | hmid
      · have hsame := hfirst.poll.symm.trans ht
        obtain rfl := Option.some.inj hsame
        omega
      · exact (hsecond.earlier e hmid t ht).2
    refine hlow e ?_ t ht (by omega)
    rw [hsplit]
    simp only [List.mem_append]
    exact Or.inl (Or.inr he)) hpressed
  have hlow₂ := hlow g (by simp) t₂ hsecond.poll (by omega)
  have hsees := hheld.waiting.sees (fun t ht => by
    rw [hsecond.poll] at ht
    obtain rfl := Option.some.inj ht
    exact hlow₂) hlast
  refine ⟨before ++ f :: mid, g, post, t₂, hsplit, hsecond.poll, by omega, by omega, ?_⟩
  refine hheld.accepts hsecond.poll hsees hp₂ (by omega) ?_ fun hsettled => ?_
  · cases last with
    | none => exact Nat.zero_le _
    | some a =>
      have hover := hcool a rfl
      simp only [Option.getD_some]
      omega
  · have hshown := (hlast t₂ hsecond.poll hlow₂.2 hheld.waiting.unpressed).2 hsettled
    rw [hheld.waiting.accepted] at hshown
    refine hshown fun a ha => ?_
    have hover := hcool a ha
    omega

/-- A call behind the lock that finds a request starts the ring. -/
theorem Bell.Requested.goesHigh {b : Bell} (h : b.Requested i) (hmirrors : b.Mirrors) {t : Nat}
    (htime : e.timeOf i = some t)
    (hlock : (b.startLoop (counter t)).isLocked (counter t) = false) : b.GoesHigh i e := by
  obtain ⟨henabled, hidle, hpending⟩ := h
  have hlow : ¬b.High i := fun hhigh => by simp [(hmirrors i).mp hhigh] at hidle
  refine ⟨hlow, (step_mirrors hmirrors e i).mpr ?_⟩
  obtain ⟨pind, connected, published, rfl⟩ := Event.call_of_timeOf htime
  obtain ⟨sent, hstep⟩ := step_of_unlocked hlock i pind connected published
  have hkept : (b.polled i t pind).triggerPending = true :=
    debounce_triggerPending _ _ _ hpending
  rw [hstep]
  simp [hkept, henabled, hidle]

/-- What is not a call on the chime takes no request back; it can only disable the chime. -/
theorem Bell.Requested.elsewhere {es : List Event} {b : Bell} (h : b.Requested i)
    (hes : ∀ f ∈ es, f.timeOf i = none)
    (henabled : ((run Bell.step b es).chime i).enabled = true) :
    (run Bell.step b es).Requested i := by
  have hkept : ((run Bell.step b es).chime i).isRinging = false ∧
      ((run Bell.step b es).chime i).triggerPending = true := by
    refine run_of_along (I := fun b => (Bell.chime b i).isRinging = false ∧
      (b.chime i).triggerPending = true) ?_ h.2 (along_of_forall hes)
    rintro c f ⟨hidle, hpending⟩ hf
    obtain ⟨_, enabled, pending, hchime, hkeep⟩ := step_elsewhere (b := c) hf
    rw [hchime]
    exact ⟨hidle, hkeep hpending⟩
  exact ⟨henabled, hkept⟩

end Steps

/-! ## Runs -/

/-- If no call that finds a request, or sees a press, comes while the lock holds again, and the
counter does not hide the end of a cooldown, then every request is honoured and every press that is
long enough accepted. -/
theorem ringRequests_honoured {D : Nat} (hD : D + 50 < period) (i : ChimeId)
    (portB pind : UInt8) (now : UInt32) (es : List Event) (horder : Ordered es)
    (hpaced : Paced (Event.timeOf i) D es)
    (hrequests : Along (Watched.step i) (RequestServiced (loopStart es) i)
      (.boot portB pind now) es)
    (hpresses : Along (Watched.step i) (PressServiced (loopStart es) i)
      (.boot portB pind now) es) :
    RequestsHonoured i (.boot portB pind now) es ∧
      PressesAccepted D i (.boot portB pind now) es := by
  constructor
  · intro pre mid e post t hsplit hrequested hmid henabled htime hlate
    have hnext := hrequested.elsewhere hmid (by rwa [← run_append])
    rw [← run_append] at hnext
    refine hnext.goesHigh (run_mirrors portB pind now (pre ++ mid)) htime ?_
    obtain ⟨hlock, _⟩ := locked_iff portB pind now hsplit (Event.time_of_timeOf htime) horder
    rw [← Bool.not_eq_true, hlock]
    intro hlocked
    exact hrequests.at hsplit t htime (by rwa [run_bell]) (relocked_of_locked hlate hlocked)
  · intro pre e rest p r hsplit hheld hlong hlate hreleased hcool
    obtain ⟨u, hu, hbefore⟩ := hheld.before
    have hstarted := run_startedBy_loopStart portB pind now hsplit (Event.time_of_timeOf hu)
    have hwait : (run (Watched.step i) (.boot portB pind now) (pre ++ [e])).Waiting i
        (loopStart es) (run (Watched.step i) (.boot portB pind now) (pre ++ [e])).accepted :=
      ⟨by rwa [run_bell], run_dated portB pind now _, rfl, hreleased.2⟩
    have hsplit' : es = (pre ++ [e]) ++ rest := by simp [hsplit]
    have hserviced := hpresses.after hsplit'
    obtain ⟨mid, f, post, t, hrest, htime, hfrom, hbefore, haccepts⟩ :=
      hwait.press hreleased.1 hD (hpaced.from hsplit hu) hbefore hlate hlong hcool hheld.calls
        hheld.released hserviced
    refine ⟨mid, f, post, t, hrest, htime, hfrom, hbefore, ?_⟩
    rwa [List.append_cons, run_append]

/-! ### Two runs -/

/-- Before the counter wraps for the first time nothing stands in the way. -/
theorem serviced_of_early {i : ChimeId} {t₀ : Nat} {w : Watched} {es : List Event}
    (h : ∀ e ∈ es, ∀ t, e.timeOf i = some t → t < period ∧ (e.Low i → 3000 < t)) :
    Along (Watched.step i) (RequestServiced t₀ i) w es ∧
      Along (Watched.step i) (PressServiced t₀ i) w es := by
  have hearly : Along (Watched.step i) (fun _ e => ∀ t, e.timeOf i = some t →
      t < period ∧ (e.Low i → 3000 < t)) w es := along_of_forall h
  refine ⟨hearly.mono fun v e he t htime _ hrelocked => ?_,
    hearly.mono fun v e he t htime hlow _ => ⟨fun hrelocked => ?_, fun _ hcool => ?_⟩⟩
  · have := (he t htime).1
    exact absurd hrelocked.1 (by omega)
  · have := (he t htime).1
    exact absurd hrelocked.1 (by omega)
  · obtain ⟨hlt, hlate⟩ := he t htime
    rw [Nat.mod_eq_of_lt (by omega)]
    cases hlast : v.accepted with
    | none => exact hlate hlow
    | some a =>
      have := hcool a hlast
      simp only [Option.getD_some]
      omega

/-- A round that finds the first button pressed. -/
def pressedRound (t : Nat) : List Event :=
  [.call .chime1 t 0xFB true true, .call .chime2 t 0xFB true true]

/-- Five seconds at rest, and a press of three seconds. -/
def pressRun : List Event :=
  idleRounds 0 5 ++ pressedRound 5000 ++ pressedRound 6000 ++ pressedRound 7000 ++ idleRound 8000

theorem ringRequests_pressRun : RequestsHonoured .chime1 (.boot 0 0xFF 0) pressRun ∧
    PressesAccepted 1000 .chime1 (.boot 0 0xFF 0) pressRun := by
  have hcalls : ∀ e ∈ pressRun, ∀ t, e.timeOf .chime1 = some t →
      t < period ∧ (e.Low .chime1 → 3000 < t) := by
    have hhigh : rawState 0xFF .chime1 = true := by decide
    simp [pressRun, idleRounds, idleRound, idleCall, pressedRound, Event.timeOf, Event.Low,
      hhigh, period, List.range']
  obtain ⟨hrequests, hpresses⟩ := serviced_of_early hcalls
  refine ringRequests_honoured (by decide) .chime1 0 0xFF 0 pressRun ?_ ?_ hrequests hpresses
  · show List.Pairwise _ [0, 0, 1000, 1000, 2000, 2000, 3000, 3000, 4000, 4000, 5000, 5000, 6000,
      6000, 7000, 7000, 8000, 8000]
    decide
  · show List.IsChain _ [0, 1000, 2000, 3000, 4000, 5000, 6000, 7000, 8000]
    simp [Within]

/-- A command just before the first round after the wrap is forgotten by it. -/
theorem not_ringRequests_honoured : Ordered (commandedRun 4294968 1) ∧
    Paced (Event.timeOf .chime1) 1000 (commandedRun 4294968 1) ∧
    ¬(RequestsHonoured .chime1 (.boot 0 0xFF 0) (commandedRun 4294968 1) ∧
      PressesAccepted 1000 .chime1 (.boot 0 0xFF 0) (commandedRun 4294968 1)) := by
  refine ⟨commandedRun_ordered _ _, commandedRun_paced _ _, ?_⟩
  rintro ⟨hhonoured, _⟩
  have hidle : run Bell.step (.boot 0 0xFF 0) (idleRounds 0 4294968 ++ [ringCommand]) =
      awake.step ringCommand := run_commanded 4294964 (by decide)
  have hrings := hhonoured (idleRounds 0 4294968 ++ [ringCommand]) []
    (idleCall .chime1 4294968000) [idleCall .chime2 4294968000] 4294968000
    (by rw [commandedRun, List.append_nil, List.append_assoc]; rfl)
    (by rw [hidle]; exact ⟨by decide, by decide, by decide⟩) (by simp)
    (by rw [List.append_nil, hidle]; decide) rfl
    (by rw [commandedRun_loopStart 4294967 1]; decide)
  rw [List.append_nil, hidle] at hrings
  revert hrings
  decide

end SmartBell.App
