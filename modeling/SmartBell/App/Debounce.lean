import SmartBell.App.RingRequest

/-!
# Debouncing and cooldown

A press is accepted only behind a stretch of more than 50 ms in which every sample of
the button was low, and more than three seconds behind the press accepted before it.
The lock samples the button too, so that no stretch of equal samples starts before the
call that is noted in `last_debounce_ms`.
-/
namespace SmartBell.App
open Common

/-- The event accepts a press: the button counts as pressed behind it, and did not before. -/
def Bell.Presses (b : Bell) (i : ChimeId) (e : Event) : Prop :=
  (b.chime i).buttonPressed = false ∧ ((b.step e).chime i).buttonPressed = true

instance (b : Bell) (i : ChimeId) (e : Event) : Decidable (b.Presses i e) :=
  inferInstanceAs (Decidable (_ ∧ _))

/-- If the event is a call on the chime, it samples this level. -/
def Event.Reads (i : ChimeId) (raw : Bool) : Event → Prop
  | .call j _ pind _ _ => j = i → rawState pind i = raw
  | .message _ _ => True

/-- The button follows this waveform, as far as it is sampled. -/
def Samples (w : Nat → Bool) (i : ChimeId) (es : List Event) : Prop :=
  ∀ e ∈ es, ∀ t, e.timeOf i = some t → e.Reads i (w t)

section Steps
variable {b : Bell} {i : ChimeId} {e : Event}

theorem Event.low_of_reads {t : Nat} (h : e.Reads i false) (htime : e.timeOf i = some t) :
    e.Low i := by
  obtain ⟨pind, connected, published, rfl⟩ := call_of_timeOf htime
  exact h rfl

/-! ## Accepted presses -/

/-- What it takes to accept a press, and what is noted of it. -/
structure Bell.AcceptsAt (b : Bell) (i : ChimeId) (e : Event) (t : Nat) : Prop where
  time : e.timeOf i = some t
  unlocked : (b.startLoop (counter t)).isLocked (counter t) = false
  reads : e.Reads i false
  held : (b.chime i).lastRawState = false
  settled : 50 < counter t - (b.chime i).lastDebounceMs
  cooled : 3000 < counter t - (b.chime i).lastEventMs
  dated : ((b.step e).chime i).lastEventMs = counter t

/-- Polling sets the button only if all of its conditions hold. -/
theorem polled_buttonPressed {t : Nat} {pind : UInt8}
    (hbefore : (b.chime i).buttonPressed = false)
    (hafter : (b.polled i t pind).buttonPressed = true) :
    rawState pind i = false ∧ (b.chime i).lastRawState = false ∧
      50 < counter t - (b.chime i).lastDebounceMs ∧
      3000 < counter t - (b.chime i).lastEventMs ∧
      (b.polled i t pind).lastEventMs = counter t ∧
      (b.polled i t pind).triggerPending = true := by
  unfold Bell.polled at *
  generalize b.chime i = c at *
  unfold ChimeState.debounce at *
  split_ifs at * with hsettled hraw hpressed
  · have hcool : 3000 < counter t - c.lastEventMs := hpressed.2
    cases hlow : rawState pind i with
    | true => simp [hlow] at hraw
    | false =>
      cases hlast : c.lastRawState with
      | true =>
        have hzero : ¬(50 : UInt32) < 0 := by decide
        simp [ChimeState.sample, hlow, hlast, hzero] at hsettled
      | false =>
        simp only [ChimeState.sample, hlow, hlast, ne_eq, not_true_eq_false, if_false] at hsettled
        exact ⟨rfl, rfl, hsettled, hcool, rfl, rfl⟩
  all_goals simp [hbefore] at hafter

theorem Bell.Presses.acceptsAt (h : b.Presses i e) : ∃ t, b.AcceptsAt i e t := by
  obtain ⟨hbefore, hafter⟩ := h
  cases htime : e.timeOf i with
  | none =>
    obtain ⟨_, enabled, pending, hchime, _⟩ := step_elsewhere (b := b) htime
    simp [hchime, hbefore] at hafter
  | some t =>
    obtain ⟨pind, connected, published, rfl⟩ := Event.call_of_timeOf htime
    cases hlock : (b.startLoop (counter t)).isLocked (counter t) with
    | true =>
      rw [step_of_locked hlock] at hafter
      simp [ChimeState.lock] at hafter
    | false =>
      obtain ⟨_, _, hbutton, hevent⟩ := step_polled hlock i pind connected published
      obtain ⟨hlow, hheld, hsettled, hcool, hdated, _⟩ :=
        polled_buttonPressed hbefore (hbutton ▸ hafter)
      exact ⟨t, htime, hlock, fun _ => hlow, hheld, hsettled, hcool, hevent.trans hdated⟩

/-! ## Stretches of equal samples -/

/-- All samples so far equal the last one, or those do that were taken from the call noted in
`last_debounce_ms` on. -/
def Bell.Steady (i : ChimeId) (history : List Event) (b : Bell) : Prop :=
  (∀ e ∈ history, e.Reads i (b.chime i).lastRawState) ∨
    ∃ before e after t₀, history = before ++ e :: after ∧ e.timeOf i = some t₀ ∧
      (b.chime i).lastDebounceMs = counter t₀ ∧
      ∀ f ∈ e :: after, f.Reads i (b.chime i).lastRawState

/-- One more sample of the same level. -/
theorem Bell.Steady.extend {b' : Bell} {history : List Event} (h : b.Steady i history)
    (hraw : (b'.chime i).lastRawState = (b.chime i).lastRawState)
    (hdebounce : (b'.chime i).lastDebounceMs = (b.chime i).lastDebounceMs)
    (hreads : e.Reads i (b.chime i).lastRawState) : b'.Steady i (history ++ [e]) := by
  rcases h with hall | ⟨before, f, after, t₀, rfl, htime, hsince, hequal⟩
  · refine Or.inl fun f hf => ?_
    rw [hraw]
    grind
  · refine Or.inr ⟨before, f, after ++ [e], t₀, by simp, htime, hdebounce.trans hsince, ?_⟩
    intro g hg
    rw [hraw]
    grind

/-- A stretch that starts with this call. -/
theorem Bell.Steady.start {history : List Event} {t : Nat} (htime : e.timeOf i = some t)
    (hdebounce : (b.chime i).lastDebounceMs = counter t)
    (hreads : e.Reads i (b.chime i).lastRawState) : b.Steady i (history ++ [e]) :=
  Or.inr ⟨history, e, [], t, rfl, htime, hdebounce, by simpa using hreads⟩

theorem Bell.Steady.step {history : List Event} (h : b.Steady i history) (e : Event) :
    (b.step e).Steady i (history ++ [e]) := by
  cases htime : e.timeOf i with
  | none =>
    obtain ⟨_, enabled, pending, hchime, _⟩ := step_elsewhere (b := b) htime
    refine h.extend (by rw [hchime]) (by rw [hchime]) ?_
    cases e with
    | call j t pind connected published =>
      intro hj
      simp [Event.timeOf, hj] at htime
    | message topic payload => trivial
  | some t =>
    obtain ⟨pind, connected, published, rfl⟩ := Event.call_of_timeOf htime
    cases hlock : (b.startLoop (counter t)).isLocked (counter t) with
    | true =>
      -- the lock starts a new stretch with every call
      rw [step_of_locked hlock]
      exact .start htime (by simp [ChimeState.lock]) fun _ => by simp [ChimeState.lock]
    | false =>
      obtain ⟨hraw, hdebounce, _, _⟩ := step_polled hlock i pind connected published
      have hlast : ((b.step (.call i t pind connected published)).chime i).lastRawState =
          rawState pind i := by simpa [Bell.polled] using hraw
      by_cases hedge : rawState pind i = (b.chime i).lastRawState
      · refine h.extend (hlast.trans hedge) ?_ fun _ => hedge
        simpa [Bell.polled, ChimeState.sample, hedge] using hdebounce
      · refine .start htime ?_ fun _ => hlast.symm
        simpa [Bell.polled, ChimeState.sample, hedge] using hdebounce

theorem run_steady (i : ChimeId) (portB pind : UInt8) (now : UInt32) (es : List Event) :
    (run Bell.step (.boot portB pind now) es).Steady i es :=
  run_history (I := fun history b => Bell.Steady i history b) (fun _ _ e h => h.step e)
    (Or.inl fun _ h => absurd h List.not_mem_nil) es

/-! ## The time of the last press -/

theorem step_lastEventMs (b : Bell) (i : ChimeId) (e : Event) :
    ((b.step e).chime i).lastEventMs = (b.chime i).lastEventMs ∨
      ∃ t, e.timeOf i = some t ∧ ((b.step e).chime i).lastEventMs = counter t := by
  cases htime : e.timeOf i with
  | none =>
    obtain ⟨_, enabled, pending, hchime, _⟩ := step_elsewhere (b := b) htime
    exact Or.inl (by rw [hchime])
  | some t =>
    obtain ⟨pind, connected, published, rfl⟩ := Event.call_of_timeOf htime
    cases hlock : (b.startLoop (counter t)).isLocked (counter t) with
    | true =>
      rw [step_of_locked hlock]
      exact Or.inl (by simp [ChimeState.lock])
    | false =>
      obtain ⟨_, _, _, hevent⟩ := step_polled hlock i pind connected published
      rw [hevent, polled_lastEventMs hlock connected published]
      split_ifs
      · exact Or.inr ⟨t, rfl, rfl⟩
      · exact Or.inl rfl

/-- From a press on, `last_event_ms` shows the time of a call at or after it. -/
theorem run_lastEventMs {t : Nat} (h : b.AcceptsAt i e t) (es : List Event) :
    ∃ a ∈ (e :: es).filterMap (Event.timeOf i),
      ((run Bell.step b (e :: es)).chime i).lastEventMs = counter a := by
  refine run_history (I := fun es b => ∃ a ∈ (e :: es).filterMap (Event.timeOf i),
    (Bell.chime b i).lastEventMs = counter a) ?_ ⟨t, by simp [h.time], h.dated⟩ es
  rintro es b f ⟨a, hmem, hdated⟩
  rw [← List.cons_append, List.filterMap_append]
  rcases step_lastEventMs b i f with hsame | ⟨s, htime, hnow⟩
  · exact ⟨a, List.mem_append_left _ hmem, hsame.trans hdated⟩
  · exact ⟨s, List.mem_append_right _ (by simp [htime]), hnow⟩

end Steps

/-! ## Runs -/

section Runs
variable {i : ChimeId} {portB pind : UInt8} {now : UInt32} {es pre post : List Event} {e : Event}
  {t : Nat}

/-- The samples of the last 50 ms before an accepted press, and its own, are low. -/
theorem reads_low (horder : Ordered es) (hsplit : es = pre ++ e :: post)
    (h : (run Bell.step (.boot portB pind now) pre).AcceptsAt i e t) {f : Event}
    (hf : f ∈ pre ++ [e]) {s : Nat} (htime : f.timeOf i = some s) (hrecent : t ≤ s + 50) :
    f.Reads i false := by
  rcases List.mem_append.mp hf with hbefore | hself
  · rcases run_steady i portB pind now pre with
      hall | ⟨before, f₀, after, t₀, hpre, h₀, hsince, hequal⟩
    · have hreads := hall f hbefore
      rwa [h.held] at hreads
    · rw [h.held] at hequal
      rw [hpre] at hbefore
      rcases List.mem_append.mp hbefore with hold | hnew
      · -- a sample of an older stretch is more than 50 ms old
        have hcut : es = before ++ (f₀ :: after ++ e :: post) := by simp [hsplit, hpre]
        have hs : s ≤ t₀ := horder.le hcut hold (Event.time_of_timeOf htime) List.mem_cons_self
          (Event.time_of_timeOf h₀)
        have ht : t₀ ≤ t := horder.le hsplit (by rw [hpre]; simp) (Event.time_of_timeOf h₀)
          List.mem_cons_self (Event.time_of_timeOf h.time)
        have hsettled := h.settled
        rw [hsince, lt_counter_sub_iff ht] at hsettled
        have hlong : 50 < t - t₀ := lt_of_lt_of_le hsettled (Nat.mod_le _ _)
        omega
      · exact hequal f hnew
  · rw [List.mem_singleton.mp hself]
    exact h.reads

/-- Two accepted presses are more than three seconds apart. -/
theorem cooled_down {mid : List Event} {f : Event} {s : Nat} (horder : Ordered es)
    (hsplit : es = pre ++ e :: mid ++ f :: post)
    (he : (run Bell.step (.boot portB pind now) pre).AcceptsAt i e s)
    (hf : (run Bell.step (.boot portB pind now) (pre ++ e :: mid)).AcceptsAt i f t) :
    s + 3000 < t := by
  obtain ⟨a, hmem, hdated⟩ := run_lastEventMs he mid
  obtain ⟨g, hg, htime⟩ := List.mem_filterMap.mp hmem
  have hfrom : s ≤ a := by
    rcases List.mem_cons.mp hg with rfl | hg
    · rw [he.time] at htime
      exact (Option.some.inj htime).le
    · have hcut : es = (pre ++ [e]) ++ (mid ++ f :: post) := by simp [hsplit]
      exact horder.le hcut (by simp) (Event.time_of_timeOf he.time) (by simp [hg])
        (Event.time_of_timeOf htime)
  have hto : a ≤ t := horder.le hsplit (by grind) (Event.time_of_timeOf htime)
    List.mem_cons_self (Event.time_of_timeOf hf.time)
  have hcooled := hf.cooled
  rw [run_append, hdated, lt_counter_sub_iff hto] at hcooled
  have hlong : 3000 < t - a := lt_of_lt_of_le hcooled (Nat.mod_le _ _)
  omega

/-- When a press is accepted at real time `t`, every sample the chime has taken since `t - 50` was
low, and so is one still to come at `t` if the button follows a waveform. Two accepted presses of a
chime are more than three seconds of real time apart. -/
theorem presses_debounced (i : ChimeId) (portB pind : UInt8) (now : UInt32) (es : List Event)
    (horder : Ordered es) :
    let before (pre : List Event) := run Bell.step (.boot portB pind now) pre
    (∀ pre e post t, es = pre ++ e :: post → (before pre).Presses i e → e.timeOf i = some t →
      (∀ f ∈ pre ++ [e], ∀ s, f.timeOf i = some s → t ≤ s + 50 → f.Low i) ∧
      ∀ w, Samples w i es → ∀ f ∈ es, ∀ s, f.timeOf i = some s → t ≤ s + 50 → s ≤ t → f.Low i) ∧
    ∀ pre e mid f post s t, es = pre ++ e :: mid ++ f :: post → (before pre).Presses i e →
      (before (pre ++ e :: mid)).Presses i f → e.timeOf i = some s → f.timeOf i = some t →
      s + 3000 < t := by
  intro before
  constructor
  · intro pre e post t hsplit hpress htime
    obtain ⟨t', haccept⟩ := hpress.acceptsAt
    obtain rfl : t' = t := Option.some.inj (haccept.time.symm.trans htime)
    have hpast : ∀ f ∈ pre ++ [e], ∀ s, f.timeOf i = some s → t' ≤ s + 50 → f.Low i :=
      fun f hf s hs hrecent => Event.low_of_reads (reads_low horder hsplit haccept hf hs hrecent) hs
    refine ⟨hpast, fun w hw f hf s hs hrecent hle => ?_⟩
    rw [hsplit, List.append_cons] at hf
    rcases List.mem_append.mp hf with hold | hlater
    · exact hpast f hold s hs hrecent
    · -- the waveform has one level at each time
      have hge : t' ≤ s := horder.le (hsplit.trans (List.append_cons pre e post)) (by simp)
        (Event.time_of_timeOf htime) hlater (Event.time_of_timeOf hs)
      obtain rfl : s = t' := le_antisymm hle hge
      have hlevel : w s = false := by
        obtain ⟨pind, connected, published, rfl⟩ := Event.call_of_timeOf htime
        exact (hw _ (by simp [hsplit]) s htime rfl).symm.trans (haccept.reads rfl)
      have hreads := hw f (by simp [hsplit, hlater]) s hs
      rw [hlevel] at hreads
      exact Event.low_of_reads hreads hs
  · intro pre e mid f post s t hsplit he hf hs ht
    obtain ⟨s', hes⟩ := he.acceptsAt
    obtain ⟨t', hft⟩ := hf.acceptsAt
    obtain rfl : s' = s := Option.some.inj (hes.time.symm.trans hs)
    obtain rfl : t' = t := Option.some.inj (hft.time.symm.trans ht)
    exact cooled_down horder hsplit hes hft

/-- In the run of one long press the conditions are met. -/
theorem presses_debounced_pressRun :
    (run Bell.step (.boot 0 0xFF 0) (idleRounds 0 5 ++ pressedRound 5000)).Presses .chime1
      (.call .chime1 6000 0xFB true true) ∧
    ∀ f ∈ idleRounds 0 5 ++ pressedRound 5000 ++ [.call .chime1 6000 0xFB true true],
      ∀ s, f.timeOf .chime1 = some s → 6000 ≤ s + 50 → f.Low .chime1 := by
  have hpress : (run Bell.step (.boot 0 0xFF 0) (idleRounds 0 5 ++ pressedRound 5000)).Presses
      .chime1 (.call .chime1 6000 0xFB true true) := by decide +kernel
  have horder : Ordered (idleRounds 0 5 ++ pressedRound 5000 ++ pressedRound 6000) := by
    show List.Pairwise _ [0, 0, 1000, 1000, 2000, 2000, 3000, 3000, 4000, 4000, 5000, 5000, 6000,
      6000]
    decide
  exact ⟨hpress, ((presses_debounced .chime1 0 0xFF 0 _ horder).1 _ _ _ 6000 rfl hpress rfl).1⟩

end Runs
end SmartBell.App
