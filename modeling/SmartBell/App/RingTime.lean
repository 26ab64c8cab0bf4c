import SmartBell.App.Chime
import SmartBell.Common.Polling

/-!
# How long a gong rings

A ring ends with the first call at or after its 1.5 seconds, unless that call falls into
the start-up lock: the lock compares counter readings, so it holds again for three
seconds whenever the time since the start of the loop is a multiple of `2^32` ms, and
then the output is not serviced.
-/
namespace SmartBell.App
open Common

/-- The start-up lock holds although the loop was started a period ago or earlier. -/
def Relocked (t₀ t : Nat) : Prop := period ≤ t - t₀ ∧ (t - t₀) % period < 3000

/-- Behind the first lock, the lock can only hold again. -/
theorem relocked_of_locked {t₀ t : Nat} (hlate : t₀ + 3000 ≤ t)
    (hlocked : (t - t₀) % period < 3000) : Relocked t₀ t := by
  refine ⟨?_, hlocked⟩
  by_contra hfew
  rw [Nat.mod_eq_of_lt (by omega)] at hlocked
  omega

/-- The event drives the chime's output from low to high. -/
def Bell.GoesHigh (b : Bell) (i : ChimeId) (e : Event) : Prop := ¬b.High i ∧ (b.step e).High i

instance (b : Bell) (i : ChimeId) (e : Event) : Decidable (b.GoesHigh i e) :=
  inferInstanceAs (Decidable (_ ∧ _))

/-- Every ring, if the run is long enough, ends at a call between 1500 and `1500 + D` ms after the
call that started it, and the output is high until then. -/
def RingTimeBounded (D : Nat) (i : ChimeId) (b : Bell) (es : List Event) : Prop :=
  ∀ pre e post, es = pre ++ e :: post → (run Bell.step b pre).GoesHigh i e →
    ∃ s, e.timeOf i = some s ∧
      ((∃ f ∈ post, ∃ t, f.timeOf i = some t ∧ s + 1500 ≤ t) →
        ∃ mid f after t, post = mid ++ f :: after ∧ f.timeOf i = some t ∧
          Throughout Bell.step (·.High i) (run Bell.step b (pre ++ [e])) mid ∧
          ¬(run Bell.step b (pre ++ e :: mid ++ [f])).High i ∧
          s + 1500 ≤ t ∧ t ≤ s + 1500 + D)

/-- A call that finds the gong ringing does not come while the lock holds again. -/
def RingServiced (t₀ : Nat) (i : ChimeId) (b : Bell) (e : Event) : Prop :=
  ∀ t, e.timeOf i = some t → (b.chime i).isRinging = true → ¬Relocked t₀ t

/-! ## Rings -/

/-- The chime rings, and has done so since real time `s`. -/
structure Bell.RingsSince (b : Bell) (i : ChimeId) (s : Nat) : Prop where
  mirrors : b.Mirrors
  ringing : (b.chime i).isRinging = true
  start : (b.chime i).ringStartMs = counter s

section Ring
variable {b : Bell} {i : ChimeId} {s : Nat}

theorem Bell.RingsSince.high (h : b.RingsSince i s) : b.High i := (h.mirrors i).mpr h.ringing

/-- Only a call on the chime itself, behind the lock, starts a ring. -/
theorem Bell.GoesHigh.call {e : Event} (h : b.GoesHigh i e) (hmirrors : b.Mirrors) :
    ∃ s, e.timeOf i = some s ∧ (b.startLoop (counter s)).isLocked (counter s) = false ∧
      (b.step e).RingsSince i s := by
  obtain ⟨hlow, hhigh⟩ := h
  have hringing := (step_mirrors hmirrors e i).mp hhigh
  have hidle : (b.chime i).isRinging = false := by
    simpa using fun h => hlow ((hmirrors i).mpr h)
  cases hcall : e.timeOf i with
  | none =>
    obtain ⟨hport, _⟩ := step_elsewhere (b := b) hcall
    exact absurd (by rwa [Bell.High, hport] at hhigh) hlow
  | some t =>
    obtain ⟨pind, connected, published, rfl⟩ := Event.call_of_timeOf hcall
    cases hlock : (b.startLoop (counter t)).isLocked (counter t) with
    | true =>
      rw [step_of_locked hlock] at hringing
      simp [ChimeState.lock, hidle] at hringing
    | false =>
      refine ⟨t, rfl, hlock, step_mirrors hmirrors _, hringing, ?_⟩
      obtain ⟨sent, hstep⟩ := step_of_unlocked hlock i pind connected published
      rw [hstep] at hringing ⊢
      simp only at hringing ⊢
      split_ifs at hringing ⊢ <;> simp_all

/-- Until its time is over the ring goes on, whatever happens. -/
theorem Bell.RingsSince.step (h : b.RingsSince i s) {e : Event}
    (hcall : ∀ t, e.timeOf i = some t → s ≤ t ∧ t < s + 1500) : (b.step e).RingsSince i s := by
  have hmirrors := step_mirrors h.mirrors e
  cases htime : e.timeOf i with
  | none =>
    obtain ⟨_, enabled, pending, hchime, _⟩ := step_elsewhere (b := b) htime
    refine ⟨hmirrors, ?_, ?_⟩ <;> rw [hchime]
    · exact h.ringing
    · exact h.start
  | some t =>
    obtain ⟨hfrom, hbefore⟩ := hcall t htime
    obtain ⟨pind, connected, published, rfl⟩ := Event.call_of_timeOf htime
    cases hlock : (b.startLoop (counter t)).isLocked (counter t) with
    | true =>
      refine ⟨hmirrors, ?_, ?_⟩ <;> rw [step_of_locked hlock]
      · simpa [ChimeState.lock] using h.ringing
      · simpa [ChimeState.lock] using h.start
    | false =>
      obtain ⟨sent, hstep⟩ := step_of_unlocked hlock i pind connected published
      have hearly : ¬(counter t - counter s ≥ 1500) := by
        rw [ge_iff_le, le_counter_sub_iff hfrom,
          Nat.mod_eq_of_lt (by unfold period; omega)]
        exact Nat.not_le.mpr (by simpa using (by omega : t - s < 1500))
      refine ⟨hmirrors, ?_, ?_⟩ <;> rw [hstep] <;> simp [h.ringing, h.start, hearly]

/-- A call behind the lock that finds the time over ends the ring. -/
theorem Bell.RingsSince.stop (h : b.RingsSince i s) {e : Event} {t : Nat}
    (htime : e.timeOf i = some t) (hfrom : s ≤ t) (hover : 1500 ≤ (t - s) % period)
    (hlock : (b.startLoop (counter t)).isLocked (counter t) = false) : ¬(b.step e).High i := by
  rw [(step_mirrors h.mirrors e) i]
  obtain ⟨pind, connected, published, rfl⟩ := Event.call_of_timeOf htime
  obtain ⟨sent, hstep⟩ := step_of_unlocked hlock i pind connected published
  have hlate : counter t - counter s ≥ 1500 := by
    rw [ge_iff_le, le_counter_sub_iff hfrom]
    exact hover
  rw [hstep]
  simp [h.ringing, h.start, hlate]

end Ring

/-! ## Runs -/

/-- In a run whose calls never find the gong ringing while the lock holds again, and with less than
a period between two calls, every ring lasts at least 1500 and at most `1500 + D` ms. -/
theorem ringTimeBounded {D : Nat} (hD : D + 1500 ≤ period) (i : ChimeId) (portB pind : UInt8)
    (now : UInt32) (es : List Event) (horder : Ordered es) (hpaced : Paced (Event.timeOf i) D es)
    (hserviced : Along Bell.step (RingServiced (loopStart es) i) (.boot portB pind now) es) :
    RingTimeBounded D i (.boot portB pind now) es := by
  intro pre e post hsplit hgoes
  obtain ⟨s, htime, hunlocked, hring⟩ := hgoes.call (run_mirrors portB pind now pre)
  refine ⟨s, htime, fun hlong => ?_⟩
  obtain ⟨mid, f, after, t, rfl, hfirst, hclose⟩ :=
    (hpaced.from hsplit htime).first_after (s + 1500) (by omega) hlong
  have hrings : Throughout Bell.step (·.RingsSince i s)
      (run Bell.step (.boot portB pind now) (pre ++ [e])) mid := by
    rw [run_snoc]
    exact throughout_of_along (fun b g hb hg => hb.step hg) hring
      (along_of_forall hfirst.earlier)
  have hlast := hrings.last
  rw [← run_append] at hlast
  obtain ⟨hstart, hstart_le⟩ := locked_iff portB pind now hsplit
    (Event.time_of_timeOf htime) horder
  have hsplit' : es = (pre ++ [e] ++ mid) ++ f :: after := by simp [hsplit]
  obtain ⟨hlock, hlock_le⟩ := locked_iff portB pind now hsplit'
    (Event.time_of_timeOf hfirst.poll) horder
  have hrelocked : ¬Relocked (loopStart es) t :=
    hserviced.at hsplit' t hfirst.poll hlast.ringing
  have hs := hfirst.reached
  -- the ring was started after the first lock, so only a later one could hold at its end
  have hopen : ((run Bell.step (.boot portB pind now) (pre ++ [e] ++ mid)).startLoop
      (counter t)).isLocked (counter t) = false := by
    by_contra hlocked
    rw [Bool.not_eq_false, hlock] at hlocked
    rw [← Bool.not_eq_true, hstart] at hunlocked
    have hle := Nat.mod_le (s - loopStart es) period
    exact hrelocked (relocked_of_locked (by omega) hlocked)
  have hover : 1500 ≤ (t - s) % period := by
    rw [Nat.mod_eq_of_lt (by omega)]
    omega
  refine ⟨mid, f, after, t, rfl, hfirst.poll, ?_, ?_, hs, by omega⟩
  · exact hrings.mono fun _ h => h.high
  · have hstop := hlast.stop hfirst.poll (by omega) hover hopen
    rwa [run_snoc, ← List.singleton_append, ← List.append_assoc]

/-! ### Two runs -/

/-- A call at `t` that finds no button pressed, on a client with a session. -/
def idleCall (i : ChimeId) (t : Nat) : Event := .call i t 0xFF true true

/-- A round of the main loop calls both chimes. -/
def idleRound (t : Nat) : List Event := [idleCall .chime1 t, idleCall .chime2 t]

def ringCommand : Event := .message (ascii "gong/1") (ascii "RING")

theorem ringTimeBounded_command :
    RingTimeBounded 3000 .chime1 (.boot 0 0xFF 0)
      (idleRound 0 ++ idleRound 3000 ++ ringCommand :: idleRound 3100 ++ idleRound 4700) := by
  refine ringTimeBounded (by decide) .chime1 0 0xFF 0 _ ?_ ?_ ?_
  · show List.Pairwise _ [0, 0, 3000, 3000, 3100, 3100, 4700, 4700]
    decide
  · show List.IsChain _ [0, 3000, 3100, 4700]
    simp [Within]
  · refine (along_of_forall (P := fun e => ∀ t, e.timeOf .chime1 = some t → t < period) ?_).mono ?_
    · simp [idleRound, idleCall, ringCommand, Event.timeOf, period]
    · intro b e hearly t htime _ hrelocked
      have hlt := hearly t htime
      exact absurd hrelocked.1 (by omega)

/-- The calls of an idle loop with one round a second, from second `k` on. -/
def idleRounds (k n : Nat) : List Event := (List.range' k n).flatMap fun k => idleRound (1000 * k)

theorem idleRounds_append (k m n : Nat) :
    idleRounds k (m + n) = idleRounds k m ++ idleRounds (k + m) n := by
  rw [idleRounds, ← List.range'_append_1, List.flatMap_append]
  rfl

theorem idleRounds_time (k n : Nat) : (idleRounds k n).filterMap Event.time =
    (List.range' k n).flatMap fun k => [1000 * k, 1000 * k] := by
  rw [idleRounds, List.filterMap_flatMap]
  rfl

theorem idleRounds_timeOf (k n : Nat) : (idleRounds k n).filterMap (Event.timeOf .chime1) =
    (List.range' k n).map (1000 * ·) := by
  rw [idleRounds, List.filterMap_flatMap, List.map_eq_flatMap]
  rfl

/-- The chimes after an undisturbed start. -/
def awake : Bell := run Bell.step (.boot 0 0xFF 0) (idleRounds 0 4)

/-- Nothing happens until the counter wraps. -/
theorem run_awake (n : Nat) (hn : n ≤ 4294964) :
    run Bell.step awake (idleRounds 4 n) = awake := by
  induction n with
  | zero => simp [idleRounds]
  | succ n ih =>
    rw [idleRounds_append, run_append, ih (by omega)]
    have hopen : awake.isLocked (counter (1000 * (4 + n))) = false := by
      rw [← Bool.not_eq_true, Bell.isLocked, show awake.loopStartMs = counter 0 by decide,
        decide_eq_true_eq, counter_sub_lt_iff (Nat.zero_le _), Nat.mod_eq_of_lt] <;>
        simp [period] <;> omega
    have hquiet (i : ChimeId) : awake.step (idleCall i (1000 * (4 + n))) = awake := by
      cases i <;> exact step_quiet (by decide) hopen (by decide) (by decide) (by decide)
        (by decide) (by decide)
    calc run Bell.step awake (idleRound (1000 * (4 + n)))
        = (awake.step (idleCall .chime1 _)).step (idleCall .chime2 _) := rfl
      _ = awake := by rw [hquiet, hquiet]

/-- `n` idle rounds, a command, and `k` more rounds. -/
def commandedRun (n k : Nat) : List Event :=
  idleRounds 0 n ++ ringCommand :: idleRounds n k

/-- The command takes no time. -/
theorem commandedRun_filterMap {f : Event → Option Nat} (hcommand : f ringCommand = none)
    (n k : Nat) : (commandedRun n k).filterMap f = (idleRounds 0 (n + k)).filterMap f := by
  rw [commandedRun, List.filterMap_append, List.filterMap_cons_none hcommand,
    ← List.filterMap_append, idleRounds_append, Nat.zero_add]

theorem commandedRun_ordered (n k : Nat) : Ordered (commandedRun n k) := by
  rw [Ordered, commandedRun_filterMap rfl, idleRounds_time, List.pairwise_flatMap]
  refine ⟨by simp, List.Pairwise.imp ?_ (List.pairwise_lt_range' 1)⟩
  intro k l hlt
  simp
  omega

theorem commandedRun_paced (n k : Nat) :
    Paced (Event.timeOf .chime1) 1000 (commandedRun n k) := by
  rw [Paced, commandedRun_filterMap rfl, idleRounds_timeOf, List.isChain_map,
    ← List.range_eq_range', List.isChain_range]
  intro k _
  unfold Within
  omega

theorem commandedRun_loopStart (n k : Nat) : loopStart (commandedRun (n + 1) k) = 0 := by
  rw [loopStart, commandedRun_filterMap rfl, idleRounds_time, Nat.add_right_comm,
    List.range'_succ]
  rfl

/-- The chimes when the command has arrived. -/
theorem run_commanded (n : Nat) (hn : n ≤ 4294964) :
    run Bell.step (.boot 0 0xFF 0) (idleRounds 0 (4 + n) ++ [ringCommand]) =
      awake.step ringCommand := by
  rw [run_snoc, idleRounds_append 0 4 n, run_append]
  exact congrArg (Bell.step · ringCommand) (run_awake n hn)

/-- The command comes just before the wrap. The rounds after it fall into the lock, and the gong
rings on. -/
theorem not_ringTimeBounded : Ordered (commandedRun 4294967 5) ∧
    Paced (Event.timeOf .chime1) 1000 (commandedRun 4294967 5) ∧
    ¬RingTimeBounded 1000 .chime1 (.boot 0 0xFF 0) (commandedRun 4294967 5) := by
  refine ⟨commandedRun_ordered _ _, commandedRun_paced _ _, ?_⟩
  intro hbounded
  have hidle : run Bell.step (.boot 0 0xFF 0) (idleRounds 0 4294967 ++ [ringCommand]) =
      awake.step ringCommand := run_commanded 4294963 (by decide)
  obtain ⟨s, hs, hend⟩ := hbounded _ (idleCall .chime1 4294967000)
    (idleCall .chime2 4294967000 :: idleRounds 4294968 4)
    (by rw [commandedRun, List.append_cons]; rfl) (by rw [hidle]; decide)
  obtain rfl : 4294967000 = s := by simpa [idleCall, Event.timeOf] using hs
  obtain ⟨mid, f, after, t, hpost, htime, _, hlow, hover, hclose⟩ :=
    hend ⟨idleCall .chime1 4294969000, by simp [idleRounds, idleRound, List.range'], 4294969000,
      rfl, by decide⟩
  -- only the call at 4294969000 comes at the right time, and it is locked
  have hrings : ∀ n < 9, ∀ g ∈ (idleCall .chime2 4294967000 :: idleRounds 4294968 4)[n]?,
      ∀ t ∈ g.timeOf .chime1, 4294968500 ≤ t → t ≤ 4294969500 →
      (run Bell.step (awake.step ringCommand) (idleCall .chime1 4294967000 ::
        (idleCall .chime2 4294967000 :: idleRounds 4294968 4).take n ++ [g])).High .chime1 := by
    decide +kernel
  have hlength : mid.length < 9 := by
    have hcalls := congrArg List.length hpost
    simp [idleRounds, idleRound, List.range'] at hcalls
    omega
  rw [hpost] at hrings
  have hlast := hrings mid.length hlength f (by simp) t htime hover hclose
  rw [List.take_left] at hlast
  refine hlow ?_
  rw [List.append_assoc, run_append, hidle]
  exact hlast

end SmartBell.App
