import SmartBell.App.Debounce
import Mathlib.Data.Set.Function

/-!
# Every ring has its own trigger

A gong is started by an accepted press or by a RING command, and both pass through the
flag `trigger_pending`. Every call on the chime clears the flag, whether it starts the
gong or not, so the flag never stands for more than the commands since the last call.
-/
namespace SmartBell.App
open Common

/-- The end of the topics that are about this chime. -/
def ChimeId.suffix : ChimeId → List UInt8
  | .chime1 => ascii "/1"
  | .chime2 => ascii "/2"

/-- The callback is invoked with a RING command for the chime. -/
def Event.Rings (i : ChimeId) : Event → Prop
  | .call _ _ _ _ _ => False
  | .message topic payload => i.suffix <:+ topic ∧ ascii "RING" <+: payload

/-- The event asks for a ring. -/
def Bell.Triggers (b : Bell) (i : ChimeId) (e : Event) : Prop := b.Presses i e ∨ e.Rings i

/-- The event is a call on the chime behind the lock, which finds the chime enabled and at rest. -/
def Bell.Serves (b : Bell) (i : ChimeId) (e : Event) : Prop :=
  (∃ t, e.timeOf i = some t ∧ (b.startLoop (counter t)).isLocked (counter t) = false) ∧
    (b.chime i).enabled = true ∧ (b.chime i).isRinging = false

/-- What step `j` has triggered is consumed by step `k`, the first call on the chime from there
on. The trigger of a press is consumed by the call that accepts it. -/
def ConsumedBy (i : ChimeId) (es : List Event) (j k : Nat) : Prop :=
  j ≤ k ∧ (∃ e, es[k]? = some e ∧ (e.timeOf i).isSome) ∧
    ∀ l e, j ≤ l → l < k → es[l]? = some e → e.timeOf i = none

/-! ## The callback -/

/-- The dispatch of the callback looks at the last two characters of the topic. -/
theorem targetChime_eq_some_iff {topic : List UInt8} {i : ChimeId} :
    targetChime topic = some i ↔ i.suffix <:+ topic := by
  have hdigits : chr '1' ≠ chr '2' := by decide
  have hsuffix : ∃ d, i.suffix = [chr '/', d] ∧
      ((i = .chime1 ∧ d = chr '1') ∨ (i = .chime2 ∧ d = chr '2')) := by
    cases i
    · exact ⟨chr '1', rfl, Or.inl ⟨rfl, rfl⟩⟩
    · exact ⟨chr '2', rfl, Or.inr ⟨rfl, rfl⟩⟩
  obtain ⟨d, hd, hid⟩ := hsuffix
  rw [hd]
  constructor
  · intro htarget
    unfold targetChime at htarget
    have hshape : 2 ≤ topic.length ∧ topic[topic.length - 2]? = some (chr '/') ∧
        topic[topic.length - 1]? = some d := by
      dsimp only at htarget
      split_ifs at htarget <;> grind
    obtain ⟨hlen, hslash, hdigit⟩ := hshape
    refine ⟨topic.take (topic.length - 2), ?_⟩
    apply List.ext_getElem?
    intro n
    grind
  · rintro ⟨base, rfl⟩
    unfold targetChime
    grind

/-- A payload sets the trigger only if it starts with RING. -/
theorem command_triggerPending {payload : List UInt8} {c : ChimeState}
    (h : (c.command payload).triggerPending = true) :
    c.triggerPending = true ∨ ascii "RING" <+: payload := by
  unfold ChimeState.command at h
  split_ifs at h with _ _ hring
  · exact Or.inl h
  · exact Or.inl h
  · exact Or.inr (hring ▸ List.take_prefix 4 payload)
  · exact Or.inl h

/-! ## The trigger flag -/

section Steps
variable {b : Bell} {i : ChimeId} {e : Event}

/-- A call on the chime leaves no trigger behind. -/
theorem step_call_triggerPending {t : Nat} (htime : e.timeOf i = some t) :
    ((b.step e).chime i).triggerPending = false := by
  obtain ⟨pind, connected, published, rfl⟩ := Event.call_of_timeOf htime
  cases hlock : (b.startLoop (counter t)).isLocked (counter t) with
  | true =>
    rw [step_of_locked hlock]
    simp [ChimeState.lock]
  | false =>
    obtain ⟨sent, hstep⟩ := step_of_unlocked hlock i pind connected published
    rw [hstep]
    simp only
    split_ifs <;> simp

/-- What else happens adds a trigger only if it is a RING command. -/
theorem step_triggerPending (h : ((b.step e).chime i).triggerPending = true) :
    e.timeOf i = none ∧ ((b.chime i).triggerPending = true ∨ e.Rings i) := by
  cases htime : e.timeOf i with
  | some t =>
    rw [step_call_triggerPending htime] at h
    cases h
  | none =>
    refine ⟨rfl, ?_⟩
    cases e with
    | call j t pind connected published =>
      have hne : i ≠ j := by
        rintro rfl
        simp [Event.timeOf] at htime
      rw [(step_other (b := b) hne t pind connected published).1] at h
      exact Or.inl h
    | message topic payload =>
      simp only [Bell.step, onMqttMessageReceived] at h
      cases htarget : targetChime topic with
      | none =>
        rw [htarget] at h
        exact Or.inl h
      | some j =>
        rw [htarget] at h
        by_cases hij : i = j
        · subst hij
          rw [Bell.chime_setChime] at h
          exact (command_triggerPending h).imp_right
            fun hring => ⟨targetChime_eq_some_iff.mp htarget, hring⟩
        · rw [Bell.chime_setChime_of_ne _ hij] at h
          exact Or.inl h

/-- A pending trigger is due to a RING command since the last call on the chime. -/
def Bell.PendingSince (i : ChimeId) (history : List Event) (b : Bell) : Prop :=
  (b.chime i).triggerPending = true → ∃ before m after, history = before ++ m :: after ∧
    m.Rings i ∧ ∀ f ∈ after, f.timeOf i = none

theorem Bell.PendingSince.step {history : List Event} (h : b.PendingSince i history)
    (e : Event) : (b.step e).PendingSince i (history ++ [e]) := by
  intro hpending
  obtain ⟨htime, hbefore | hring⟩ := step_triggerPending hpending
  · obtain ⟨before, m, after, rfl, hm, hafter⟩ := h hbefore
    exact ⟨before, m, after ++ [e], by simp, hm, by grind⟩
  · exact ⟨history, e, [], rfl, hring, by simp⟩

theorem run_pendingSince (i : ChimeId) (portB pind : UInt8) (now : UInt32) (es : List Event) :
    (run Bell.step (.boot portB pind now) es).PendingSince i es := by
  refine run_history (I := fun history b => Bell.PendingSince i history b)
    (fun _ _ e h => h.step e) ?_ es
  intro hpending
  cases i <;> cases hpending

/-! ## Rings -/

/-- Polling finds a trigger if there was one, or if it accepts a press. -/
theorem polled_triggerPending {t : Nat} {pind : UInt8}
    (h : (b.polled i t pind).triggerPending = true) :
    (b.chime i).triggerPending = true ∨
      (b.chime i).buttonPressed = false ∧ (b.polled i t pind).buttonPressed = true := by
  rcases debounce_cases (rawState pind i) (counter t)
    ((b.chime i).sample (rawState pind i) (counter t)) with
    ⟨hpressed, haccept⟩ | ⟨button, hsame, _⟩
  · exact Or.inr ⟨by simpa using hpressed.1, by rw [Bell.polled, haccept]; rfl⟩
  · rw [Bell.polled, hsame] at h
    exact Or.inl h

/-- A ring is started by a call that may start it, for a pending command or a press of its own. -/
theorem Bell.GoesHigh.served (h : b.GoesHigh i e) (hmirrors : b.Mirrors) :
    b.Serves i e ∧ ((b.chime i).triggerPending = true ∨ b.Presses i e) := by
  obtain ⟨t, htime, hlock, hrings⟩ := h.call hmirrors
  have hidle : (b.chime i).isRinging = false := by
    simpa using fun hringing => h.1 ((hmirrors i).mpr hringing)
  obtain ⟨pind, connected, published, rfl⟩ := Event.call_of_timeOf htime
  obtain ⟨sent, hstep⟩ := step_of_unlocked hlock i pind connected published
  have hstart : (b.polled i t pind).triggerPending = true ∧ (b.chime i).enabled = true := by
    have hringing := hrings.ringing
    rw [hstep] at hringing
    simp only at hringing
    split_ifs at hringing with hstart
    · obtain ⟨htrigger, henabled, _⟩ := hstart
      exact ⟨htrigger, by simpa using henabled⟩
    · simp at hringing
    · simp [hidle] at hringing
  refine ⟨⟨⟨t, htime, hlock⟩, hstart.2, hidle⟩, ?_⟩
  refine (polled_triggerPending hstart.1).imp_right fun ⟨hbefore, hafter⟩ => ⟨hbefore, ?_⟩
  obtain ⟨_, _, hbutton, _⟩ := step_polled hlock i pind connected published
  exact hbutton.trans hafter

end Steps

/-! ## Runs -/

/-- A trigger is consumed once. -/
theorem ConsumedBy.unique {i : ChimeId} {es : List Event} {j k k' : Nat}
    (h : ConsumedBy i es j k) (h' : ConsumedBy i es j k') : k = k' := by
  obtain ⟨hle, ⟨e, he, hcall⟩, hfirst⟩ := h
  obtain ⟨hle', ⟨e', he', hcall'⟩, hfirst'⟩ := h'
  rcases lt_trichotomy k k' with hlt | heq | hlt
  · simp [hfirst' k e hle hlt he] at hcall
  · exact heq
  · simp [hfirst k' e' hle' hlt he'] at hcall'

/-- The trigger of a ring: a press that its own call accepts, or else a command since the call
before. -/
theorem exists_trigger {i : ChimeId} {portB pind : UInt8} {now : UInt32} {es : List Event} {k : Nat}
    (h : Occurs Bell.step (fun b e => b.GoesHigh i e) (.boot portB pind now) es k) :
    Occurs Bell.step (fun b e => b.Serves i e) (.boot portB pind now) es k ∧
      ∃ j, Occurs Bell.step (fun b e => b.Triggers i e) (.boot portB pind now) es j ∧
        ConsumedBy i es j k := by
  obtain ⟨e, hk, hrise⟩ := h
  obtain ⟨hserves, hpending | hpress⟩ := hrise.served (run_mirrors portB pind now _)
  · obtain ⟨t, htime, _⟩ := hserves.1
    obtain ⟨before, m, after, hsplit, hm, hafter⟩ := run_pendingSince i portB pind now _ hpending
    have hlt : k < es.length := by grind
    have hj : es[before.length]? = some m := by
      have hmem : (es.take k)[before.length]? = some m := by simp [hsplit]
      grind
    have hle : before.length < k := by
      have := congrArg List.length hsplit
      simp at this
      omega
    refine ⟨⟨e, hk, hserves⟩, before.length, ⟨m, hj, Or.inr hm⟩, hle.le,
      ⟨e, hk, by simp [htime]⟩, ?_⟩
    intro l f hfrom hto hf
    have hl : (before ++ m :: after)[l]? = some f := by
      rw [← hsplit, List.getElem?_take_of_lt hto, hf]
    rw [List.getElem?_append_right hfrom] at hl
    cases hdist : l - before.length with
    | zero =>
      -- the command itself
      rw [hdist] at hl
      obtain rfl : m = f := Option.some.inj hl
      cases m with
      | call j t pind connected published => exact absurd hm id
      | message topic payload => rfl
    | succ n =>
      rw [hdist] at hl
      exact hafter f (List.mem_of_getElem? hl)
  · obtain ⟨t, htime, _⟩ := hserves.1
    refine ⟨⟨e, hk, hserves⟩, k, ⟨e, hk, Or.inl hpress⟩, le_rfl, ⟨e, hk, by simp [htime]⟩, ?_⟩
    intro l f hfrom hto
    omega

/-- Every rise of an output happens in a call that finds the chime enabled, at rest and behind the
lock, and each has a trigger of its own, which that call consumes: a press it accepts itself, or a
RING command behind the call before. A trigger that another call consumes starts no ring. -/
theorem rises_triggered (i : ChimeId) (portB pind : UInt8) (now : UInt32) (es : List Event) :
    let occurs (P : Bell → Event → Prop) := Occurs Bell.step P (.boot portB pind now) es
    ∃ trigger : Nat → Nat,
      (∀ k, occurs (fun b e => b.GoesHigh i e) k → occurs (fun b e => b.Serves i e) k ∧
        trigger k ≤ k ∧ occurs (fun b e => b.Triggers i e) (trigger k) ∧
          ConsumedBy i es (trigger k) k) ∧
      Set.InjOn trigger {k | occurs (fun b e => b.GoesHigh i e) k} ∧
      ∀ j k, ConsumedBy i es j k → ¬occurs (fun b e => b.Serves i e) k →
        ∀ k', occurs (fun b e => b.GoesHigh i e) k' → trigger k' ≠ j := by
  intro occurs
  have hexists : ∀ k, ∃ j, occurs (fun b e => b.GoesHigh i e) k →
      occurs (fun b e => b.Serves i e) k ∧ occurs (fun b e => b.Triggers i e) j ∧
        ConsumedBy i es j k := by
    intro k
    by_cases hrise : occurs (fun b e => b.GoesHigh i e) k
    · obtain ⟨hserves, j, htrigger, hconsumed⟩ := exists_trigger hrise
      exact ⟨j, fun _ => ⟨hserves, htrigger, hconsumed⟩⟩
    · exact ⟨0, fun h => absurd h hrise⟩
  choose trigger htrigger using hexists
  refine ⟨trigger, fun k hk => ?_, fun k hk k' hk' heq => ?_,
    fun j k hconsumed hnot k' hk' heq => ?_⟩
  · obtain ⟨hserves, hoccurs, hconsumed⟩ := htrigger k hk
    exact ⟨hserves, hconsumed.1, hoccurs, hconsumed⟩
  · obtain ⟨_, _, hconsumed⟩ := htrigger k hk
    obtain ⟨_, _, hconsumed'⟩ := htrigger k' hk'
    exact hconsumed.unique (heq ▸ hconsumed')
  · obtain ⟨hserves, _, hconsumed'⟩ := htrigger k' hk'
    obtain rfl := hconsumed.unique (heq ▸ hconsumed')
    exact hnot hserves

end SmartBell.App
