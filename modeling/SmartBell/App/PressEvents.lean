import SmartBell.App.Debounce

/-!
# One MQTT event for each press

`process_chime` publishes a press as long as the button counts as pressed and
`mqtt_sent` is not set. To see its publish calls it is run once more with a `publish`
that keeps a record.
-/
namespace SmartBell.App
open Common

/-- The publish calls so far, each with its topic and its result. -/
abbrev Record := List (PubTopic × Bool)

/-- A `publish` with this result that is put on record. -/
def recordPublish (published : Bool) (topic : PubTopic) : StateM Record Bool := do
  modify fun record => record ++ [(topic, published)]
  pure published

/-- The publish calls of an event. -/
def Bell.publishes (b : Bell) : Event → Record
  | .call i t pind connected published =>
    ((processChime (pure connected) (recordPublish published) (counter t) pind i b).run []).2
  | .message _ _ => []

/-- The event is a call on the chime, and makes a publish call with this result. -/
def Bell.Publishes (b : Bell) (i : ChimeId) (published : Bool) (e : Event) : Prop :=
  (e.timeOf i).isSome ∧ ∃ topic, (topic, published) ∈ b.publishes e

/-! ## One call -/

/-- The topic that a chime publishes to, if it publishes. -/
def ChimeState.attempt (connected : Bool) (c : ChimeState) : Option PubTopic :=
  if c.buttonPressed ∧ !c.mqttSent ∧ connected then c.pubTopic else none

/-- With the record kept, the MQTT event does what it does without. -/
theorem sendEvent_recorded (connected published : Bool) (c : ChimeState) (record : Record) :
    (c.sendEvent (m := StateM Record) (pure connected) (recordPublish published)).run record =
      (c.sendEvent (m := Id) connected (fun _ => published),
        record ++ (c.attempt connected).toList.map (·, published)) := by
  obtain ⟨_, _, _, _, pubTopic, buttonPressed, mqttSent, _, _, _⟩ := c
  unfold ChimeState.sendEvent ChimeState.attempt
  cases buttonPressed <;> cases mqttSent <;> cases connected <;> cases pubTopic <;>
    simp [recordPublish] <;> rfl

/-- The MQTT event sets its flag if it publishes. -/
theorem sendEvent_of_attempt (connected published : Bool) (c : ChimeState) :
    c.sendEvent (m := Id) connected (fun _ => published) =
      if (c.attempt connected).isSome ∧ published then { c with mqttSent := true } else c := by
  obtain ⟨_, _, _, _, pubTopic, buttonPressed, mqttSent, _, _, _⟩ := c
  unfold ChimeState.sendEvent ChimeState.attempt
  cases buttonPressed <;> cases mqttSent <;> cases connected <;> cases pubTopic <;>
    cases published <;> rfl

theorem sendEvent_mqttSent (connected published : Bool) (c : ChimeState) :
    (c.sendEvent (m := Id) connected (fun _ => published)).mqttSent =
      (c.mqttSent || (c.attempt connected).isSome && published) := by
  rw [sendEvent_of_attempt]
  split_ifs with hsent
  · simp [hsent]
  · have hnone : ((c.attempt connected).isSome && published) = false := by simpa using hsent
    rw [hnone, Bool.or_false]

section Steps
variable {b : Bell} {i : ChimeId} {e : Event} {t : Nat} {pind : UInt8}
  {connected published : Bool}

/-- The switch of the gong does not touch what the event looks at. -/
theorem service_attempt (b : Bell) (i : ChimeId) (raw : Bool) (now : UInt32) (connected : Bool) :
    let c := ((b.chime i).sample raw now).debounce raw now
    ((b.service i raw now).chime i).attempt connected = c.attempt connected ∧
      ((b.service i raw now).chime i).mqttSent = c.mqttSent := by
  rw [Bell.service_eq]
  dsimp only
  split_ifs <;> simp [ChimeState.attempt]

theorem publishes_of_locked (h : (b.startLoop (counter t)).isLocked (counter t) = true) :
    b.publishes (.call i t pind connected published) = [] := by
  simp [Bell.publishes, processChime, h]
  rfl

/-- Behind the lock a call publishes what it has polled. -/
theorem publishes_of_unlocked (h : (b.startLoop (counter t)).isLocked (counter t) = false)
    (i : ChimeId) (pind : UInt8) (connected published : Bool) :
    b.publishes (.call i t pind connected published) =
        ((b.polled i t pind).attempt connected).toList.map (·, published) ∧
      ((b.step (.call i t pind connected published)).chime i).mqttSent =
        ((b.polled i t pind).mqttSent ||
          ((b.polled i t pind).attempt connected).isSome && published) := by
  obtain ⟨hattempt, hsent⟩ := service_attempt (b.startLoop (counter t)) i (rawState pind i)
    (counter t) connected
  rw [Bell.chime_startLoop] at hattempt hsent
  constructor
  · simp only [Bell.publishes, processChime, h]
    simp [sendEvent_recorded, hattempt, Bell.polled]
    rfl
  · rw [step_eq_of_unlocked h i pind connected published, Bell.chime_setChime, sendEvent_mqttSent,
      hattempt, hsent]
    rfl

/-- The run that keeps the record is the run without it. -/
theorem recorded_step (b : Bell) (i : ChimeId) (t : Nat) (pind : UInt8)
    (connected published : Bool) :
    ((processChime (pure connected) (recordPublish published) (counter t) pind i b).run []).1 =
      b.step (.call i t pind connected published) := by
  cases hlock : (b.startLoop (counter t)).isLocked (counter t) with
  | true =>
    simp [processChime, hlock, Bell.step]
    rfl
  | false =>
    simp [processChime, hlock, Bell.step, sendEvent_recorded]
    rfl

/-! ## Presses that are not published yet -/

/-- The button counts as pressed, and the press is still to be published. -/
def Bell.Unsent (b : Bell) (i : ChimeId) : Prop :=
  (b.chime i).buttonPressed = true ∧ (b.chime i).mqttSent = false

/-- Polling finds such a press if there was one, or if it accepts one. -/
theorem polled_unsent (hbutton : (b.polled i t pind).buttonPressed = true)
    (hsent : (b.polled i t pind).mqttSent = false) :
    b.Unsent i ∨
      (b.chime i).buttonPressed = false ∧ (b.polled i t pind).buttonPressed = true := by
  rcases debounce_cases (rawState pind i) (counter t)
    ((b.chime i).sample (rawState pind i) (counter t)) with
    ⟨hpressed, _⟩ | ⟨button, hsame, hkeep⟩
  · exact Or.inr ⟨by simpa using hpressed.1, hbutton⟩
  · rw [Bell.polled, hsame] at hbutton hsent
    refine Or.inl ⟨?_, hsent⟩
    cases hbefore : (b.chime i).buttonPressed with
    | true => rfl
    | false => exact (hkeep hbefore).symm.trans hbutton

/-- A publish needs a press that is not published, before the call or by the call. -/
theorem Bell.Publishes.unsent (h : b.Publishes i published e) :
    (b.Unsent i ∨ b.Presses i e) ∧ ((b.step e).chime i).buttonPressed = true ∧
      ((b.step e).chime i).mqttSent = published := by
  obtain ⟨hcall, topic, hmem⟩ := h
  obtain ⟨t, htime⟩ := Option.isSome_iff_exists.mp hcall
  obtain ⟨pind, connected, result, rfl⟩ := Event.call_of_timeOf htime
  cases hlock : (b.startLoop (counter t)).isLocked (counter t) with
  | true => simp [publishes_of_locked hlock] at hmem
  | false =>
    obtain ⟨hrecord, hafter⟩ := publishes_of_unlocked hlock i pind connected result
    obtain ⟨_, _, hbutton, _⟩ := step_polled hlock i pind connected result
    rw [hrecord] at hmem
    have hattempt : (b.polled i t pind).buttonPressed = true ∧
        (b.polled i t pind).mqttSent = false ∧
        ((b.polled i t pind).attempt connected).isSome = true ∧ result = published := by
      unfold ChimeState.attempt at hmem ⊢
      split_ifs at hmem ⊢ <;> grind
    obtain ⟨hpressed, hsent, hsome, rfl⟩ := hattempt
    refine ⟨?_, hbutton.trans hpressed, by simp [hafter, hsent, hsome]⟩
    exact (polled_unsent hpressed hsent).imp_right
      fun ⟨hbefore, hnow⟩ => ⟨hbefore, hbutton.trans hnow⟩

/-- Only an accepted press adds one. -/
theorem step_unsent (h : ¬b.Unsent i) (hpress : ¬b.Presses i e) : ¬(b.step e).Unsent i := by
  rintro ⟨hbutton, hsent⟩
  cases htime : e.timeOf i with
  | none =>
    obtain ⟨_, enabled, pending, hchime, _⟩ := step_elsewhere (b := b) htime
    rw [hchime] at hbutton hsent
    exact h ⟨hbutton, hsent⟩
  | some t =>
    obtain ⟨pind, connected, result, rfl⟩ := Event.call_of_timeOf htime
    cases hlock : (b.startLoop (counter t)).isLocked (counter t) with
    | true =>
      rw [step_of_locked hlock] at hbutton
      simp [ChimeState.lock] at hbutton
    | false =>
      obtain ⟨_, hafter⟩ := publishes_of_unlocked hlock i pind connected result
      obtain ⟨_, _, hpolled, _⟩ := step_polled hlock i pind connected result
      have hpending : (b.polled i t pind).mqttSent = false := by
        rw [hafter] at hsent
        exact (Bool.or_eq_false_iff.mp hsent).1
      rcases polled_unsent (hpolled ▸ hbutton) hpending with hold | ⟨hbefore, _⟩
      · exact h hold
      · exact hpress ⟨hbefore, hbutton⟩

end Steps

/-! ## Runs -/

section Runs
variable {i : ChimeId} {b : Bell} {es : List Event} {j k : Nat} {published : Bool}

/-- Behind a state without an unsent press, a publish needs a new press. -/
theorem exists_press (hle : j ≤ k) (hj : ¬(run Bell.step b (es.take j)).Unsent i)
    (hk : Occurs Bell.step (fun b e => b.Publishes i published e) b es k) :
    ∃ l, j ≤ l ∧ l ≤ k ∧ Occurs Bell.step (fun b e => b.Presses i e) b es l := by
  by_contra! hnone
  obtain ⟨e, he, hpublishes⟩ := hk
  have hsent : ¬(run Bell.step b (es.take k)).Unsent i :=
    run_between (I := fun b => ¬Bell.Unsent b i) hle hj fun l f hfrom hto hf hkeep =>
      step_unsent hkeep fun hpress => hnone l hfrom hto.le ⟨f, hf, hpress⟩
  rcases hpublishes.unsent.1 with hunsent | hpress
  · exact hsent hunsent
  · exact hnone k hle le_rfl ⟨e, he, hpress⟩

/-- A button that is found released is pressed again for a publish. -/
theorem exists_press_of_released (hle : j ≤ k)
    (hj : ((run Bell.step b (es.take j)).chime i).buttonPressed = false)
    (hk : Occurs Bell.step (fun b e => b.Publishes i published e) b es k) :
    ∃ l, j ≤ l ∧ l ≤ k ∧ Occurs Bell.step (fun b e => b.Presses i e) b es l :=
  exists_press hle (fun hunsent => by simp [hunsent.1] at hj) hk

/-- Between a successful publish of a chime and its next publish call there is a newly accepted
press; so there is one before its first publish call; and behind a failed one the button has
counted as pressed until the next publish call, unless a new press was accepted. -/
theorem one_event_per_press (i : ChimeId) (portB pind : UInt8) (now : UInt32)
    (es : List Event) :
    let b := Bell.boot portB pind now
    let presses := Occurs Bell.step (fun b e => b.Presses i e) b es
    let publishes (published : Bool) :=
      Occurs Bell.step (fun b e => b.Publishes i published e) b es
    (∀ k l published, k < l → publishes true k → publishes published l →
      ∃ j, k < j ∧ j ≤ l ∧ presses j) ∧
    (∀ l published, publishes published l → ∃ j, j ≤ l ∧ presses j) ∧
    ∀ k l published, k < l → publishes false k → publishes published l →
      (∀ m, k ≤ m → m ≤ l →
        ((run Bell.step b (es.take (m + 1))).chime i).buttonPressed = true) ∨
      ∃ j, k < j ∧ j ≤ l ∧ presses j := by
  intro b presses publishes
  refine ⟨fun k l published hlt hk hl => ?_, fun l published hl => ?_,
    fun k l published hlt hk hl => ?_⟩
  · obtain ⟨e, he, hpublishes⟩ := hk
    have hsent : ¬(run Bell.step b (es.take (k + 1))).Unsent i := by
      rw [run_take_succ he]
      rintro ⟨_, hnot⟩
      rw [hpublishes.unsent.2.2] at hnot
      cases hnot
    obtain ⟨j, hfrom, hto, hpress⟩ := exists_press hlt hsent hl
    exact ⟨j, hfrom, hto, hpress⟩
  · obtain ⟨j, _, hto, hpress⟩ := exists_press_of_released (Nat.zero_le l)
      (by cases i <;> rfl) hl
    exact ⟨j, hto, hpress⟩
  · by_contra! hnot
    obtain ⟨⟨m, hfrom, hto, hreleased⟩, hnone⟩ := hnot
    have hlater : m < l := by
      refine lt_of_le_of_ne hto ?_
      rintro rfl
      obtain ⟨e, he, hpublishes⟩ := hl
      rw [run_take_succ he] at hreleased
      exact hreleased hpublishes.unsent.2.1
    obtain ⟨j, hj, hjl, hpress⟩ :=
      exists_press_of_released hlater (Bool.eq_false_iff.mpr hreleased) hl
    exact hnone j (lt_of_le_of_lt hfrom hj) hjl hpress

end Runs
end SmartBell.App
