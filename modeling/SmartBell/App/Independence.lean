import SmartBell.App.PressEvents
import SmartBell.Common.Views

/-!
# The two chimes do not influence each other

The chimes share the start of the loop, the output register, the client and the
callback. A chime sees its own calls, each with its sample and what the client answers,
and the commands that are addressed to it. The start of the loop is the one thing both
have to agree on: it is the time of the first call, whichever chime that is for.
-/
namespace SmartBell.App
open Common

inductive ChimeCommand where
  | on | off | ring
  deriving DecidableEq, Repr

/-- The command in a payload, if there is one. -/
def chimeCommand (payload : List UInt8) : Option ChimeCommand :=
  if payload.take 2 = ascii "ON" then some .on
  else if payload.take 3 = ascii "OFF" then some .off
  else if payload.take 4 = ascii "RING" then some .ring
  else none

/-- What a chime sees of an event. -/
inductive Seen where
  | call (time : Nat) (raw connected published : Bool)
  | command (command : ChimeCommand)
  deriving DecidableEq, Repr

def Event.seenBy (i : ChimeId) : Event → Option Seen
  | .call j t pind connected published =>
    if j = i then some (.call t (rawState pind i) connected published) else none
  | .message topic payload =>
    if targetChime topic = some i then (chimeCommand payload).map .command else none

/-- The state of a chime and of its output pin. -/
def Bell.part (i : ChimeId) (b : Bell) : ChimeState × UInt8 := (b.chime i, b.portB &&& i.outPin)

/-- The loop started at `t₀`, or starts there with this call. -/
def Bell.StartsAt (t₀ : Nat) (b : Bell) (e : Event) : Prop :=
  ∀ t, e.time = some t → (b.startLoop (counter t)).loopStartMs = counter t₀

/-! ## The start of the loop -/

theorem along_startsAt {b : Bell} {ts : List Nat} (h : b.StartedBy ts) (es : List Event) :
    Along Bell.step (Bell.StartsAt ((ts ++ es.filterMap Event.time).headD 0)) b es := by
  induction es generalizing b ts with
  | nil => trivial
  | cons e es ih =>
    have hrest := ih (step_startedBy h e)
    constructor
    · intro t htime
      have hstart := (startLoop_startedBy h t).first (es.filterMap Event.time)
      rw [List.filterMap_cons_some htime]
      exact hstart.2
    · cases htime : e.time with
      | none => simpa [htime] using hrest
      | some t => simpa [htime] using hrest

/-! ## What a chime does not see -/

section Steps
variable {b b' : Bell} {i : ChimeId} {e e' : Event}

/-- A payload does what its command does. -/
theorem command_of_chimeCommand {payload payload' : List UInt8}
    (h : chimeCommand payload = chimeCommand payload') (c : ChimeState) :
    c.command payload = c.command payload' := by
  unfold chimeCommand at h
  unfold ChimeState.command
  split_ifs at h ⊢ <;> first | rfl | cases h

theorem command_of_none {payload : List UInt8} (h : chimeCommand payload = none)
    (c : ChimeState) : c.command payload = c := by
  unfold chimeCommand at h
  unfold ChimeState.command
  split_ifs at h ⊢
  rfl

theorem part_message (topic payload : List UInt8) :
    (b.step (.message topic payload)).part i =
      (if targetChime topic = some i then (b.chime i).command payload else b.chime i,
        b.portB &&& i.outPin) := by
  simp only [Bell.step, onMqttMessageReceived, Bell.part]
  cases htarget : targetChime topic with
  | none => simp
  | some j =>
    by_cases hij : i = j
    · subst hij
      simp
    · simp [Bell.chime_setChime_of_ne _ hij, Ne.symm hij]

theorem part_unseen (h : e.seenBy i = none) : (b.step e).part i = b.part i := by
  cases e with
  | call j t pind connected published =>
    have hne : i ≠ j := by
      rintro rfl
      simp [Event.seenBy] at h
    obtain ⟨hchime, hpin⟩ := step_other (b := b) hne t pind connected published
    rw [Bell.part, hchime, hpin, Bell.part]
  | message topic payload =>
    rw [part_message, Bell.part]
    split_ifs with htarget
    · simp only [Event.seenBy, htarget, if_true, Option.map_eq_none_iff] at h
      rw [command_of_none h]
    · rfl

/-! ## What a chime sees -/

theorem pin_of_set (p : UInt8) (i : ChimeId) : (p ||| i.outPin) &&& i.outPin = i.outPin := by
  cases i <;>
    exact forall_byte (P := fun p => (p ||| _) &&& _ = _) (by decide +kernel) p

theorem Event.seenBy_eq_call {t : Nat} {raw connected published : Bool}
    (h : e.seenBy i = some (.call t raw connected published)) :
    ∃ pind, e = .call i t pind connected published ∧ rawState pind i = raw := by
  cases e with
  | call j s pind c p =>
    simp only [seenBy] at h
    split_ifs at h with hj
    simp only [Option.some.injEq, Seen.call.injEq] at h
    obtain ⟨rfl, hraw, rfl, rfl⟩ := h
    exact ⟨pind, by rw [hj], hraw⟩
  | message topic payload =>
    simp only [seenBy] at h
    split_ifs at h
    simp at h

theorem Event.seenBy_eq_command {command : ChimeCommand}
    (h : e.seenBy i = some (.command command)) :
    ∃ topic payload, e = .message topic payload ∧ targetChime topic = some i ∧
      chimeCommand payload = some command := by
  cases e with
  | call j s pind c p =>
    simp only [seenBy] at h
    split_ifs at h
    simp at h
  | message topic payload =>
    simp only [seenBy] at h
    split_ifs at h with htarget
    simp only [Option.map_eq_some_iff, Seen.command.injEq, exists_eq_right] at h
    exact ⟨topic, payload, rfl, htarget, h⟩

/-- A call takes a chime from equal states and samples to equal states, and publishes the same. -/
theorem part_call {t : Nat} {pind pind' : UInt8} (connected published : Bool)
    (hlock : (b.startLoop (counter t)).isLocked (counter t) =
      (b'.startLoop (counter t)).isLocked (counter t))
    (hpart : b.part i = b'.part i) (hraw : rawState pind i = rawState pind' i) :
    (b.step (.call i t pind connected published)).part i =
        (b'.step (.call i t pind' connected published)).part i ∧
      b.publishes (.call i t pind connected published) =
        b'.publishes (.call i t pind' connected published) := by
  obtain ⟨hchime, hpin⟩ := Prod.mk.inj hpart
  cases hb : (b.startLoop (counter t)).isLocked (counter t) with
  | true =>
    have hb' := hlock.symm.trans hb
    rw [step_of_locked hb, step_of_locked hb', publishes_of_locked hb, publishes_of_locked hb']
    simp [Bell.part, hchime, hpin, hraw]
  | false =>
    have hb' := hlock.symm.trans hb
    have hpolled : b.polled i t pind = b'.polled i t pind' := by
      rw [Bell.polled, Bell.polled, hchime, hraw]
    obtain ⟨hrecord, hsent⟩ := publishes_of_unlocked hb i pind connected published
    obtain ⟨hrecord', hsent'⟩ := publishes_of_unlocked hb' i pind' connected published
    obtain ⟨sent, hstep⟩ := step_of_unlocked hb i pind connected published
    obtain ⟨sent', hstep'⟩ := step_of_unlocked hb' i pind' connected published
    refine ⟨?_, by rw [hrecord, hrecord', hpolled]⟩
    have hsame : sent = sent' := by
      rw [hpolled] at hsent
      have hboth := hsent.trans hsent'.symm
      rw [hstep, hstep', hpolled] at hboth
      simp only at hboth
      split_ifs at hboth <;> simpa using hboth
    rw [hstep, hstep', hpolled, hsame]
    simp only
    split_ifs <;> simp [Bell.part, pin_of_set, low_of_cleared, hpin]

/-- A chime depends on its view, and on the start of the loop. -/
theorem chime_unwinding (i : ChimeId) (t₀ : Nat) :
    Unwinding Bell.step (Event.seenBy i) (Bell.part i) Bell.publishes (Bell.StartsAt t₀) where
  unseen h := part_unseen h
  seen {b b' e e' v} hstart hstart' hpart he he' := by
    cases v with
    | call t raw connected published =>
      obtain ⟨pind, rfl, hraw⟩ := Event.seenBy_eq_call he
      obtain ⟨pind', rfl, hraw'⟩ := Event.seenBy_eq_call he'
      refine part_call connected published ?_ hpart (hraw.trans hraw'.symm)
      rw [Bell.isLocked, Bell.isLocked, hstart t rfl, hstart' t rfl]
    | command command =>
      obtain ⟨topic, payload, rfl, htarget, hcommand⟩ := Event.seenBy_eq_command he
      obtain ⟨topic', payload', rfl, htarget', hcommand'⟩ := Event.seenBy_eq_command he'
      obtain ⟨hchime, hpin⟩ := Prod.mk.inj hpart
      rw [part_message, part_message, if_pos htarget, if_pos htarget', hchime, hpin,
        command_of_chimeCommand (hcommand.trans hcommand'.symm)]
      exact ⟨rfl, rfl⟩

end Steps

/-! ## Two runs -/

/-- Two runs with the same call times, in which a chime samples and is told the same, have the same
traces of the chime's state, output pin and publish calls. What it does not see is no call on the
chime, and leaves its state and pin as they are. -/
theorem chimes_independent (i : ChimeId) {portB portB' pind pind' : UInt8} (now : UInt32)
    {es es' : List Event} (hinit : rawState pind i = rawState pind' i)
    (htimes : es.filterMap Event.time = es'.filterMap Event.time)
    (hseen : es.filterMap (Event.seenBy i) = es'.filterMap (Event.seenBy i)) :
    trace Bell.step (Event.seenBy i) (Bell.part i) Bell.publishes (.boot portB pind now) es =
      trace Bell.step (Event.seenBy i) (Bell.part i) Bell.publishes (.boot portB' pind' now) es' ∧
    ∀ (b : Bell) (e : Event), e.seenBy i = none →
      e.timeOf i = none ∧ (b.step e).part i = b.part i := by
  constructor
  · have hes := along_startsAt (show (Bell.boot portB pind now).StartedBy [] from rfl) es
    have hes' := along_startsAt (show (Bell.boot portB' pind' now).StartedBy [] from rfl) es'
    rw [← htimes] at hes'
    refine (chime_unwinding i _).trace_eq hes hes' ?_ hseen
    have hlow := setupGpio_low portB i
    have hlow' := setupGpio_low portB' i
    cases i <;> simp_all [Bell.part, Bell.boot, Bell.init, Bell.static, Bell.chime]
  · intro b e h
    refine ⟨?_, part_unseen h⟩
    cases e with
    | call j t pind connected published =>
      have hne : j ≠ i := by
        rintro rfl
        simp [Event.seenBy] at h
      simp [Event.timeOf, hne]
    | message topic payload => rfl

/-- The first chime, with the second one at rest and connected, or switched off, pressed and without
a connection. -/
theorem chimes_independent_of_press :
    let traced := trace Bell.step (Event.seenBy .chime1) (Bell.part .chime1) Bell.publishes
    traced (.boot 0 0xFF 0) [.call .chime1 0 0xFF true true, .call .chime2 0 0xFF true true,
        .call .chime1 5000 0xFF true true] =
      traced (.boot 0xFF 0xF7 0) [.call .chime1 0 0xFF true true,
        .message (ascii "b/2") (ascii "OFF"), .call .chime2 0 0xF7 false false,
        .call .chime1 5000 0xFF true true] :=
  (chimes_independent .chime1 0 (by decide) rfl (by decide)).1

end SmartBell.App
