import SmartBell.Common.Bytes
import SmartBell.Common.Counter
import SmartBell.Common.Polling
import SmartBell.Common.Runs

/-!
# `GongController`

Two gongs, each with a time of the millisecond counter at which it is to stop. `update` compares
that time with the counter by an ordinary `>=`, so it is right as long as the counter does not
wrap between the two.
-/
namespace SmartBell.App
open Common

inductive GongId where
  | upperfloor
  | groundfloor
  | both
  deriving DecidableEq, Repr

/-- The gongs themselves. -/
inductive Floor where
  | upperfloor
  | groundfloor
  deriving DecidableEq, Repr

def Floor.id : Floor → GongId
  | .upperfloor => .upperfloor
  | .groundfloor => .groundfloor

namespace GongId

/-- The bits of `PORTD`. -/
def pins : GongId → UInt8
  | .upperfloor => 1 <<< (4 : UInt8)
  | .groundfloor => 1 <<< (5 : UInt8)
  | .both => 1 <<< (4 : UInt8) ||| 1 <<< (5 : UInt8)

def covers : GongId → Floor → Bool
  | .upperfloor, f => f == .upperfloor
  | .groundfloor, f => f == .groundfloor
  | .both, _ => true

end GongId

structure GongState where
  enabled : Bool
  active : Bool
  stopTime : UInt32
  deriving DecidableEq, Repr

structure GongController where
  upperfloor : GongState
  groundfloor : GongState
  defaultDurationMs : UInt16
  portD : UInt8
  deriving DecidableEq, Repr

namespace GongController

def kDefaultDurationMs : UInt16 := 2000
def kMinDurationMs : UInt16 := 100
def kMaxDurationMs : UInt16 := 10000

/-- The constructor and `init`. -/
def start (portD : UInt8) : GongController where
  upperfloor := ⟨true, false, 0⟩
  groundfloor := ⟨true, false, 0⟩
  defaultDurationMs := kDefaultDurationMs
  portD := portD &&& ~~~GongId.both.pins

def gong (c : GongController) : Floor → GongState
  | .upperfloor => c.upperfloor
  | .groundfloor => c.groundfloor

def setGong (f : Floor) (g : GongState) (c : GongController) : GongController :=
  match f with
  | .upperfloor => { c with upperfloor := g }
  | .groundfloor => { c with groundfloor := g }

def setOutput (gong : GongId) (state : Bool) (c : GongController) : GongController :=
  { c with portD := if state then c.portD ||| gong.pins else c.portD &&& ~~~gong.pins }

/-- The timeout of one gong. -/
def timeOut (now : UInt32) (f : Floor) (c : GongController) : GongController :=
  if (c.gong f).active && now ≥ (c.gong f).stopTime then
    (c.setOutput f.id false).setGong f { c.gong f with active := false }
  else c

def update (now : UInt32) (c : GongController) : GongController :=
  (c.timeOut now .upperfloor).timeOut now .groundfloor

def clamp (durationMs : UInt16) : UInt16 :=
  let durationMs := if durationMs < kMinDurationMs then kMinDurationMs else durationMs
  if durationMs > kMaxDurationMs then kMaxDurationMs else durationMs

/-- The duration that a trigger is given, or the default one for none. -/
def duration (durationMs : UInt16) (c : GongController) : UInt16 :=
  clamp (if durationMs = 0 then c.defaultDurationMs else durationMs)

/-- A trigger for one gong. -/
def ring (f : Floor) (force : Bool) (stopTime : UInt32) (c : GongController) : GongController :=
  if force || (c.gong f).enabled then
    (c.setOutput f.id true).setGong f { c.gong f with active := true, stopTime }
  else c

def trigger (now : UInt32) (gong : GongId) (force : Bool) (durationMs : UInt16)
    (c : GongController) : GongController :=
  let stopTime := now + (c.duration durationMs).toUInt32
  match gong with
  | .upperfloor => c.ring .upperfloor force stopTime
  | .groundfloor => c.ring .groundfloor force stopTime
  | .both => (c.ring .upperfloor force stopTime).ring .groundfloor force stopTime

def setEnabled (gong : GongId) (enabled : Bool) (c : GongController) : GongController :=
  match gong with
  | .upperfloor => { c with upperfloor.enabled := enabled }
  | .groundfloor => { c with groundfloor.enabled := enabled }
  | .both => { c with upperfloor.enabled := enabled, groundfloor.enabled := enabled }

def setDuration (durationMs : UInt16) (c : GongController) : GongController :=
  { c with defaultDurationMs := clamp durationMs }

/-! ## Calls over time -/

/-- A call, `trigger` and `update` with the real time at which they read the counter. -/
inductive Event where
  | trigger (time : Nat) (gong : GongId) (force : Bool) (durationMs : UInt16)
  | setEnabled (gong : GongId) (enabled : Bool)
  | setDuration (durationMs : UInt16)
  | update (time : Nat)
  deriving DecidableEq, Repr

def Event.time : Event → Option Nat
  | .trigger t _ _ _ => some t
  | .update t => some t
  | _ => none

def Event.updateTime : Event → Option Nat
  | .update t => some t
  | _ => none

theorem Event.eq_update {e : Event} {t : Nat} (h : e.updateTime = some t) : e = .update t := by
  cases e with
  | update u =>
    cases h
    rfl
  | _ => cases h

def step (c : GongController) : Event → GongController
  | .trigger t gong force durationMs => c.trigger (counter t) gong force durationMs
  | .setEnabled gong enabled => c.setEnabled gong enabled
  | .setDuration durationMs => c.setDuration durationMs
  | .update t => c.update (counter t)

def Ordered (es : List Event) : Prop := (es.filterMap Event.time).Pairwise (· ≤ ·)

def Active (f : Floor) (c : GongController) : Prop := (c.gong f).active = true

instance (f : Floor) (c : GongController) : Decidable (c.Active f) :=
  inferInstanceAs (Decidable (_ = true))

/-- The event is a trigger that the gong follows. -/
def Effective (f : Floor) (c : GongController) : Event → Prop
  | .trigger _ gong force _ => gong.covers f = true ∧ (force = true ∨ (c.gong f).enabled = true)
  | _ => False

/-- A gong that was to ring from `s` on for `d` does so: it is active after every update before
`s + d`, and if updates go on until `s + d + D`, one no later than that switches it off. -/
structure RingsFor (f : Floor) (D s d : Nat) (c : GongController) (es : List Event) : Prop where
  active : ∀ mid e after t, es = mid ++ e :: after → e.updateTime = some t → t < s + d →
    (run step c (mid ++ [e])).Active f
  stops : (∃ e ∈ es, ∃ t, e.updateTime = some t ∧ s + d + D ≤ t) →
    ∃ mid e after t, es = mid ++ e :: after ∧ e.updateTime = some t ∧ t ≤ s + d + D ∧
      (run step c mid).Active f ∧ ¬(run step c (mid ++ [e])).Active f

/-- The counter does not wrap between an update before `s + d` and that time, and of the updates
from `s + d` to `s + d + D` one finds a counter that shows no less than at `s + d`. -/
structure WithinPeriod (D s d : Nat) (es : List Event) : Prop where
  before : ∀ e ∈ es, ∀ t, e.updateTime = some t → t < s + d → t / period = (s + d) / period
  stop : (∃ e ∈ es, ∃ t, e.updateTime = some t ∧ s + d + D ≤ t) →
    ∃ e ∈ es, ∃ t, e.updateTime = some t ∧ s + d ≤ t ∧ t ≤ s + d + D ∧
      (s + d) % period ≤ t % period

/-! ## What a call does to a gong -/

section Gong
variable {c : GongController} {f : Floor}

@[simp] theorem gong_setGong (g : GongState) : (c.setGong f g).gong f = g := by
  cases f <;> rfl

theorem gong_setGong_of_ne {f' : Floor} (h : f' ≠ f) (g : GongState) :
    (c.setGong f g).gong f' = c.gong f' := by
  cases f <;> cases f' <;> first | exact absurd rfl h | rfl

@[simp] theorem gong_setOutput (gong : GongId) (state : Bool) :
    (c.setOutput gong state).gong f = c.gong f := by
  cases f <;> rfl

theorem gong_timeOut (now : UInt32) :
    (c.timeOut now f).gong f =
      if (c.gong f).active = true ∧ (c.gong f).stopTime ≤ now then
        { c.gong f with active := false }
      else c.gong f := by
  simp only [timeOut, Bool.and_eq_true, decide_eq_true_eq, ge_iff_le]
  split
  · exact gong_setGong _
  · rfl

theorem gong_timeOut_of_ne {f' : Floor} (h : f' ≠ f) (now : UInt32) :
    (c.timeOut now f).gong f' = c.gong f' := by
  unfold timeOut
  split
  · rw [gong_setGong_of_ne h, gong_setOutput]
  · rfl

theorem gong_update (now : UInt32) :
    (c.update now).gong f =
      if (c.gong f).active = true ∧ (c.gong f).stopTime ≤ now then
        { c.gong f with active := false }
      else c.gong f := by
  cases f with
  | upperfloor => rw [update, gong_timeOut_of_ne (by decide), gong_timeOut]
  | groundfloor => rw [update, gong_timeOut, gong_timeOut_of_ne (by decide)]

theorem gong_ring (force : Bool) (stopTime : UInt32) :
    (c.ring f force stopTime).gong f =
      if force = true ∨ (c.gong f).enabled = true then
        { c.gong f with active := true, stopTime }
      else c.gong f := by
  simp only [ring, Bool.or_eq_true]
  split
  · exact gong_setGong _
  · rfl

theorem gong_ring_of_ne {f' : Floor} (h : f' ≠ f) (force : Bool) (stopTime : UInt32) :
    (c.ring f force stopTime).gong f' = c.gong f' := by
  unfold ring
  split
  · rw [gong_setGong_of_ne h, gong_setOutput]
  · rfl

theorem gong_trigger (now : UInt32) (gong : GongId) (force : Bool) (durationMs : UInt16) :
    (c.trigger now gong force durationMs).gong f =
      if gong.covers f = true ∧ (force = true ∨ (c.gong f).enabled = true) then
        { c.gong f with active := true, stopTime := now + (c.duration durationMs).toUInt32 }
      else c.gong f := by
  have hother : Floor.upperfloor ≠ .groundfloor := by decide
  cases gong <;> cases f <;>
    simp [trigger, GongId.covers, gong_ring, gong_ring_of_ne hother, gong_ring_of_ne hother.symm]

theorem gong_setEnabled (gong : GongId) (enabled : Bool) :
    ∃ enabled', (c.setEnabled gong enabled).gong f = { c.gong f with enabled := enabled' } := by
  cases gong <;> cases f <;> exact ⟨_, rfl⟩

end Gong

/-! ## The outputs -/

/-- The output of a gong drives its relay. -/
def High (f : Floor) (c : GongController) : Prop := c.portD &&& f.id.pins ≠ 0

/-- Both outputs are high exactly while their gong is active. -/
def Mirrors (c : GongController) : Prop := ∀ f, c.High f ↔ c.Active f

section Outputs
variable {c : GongController}

/-- Driving an output sets or clears its own pin and leaves the other one alone. -/
theorem pins_driven (f f' : Floor) (p : UInt8) :
    ((p ||| f.id.pins) &&& f'.id.pins ≠ 0 ↔ f' = f ∨ p &&& f'.id.pins ≠ 0) ∧
      (p &&& ~~~f.id.pins &&& f'.id.pins ≠ 0 ↔ f' ≠ f ∧ p &&& f'.id.pins ≠ 0) := by
  cases f <;> cases f' <;> revert p <;> exact forall_byte (by decide +kernel)

theorem high_setGong (f f' : Floor) (g : GongState) :
    (c.setGong f g).High f' ↔ c.High f' := by
  cases f <;> rfl

/-- A gong and its output are switched together. -/
theorem Mirrors.switch (h : c.Mirrors) (f : Floor) {g : GongState} {state : Bool}
    (hg : g.active = state) : ((c.setOutput f.id state).setGong f g).Mirrors := by
  intro f'
  obtain ⟨hset, hcleared⟩ := pins_driven f f' c.portD
  have hkept : c.High f' ↔ c.Active f' := h f'
  by_cases hf : f' = f
  · subst hf
    rw [high_setGong, Active, gong_setGong, hg]
    cases state <;> simp [High, setOutput, hset, hcleared]
  · rw [high_setGong, Active, gong_setGong_of_ne hf, gong_setOutput, ← Active, ← hkept]
    cases state <;> simp [High, setOutput, hset, hcleared, hf]

theorem Mirrors.timeOut (h : c.Mirrors) (now : UInt32) (f : Floor) :
    (c.timeOut now f).Mirrors := by
  unfold GongController.timeOut
  split
  · exact h.switch f rfl
  · exact h

theorem Mirrors.ring (h : c.Mirrors) (f : Floor) (force : Bool) (stopTime : UInt32) :
    (c.ring f force stopTime).Mirrors := by
  unfold GongController.ring
  split
  · exact h.switch f rfl
  · exact h

theorem Mirrors.step (h : c.Mirrors) (e : Event) : (c.step e).Mirrors := by
  cases e with
  | trigger t gong force durationMs =>
    cases gong with
    | upperfloor => exact h.ring _ _ _
    | groundfloor => exact h.ring _ _ _
    | both => exact (h.ring _ _ _).ring _ _ _
  | setEnabled gong enabled =>
    intro f
    obtain ⟨enabled', hgong⟩ := gong_setEnabled (c := c) (f := f) gong enabled
    have hport : (c.setEnabled gong enabled).portD = c.portD := by cases gong <;> rfl
    rw [GongController.step, High, Active, hport, hgong]
    exact h f
  | setDuration durationMs =>
    intro f
    cases f
    · exact h .upperfloor
    · exact h .groundfloor
  | update t => exact (h.timeOut _ _).timeOut _ _

/-- Throughout every run a relay is energised exactly while its gong is active. -/
theorem run_mirrors (portD : UInt8) (es : List Event) :
    (run GongController.step (start portD) es).Mirrors := by
  refine run_invariant (fun c e h => h.step e) ?_ es
  intro f
  refine iff_of_false ?_ (by cases f <;> exact Bool.false_ne_true)
  have hlow : ∀ p : UInt8, ¬p &&& ~~~GongId.both.pins &&& f.id.pins ≠ 0 := by
    cases f <;> exact forall_byte (by decide +kernel)
  exact hlow portD

end Outputs

section Gong
variable {c : GongController} {f : Floor}

theorem clamp_toNat (durationMs : UInt16) :
    100 ≤ (clamp durationMs).toNat ∧ (clamp durationMs).toNat ≤ 10000 := by
  unfold clamp kMinDurationMs kMaxDurationMs
  simp only [gt_iff_lt, UInt16.lt_iff_toNat_lt]
  split <;> split <;> simp_all

theorem counter_add_duration (s : Nat) (d : UInt16) :
    counter s + d.toUInt32 = counter (s + d.toNat) := by
  apply UInt32.toNat_inj.mp
  simp [counter]

/-! ## A gong until it stops -/

/-- If the gong is active, it is to stop when the counter shows this. -/
def StopsAt (f : Floor) (stop : UInt32) (c : GongController) : Prop :=
  c.Active f → (c.gong f).stopTime = stop

variable {stop : UInt32} {e : Event}

theorem active_trigger {s : Nat} {gong : GongId} {force : Bool} {durationMs : UInt16}
    (heffective : c.Effective f (.trigger s gong force durationMs)) :
    (c.step (.trigger s gong force durationMs)).Active f ∧
      (c.step (.trigger s gong force durationMs)).StopsAt f
        (counter (s + (c.duration durationMs).toNat)) := by
  have hgong : (c.step (.trigger s gong force durationMs)).gong f = _ :=
    (gong_trigger ..).trans (if_pos heffective)
  constructor
  · rw [Active, hgong]
  · intro _
    rw [hgong, counter_add_duration]

/-- Other calls than an update and a trigger that it follows leave a gong as it is. -/
theorem gong_step (hquiet : ¬c.Effective f e) (hupdate : e.updateTime = none) :
    ((c.step e).gong f).active = (c.gong f).active ∧
      ((c.step e).gong f).stopTime = (c.gong f).stopTime := by
  cases e with
  | trigger t gong force durationMs =>
    have hgong : (c.step (.trigger t gong force durationMs)).gong f = c.gong f :=
      (gong_trigger ..).trans (if_neg hquiet)
    rw [hgong]
    exact ⟨rfl, rfl⟩
  | setEnabled gong enabled =>
    obtain ⟨enabled', hgong⟩ := gong_setEnabled (c := c) (f := f) gong enabled
    rw [step, hgong]
    exact ⟨rfl, rfl⟩
  | setDuration durationMs => cases f <;> exact ⟨rfl, rfl⟩
  | update t => cases hupdate

theorem StopsAt.update (h : c.StopsAt f stop) (t : Nat) :
    (c.step (.update t)).StopsAt f stop ∧
      ((c.step (.update t)).Active f ↔ c.Active f ∧ ¬stop ≤ counter t) := by
  have hgong : (c.step (.update t)).gong f = _ := gong_update (counter t)
  simp only [StopsAt, Active] at h ⊢
  rw [hgong]
  cases hactive : (c.gong f).active with
  | false => simp [hactive]
  | true =>
    rw [h hactive]
    by_cases hover : stop ≤ counter t <;> simp [hactive, hover, h hactive]

theorem StopsAt.step (h : c.StopsAt f stop) (hquiet : ¬c.Effective f e) :
    (c.step e).StopsAt f stop := by
  cases hupdate : e.updateTime with
  | none =>
    obtain ⟨hactive, hstop⟩ := gong_step hquiet hupdate
    unfold StopsAt Active
    rw [hactive, hstop]
    exact h
  | some t =>
    obtain rfl := Event.eq_update hupdate
    exact (h.update t).1

end Gong

/-! ## Runs -/

section Runs
variable {c : GongController} {f : Floor} {s d D : Nat} {es : List Event}

theorem Ordered.after {pre : List Event} {e : Event} (h : Ordered (pre ++ e :: es)) :
    Ordered es := by
  rw [Ordered, List.filterMap_append] at h
  have hrest := (List.pairwise_append.mp h).2.1
  exact List.Pairwise.sublist ((List.sublist_cons_self e es).filterMap _) hrest

/-- The updates after a trigger come no earlier than it. -/
theorem Ordered.trigger_le {pre post : List Event} {gong : GongId} {force : Bool}
    {durationMs : UInt16} (h : Ordered (pre ++ .trigger s gong force durationMs :: post)) :
    ∀ e ∈ post, ∀ t, e.updateTime = some t → s ≤ t := by
  intro e he t ht
  obtain rfl := Event.eq_update ht
  exact time_le_of_pairwise (e := .trigger s gong force durationMs) h (List.append_cons ..)
    (by simp) rfl he rfl

/-- None of the updates up to one is later than it. -/
theorem Ordered.update_le {mid after : List Event} {e e' : Event} {t t' : Nat} (h : Ordered es)
    (hsplit : es = mid ++ e :: after) (ht : e.updateTime = some t) (hmem : e' ∈ mid ++ [e])
    (ht' : e'.updateTime = some t') : t' ≤ t := by
  obtain rfl := Event.eq_update ht
  obtain rfl := Event.eq_update ht'
  rcases List.mem_append.mp hmem with hbefore | hlast
  · exact time_le_of_pairwise h hsplit hbefore rfl List.mem_cons_self rfl
  · cases List.mem_singleton.mp hlast
    exact le_rfl

/-- As long as every update finds a counter before the stop, the gong stays active. -/
theorem active_run {stop : UInt32} (hactive : c.Active f) (hstop : c.StopsAt f stop)
    (honly : Along step (fun c e => ¬c.Effective f e) c es)
    (hearly : ∀ e ∈ es, ∀ t, e.updateTime = some t → ¬stop ≤ counter t) :
    (run step c es).Active f := by
  have hstep : ∀ (c : GongController) (e : Event), c.Active f ∧ c.StopsAt f stop →
      (¬c.Effective f e ∧ ∀ t, e.updateTime = some t → ¬stop ≤ counter t) →
      (c.step e).Active f ∧ (c.step e).StopsAt f stop := by
    rintro c e ⟨hactive, hstop⟩ ⟨hquiet, hearly⟩
    refine ⟨?_, hstop.step hquiet⟩
    cases hupdate : e.updateTime with
    | none =>
      rw [Active, (gong_step hquiet hupdate).1]
      exact hactive
    | some t =>
      obtain rfl := Event.eq_update hupdate
      exact (hstop.update t).2.mpr ⟨hactive, hearly t rfl⟩
  exact (run_of_along hstep ⟨hactive, hstop⟩ (honly.and (along_of_forall hearly))).1

/-- A gong that is active and to stop at `s + d`. -/
theorem ringsFor_iff (hactive : c.Active f) (hstop : c.StopsAt f (counter (s + d)))
    (hd : d < period) (honly : Along step (fun c e => ¬c.Effective f e) c es)
    (horder : Ordered es)
    (hfrom : ∀ e ∈ es, ∀ t, e.updateTime = some t → s ≤ t) :
    RingsFor f D s d c es ↔ WithinPeriod D s d es := by
  -- what the update behind `mid` does
  have hupdate : ∀ {mid e after t}, es = mid ++ e :: after → e.updateTime = some t →
      ((run step c (mid ++ [e])).Active f ↔
        (run step c mid).Active f ∧ ¬counter (s + d) ≤ counter t) := by
    intro mid e after t hsplit ht
    obtain rfl := Event.eq_update ht
    have hmid : Along step (fun c e => ¬c.Effective f e) c mid := by
      rw [hsplit, along_append] at honly
      exact honly.1
    rw [run_snoc]
    exact ((run_of_along (fun c e h hquiet => h.step hquiet) hstop hmid).update t).2
  constructor
  · intro h
    refine ⟨?_, ?_⟩
    · intro e he t ht hbefore
      obtain ⟨mid, after, hsplit⟩ := List.append_of_mem he
      have hkept := (hupdate hsplit ht).mp (h.active mid e after t hsplit ht hbefore)
      have hs := hfrom e he t ht
      exact (counter_lt_iff_div_eq hbefore (by omega)).mp hkept.2
    · intro hlong
      obtain ⟨mid, e, after, t, hsplit, ht, hlate, hrings, hends⟩ := h.stops hlong
      have he : e ∈ es := by simp [hsplit]
      have hreached : s + d ≤ t := by
        by_contra hbefore
        exact hends (h.active mid e after t hsplit ht (by omega))
      have hshows : counter (s + d) ≤ counter t := by
        by_contra hless
        exact hends ((hupdate hsplit ht).mpr ⟨hrings, hless⟩)
      exact ⟨e, he, t, ht, hreached, hlate, (counter_le_counter_iff _ _).mp hshows⟩
  · intro h
    refine ⟨?_, ?_⟩
    · intro mid e after t hsplit ht hbefore
      refine active_run hactive hstop ?_ ?_
      · rw [hsplit, List.append_cons, along_append] at honly
        exact honly.1
      · intro e' he' t' ht'
        have hle := horder.update_le hsplit ht he' ht'
        have hmem : e' ∈ es := by
          rw [hsplit, List.append_cons]
          exact List.mem_append_left _ he'
        have hs := hfrom e' hmem t' ht'
        exact (counter_lt_iff_div_eq (by omega) (by omega)).mpr (h.before e' hmem t' ht' (by omega))
    · intro hlong
      obtain ⟨e, he, t, ht, hreached, hlate, hshows⟩ := h.stop hlong
      obtain ⟨mid, after, hsplit⟩ := List.append_of_mem he
      have hends : ¬(run step c (mid ++ [e])).Active f := by
        rw [hupdate hsplit ht]
        exact fun hboth => hboth.2 ((counter_le_counter_iff _ _).mpr hshows)
      -- the update that switches it off is this one or comes before it
      obtain ⟨mid', e', after', hsplit', hkept, hlost⟩ := exists_step_of_lost hactive hends
      have hmem : e' ∈ mid ++ [e] := by simp [hsplit']
      have hwhole : es = mid' ++ e' :: (after' ++ after) := by
        rw [hsplit, List.append_cons, hsplit', List.append_assoc, List.cons_append]
      cases hother : e'.updateTime with
      | none =>
        rw [run_snoc, Active, (gong_step (honly.at hwhole) hother).1] at hlost
        exact absurd hkept hlost
      | some t' =>
        have hle := horder.update_le hsplit ht hmem hother
        exact ⟨mid', e', after' ++ after, t', hwhole, hother, hle.trans hlate, hkept, hlost⟩

/-- A gong rings for the time that the trigger asks for exactly if the counter does not wrap
between an update and the stop. -/
theorem rings_iff (portD : UInt8) (pre : List Event) (s : Nat) (gong : GongId) (force : Bool)
    (durationMs : UInt16) (post : List Event) (f : Floor) (D : Nat)
    (horder : Ordered (pre ++ .trigger s gong force durationMs :: post))
    (heffective : (run step (start portD) pre).Effective f (.trigger s gong force durationMs))
    (honly : Along step (fun c e => ¬c.Effective f e)
      (run step (start portD) (pre ++ [.trigger s gong force durationMs])) post) :
    RingsFor f D s ((run step (start portD) pre).duration durationMs).toNat
        (run step (start portD) (pre ++ [.trigger s gong force durationMs])) post ↔
      WithinPeriod D s ((run step (start portD) pre).duration durationMs).toNat post := by
  obtain ⟨hactive, hstop⟩ := active_trigger heffective
  rw [run_snoc] at honly ⊢
  have hd : ((run step (start portD) pre).duration durationMs).toNat < period :=
    (clamp_toNat _).2.trans_lt (by decide)
  exact ringsFor_iff hactive hstop hd honly horder.after horder.trigger_le

/-- With updates at most `D` apart it is enough that the counter does not wrap between the trigger
and `s + d + D`. -/
theorem WithinPeriod.of_room {t₀ : Nat} {pre post : List Event} {gong : GongId} {force : Bool}
    {durationMs : UInt16} (horder : Ordered (pre ++ .trigger s gong force durationMs :: post))
    (hstart : t₀ ≤ s) (hd : 0 < d) (hroom : s % period + d + D < period)
    (hpaced : PacedFrom Event.updateTime D t₀ (pre ++ .trigger s gong force durationMs :: post)) :
    WithinPeriod D s d post := by
  obtain ⟨u, hu, hnext⟩ := hpaced.after
  have hlast : u ≤ s := by
    rcases hu with rfl | ⟨e, he, hs⟩
    · exact hstart
    · obtain rfl := Event.eq_update hs
      exact time_le_of_pairwise horder rfl he rfl List.mem_cons_self rfl
  refine ⟨?_, ?_⟩
  · intro e he t ht hbefore
    have hs := horder.trigger_le e he t ht
    unfold period at *
    omega
  · rintro ⟨e, he, t, ht, hlong⟩
    obtain ⟨mid, f, after, t', rfl, hfirst, hclose⟩ :=
      (hnext.skip rfl).first_after (s + d) (by omega) ⟨e, he, t, ht, by omega⟩
    have hreached := hfirst.reached
    refine ⟨f, by simp, t', hfirst.poll, hreached, hclose.le, ?_⟩
    unfold period at *
    omega

/-- Both gongs, a second after the start, for two seconds. -/
theorem rings_early :
    RingsFor .upperfloor 1500 1000 2000
      (run step (start 0) [.update 500, .trigger 1000 .both false 0])
      [.update 1500, .update 2900, .update 4300, .update 5000] := by
  have horder : Ordered ([.update 500] ++ .trigger 1000 .both false 0 ::
      [.update 1500, .update 2900, .update 4300, .update 5000]) := by
    show List.Pairwise _ [500, 1000, 1500, 2900, 4300, 5000]
    decide
  refine (rings_iff 0 _ 1000 .both false 0 _ .upperfloor 1500 horder ⟨rfl, .inr rfl⟩
    ⟨id, id, id, id, trivial⟩).mpr
    (WithinPeriod.of_room horder (Nat.zero_le _) (by decide) (by decide) ?_)
  show List.IsChain _ [0, 500, 1500, 2900, 4300, 5000]
  simp [Within]

/-- A second before the counter wraps the gong is switched off by the next update. -/
theorem not_rings_before_wrap :
    ¬RingsFor .upperfloor 100 4294966296 2000
      (run step (start 0) [.update 4294966290, .trigger 4294966296 .both false 0])
      [.update 4294966306] := by
  intro h
  have hactive := h.active [] (.update 4294966306) [] _ rfl rfl (by decide)
  exact absurd hactive (by decide)

end Runs
end GongController
end SmartBell.App
