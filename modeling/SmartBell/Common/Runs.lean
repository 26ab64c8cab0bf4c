import Mathlib.Tactic

/-!
# Runs of a deterministic system

A system is a step function over states and inputs; a run is the list of its inputs.
`Along` says something of every step a run takes, `Throughout` of every state it
reaches. An invariant is proved from one step (`throughout_of_along`), and where the
step lemma is an equivalence so is the result about runs (`throughout_iff_along`).
-/
namespace SmartBell.Common

section Runs
variable {σ ε : Type} (step : σ → ε → σ)

/-- The state after a run. -/
def run (s : σ) (es : List ε) : σ := es.foldl step s

/-- Every step of the run is taken from a state and with an input that satisfy `C`. -/
def Along (C : σ → ε → Prop) : σ → List ε → Prop
  | _, [] => True
  | s, e :: es => C s e ∧ Along C (step s e) es

/-- Every state of the run, the first and the last included, satisfies `I`. -/
def Throughout (I : σ → Prop) : σ → List ε → Prop
  | s, [] => I s
  | s, e :: es => I s ∧ Throughout I (step s e) es

/-- Step number `k` of the run is taken from a state and with an input that satisfy `P`. -/
def Occurs (P : σ → ε → Prop) (s : σ) (es : List ε) (k : Nat) : Prop :=
  ∃ e, es[k]? = some e ∧ P (run step s (es.take k)) e

/-- What the steps of the run put out, one after the other. -/
def outputs {ω : Type} (out : σ → ε → List ω) : σ → List ε → List ω
  | _, [] => []
  | s, e :: es => out s e ++ outputs out (step s e) es

instance Along.decidable (C : σ → ε → Prop) [∀ s e, Decidable (C s e)] :
    (s : σ) → (es : List ε) → Decidable (Along step C s es)
  | _, [] => isTrue trivial
  | s, e :: es =>
    have := Along.decidable C (step s e) es
    inferInstanceAs (Decidable (_ ∧ _))

instance Throughout.decidable (I : σ → Prop) [DecidablePred I] :
    (s : σ) → (es : List ε) → Decidable (Throughout step I s es)
  | s, [] => inferInstanceAs (Decidable (I s))
  | s, e :: es =>
    have := Throughout.decidable I (step s e) es
    inferInstanceAs (Decidable (_ ∧ _))

variable {step}

@[simp] theorem run_nil (s : σ) : run step s [] = s := rfl

@[simp] theorem run_cons (s : σ) (e : ε) (es : List ε) :
    run step s (e :: es) = run step (step s e) es := rfl

theorem run_append (s : σ) (es fs : List ε) :
    run step s (es ++ fs) = run step (run step s es) fs := List.foldl_append

theorem run_snoc (s : σ) (es : List ε) (e : ε) :
    run step s (es ++ [e]) = step (run step s es) e := by
  rw [run_append]
  rfl

theorem along_append {C : σ → ε → Prop} (s : σ) (es fs : List ε) :
    Along step C s (es ++ fs) ↔ Along step C s es ∧ Along step C (run step s es) fs := by
  induction es generalizing s with
  | nil => simp [Along]
  | cons e es ih => simp [Along, ih, and_assoc]

/-- A step condition holds along the rest of the run, from wherever it is looked at. -/
theorem Along.after {C : σ → ε → Prop} {s : σ} {es pre post : List ε} (h : Along step C s es)
    (hsplit : es = pre ++ post) : Along step C (run step s pre) post := by
  subst hsplit
  exact ((along_append s pre post).mp h).2

/-- A step condition holds at every place of the run. -/
theorem Along.at {C : σ → ε → Prop} {s : σ} {es pre post : List ε} {e : ε}
    (h : Along step C s es) (hsplit : es = pre ++ e :: post) : C (run step s pre) e :=
  (h.after hsplit).1

theorem Along.mono {C D : σ → ε → Prop} (hCD : ∀ s e, C s e → D s e) {s : σ} {es : List ε}
    (h : Along step C s es) : Along step D s es := by
  induction es generalizing s with
  | nil => trivial
  | cons e es ih => exact ⟨hCD s e h.1, ih h.2⟩

theorem Along.and {C D : σ → ε → Prop} {s : σ} {es : List ε} (hC : Along step C s es)
    (hD : Along step D s es) : Along step (fun s e => C s e ∧ D s e) s es := by
  induction es generalizing s with
  | nil => trivial
  | cons e es ih => exact ⟨⟨hC.1, hD.1⟩, ih hC.2 hD.2⟩

/-- Two step conditions that come to the same at every step of the run. -/
theorem along_congr {A C D : σ → ε → Prop} (hiff : ∀ s e, A s e → (C s e ↔ D s e)) {s : σ}
    {es : List ε} (hA : Along step A s es) : Along step C s es ↔ Along step D s es := by
  constructor
  · intro hC
    exact (hA.and hC).mono fun s e h => (hiff s e h.1).mp h.2
  · intro hD
    exact (hA.and hD).mono fun s e h => (hiff s e h.1).mpr h.2

/-- A condition on the inputs alone. -/
theorem along_of_forall {P : ε → Prop} {s : σ} {es : List ε} (h : ∀ e ∈ es, P e) :
    Along step (fun _ e => P e) s es := by
  induction es generalizing s with
  | nil => trivial
  | cons e es ih =>
    exact ⟨h e List.mem_cons_self, ih fun f hf => h f (List.mem_cons_of_mem e hf)⟩

theorem Throughout.mono {I J : σ → Prop} (hIJ : ∀ s, I s → J s) {s : σ} {es : List ε}
    (h : Throughout step I s es) : Throughout step J s es := by
  induction es generalizing s with
  | nil => exact hIJ s h
  | cons e es ih => exact ⟨hIJ s h.1, ih h.2⟩

theorem Throughout.first {I : σ → Prop} {s : σ} {es : List ε} (h : Throughout step I s es) :
    I s := by
  cases es with
  | nil => exact h
  | cons e es => exact h.1

theorem Throughout.last {I : σ → Prop} {s : σ} {es : List ε} (h : Throughout step I s es) :
    I (run step s es) := by
  induction es generalizing s with
  | nil => exact h
  | cons e es ih => exact ih h.2

/-- What holds throughout a run holds before each of its steps. -/
theorem Throughout.along {I : σ → Prop} {s : σ} {es : List ε} (h : Throughout step I s es) :
    Along step (fun s _ => I s) s es := by
  induction es generalizing s with
  | nil => trivial
  | cons e es ih => exact ⟨h.1, ih h.2⟩

/-- The invariant rule: what every step of the run preserves holds throughout it. -/
theorem throughout_of_along {I : σ → Prop} {C : σ → ε → Prop}
    (hstep : ∀ s e, I s → C s e → I (step s e)) {s : σ} {es : List ε} (hs : I s)
    (h : Along step C s es) : Throughout step I s es := by
  induction es generalizing s with
  | nil => exact hs
  | cons e es ih => exact ⟨hs, ih (hstep s e hs h.1) h.2⟩

/-- The invariant rule where every step preserves it, whatever its input. -/
theorem throughout_of_step {I : σ → Prop} (hstep : ∀ s e, I s → I (step s e)) {s : σ} (hs : I s)
    (es : List ε) : Throughout step I s es := by
  induction es generalizing s with
  | nil => exact hs
  | cons e es ih => exact ⟨hs, ih (hstep s e hs)⟩

theorem run_of_along {I : σ → Prop} {C : σ → ε → Prop}
    (hstep : ∀ s e, I s → C s e → I (step s e)) {s : σ} {es : List ε} (hs : I s)
    (h : Along step C s es) : I (run step s es) :=
  (throughout_of_along hstep hs h).last

/-- A property that every step preserves, whatever its input. -/
theorem run_invariant {I : σ → Prop} (hstep : ∀ s e, I s → I (step s e)) {s : σ} (hs : I s)
    (es : List ε) : I (run step s es) := by
  exact (throughout_of_step hstep hs es).last

theorem run_take_succ {s : σ} {es : List ε} {k : Nat} {e : ε} (h : es[k]? = some e) :
    run step s (es.take (k + 1)) = step (run step s (es.take k)) e := by
  rw [List.take_add_one, h]
  exact run_snoc s (es.take k) e

/-- The invariant rule between two places of a run. -/
theorem run_between {I : σ → Prop} {s : σ} {es : List ε} {j k : Nat} (hle : j ≤ k)
    (hj : I (run step s (es.take j)))
    (hstep : ∀ l e, j ≤ l → l < k → es[l]? = some e → I (run step s (es.take l)) →
      I (step (run step s (es.take l)) e)) : I (run step s (es.take k)) := by
  induction k, hle using Nat.le_induction with
  | base => exact hj
  | succ l hle ih =>
    have hl : I (run step s (es.take l)) :=
      ih fun m e hfrom hto => hstep m e hfrom (hto.trans (Nat.lt_succ_self l))
    cases he : es[l]? with
    | none =>
      rwa [List.take_add_one, he, Option.toList_none, List.append_nil]
    | some e =>
      rw [run_take_succ he]
      exact hstep l e hle (Nat.lt_succ_self l) he hl

/-- What holds at the beginning of a run and not at its end is lost at one of its steps. -/
theorem exists_step_of_lost {I : σ → Prop} {s : σ} {es : List ε} (hs : I s)
    (hlost : ¬I (run step s es)) :
    ∃ pre e post, es = pre ++ e :: post ∧ I (run step s pre) ∧ ¬I (run step s (pre ++ [e])) := by
  induction es generalizing s with
  | nil => exact absurd hs hlost
  | cons e es ih =>
    by_cases hnext : I (step s e)
    · obtain ⟨pre, f, post, rfl, hkept, hhere⟩ := ih hnext hlost
      exact ⟨e :: pre, f, post, rfl, hkept, hhere⟩
    · exact ⟨[], e, es, rfl, hs, hnext⟩

/-- The invariant may look back at the inputs of the run so far. -/
theorem run_history {I : List ε → σ → Prop} (hstep : ∀ es s e, I es s → I (es ++ [e]) (step s e))
    {s : σ} (hs : I [] s) (es : List ε) : I es (run step s es) := by
  induction es using List.reverseRecOn with
  | nil => exact hs
  | append_singleton es e ih =>
    rw [run_snoc]
    exact hstep es _ e ih

/-- What happened in a run so far is not changed by how it goes on. -/
theorem occurs_append_left {P : σ → ε → Prop} {s : σ} {es : List ε} {k : Nat}
    (hk : k < es.length) (fs : List ε) :
    Occurs step P s (es ++ fs) k ↔ Occurs step P s es k := by
  unfold Occurs
  rw [List.getElem?_append_left hk, List.take_append_of_le_length hk.le]

theorem occurs_last {P : σ → ε → Prop} (s : σ) (es : List ε) (e : ε) :
    Occurs step P s (es ++ [e]) es.length ↔ P (run step s es) e := by
  simp [Occurs]

theorem Occurs.lt {P : σ → ε → Prop} {s : σ} {es : List ε} {k : Nat}
    (h : Occurs step P s es k) : k < es.length := by
  obtain ⟨e, he, _⟩ := h
  exact (List.getElem?_eq_some_iff.mp he).1

theorem outputs_append {ω : Type} (out : σ → ε → List ω) (s : σ) (es fs : List ε) :
    outputs step out s (es ++ fs) =
      outputs step out s es ++ outputs step out (run step s es) fs := by
  induction es generalizing s with
  | nil => rfl
  | cons e es ih => simp [outputs, ih]

/-- What every step puts out, the run puts out. -/
theorem forall_mem_outputs {ω : Type} {out : σ → ε → List ω} {P : ω → Prop}
    (h : ∀ s e, ∀ x ∈ out s e, P x) (s : σ) (es : List ε) : ∀ x ∈ outputs step out s es, P x := by
  induction es generalizing s with
  | nil => simp [outputs]
  | cons e es ih =>
    intro x hx
    rcases List.mem_append.mp hx with hhere | hlater
    · exact h s e x hhere
    · exact ih (step s e) x hlater

/-- The simulation rule: two systems whose states stay related, and that put out the same from
related states, put out the same along a run. -/
theorem outputs_eq_of_simulation {τ ω : Type} {step' : τ → ε → τ} {out : σ → ε → List ω}
    {out' : τ → ε → List ω} {R : σ → τ → Prop}
    (hstep : ∀ s t e, R s t → out s e = out' t e ∧ R (step s e) (step' t e)) {s : σ} {t : τ}
    (hR : R s t) (es : List ε) : outputs step out s es = outputs step' out' t es := by
  induction es generalizing s t with
  | nil => rfl
  | cons e es ih =>
    obtain ⟨hout, hnext⟩ := hstep s t e hR
    rw [outputs, outputs, hout, ih hnext]

theorem filterMap_outputs {ω υ : Type} (g : ω → Option υ) (out : σ → ε → List ω) (s : σ)
    (es : List ε) : (outputs step out s es).filterMap g =
      outputs step (fun s e => (out s e).filterMap g) s es := by
  induction es generalizing s with
  | nil => rfl
  | cons e es ih => rw [outputs, List.filterMap_append, ih, outputs]

/-- The invariant rule for a state together with what was put out on the way to it. -/
theorem outputs_invariant {ω : Type} {out : σ → ε → List ω} {I : List ω → σ → Prop}
    (hstep : ∀ os s e, I os s → I (os ++ out s e) (step s e)) {s : σ} (hs : I [] s)
    (es : List ε) : I (outputs step out s es) (run step s es) := by
  induction es using List.reverseRecOn with
  | nil => exact hs
  | append_singleton es e ih =>
    rw [outputs_append, run_snoc]
    simpa [outputs] using hstep _ _ e ih

/-- What every step preserves or puts `x` out instead: at the end of the run it holds, or `x` was
put out on the way. -/
theorem mem_outputs_or {ω : Type} {out : σ → ε → List ω} {x : ω} {I : σ → Prop}
    {C : σ → ε → Prop} (hstep : ∀ s e, I s → C s e → x ∈ out s e ∨ I (step s e)) {s : σ}
    {es : List ε} (hs : I s) (h : Along step C s es) :
    x ∈ outputs step out s es ∨ I (run step s es) := by
  induction es generalizing s with
  | nil => exact .inr hs
  | cons e es ih =>
    rcases hstep s e hs h.1 with hhere | hnext
    · exact .inl (List.mem_append_left _ hhere)
    · exact (ih hnext h.2).imp_left (List.mem_append_right _)

/-- What no step puts out as long as an invariant holds that it preserves. -/
theorem not_mem_outputs {ω : Type} {out : σ → ε → List ω} {x : ω} {I : σ → Prop}
    {C : σ → ε → Prop} (hstep : ∀ s e, I s → C s e → x ∉ out s e ∧ I (step s e)) {s : σ}
    {es : List ε} (hs : I s) (h : Along step C s es) : x ∉ outputs step out s es := by
  induction es generalizing s with
  | nil => exact List.not_mem_nil
  | cons e es ih =>
    obtain ⟨hquiet, hnext⟩ := hstep s e hs h.1
    rw [outputs, List.mem_append, not_or]
    exact ⟨hquiet, ih hnext h.2⟩

/-- If a step preserves the invariant exactly under `C`, the invariant holds throughout a run
exactly if every step meets `C`. -/
theorem throughout_iff_along {I : σ → Prop} {C : σ → ε → Prop}
    (hstep : ∀ s e, I s → (I (step s e) ↔ C s e)) {s : σ} {es : List ε} (hs : I s) :
    Throughout step I s es ↔ Along step C s es := by
  induction es generalizing s with
  | nil => exact ⟨fun _ => trivial, fun _ => hs⟩
  | cons e es ih =>
    constructor
    · rintro ⟨_, later⟩
      have here := later.first
      exact ⟨(hstep s e hs).mp here, (ih here).mp later⟩
    · rintro ⟨here, later⟩
      have next := (hstep s e hs).mpr here
      exact ⟨hs, (ih next).mpr later⟩

/-- The same for a consequence of the invariant that can be seen from outside: it holds
throughout a run exactly if every step meets `C`. -/
theorem throughout_iff_along_of_invariant {I O : σ → Prop} {C : σ → ε → Prop}
    (hseen : ∀ s, I s → O s) (hstep : ∀ s e, I s → C s e → I (step s e))
    (hfail : ∀ s e, I s → ¬C s e → ¬O (step s e)) {s : σ} {es : List ε} (hs : I s) :
    Throughout step O s es ↔ Along step C s es := by
  constructor
  · intro h
    induction es generalizing s with
    | nil => trivial
    | cons e es ih =>
      have here : C s e := by
        by_contra hC
        exact hfail s e hs hC h.2.first
      exact ⟨here, ih (hstep s e hs here) h.2⟩
  · intro h
    exact (throughout_of_along hstep hs h).mono hseen

end Runs

/-! ## Parts of a system

A part of the state that takes steps of its own: each step of the whole is seen by the part as
some of its own steps, or as none. -/

section Parts
variable {σ ε τ φ : Type} {step : σ → ε → σ} {part : τ → φ → τ} {view : σ → τ}
  {seen : σ → ε → List φ}

/-- A run of the whole is a run of the part. -/
theorem view_run (h : ∀ s e, view (step s e) = run part (view s) (seen s e)) (s : σ)
    (es : List ε) : view (run step s es) = run part (view s) (outputs step seen s es) := by
  induction es generalizing s with
  | nil => rfl
  | cons e es ih => rw [run_cons, ih, h, outputs, run_append]

/-- What the part puts out in a run of the whole. -/
theorem outputs_view {ω : Type} {out : σ → ε → List ω} {part_out : τ → φ → List ω}
    (h : ∀ s e, view (step s e) = run part (view s) (seen s e))
    (hout : ∀ s e, out s e = outputs part part_out (view s) (seen s e)) (s : σ) (es : List ε) :
    outputs step out s es = outputs part part_out (view s) (outputs step seen s es) := by
  induction es generalizing s with
  | nil => rfl
  | cons e es ih => rw [outputs, hout, ih, h, outputs, outputs_append]

/-- A step condition of the part that the steps of the whole come with. -/
theorem along_view {C : σ → ε → Prop} {D : τ → φ → Prop}
    (h : ∀ s e, view (step s e) = run part (view s) (seen s e))
    (hC : ∀ s e, C s e → Along part D (view s) (seen s e)) {s : σ} {es : List ε}
    (hes : Along step C s es) : Along part D (view s) (outputs step seen s es) := by
  induction es generalizing s with
  | nil => trivial
  | cons e es ih =>
    rw [outputs, along_append, ← h]
    exact ⟨hC s e hes.1, ih hes.2⟩

end Parts
end SmartBell.Common
