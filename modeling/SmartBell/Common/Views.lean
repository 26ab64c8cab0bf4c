import SmartBell.Common.Runs

/-!
# What a part of a system sees

A part of a deterministic system takes notice of some of its inputs, each through a view
of it. The part is independent of the rest if the inputs it does not see leave its state
alone, and if those it sees take it, from equal states, to equal states with equal
outputs (`Unwinding`). Then two runs that look the same to the part are the same for it,
whatever else happens in them and between what.
-/
namespace SmartBell.Common

section Views
variable {σ ε ν ο ω : Type} (step : σ → ε → σ) (see : ε → Option ν) (state : σ → ο)
  (output : σ → ε → ω)

/-- The state of the part behind each input that it sees, with the output of that step. -/
def trace : σ → List ε → List (ο × ω)
  | _, [] => []
  | s, e :: es =>
    if (see e).isSome then (state (step s e), output s e) :: trace (step s e) es
    else trace (step s e) es

/-- The steps of a run that meet `C` depend on the part's own state and on its view only. -/
structure Unwinding (C : σ → ε → Prop) : Prop where
  seen : ∀ {s s' e e' v}, C s e → C s' e' → state s = state s' → see e = some v →
    see e' = some v → state (step s e) = state (step s' e') ∧ output s e = output s' e'
  unseen : ∀ {s e}, see e = none → state (step s e) = state s

variable {step see state output} {C : σ → ε → Prop}

theorem trace_unseen {e : ε} (h : see e = none) (s : σ) (es : List ε) :
    trace step see state output s (e :: es) = trace step see state output (step s e) es := by
  simp [trace, h]

theorem trace_seen {e : ε} {v : ν} (h : see e = some v) (s : σ) (es : List ε) :
    trace step see state output s (e :: es) =
      (state (step s e), output s e) :: trace step see state output (step s e) es := by
  simp [trace, h]

/-- What the part does not see leaves no trace. -/
theorem Unwinding.skip (h : Unwinding step see state output C) {us : List ε}
    (hus : ∀ u ∈ us, see u = none) (s : σ) (es : List ε) :
    state (run step s us) = state s ∧
      trace step see state output s (us ++ es) =
        trace step see state output (run step s us) es := by
  induction us generalizing s with
  | nil => exact ⟨rfl, rfl⟩
  | cons u us ih =>
    have hu := hus u List.mem_cons_self
    obtain ⟨hstate, htrace⟩ := ih (fun v hv => hus v (List.mem_cons_of_mem u hv)) (step s u)
    refine ⟨hstate.trans (h.unseen hu), ?_⟩
    rw [List.cons_append, trace_unseen hu]
    exact htrace

/-- Two runs with equal views from equal states of the part have equal traces. -/
theorem Unwinding.trace_eq (h : Unwinding step see state output C) {s s' : σ} {es es' : List ε}
    (hes : Along step C s es) (hes' : Along step C s' es') (hstate : state s = state s')
    (hsee : es.filterMap see = es'.filterMap see) :
    trace step see state output s es = trace step see state output s' es' := by
  induction es generalizing s s' es' with
  | nil =>
    obtain ⟨_, htrace⟩ := h.skip (List.filterMap_eq_nil_iff.mp hsee.symm) s' []
    rw [List.append_nil] at htrace
    exact htrace.symm
  | cons e es ih =>
    cases he : see e with
    | none =>
      rw [List.filterMap_cons_none he] at hsee
      rw [trace_unseen he]
      exact ih hes.2 hes' ((h.unseen he).trans hstate) hsee
    | some v =>
      rw [List.filterMap_cons_some he] at hsee
      obtain ⟨us, e', post, rfl, hus, he', hpost⟩ := List.filterMap_eq_cons_iff.mp hsee.symm
      obtain ⟨hskip, htrace⟩ := h.skip hus s' (e' :: post)
      obtain ⟨hC', hrest⟩ := hes'.after rfl
      obtain ⟨hnext, houtput⟩ := h.seen hes.1 hC' (hstate.trans hskip.symm) he he'
      rw [htrace, trace_seen he, trace_seen he', hnext, houtput]
      exact congrArg _ (ih hes.2 hrest hnext hpost.symm)

end Views
end SmartBell.Common
