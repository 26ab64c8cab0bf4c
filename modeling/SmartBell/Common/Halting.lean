import Mathlib.Tactic

/-!
# Systems that run until they stop

A system without inputs takes one step after another. `StopsWith` says that it stops at some
time, and how it is then and from then on. It is shown, and refuted, by following the steps:
a step from a state that has not stopped makes no difference to it.
-/
namespace SmartBell.Common

section Halting
variable {σ : Type} (step : σ → σ) (stopped : σ → Prop)

/-- The system stops, and whenever it has stopped its state satisfies `Q`. -/
def StopsWith (Q : σ → Prop) (s : σ) : Prop :=
  (∃ n, stopped (step^[n] s)) ∧ ∀ n, stopped (step^[n] s) → Q (step^[n] s)

variable {step stopped} {Q : σ → Prop} {s : σ}

theorem stopsWith_step (hgoing : ¬stopped s) :
    StopsWith step stopped Q s ↔ StopsWith step stopped Q (step s) := by
  constructor
  · rintro ⟨⟨n, hn⟩, hQ⟩
    cases n with
    | zero => exact absurd hn hgoing
    | succ n => exact ⟨⟨n, hn⟩, fun m => hQ (m + 1)⟩
  · rintro ⟨⟨n, hn⟩, hQ⟩
    refine ⟨⟨n + 1, hn⟩, ?_⟩
    intro m hm
    cases m with
    | zero => exact absurd hm hgoing
    | succ m => exact hQ m hm

theorem StopsWith.here (h : StopsWith step stopped Q s) (hs : stopped s) : Q s := h.2 0 hs

/-- A state that has stopped and stays as it is. -/
theorem stopsWith_of_fixed (hfixed : step s = s) (hs : stopped s) (hQ : Q s) :
    StopsWith step stopped Q s := by
  refine ⟨⟨0, hs⟩, ?_⟩
  intro n _
  rwa [Function.iterate_fixed hfixed n]

end Halting
end SmartBell.Common
