import Mathlib.Control.Basic

/-!
# Rounds

A computation that is called over and over with what it left behind, in any monad. What one round
looks like to an observer all of them look like, each with its effects in its place.
-/
namespace SmartBell.Common

section Rounds
variable {m : Type → Type} [Monad m] {σ τ ρ : Type}

/-- So many rounds, with what each of them returned. -/
def rounds (step : σ → m (ρ × σ)) : Nat → σ → m (List ρ × σ)
  | 0, s => pure ([], s)
  | n + 1, s => do
    let r ← step s
    let rs ← rounds step n r.2
    pure (r.1 :: rs.1, rs.2)

/-- One step seen as another makes the rounds of the one the rounds of the other. -/
theorem rounds_view [LawfulMonad m] {step : σ → m (ρ × σ)} {step' : τ → m (ρ × τ)} (view : σ → τ)
    (h : ∀ s, (fun r => (r.1, view r.2)) <$> step s = step' (view s)) (n : Nat) (s : σ) :
    (fun rs => (rs.1, view rs.2)) <$> rounds step n s = rounds step' n (view s) := by
  induction n generalizing s with
  | zero => simp [rounds]
  | succ n ih =>
    simp only [rounds, map_bind, map_pure, ← h, bind_map_left, ← ih]

end Rounds

end SmartBell.Common
