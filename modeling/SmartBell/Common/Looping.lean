import SmartBell.Common.Attempt

/-!
# Loops of computations that may stop

A loop goes round until a round gives a result. It runs on fuel, which is measured on the state it
starts in. Where every round that goes on uses some of it up, the loop never stops for want of fuel
and is the one of the program text; the rules for what it does to the state do not speak of fuel.
-/
namespace SmartBell.Common.Attempt
variable {σ α β : Type}

/-- At most so many rounds of a loop. -/
def rounds (body : β → Attempt σ (β ⊕ α)) : Nat → β → Attempt σ α
  | 0, _ => stop
  | n + 1, b => body b >>= fun
    | .inl c => rounds body n c
    | .inr a => pure a

/-- A loop whose rounds use up `fuel`. -/
def loop (fuel : σ → Nat) (body : β → Attempt σ (β ⊕ α)) (b : β) : Attempt σ α := fun s =>
  rounds body (fuel s + 1) b s

section Fuel
variable {fuel : σ → Nat} {body : β → Attempt σ (β ⊕ α)}

/-- Some fuel is used up by the time there is a result. -/
def Spends (fuel : σ → Nat) (x : Attempt σ α) : Prop :=
  ∀ s a t, x s = (some a, t) → fuel t < fuel s

theorem Spends.bind {x : Attempt σ α} {f : α → Attempt σ β} (hx : Spends fuel x)
    (hf : ∀ a s, fuel (f a s).2 ≤ fuel s) : Spends fuel (x >>= f) := by
  intro s b u he
  rcases hxs : x s with ⟨_ | a, t⟩
  · rw [bind_none hxs] at he
    simp at he
  · rw [bind_some hxs] at he
    have hle := hf a t
    rw [he] at hle
    exact Nat.lt_of_le_of_lt hle (hx s a t hxs)

/-- Every round that goes on uses some fuel up. -/
def Consumes (fuel : σ → Nat) (body : β → Attempt σ (β ⊕ α)) : Prop :=
  ∀ b s c t, body b s = (some (.inl c), t) → fuel t < fuel s

/-- More fuel than there is makes no difference. -/
theorem rounds_eq (h : Consumes fuel body) {m n : Nat} {b : β} {s : σ} (hm : fuel s < m)
    (hn : fuel s < n) : rounds body m b s = rounds body n b s := by
  induction m generalizing n b s with
  | zero => omega
  | succ m ih =>
    obtain _ | n := n
    · omega
    · rcases hround : body b s with ⟨_ | c | a, t⟩
      · rw [rounds, rounds, bind_none hround, bind_none hround]
      · have hless := h b s c t hround
        rw [rounds, rounds, bind_some hround, bind_some hround]
        exact ih (by omega) (by omega)
      · rw [rounds, rounds, bind_some hround, bind_some hround]

/-- The loop of the program text: a round, and then the loop again or the result. -/
theorem loop_eq (h : Consumes fuel body) (b : β) :
    loop fuel body b = body b >>= fun
      | .inl c => loop fuel body c
      | .inr a => pure a := by
  funext s
  rcases hround : body b s with ⟨_ | c | a, t⟩
  · rw [bind_none hround, loop, rounds, bind_none hround]
  · have hless := h b s c t hround
    rw [bind_some hround, loop, rounds, bind_some hround]
    exact rounds_eq h hless (Nat.lt_succ_self _)
  · rw [bind_some hround, loop, rounds, bind_some hround]

end Fuel

section Rules
variable {P : β → σ → Prop} {Q : α → σ → Prop} {R : σ → Prop} {body : β → Attempt σ (β ⊕ α)}

theorem Triple.rounds (hstop : ∀ b s, P b s → R s)
    (hbody : ∀ b, Triple (P b) (body b) (Sum.elim P Q) R) (n : Nat) (b : β) :
    Triple (P b) (Attempt.rounds body n b) Q R := by
  induction n generalizing b with
  | zero => exact .stop (hstop b)
  | succ n ih =>
    refine (hbody b).bind fun r => ?_
    cases r with
    | inl c => exact ih c
    | inr a => exact .pure a fun _ h => h

/-- What holds before every round, and with the result of the last one. -/
theorem Triple.loop {fuel : σ → Nat} (hstop : ∀ b s, P b s → R s)
    (hbody : ∀ b, Triple (P b) (body b) (Sum.elim P Q) R) (b : β) :
    Triple (P b) (Attempt.loop fuel body b) Q R := fun s hs =>
  Triple.rounds hstop hbody (fuel s + 1) b s hs

/-- A loop whose rounds use up fuel does not stop for want of it. -/
theorem Triple.loop_of_consumes {fuel : σ → Nat} (hspend : Consumes fuel body)
    (hbody : ∀ b, Triple (P b) (body b) (Sum.elim P Q) R) (b : β) :
    Triple (P b) (Attempt.loop fuel body b) Q R := by
  intro s hs
  induction hn : fuel s using Nat.strong_induction_on generalizing b s with
  | _ n ih =>
    obtain ⟨done, stopped⟩ := hbody b s hs
    rw [loop_eq hspend]
    rcases hround : body b s with ⟨_ | c | a, t⟩
    · rw [bind_none hround]
      refine ⟨fun a u he => by simp at he, fun u he => ?_⟩
      exact (Prod.mk.inj he).2 ▸ stopped t hround
    · rw [bind_some hround]
      exact ih (fuel t) (hn ▸ hspend b s c t hround) c t (done _ t hround) rfl
    · rw [bind_some hround]
      exact Triple.pure a (fun _ h => h) t (done _ t hround)

theorem Moves.loop {S : σ → σ → Prop} [IsPreorder σ S] {fuel : σ → Nat}
    (hbody : ∀ b, Moves S (body b)) (b : β) : Moves S (Attempt.loop fuel body b) := by
  have hrounds (n : Nat) : ∀ b, Moves S (Attempt.rounds body n b) := by
    induction n with
    | zero => exact fun _ => .stop
    | succ n ih =>
      intro b
      refine (hbody b).bind fun r => ?_
      cases r with
      | inl c => exact ih c
      | inr a => exact .pure a
  exact fun s => hrounds _ b s

end Rules

/-! ## Loops without a state of their own -/

/-- Again and again, until there is a result. -/
def repeatUntil (fuel : σ → Nat) (body : Attempt σ (Option α)) : Attempt σ α :=
  loop fuel (fun _ : Unit => body >>= fun r => pure (r.elim (.inl ()) .inr)) ()

/-- `while (test);` -/
def spinWhile (fuel : σ → Nat) (test : Attempt σ Bool) : Attempt σ Unit :=
  repeatUntil fuel (test >>= fun again => pure (if again then none else some ()))

section Repeat
variable {P R : σ → Prop} {Q : α → σ → Prop} {fuel : σ → Nat}

theorem Triple.repeatUntil {body : Attempt σ (Option α)} (hstop : ∀ s, P s → R s)
    (hbody : Triple P body (fun r s => r.elim (P s) fun a => Q a s) R) :
    Triple P (Attempt.repeatUntil fuel body) Q R := by
  refine Triple.loop (P := fun _ => P) (fun _ => hstop) (fun _ => hbody.bind fun r => ?_) ()
  exact .pure _ fun s hs => by cases r <;> exact hs

theorem Triple.spinWhile {Q : σ → Prop} {test : Attempt σ Bool} (hstop : ∀ s, P s → R s)
    (htest : Triple P test (fun again s => if again then P s else Q s) R) :
    Triple P (Attempt.spinWhile fuel test) (fun _ => Q) R := by
  refine Triple.repeatUntil hstop (htest.bind fun again => ?_)
  exact .pure _ fun s hs => by cases again <;> exact hs

theorem Triple.repeatUntil_of_spends {body : Attempt σ (Option α)} (hspend : Spends fuel body)
    (hbody : Triple P body (fun r s => r.elim (P s) fun a => Q a s) R) :
    Triple P (Attempt.repeatUntil fuel body) Q R := by
  refine Triple.loop_of_consumes (P := fun _ => P) (fun _ s _ t h => ?_)
    (fun _ => hbody.bind fun r => ?_) ()
  · exact hspend.bind (fun _ _ => le_rfl) s _ t h
  · exact .pure _ fun s hs => by cases r <;> exact hs

theorem Triple.spinWhile_of_spends {Q : σ → Prop} {test : Attempt σ Bool}
    (hspend : Spends fuel test)
    (htest : Triple P test (fun again s => if again then P s else Q s) R) :
    Triple P (Attempt.spinWhile fuel test) (fun _ => Q) R := by
  refine Triple.repeatUntil_of_spends (hspend.bind fun _ _ => le_rfl) (htest.bind fun again => ?_)
  exact .pure _ fun s hs => by cases again <;> exact hs

variable {S : σ → σ → Prop} [IsPreorder σ S]

theorem Moves.repeatUntil {body : Attempt σ (Option α)} (hbody : Moves S body) :
    Moves S (Attempt.repeatUntil fuel body) :=
  Moves.loop (fun _ => hbody.bind fun _ => .pure _) ()

theorem Moves.spinWhile {test : Attempt σ Bool} (htest : Moves S test) :
    Moves S (Attempt.spinWhile fuel test) :=
  Moves.repeatUntil (htest.bind fun _ => .pure _)

end Repeat

end SmartBell.Common.Attempt
