import SmartBell.Common.Runs

/-!
# Computations that may stop early

An `Attempt σ α` runs on a state `σ` and either finishes with a result or stops
before it has one. The state reached is kept in both cases, so a property of a
run that was cut short can be stated and proved like one of a complete run.

`Triple` is the partial-correctness judgement with one postcondition for each way
of ending, and `Moves` relates the state in the end to the one at the start. The rules
follow the program text from the outside in. `Performs` takes a computation apart into a
run over its parts, so that the states between them can be spoken of.
-/
namespace SmartBell.Common

/-- A stateful computation that ends with a result or stops without one. -/
def Attempt (σ α : Type) := σ → Option α × σ

namespace Attempt
variable {σ τ α β : Type}

instance : Monad (Attempt σ) where
  pure a s := (some a, s)
  bind x f s := match x s with
    | (some a, t) => f a t
    | (none, t) => (none, t)

/-- Stop here, in the present state. -/
def stop : Attempt σ α := fun s => (none, s)

def read : Attempt σ σ := fun s => (some s, s)

def modify (f : σ → σ) : Attempt σ Unit := fun s => (some (), f s)

/-- Go on only if the test holds. -/
def require (b : Bool) : Attempt σ Unit := if b then pure () else stop

/-- Run a computation on a part of the state. -/
def zoom (get : σ → τ) (put : σ → τ → σ) (x : Attempt τ α) : Attempt σ α := fun s =>
  ((x (get s)).1, put s (x (get s)).2)

@[simp] theorem pure_apply (a : α) (s : σ) : (pure a : Attempt σ α) s = (some a, s) := rfl

theorem bind_apply (x : Attempt σ α) (f : α → Attempt σ β) (s : σ) :
    (x >>= f) s = match x s with
      | (some a, t) => f a t
      | (none, t) => (none, t) := rfl

theorem bind_some {x : Attempt σ α} {f : α → Attempt σ β} {s t : σ} {a : α}
    (h : x s = (some a, t)) : (x >>= f) s = f a t := by
  simp [bind_apply, h]

theorem bind_none {x : Attempt σ α} {f : α → Attempt σ β} {s t : σ}
    (h : x s = (none, t)) : (x >>= f) s = (none, t) := by
  simp [bind_apply, h]

/-- A result that is only rearranged in the end. -/
theorem bind_pure_apply (x : Attempt σ α) (g : α → β) (s : σ) :
    (x >>= fun a => pure (g a)) s = ((x s).1.map g, (x s).2) := by
  rcases hxs : x s with ⟨_ | a, t⟩
  · rw [bind_none hxs]
    rfl
  · rw [bind_some hxs]
    rfl

theorem bind_unit (x : Attempt σ Unit) : (x >>= fun _ => pure ()) = x := by
  funext s
  rw [bind_pure_apply]
  exact Prod.ext (by simp) rfl

theorem ite_apply (b : Prop) [Decidable b] (x y : Attempt σ α) (s : σ) :
    (if b then x else y) s = if b then x s else y s := by
  split <;> rfl

@[simp] theorem stop_apply (s : σ) : (stop : Attempt σ α) s = (none, s) := rfl

@[simp] theorem read_apply (s : σ) : (read : Attempt σ σ) s = (some s, s) := rfl

@[simp] theorem modify_apply (f : σ → σ) (s : σ) : modify f s = (some (), f s) := rfl

@[simp] theorem zoom_apply (get : σ → τ) (put : σ → τ → σ) (x : Attempt τ α) (s : σ) :
    zoom get put x s = ((x (get s)).1, put s (x (get s)).2) := rfl

/-- `x` takes states in `P` to results in `Q`, and stops only in states in `R`. -/
def Triple (P : σ → Prop) (x : Attempt σ α) (Q : α → σ → Prop) (R : σ → Prop) : Prop :=
  ∀ s, P s → (∀ a t, x s = (some a, t) → Q a t) ∧ ∀ t, x s = (none, t) → R t

variable {P P' : σ → Prop} {Q Q' : α → σ → Prop} {R R' : σ → Prop} {x : Attempt σ α}

theorem Triple.pure (a : α) (h : ∀ s, P s → Q a s) : Triple P (Pure.pure a) Q R := by
  intro s hs
  refine ⟨fun b t he => ?_, fun t he => by simp at he⟩
  obtain ⟨rfl, rfl⟩ : a = b ∧ s = t := by simpa using he
  exact h s hs

theorem Triple.bind {f : α → Attempt σ β} {S : β → σ → Prop} (hx : Triple P x Q R)
    (hf : ∀ a, Triple (Q a) (f a) S R) : Triple P (x >>= f) S R := by
  intro s hs
  obtain ⟨done, stopped⟩ := hx s hs
  rcases hxs : x s with ⟨_ | a, t⟩
  · rw [bind_none hxs]
    refine ⟨fun b u he => by simp at he, fun u he => ?_⟩
    exact (Prod.mk.inj he).2 ▸ stopped t hxs
  · rw [bind_some hxs]
    exact hf a t (done a t hxs)

theorem Triple.ite {b : Prop} [Decidable b] {y : Attempt σ α}
    (hx : b → Triple P x Q R) (hy : ¬b → Triple P y Q R) :
    Triple P (if b then x else y) Q R := by
  split <;> rename_i h
  · exact hx h
  · exact hy h

theorem Triple.stop {R : σ → Prop} (h : ∀ s, P s → R s) : Triple P (stop : Attempt σ α) Q R := by
  intro s hs
  refine ⟨fun a t he => by simp at he, fun t he => ?_⟩
  obtain rfl : s = t := by simpa using he
  exact h s hs

theorem Triple.modify {f : σ → σ} {Q : Unit → σ → Prop} (h : ∀ s, P s → Q () (f s)) :
    Triple P (modify f) Q R := by
  intro s hs
  refine ⟨fun a t he => ?_, fun t he => by simp at he⟩
  obtain rfl : f s = t := by simpa using he
  exact h s hs

theorem Triple.read {Q : σ → σ → Prop} (h : ∀ s, P s → Q s s) :
    Triple P Attempt.read Q R := by
  intro s hs
  refine ⟨fun a t he => ?_, fun t he => by simp at he⟩
  obtain ⟨rfl, rfl⟩ : s = a ∧ s = t := by simpa using he
  exact h s hs

theorem Triple.mono (hx : Triple P x Q R) (hP : ∀ s, P' s → P s) (hQ : ∀ a s, Q a s → Q' a s)
    (hR : ∀ s, R s → R' s) : Triple P' x Q' R' := by
  intro s hs
  obtain ⟨done, stopped⟩ := hx s (hP s hs)
  exact ⟨fun a t he => hQ a t (done a t he), fun t he => hR t (stopped t he)⟩

/-- Nothing is claimed of a stop. -/
theorem Triple.forget (hx : Triple P x Q R) : Triple P x Q fun _ => True :=
  hx.mono (fun _ hs => hs) (fun _ _ hs => hs) fun _ _ => True.intro

/-- A fact that is known beforehand. -/
theorem Triple.assume {φ : Prop} (h : φ → Triple P x Q R) : Triple (fun s => P s ∧ φ) x Q R :=
  fun s hs => h hs.2 s hs.1

theorem Triple.exists {ι : Type} {P : ι → σ → Prop} (h : ∀ i, Triple (P i) x Q R) :
    Triple (fun s => ∃ i, P i s) x Q R := fun s ⟨i, hs⟩ => h i s hs

theorem Triple.trivial : Triple P x (fun _ _ => True) fun _ => True :=
  fun _ _ => ⟨fun _ _ _ => True.intro, fun _ _ => True.intro⟩

theorem Triple.and (h : Triple P x Q R) (h' : Triple P' x Q' R') :
    Triple (fun s => P s ∧ P' s) x (fun a s => Q a s ∧ Q' a s) fun s => R s ∧ R' s := by
  intro s hs
  obtain ⟨done, stopped⟩ := h s hs.1
  obtain ⟨done', stopped'⟩ := h' s hs.2
  exact ⟨fun a t he => ⟨done a t he, done' a t he⟩, fun t he => ⟨stopped t he, stopped' t he⟩⟩

/-- Facts that hold where `x` ends, each by itself. -/
theorem Triple.forall {ι : Type} {Q : ι → α → σ → Prop} {R : ι → σ → Prop}
    (h : ∀ i, Triple P x (Q i) (R i)) :
    Triple P x (fun a s => ∀ i, Q i a s) fun s => ∀ i, R i s := fun s hs =>
  ⟨fun a t he i => (h i s hs).1 a t he, fun t he i => (h i s hs).2 t he⟩

/-- What a computation does to its part of the state, beside what holds of the other parts. -/
theorem Triple.zoom {get : σ → τ} {put : σ → τ → σ} (hget : ∀ s t, get (put s t) = t)
    {F : σ → Prop} (hput : ∀ s t, F s → F (put s t)) {P : τ → Prop} {x : Attempt τ α}
    {Q : α → τ → Prop} {R : τ → Prop} (h : Triple P x Q R) :
    Triple (fun s => P (get s) ∧ F s) (Attempt.zoom get put x) (fun a s => Q a (get s) ∧ F s)
      fun s => R (get s) ∧ F s := by
  rintro s ⟨hs, hframe⟩
  obtain ⟨done, stopped⟩ := h (get s) hs
  refine ⟨fun a t he => ?_, fun t he => ?_⟩
  · obtain ⟨ha, rfl⟩ := Prod.mk.inj he
    rw [hget]
    exact ⟨done a _ (Prod.ext ha rfl), hput _ _ hframe⟩
  · obtain ⟨ha, rfl⟩ := Prod.mk.inj he
    rw [hget]
    exact ⟨stopped _ (Prod.ext ha rfl), hput _ _ hframe⟩

/-- Wherever `x` ends, the state has moved along `S`. -/
def Moves (S : σ → σ → Prop) (x : Attempt σ α) : Prop := ∀ s, S s (x s).2

theorem Moves.ite {S : σ → σ → Prop} {b : Prop} [Decidable b] {y : Attempt σ α}
    (hx : b → Moves S x) (hy : ¬b → Moves S y) : Moves S (if b then x else y) := by
  split <;> rename_i h
  · exact hx h
  · exact hy h

/-- What moving along `S` preserves holds wherever `x` ends. -/
theorem Moves.triple {S : σ → σ → Prop} (hx : Moves S x) (h : ∀ s t, P s → S s t → R t) :
    Triple P x (fun _ => R) R := by
  intro s hs
  have hend := h s _ hs (hx s)
  refine ⟨fun a t he => ?_, fun t he => ?_⟩
  · rwa [he] at hend
  · rwa [he] at hend

section Moves
variable {S : σ → σ → Prop} [IsPreorder σ S]

theorem Moves.pure (a : α) : Moves S (Pure.pure a) := fun s => refl_of S s

theorem Moves.stop : Moves S (stop : Attempt σ α) := fun s => refl_of S s

theorem Moves.read : Moves S Attempt.read := fun s => refl_of S s

theorem Moves.bind {f : α → Attempt σ β} (hx : Moves S x) (hf : ∀ a, Moves S (f a)) :
    Moves S (x >>= f) := by
  intro s
  have hfirst := hx s
  rcases hxs : x s with ⟨_ | a, t⟩
  · rw [bind_none hxs]
    rwa [hxs] at hfirst
  · rw [bind_some hxs]
    rw [hxs] at hfirst
    exact trans_of S hfirst (hf a t)

end Moves

/-! ## Parts -/

section Parts
variable {ε : Type} (perform : ε → Attempt σ Unit)

/-- The next part, if the one before it has finished. -/
def next : Option Unit × σ → ε → Option Unit × σ
  | (some _, s), e => perform e s
  | (none, s), _ => (none, s)

/-- `x` is made of these parts, one after the other. -/
def Performs (es : List ε) (x : Attempt σ α) : Prop :=
  ∀ s, ((x s).1.map fun _ => (), (x s).2) = run (next perform) (some (), s) es

/-- The part is reached, in a state that satisfies `C` with it. -/
def Reached (C : σ → ε → Prop) (o : Option Unit × σ) (e : ε) : Prop := o.1.isSome → C o.2 e

variable {perform}

theorem run_next_stopped (s : σ) (es : List ε) : run (next perform) (none, s) es = (none, s) := by
  induction es with
  | nil => rfl
  | cons e es ih => exact ih

theorem Performs.pure (a : α) : Performs perform [] (Pure.pure a) := fun _ => rfl

/-- Looking at the state is no part. -/
theorem Performs.read {es : List ε} {f : σ → Attempt σ β} (h : ∀ s, Performs perform es (f s)) :
    Performs perform es (Attempt.read >>= f) := fun s => h s s

theorem Performs.bind {ds es : List ε} {f : α → Attempt σ β} (hx : Performs perform ds x)
    (hf : ∀ a, Performs perform es (f a)) : Performs perform (ds ++ es) (x >>= f) := by
  intro s
  have hfirst := hx s
  rw [run_append, ← hfirst]
  rcases hxs : x s with ⟨_ | a, t⟩
  · rw [bind_none hxs]
    exact (run_next_stopped t es).symm
  · rw [bind_some hxs]
    exact hf a t

/-- A part whose result, if it has one, the rest may depend on. -/
theorem Performs.cons {e : ε} {es : List ε} {f : α → Attempt σ β}
    (hx : perform e = x >>= fun _ => Pure.pure ()) (hf : ∀ a, Performs perform es (f a)) :
    Performs perform (e :: es) (x >>= f) := by
  have hpart : Performs perform [e] x := by
    intro s
    have hstep : run (next perform) (some (), s) [e] = perform e s := rfl
    rw [hstep, hx, bind_pure_apply]
  exact hpart.bind hf

theorem along_next_of_forall {C : σ → ε → Prop} (h : ∀ s e, C s e) (o : Option Unit × σ)
    (es : List ε) : Along (next perform) (Reached C) o es := by
  induction es generalizing o with
  | nil => trivial
  | cons e es ih => exact ⟨fun _ => h o.2 e, ih _⟩

/-- If a part preserves the invariant exactly under `C`, the invariant holds between all parts
exactly if each that is reached meets `C`. -/
theorem throughout_next_iff {I : σ → Prop} {C : σ → ε → Prop}
    (hstep : ∀ s e, I s → (I (perform e s).2 ↔ C s e)) {s : σ} (hs : I s) (es : List ε) :
    Throughout (next perform) (fun o : Option Unit × σ => I o.2) (some (), s) es ↔
      Along (next perform) (Reached C) (some (), s) es := by
  refine throughout_iff_along (I := fun o : Option Unit × σ => I o.2) (fun o e ho => ?_) hs
  obtain ⟨_ | _, t⟩ := o
  · exact iff_of_true ho fun hreached => absurd hreached Bool.false_ne_true
  · exact (hstep t e ho).trans ⟨fun hc _ => hc, fun hc => hc rfl⟩

/-- What every part that is reached preserves holds between all parts. -/
theorem throughout_next {I : σ → Prop} {C : σ → ε → Prop}
    (hstep : ∀ s e, I s → C s e → I (perform e s).2) {s : σ} (hs : I s) {es : List ε}
    (h : Along (next perform) (Reached C) (some (), s) es) :
    Throughout (next perform) (fun o : Option Unit × σ => I o.2) (some (), s) es := by
  refine throughout_of_along (I := fun o : Option Unit × σ => I o.2) (fun o e ho hc => ?_) hs h
  obtain ⟨_ | _, t⟩ := o
  · exact ho
  · exact hstep t e ho (hc rfl)

/-- Two conditions that come to the same at every part that is reached, by the invariant. -/
theorem along_next_congr {I : σ → Prop} {A C D : σ → ε → Prop}
    (hstep : ∀ s e, I s → A s e → I (perform e s).2)
    (hiff : ∀ s e, I s → A s e → (C s e ↔ D s e)) {s : σ} (hs : I s) {es : List ε}
    (hA : Along (next perform) (Reached A) (some (), s) es) :
    Along (next perform) (Reached C) (some (), s) es ↔
      Along (next perform) (Reached D) (some (), s) es := by
  refine along_congr (fun o e h => ?_) ((throughout_next hstep hs hA).along.and hA)
  exact forall_congr' fun hreached => hiff o.2 e h.1 (h.2 hreached)

end Parts

end Attempt
end SmartBell.Common
