import Mathlib.Tactic

/-!
# Decoders

A decoder takes symbols off the front of its input, or fails. `Decodes` says what one makes
of an encoding, whatever follows it, and composes along the decoder's program;
`complete` asks for an encoding that nothing follows.
-/
namespace SmartBell.Common

abbrev Decoder (σ α : Type) := StateT (List σ) Option α

namespace Decoder
variable {σ α β : Type}

/-- The next symbol. -/
def next : Decoder σ σ
  | [] => none
  | s :: rest => some (s, rest)

/-- The next `n` symbols. -/
def take (n : Nat) : Decoder σ (List σ) := fun input =>
  if n ≤ input.length then some (input.take n, input.drop n) else none

/-- All that is left. -/
def remainder : Decoder σ (List σ) := fun input => some (input, [])

/-- Go on only if the test holds. -/
def check (b : Bool) : Decoder σ Unit := if b then pure () else failure

/-- A field that is there if `present`. -/
def optional (present : Bool) (x : Decoder σ α) : Decoder σ (Option α) :=
  if present then some <$> x else pure none

/-- What the whole input decodes to. -/
def complete (x : Decoder σ α) (input : List σ) : Option α :=
  match x input with
  | some (a, []) => some a
  | _ => none

/-- The next `n` symbols, decoded as a whole. -/
def within (n : Nat) (x : Decoder σ α) : Decoder σ α := do
  let input ← take n
  match complete x input with
  | some a => pure a
  | none => failure

/-- One after the other up to the end of the input, but no more than `n`. -/
def untilEnd (x : Decoder σ α) : Nat → Decoder σ (List α)
  | 0 => pure []
  | n + 1 => do
    let input ← get
    if input.isEmpty then pure []
    else do
      let a ← x
      let as ← untilEnd x n
      pure (a :: as)

theorem bind_apply (x : Decoder σ α) (f : α → Decoder σ β) (input : List σ) :
    (x >>= f) input = (x input).bind fun r => f r.1 r.2 := rfl

/-- `as` is taken off the front of any input for `a`. -/
def Decodes (x : Decoder σ α) (as : List σ) (a : α) : Prop :=
  ∀ rest, x (as ++ rest) = some (a, rest)

section Rules
variable {x : Decoder σ α} {f : α → Decoder σ β} {as bs : List σ} {a : α} {b : β}

theorem Decodes.pure (a : α) : Decodes (Pure.pure a : Decoder σ α) [] a := fun _ => rfl

theorem Decodes.bind (hx : Decodes x as a) (hf : Decodes (f a) bs b) :
    Decodes (x >>= f) (as ++ bs) b := by
  intro rest
  rw [List.append_assoc, bind_apply, hx (bs ++ rest)]
  exact hf rest

/-- A step that takes nothing. -/
theorem Decodes.skip (hx : Decodes x [] a) (hf : Decodes (f a) bs b) : Decodes (x >>= f) bs b :=
  hx.bind hf

theorem Decodes.next {f : σ → Decoder σ β} {s : σ} (hf : Decodes (f s) bs b) :
    Decodes (next >>= f) (s :: bs) b := hf

theorem Decodes.check {f : Unit → Decoder σ β} {p : Bool} (hp : p = true)
    (hf : Decodes (f ()) bs b) : Decodes (check p >>= f) bs b := by
  subst hp
  exact hf

/-- The last field of a record. -/
theorem Decodes.last (hx : Decodes x as a) (g : α → β) :
    Decodes (x >>= fun a => Pure.pure (g a)) as (g a) := by
  intro rest
  rw [bind_apply, hx rest]
  rfl

theorem Decodes.take (as : List σ) : Decodes (take as.length) as as := by
  intro rest
  simp [Decoder.take]

theorem Decodes.present (hx : Decodes x as a) : Decodes (optional true x) as (some a) := by
  simp only [Decoder.optional, if_true, ← bind_pure_comp]
  exact hx.last some

theorem Decodes.absent (x : Decoder σ α) : Decodes (optional false x) [] none := fun _ => rfl

theorem Decodes.optional {present : Bool} (hx : present = true → Decodes x as a) :
    Decodes (optional present x) (if present then as else [])
      (if present then some a else none) := by
  cases present
  · exact .absent x
  · exact .present (hx rfl)

theorem Decodes.complete (hx : Decodes x as a) : complete x as = some a := by
  have hall := hx []
  rw [List.append_nil] at hall
  simp [Decoder.complete, hall]

theorem Decodes.within (hx : Decoder.complete x as = some a) :
    Decodes (within as.length x) as a := by
  intro rest
  rw [Decoder.within, bind_apply, Decodes.take as rest]
  simp only [Option.bind_some, hx]
  rfl

/-- A whole input is decoded part after part. -/
theorem Decodes.thenComplete (hx : Decodes x as a) (hf : Decoder.complete (f a) bs = some b) :
    Decoder.complete (x >>= f) (as ++ bs) = some b := by
  rw [Decoder.complete, bind_apply, hx bs]
  exact hf

theorem complete_check {f : Unit → Decoder σ β} {p : Bool} (hp : p = true)
    (hf : Decoder.complete (f ()) bs = some b) : Decoder.complete (check p >>= f) bs = some b := by
  subst hp
  exact hf

/-- Items that are not empty are found one after the other up to the end. -/
theorem untilEnd_encodings (encode : α → List σ) {items : List α} {n : Nat}
    (hitem : ∀ a ∈ items, Decodes x (encode a) a ∧ encode a ≠ []) (hn : items.length ≤ n) :
    untilEnd x n (items.flatMap encode) = some (items, []) := by
  induction items generalizing n with
  | nil => cases n <;> rfl
  | cons a items ih =>
    obtain ⟨n, rfl⟩ : ∃ k, n = k + 1 := ⟨n - 1, by simp at hn; omega⟩
    obtain ⟨hdecodes, hne⟩ := hitem a List.mem_cons_self
    have hrest := ih (fun a ha => hitem a (List.mem_cons_of_mem _ ha)) (Nat.le_of_succ_le_succ hn)
    have hinput : (encode a ++ items.flatMap encode).isEmpty = false := by simp [hne]
    rw [List.flatMap_cons, untilEnd, bind_apply]
    simp only [get, getThe, MonadStateOf.get, StateT.get, Option.pure_def, Option.bind_some, hinput,
      Bool.false_eq_true, if_false]
    rw [bind_apply, hdecodes, Option.bind_some, bind_apply, hrest]
    rfl

end Rules
end Decoder
end SmartBell.Common
