import Mathlib.Tactic

/-!
# Arrays filled from their start

A message is put together in an array of fixed size, one cell after the other, and nothing
compares the position with the size. Every write goes on record, and one outside of the
array changes no cell. `Inside` says that there was none, `Holds` what is then there.
-/
namespace SmartBell.Common

/-- An array, the position of the next write, and the positions written to, the latest first. -/
structure WriteBuffer (α : Type) (n : Nat) where
  cells : Vector α n
  pos : Nat
  writes : List Nat

namespace WriteBuffer
variable {α : Type} {n : Nat}

/-- Start at the first cell of an array. -/
def start (cells : Vector α n) : WriteBuffer α n := ⟨cells, 0, []⟩

/-- `buffer[pos++] = a`. -/
def put (b : WriteBuffer α n) (a : α) : WriteBuffer α n where
  cells := b.cells.setIfInBounds b.pos a
  pos := b.pos + 1
  writes := b.pos :: b.writes

/-- `memcpy` to the position, which moves behind the copy. -/
def putAll (b : WriteBuffer α n) (as : List α) : WriteBuffer α n := as.foldl put b

/-- Go on writing at `pos`, as a position does that is a machine word and wraps. -/
def moveTo (b : WriteBuffer α n) (pos : Nat) : WriteBuffer α n := { b with pos }

/-- The cells in front of the position. -/
def written (b : WriteBuffer α n) : List α := b.cells.toList.take b.pos

/-- All writes were inside of the array. -/
def Inside (b : WriteBuffer α n) : Prop := ∀ i ∈ b.writes, i < n

/-- All writes were inside of the array, and `as` is what they left there. -/
structure Holds (b : WriteBuffer α n) (as : List α) : Prop where
  pos : b.pos = as.length
  writes : ∀ i ∈ b.writes, i < n
  written : b.written = as

variable {b : WriteBuffer α n} {as : List α}

@[simp] theorem start_pos (cells : Vector α n) : (start cells).pos = 0 := rfl
@[simp] theorem put_pos (a : α) : (b.put a).pos = b.pos + 1 := rfl
@[simp] theorem moveTo_pos (pos : Nat) : (b.moveTo pos).pos = pos := rfl

@[simp] theorem putAll_pos (as : List α) : (b.putAll as).pos = b.pos + as.length := by
  induction as generalizing b with
  | nil => rfl
  | cons a as ih =>
    have hrest := ih (b := b.put a)
    rw [put_pos] at hrest
    simp only [putAll, List.foldl_cons, List.length_cons] at hrest ⊢
    omega

@[simp] theorem inside_start (cells : Vector α n) : (start cells).Inside := by
  simp [start, Inside]

@[simp] theorem inside_moveTo (pos : Nat) : (b.moveTo pos).Inside ↔ b.Inside := Iff.rfl

@[simp] theorem inside_put (a : α) : (b.put a).Inside ↔ b.Inside ∧ b.pos < n := by
  simp [put, Inside, and_comm]

/-- A copy stays inside if it does at its end. -/
@[simp] theorem inside_putAll (as : List α) :
    (b.putAll as).Inside ↔ b.Inside ∧ (as = [] ∨ b.pos + as.length ≤ n) := by
  induction as generalizing b with
  | nil => simp [putAll]
  | cons a as ih =>
    have hrest := ih (b := b.put a)
    rw [inside_put, put_pos] at hrest
    simp only [putAll, List.foldl_cons, List.length_cons] at hrest ⊢
    rw [hrest, and_assoc]
    refine and_congr_right fun _ => ?_
    cases as with
    | nil => simp
    | cons a' as =>
      simp
      omega

theorem Holds.start (cells : Vector α n) : (start cells).Holds [] :=
  ⟨rfl, by simp [WriteBuffer.start], by simp [WriteBuffer.start, WriteBuffer.written]⟩

theorem Holds.put (h : b.Holds as) (a : α) (hroom : as.length < n) :
    (b.put a).Holds (as ++ [a]) := by
  have hpos : b.pos < n := h.pos ▸ hroom
  have hwritten := h.written
  refine ⟨by simp [WriteBuffer.put, h.pos], ?_, ?_⟩
  · intro i hi
    rcases List.mem_cons.mp hi with rfl | hearlier
    · exact hpos
    · exact h.writes i hearlier
  · simp only [WriteBuffer.written] at hwritten
    simp [WriteBuffer.written, WriteBuffer.put, List.take_add_one, hpos, List.take_set_of_le,
      hwritten]

theorem Holds.putAll (h : b.Holds as) (bs : List α) (hroom : as.length + bs.length ≤ n) :
    (b.putAll bs).Holds (as ++ bs) := by
  induction bs generalizing b as with
  | nil => simpa [WriteBuffer.putAll] using h
  | cons a bs ih =>
    simp only [List.length_cons] at hroom
    have hfirst := h.put a (by omega)
    have hrest := ih hfirst (by simp; omega)
    rwa [List.append_assoc, List.singleton_append] at hrest

theorem Holds.inside (h : b.Holds as) : b.Inside := h.writes

theorem Holds.length_le (h : b.Holds as) : as.length ≤ n := by
  rw [← h.written, WriteBuffer.written, List.length_take, Vector.length_toList]
  exact Nat.min_le_right _ _

end WriteBuffer
end SmartBell.Common
