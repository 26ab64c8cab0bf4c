import Mathlib.Tactic

/-!
# Queues in a circular array

A queue is kept in consecutive cells of an array, from some cell on and around its end.
`Holds` says which elements are there; an element is put behind the last one and taken from
the front, and any other cell may change without the queue taking notice.
-/
namespace SmartBell.Common

variable {α : Type} {n : Nat}

/-- The cells from `front` on, around the end of the array, hold these elements. -/
structure Ring.Holds (cells : Vector α n) (front : Nat) (xs : List α) : Prop where
  fits : xs.length ≤ n
  at_front : ∀ (i : Nat) (h : i < xs.length), cells[(front + i) % n]? = some xs[i]

namespace Ring

/-- Places less than a turn apart are different cells. -/
theorem mod_ne_of_lt {front i j : Nat} (hij : i < j) (hj : j < i + n) :
    (front + i) % n ≠ (front + j) % n := by
  intro heq
  have hdvd : n ∣ front + j - (front + i) :=
    Nat.dvd_of_mod_eq_zero (Nat.sub_mod_eq_zero_of_mod_eq heq.symm)
  have hle := Nat.le_of_dvd (by omega) hdvd
  omega

namespace Holds
variable {cells : Vector α n} {front : Nat} {x : α} {xs : List α}

theorem nil (cells : Vector α n) (front : Nat) : Holds cells front [] :=
  ⟨Nat.zero_le n, by simp⟩

/-- A cell behind the queue may change. -/
theorem set (h : Holds cells front xs) {k : Nat} (hlow : xs.length ≤ k) (hhigh : k < n) (y : α) :
    Holds (cells.setIfInBounds ((front + k) % n) y) front xs := by
  refine ⟨h.fits, fun i hi => ?_⟩
  have hne : (front + i) % n ≠ (front + k) % n := mod_ne_of_lt (by omega) (by omega)
  rw [Vector.getElem?_setIfInBounds_ne hne.symm]
  exact h.at_front i hi

/-- The cell behind the queue takes the next element. -/
theorem push (h : Holds cells front xs) (hroom : xs.length < n) (y : α) :
    Holds (cells.setIfInBounds ((front + xs.length) % n) y) front (xs ++ [y]) := by
  have hkept := h.set le_rfl hroom y
  refine ⟨by simp; omega, fun i hi => ?_⟩
  rcases Nat.lt_or_ge i xs.length with hold | hnew
  · rw [List.getElem_append_left hold]
    exact hkept.at_front i hold
  · obtain rfl : i = xs.length := by
      simp at hi
      omega
    have hcell : (front + xs.length) % n < n := Nat.mod_lt _ (by omega)
    simp [hcell]

/-- The first cell has the first element. -/
theorem first (h : Holds cells front (x :: xs)) : cells[front % n]? = some x :=
  h.at_front 0 (by simp)

theorem first_at_front [Inhabited α] (h : Holds cells front (x :: xs)) (hfront : front < n) :
    cells[front]! = x := by
  have hcell := h.first
  rw [Nat.mod_eq_of_lt hfront] at hcell
  simp [getElem!_def, hcell]

/-- The queue without its first element starts a cell further on. -/
theorem pop (h : Holds cells front (x :: xs)) : Holds cells ((front + 1) % n) xs := by
  refine ⟨(Nat.le_succ _).trans h.fits, fun i hi => ?_⟩
  have hcell := h.at_front (i + 1) (by simpa using hi)
  rw [Nat.mod_add_mod, Nat.add_assoc, Nat.add_comm 1 i]
  simpa using hcell

/-- Without its first elements the queue starts further on. -/
theorem drop (h : Holds cells front xs) (k : Nat) : Holds cells (front + k) (xs.drop k) := by
  refine ⟨?_, fun i hi => ?_⟩
  · have hfits := h.fits
    simp only [List.length_drop]
    omega
  · have hcell := h.at_front (k + i) (by simp at hi; omega)
    simpa [Nat.add_assoc] using hcell

theorem take (h : Holds cells front xs) (k : Nat) : Holds cells front (xs.take k) := by
  refine ⟨(List.length_take_le' k xs).trans h.fits, fun i hi => ?_⟩
  rw [List.getElem_take]
  exact h.at_front i _

end Holds

/-! ## Memories -/

/-- The cells of a memory that is addressed modulo `n`. -/
def window (mem : Nat → α) (n : Nat) : Vector α n := Vector.ofFn fun i => mem i

@[simp] theorem window_update (mem : Nat → α) (i : Nat) (y : α) :
    window (Function.update mem i y) n = (window mem n).setIfInBounds i y := by
  ext j hj
  by_cases h : j = i
  · subst h
    simp [window]
  · simp [window, Function.update_apply, h, Ne.symm h]

/-- What a queue in the memory has at a place. -/
theorem Holds.get {mem : Nat → α} {front i : Nat} {xs : List α}
    (h : Holds (window mem n) front xs) (hi : i < xs.length) : mem ((front + i) % n) = xs[i] := by
  have hfits := h.fits
  have hlt : (front + i) % n < n := Nat.mod_lt _ (by omega)
  have hcell := h.at_front i hi
  simpa [window, hlt] using hcell

/-- A queue is read off the cells that it is in. -/
theorem Holds.eq_map {mem : Nat → α} {front : Nat} {xs : List α}
    (h : Holds (window mem n) front xs) :
    xs = (List.range xs.length).map fun i => mem ((front + i) % n) :=
  List.ext_getElem (by simp) fun i hi _ => by simp [h.get hi]

end Ring
end SmartBell.Common
