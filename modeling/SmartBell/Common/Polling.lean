import Mathlib.Tactic

/-!
# Polling at bounded distances

Some events of a run are polls, made at known times, with at most `D` between one and the
next. Then the first poll at or after a deadline comes less than `D` after it.
-/
namespace SmartBell.Common

section Polling
variable {ε : Type} (pollTime : ε → Option Nat) (D : Nat)

/-- In a run whose events come in the order of their times, a later one has no earlier time. -/
theorem time_le_of_pairwise {time : ε → Option Nat} {es pre post : List ε} {e f : ε} {s t : Nat}
    (h : (es.filterMap time).Pairwise (· ≤ ·)) (hsplit : es = pre ++ post) (he : e ∈ pre)
    (hs : time e = some s) (hf : f ∈ post) (ht : time f = some t) : s ≤ t := by
  rw [hsplit, List.filterMap_append] at h
  exact (List.pairwise_append.mp h).2.2 s (List.mem_filterMap.mpr ⟨e, he, hs⟩) t
    (List.mem_filterMap.mpr ⟨f, hf, ht⟩)

/-- The next poll comes no earlier, and at most `D` later. -/
def Within (s t : Nat) : Prop := s ≤ t ∧ t ≤ s + D

/-- The polls of a run keep their distance. -/
def Paced (es : List ε) : Prop := (es.filterMap pollTime).IsChain (Within D)

/-- The polls of a run keep their distance, from an earlier poll at `u` on. -/
def PacedFrom (u : Nat) (es : List ε) : Prop := (u :: es.filterMap pollTime).IsChain (Within D)

variable {pollTime D}

/-- A run that is paced is so from each of its polls. -/
theorem Paced.from {es pre post : List ε} {e : ε} {t : Nat} (h : Paced pollTime D es)
    (hsplit : es = pre ++ e :: post) (hpoll : pollTime e = some t) :
    PacedFrom pollTime D t post := by
  rw [Paced, hsplit, List.filterMap_append, List.filterMap_cons, hpoll] at h
  exact (List.isChain_append.mp h).2.1

theorem PacedFrom.paced {u : Nat} {es : List ε} (h : PacedFrom pollTime D u es) :
    Paced pollTime D es := List.IsChain.tail h

theorem PacedFrom.skip {u : Nat} {e : ε} {es : List ε} (h : PacedFrom pollTime D u (e :: es))
    (hpoll : pollTime e = none) : PacedFrom pollTime D u es := by
  rwa [PacedFrom, List.filterMap_cons, hpoll] at h

theorem PacedFrom.next {u t : Nat} {e : ε} {es : List ε} (h : PacedFrom pollTime D u (e :: es))
    (hpoll : pollTime e = some t) : u ≤ t ∧ t ≤ u + D ∧ PacedFrom pollTime D t es := by
  rw [PacedFrom, List.filterMap_cons, hpoll, List.isChain_cons_cons] at h
  exact ⟨h.1.1, h.1.2, h.2⟩

/-- A run that is paced is so behind any part of it, from the last poll of that part on or, if it
has none, from the earlier one. -/
theorem PacedFrom.after {u : Nat} {pre post : List ε} (h : PacedFrom pollTime D u (pre ++ post)) :
    ∃ v, (v = u ∨ ∃ e ∈ pre, pollTime e = some v) ∧ PacedFrom pollTime D v post := by
  induction pre generalizing u with
  | nil => exact ⟨u, .inl rfl, h⟩
  | cons e pre ih =>
    cases hpoll : pollTime e with
    | none =>
      obtain ⟨v, hv, hpaced⟩ := ih (h.skip hpoll)
      exact ⟨v, hv.imp id fun ⟨f, hf, hs⟩ => ⟨f, List.mem_cons_of_mem e hf, hs⟩, hpaced⟩
    | some t =>
      obtain ⟨v, hv, hpaced⟩ := ih (h.next hpoll).2.2
      refine ⟨v, .inr ?_, hpaced⟩
      rcases hv with rfl | ⟨f, hf, hs⟩
      · exact ⟨e, List.mem_cons_self, hpoll⟩
      · exact ⟨f, List.mem_cons_of_mem e hf, hs⟩

/-- The polls before `deadline` all come at or after `u`, and the poll `e` at `t` ends them. -/
structure FirstAfter (pollTime : ε → Option Nat) (u deadline : Nat) (before : List ε) (e : ε)
    (t : Nat) : Prop where
  poll : pollTime e = some t
  reached : deadline ≤ t
  earlier : ∀ f ∈ before, ∀ s, pollTime f = some s → u ≤ s ∧ s < deadline

/-- The first poll at or after a deadline, if there is one at all, is not late. -/
theorem PacedFrom.first_after {u : Nat} {es : List ε} (h : PacedFrom pollTime D u es)
    (deadline : Nat) (hu : u < deadline)
    (hlate : ∃ e ∈ es, ∃ t, pollTime e = some t ∧ deadline ≤ t) :
    ∃ before e after t, es = before ++ e :: after ∧
      FirstAfter pollTime u deadline before e t ∧ t < deadline + D := by
  induction es generalizing u with
  | nil => simp at hlate
  | cons e es ih =>
    cases hpoll : pollTime e with
    | none =>
      have hlater : ∃ e ∈ es, ∃ t, pollTime e = some t ∧ deadline ≤ t := by
        obtain ⟨f, hf, t, ht, hreach⟩ := hlate
        rcases List.mem_cons.mp hf with rfl | hmem
        · rw [hpoll] at ht
          cases ht
        · exact ⟨f, hmem, t, ht, hreach⟩
      obtain ⟨before, f, after, t, rfl, hfirst, hclose⟩ := ih (h.skip hpoll) hu hlater
      refine ⟨e :: before, f, after, t, rfl, ⟨hfirst.poll, hfirst.reached, ?_⟩, hclose⟩
      intro g hg s hs
      rcases List.mem_cons.mp hg with rfl | hmem
      · rw [hpoll] at hs
        cases hs
      · exact hfirst.earlier g hmem s hs
    | some t =>
      obtain ⟨hle, hclose, hrest⟩ := h.next hpoll
      by_cases hreach : deadline ≤ t
      · exact ⟨[], e, es, t, rfl, ⟨hpoll, hreach, by simp⟩, by omega⟩
      · have hlater : ∃ e ∈ es, ∃ t, pollTime e = some t ∧ deadline ≤ t := by
          obtain ⟨f, hf, s, hs, hreach'⟩ := hlate
          rcases List.mem_cons.mp hf with rfl | hmem
          · rw [hpoll] at hs
            cases hs
            exact absurd hreach' hreach
          · exact ⟨f, hmem, s, hs, hreach'⟩
        obtain ⟨before, f, after, t', rfl, hfirst, hclose'⟩ := ih hrest (by omega) hlater
        refine ⟨e :: before, f, after, t', rfl, ⟨hfirst.poll, hfirst.reached, ?_⟩, hclose'⟩
        intro g hg s hs
        rcases List.mem_cons.mp hg with rfl | hmem
        · rw [hpoll] at hs
          cases hs
          exact ⟨hle, by omega⟩
        · obtain ⟨hlow, hhigh⟩ := hfirst.earlier g hmem s hs
          exact ⟨by omega, hhigh⟩

/-- A poll later than the first one after the deadline is among the events behind it. -/
theorem FirstAfter.later {u deadline late t : Nat} {before after : List ε} {e : ε}
    (h : FirstAfter pollTime u deadline before e t) (hlate : t < late)
    (hpoll : ∃ f ∈ before ++ e :: after, ∃ s, pollTime f = some s ∧ late ≤ s) :
    ∃ f ∈ after, ∃ s, pollTime f = some s ∧ late ≤ s := by
  obtain ⟨f, hf, s, hs, hreach⟩ := hpoll
  rcases List.mem_append.mp hf with hbefore | hf
  · have hearly := (h.earlier f hbefore s hs).2
    have hdeadline := h.reached
    omega
  · rcases List.mem_cons.mp hf with rfl | hafter
    · rw [h.poll] at hs
      obtain rfl := Option.some.inj hs
      omega
    · exact ⟨f, hafter, s, hs, hreach⟩

end Polling
end SmartBell.Common
