import SmartBell.Common.Ring
import SmartBell.Common.Runs

/-!
# `CircularBuffer<N>`

A queue of bytes with its first cell, its first free cell and its length as three variables of
their own. On the target `size_t` and `int` have 16 bits; the length wraps there, and a sum of
indices past the largest `int` would be undefined.
-/
namespace SmartBell.Utils
open Common

structure CircularBuffer (N : Nat) where
  values : Vector UInt8 N
  head : Nat
  tail : Nat
  numEntries : Nat
  deriving DecidableEq

namespace CircularBuffer
variable {N : Nat}

/-- The constructor. -/
def start : CircularBuffer N := ⟨Vector.replicate N 0, 0, 0, 0⟩

def circBufferEmpty (b : CircularBuffer N) : Bool := b.numEntries == 0

def circBufferFull (b : CircularBuffer N) : Bool := b.numEntries == N

def pushBack (data : UInt8) (b : CircularBuffer N) : Bool × CircularBuffer N :=
  if b.circBufferFull then (false, b)
  else
    (true,
      { b with
        values := b.values.setIfInBounds b.tail data
        numEntries := (b.numEntries + 1) % 65536
        tail := (b.tail + 1) % N })

/-- `pop_front`: the result, and what `data` points to afterwards. A null pointer points to
nothing. -/
def popFront (data : Option UInt8) (b : CircularBuffer N) :
    Bool × Option UInt8 × CircularBuffer N :=
  if data = none ∨ b.circBufferEmpty then (false, data, b)
  else
    (true, b.values[b.head]?,
      { b with
        head := (b.head + 1) % N
        numEntries := (b.numEntries + 65535) % 65536 })

def usedEntries (b : CircularBuffer N) : Nat := b.numEntries

def clear (b : CircularBuffer N) : CircularBuffer N :=
  { b with head := 0, tail := 0, numEntries := 0 }

/-! ## Calls -/

inductive Call where
  | pushBack (data : UInt8)
  | popFront (data : Option UInt8)
  | usedEntries
  | clear
  deriving DecidableEq, Repr

/-- What a call gives back to its caller. -/
inductive Reply where
  | pushed (ok : Bool)
  | popped (ok : Bool) (data : Option UInt8)
  | used (n : Nat)
  | cleared
  deriving DecidableEq, Repr

def Call.perform (b : CircularBuffer N) : Call → Reply × CircularBuffer N
  | .pushBack data => ((.pushed (b.pushBack data).1), (b.pushBack data).2)
  | .popFront data => (.popped (b.popFront data).1 (b.popFront data).2.1, (b.popFront data).2.2)
  | .usedEntries => (.used b.usedEntries, b)
  | .clear => (.cleared, b.clear)

/-- The same calls on a list that holds at most `N` elements, the oldest first. -/
def Call.performOnFifo (N : Nat) (q : List UInt8) : Call → Reply × List UInt8
  | .pushBack data => if q.length = N then (.pushed false, q) else (.pushed true, q ++ [data])
  | .popFront none => (.popped false none, q)
  | .popFront (some data) =>
    match q with
    | [] => (.popped false (some data), [])
    | first :: rest => (.popped true (some first), rest)
  | .usedEntries => (.used q.length, q)
  | .clear => (.cleared, [])

/-- The replies to a sequence of calls. -/
def replies (b : CircularBuffer N) (calls : List Call) : List Reply :=
  outputs (fun b c => (c.perform b).2) (fun b c => [(c.perform b).1]) b calls

def fifoReplies (N : Nat) (q : List UInt8) (calls : List Call) : List Reply :=
  outputs (fun q c => (c.performOnFifo N q).2) (fun q c => [(c.performOnFifo N q).1]) q calls

/-! ## What the buffer holds -/

/-- The buffer holds this queue, and its three variables agree on it. -/
structure Represents (b : CircularBuffer N) (q : List UInt8) : Prop where
  head : b.head < N
  tail : b.tail = (b.head + q.length) % N
  numEntries : b.numEntries = q.length
  cells : Ring.Holds b.values b.head q

/-- The buffer holds this queue, and its length counts so many elements more: what `pop_front` has
passed and not yet subtracted. -/
structure Counts (b : CircularBuffer N) (extra : Nat) (q : List UInt8) : Prop where
  head : b.head < N
  tail : b.tail = (b.head + q.length) % N
  numEntries : b.numEntries = extra + q.length
  fits : extra + q.length ≤ N
  cells : Ring.Holds b.values b.head q

section Counts
variable {b : CircularBuffer N} {extra entries : Nat} {x : UInt8} {q : List UInt8}

theorem Counts.full_iff (h : b.Counts extra q) :
    b.circBufferFull = true ↔ extra + q.length = N := by
  rw [circBufferFull, h.numEntries, beq_iff_eq]

/-- `push_back` refuses an element exactly if the buffer counts as full, and otherwise appends
it. -/
theorem Counts.pushBack (h : b.Counts extra q) (hN : N ≤ 32767) (data : UInt8) :
    b.pushBack data = (false, b) ∧ extra + q.length = N ∨
      (b.pushBack data).1 = true ∧ extra + q.length < N ∧
        (b.pushBack data).2.Counts extra (q ++ [data]) := by
  have hfits := h.fits
  by_cases hfull : extra + q.length = N
  · exact .inl ⟨if_pos (h.full_iff.mpr hfull), hfull⟩
  · have hroom : extra + q.length < N := lt_of_le_of_ne hfits hfull
    have hgo : ¬b.circBufferFull = true := fun hf => hfull (h.full_iff.mp hf)
    refine .inr ?_
    rw [CircularBuffer.pushBack, if_neg hgo]
    refine ⟨rfl, hroom, h.head, ?_, ?_, ?_, ?_⟩
    · simp only [h.tail, List.length_append, List.length_singleton]
      rw [Nat.mod_add_mod, Nat.add_assoc]
    · simp only [h.numEntries, List.length_append, List.length_singleton]
      omega
    · simp only [List.length_append, List.length_singleton]
      omega
    · simp only [h.tail]
      exact h.cells.push (by omega) data

theorem Counts.first (h : b.Counts extra (x :: q)) : b.values[b.head]! = x :=
  h.cells.first_at_front h.head

/-- Updating `head_` passes the first element. -/
theorem Counts.advance (h : b.Counts extra (x :: q)) :
    Counts { b with head := (b.head + 1) % N } (extra + 1) q := by
  have htail : b.tail = ((b.head + 1) % N + q.length) % N := by
    rw [h.tail, List.length_cons, Nat.mod_add_mod, Nat.add_assoc, Nat.add_comm 1]
  have hlength : extra + (x :: q).length = extra + 1 + q.length := by
    rw [List.length_cons, Nat.add_assoc, Nat.add_comm 1]
  exact ⟨Nat.mod_lt _ (Nat.zero_lt_of_lt h.head), htail, h.numEntries.trans hlength,
    hlength.symm.trans_le h.fits, h.cells.pop⟩

/-- Storing the length less one stops counting an element, if it is the present length. -/
theorem Counts.store (h : b.Counts (extra + 1) q) (hN : N ≤ 32767)
    (hcurrent : b.numEntries = entries) :
    Counts { b with numEntries := (entries + 65535) % 65536 } extra q := by
  have hentries := h.numEntries
  have hfits := h.fits
  have hstored : (entries + 65535) % 65536 = extra + q.length := by omega
  exact ⟨h.head, h.tail, hstored, by omega, h.cells⟩

end Counts

section Represents
variable {b : CircularBuffer N} {q : List UInt8}

theorem Represents.start (hN : 1 ≤ N) : (start : CircularBuffer N).Represents [] where
  head := hN
  tail := rfl
  numEntries := rfl
  cells := .nil _ _

theorem Represents.tail_lt (h : b.Represents q) : b.tail < N := by
  rw [h.tail]
  exact Nat.mod_lt _ (Nat.zero_lt_of_lt h.head)

theorem represents_iff_counts : b.Represents q ↔ b.Counts 0 q := by
  constructor
  · intro h
    exact ⟨h.head, h.tail, h.numEntries.trans (Nat.zero_add _).symm,
      (Nat.zero_add _).trans_le h.cells.fits, h.cells⟩
  · intro h
    exact ⟨h.head, h.tail, h.numEntries.trans (Nat.zero_add _), h.cells⟩

theorem Represents.empty_iff (h : b.Represents q) : b.circBufferEmpty = true ↔ q = [] := by
  rw [circBufferEmpty, h.numEntries, beq_iff_eq, List.length_eq_zero_iff]

/-- `push_back` refuses an element exactly if the buffer is full, and otherwise appends it. -/
theorem Represents.pushBack (h : b.Represents q) (hN : N ≤ 32767) (data : UInt8) :
    b.pushBack data = (false, b) ∧ q.length = N ∨
      (b.pushBack data).1 = true ∧ q.length < N ∧ (b.pushBack data).2.Represents (q ++ [data]) := by
  have hpush := (represents_iff_counts.mp h).pushBack hN data
  rwa [Nat.zero_add, ← represents_iff_counts] at hpush

/-- `pop_front` with a place to store to takes the first element. -/
theorem Represents.popFront {x : UInt8} (h : b.Represents (x :: q)) (hN : N ≤ 32767)
    (data : UInt8) :
    ∃ b', b.popFront (some data) = (true, some x, b') ∧ b'.Represents q := by
  have hgo : ¬(some data = none ∨ b.circBufferEmpty = true) := by
    simp [h.empty_iff]
  have hfirst : b.values[b.head]? = some x := by
    rw [← h.cells.first, Nat.mod_eq_of_lt h.head]
  rw [CircularBuffer.popFront, if_neg hgo, hfirst]
  refine ⟨_, rfl, ?_⟩
  exact represents_iff_counts.mpr ((represents_iff_counts.mp h).advance.store hN rfl)

/-- Elements are appended one after the other until the buffer is full; the others are lost. -/
theorem Represents.pushAll (h : b.Represents q) (hN : N ≤ 32767) (data : List UInt8) :
    (data.foldl (fun b x => (b.pushBack x).2) b).Represents ((q ++ data).take N) := by
  induction data generalizing b q with
  | nil =>
    rw [List.append_nil, List.take_of_length_le h.cells.fits]
    exact h
  | cons x data ih =>
    rcases h.pushBack hN x with ⟨hpush, hfull⟩ | ⟨-, -, hnext⟩
    · have hlost : ∀ more : List UInt8, (q ++ more).take N = q := by
        intro more
        rw [List.take_append_of_le_length hfull.ge]
        exact List.take_of_length_le hfull.le
      have hrest := ih h
      rw [hlost] at hrest
      rwa [List.foldl_cons, hpush, hlost]
    · rw [List.append_cons]
      exact ih hnext

/-- With a null pointer, or on an empty buffer, it fails and changes nothing. -/
theorem Represents.popFront_fails (h : b.Represents q) {data : Option UInt8}
    (hfail : data = none ∨ q = []) : b.popFront data = (false, data, b) :=
  if_pos (hfail.imp id h.empty_iff.mpr)

theorem Represents.clear (h : b.Represents q) : b.clear.Represents [] where
  head := Nat.zero_lt_of_lt h.head
  tail := rfl
  numEntries := rfl
  cells := .nil _ _

/-- A call on the buffer is the call on the list that it holds. -/
theorem Represents.perform (h : b.Represents q) (hN : N ≤ 32767) (c : Call) :
    [(c.perform b).1] = [(c.performOnFifo N q).1] ∧
      (c.perform b).2.Represents (c.performOnFifo N q).2 := by
  cases c with
  | pushBack data =>
    rcases h.pushBack hN data with ⟨hpush, hfull⟩ | ⟨hpush, hroom, hnext⟩
    · simp only [Call.perform, Call.performOnFifo, hpush, if_pos hfull]
      exact ⟨trivial, h⟩
    · simp only [Call.perform, Call.performOnFifo, hpush, if_neg hroom.ne]
      exact ⟨trivial, hnext⟩
  | popFront data =>
    cases data with
    | none =>
      simp only [Call.perform, Call.performOnFifo, h.popFront_fails (.inl rfl)]
      exact ⟨trivial, h⟩
    | some data =>
      cases q with
      | nil =>
        simp only [Call.perform, Call.performOnFifo, h.popFront_fails (.inr rfl)]
        exact ⟨trivial, h⟩
      | cons x q =>
        obtain ⟨b', hpop, hnext⟩ := h.popFront hN data
        simp only [Call.perform, Call.performOnFifo, hpop]
        exact ⟨trivial, hnext⟩
  | usedEntries =>
    simp only [Call.perform, Call.performOnFifo, CircularBuffer.usedEntries, h.numEntries]
    exact ⟨trivial, h⟩
  | clear => exact ⟨rfl, h.clear⟩

end Represents

/-! ## Sequences of calls -/

/-- No sum of an index and one is too large for an `int`, and the length is no larger than `N`. -/
def IndicesFit (b : CircularBuffer N) : Prop :=
  b.head + 1 ≤ 32767 ∧ b.tail + 1 ≤ 32767 ∧ b.numEntries ≤ N

/-- Every sequence of calls from construction is answered as on a first-in first-out list of
capacity `N`, and no index leaves the range of an `int`. -/
theorem refines_fifo (hpos : 1 ≤ N) (hN : N ≤ 32767) (calls : List Call) :
    replies (start : CircularBuffer N) calls = fifoReplies N [] calls ∧
      Throughout (fun b c => (c.perform b).2) IndicesFit (start : CircularBuffer N) calls := by
  refine ⟨outputs_eq_of_simulation (R := Represents) (fun b q c h => h.perform hN c)
    (Represents.start hpos) calls, ?_⟩
  have hheld : Throughout (fun b c => (c.perform b).2) (fun b => ∃ q, b.Represents q)
      (start : CircularBuffer N) calls := by
    refine throughout_of_step ?_ ⟨[], Represents.start hpos⟩ calls
    rintro b c ⟨q, hb⟩
    exact ⟨_, (hb.perform hN c).2⟩
  refine hheld.mono ?_
  rintro b ⟨q, hb⟩
  have hhead := hb.head
  have htail := hb.tail_lt
  have hfits := hb.cells.fits
  exact ⟨by omega, by omega, hb.numEntries.trans_le hfits⟩

/-- Two bytes into a buffer for two, one refused, and the first one out. -/
theorem refines_fifo_two :
    replies (start : CircularBuffer 2)
        [.pushBack 1, .pushBack 2, .pushBack 3, .popFront (some 0), .usedEntries] =
      fifoReplies 2 [] [.pushBack 1, .pushBack 2, .pushBack 3, .popFront (some 0), .usedEntries] :=
  (refines_fifo (by omega) (by omega) _).1

end CircularBuffer
end SmartBell.Utils
