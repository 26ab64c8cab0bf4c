import SmartBell.Utils.CircularBuffer

/-!
# `CircularBuffer` between an interrupt and the main loop

The interrupt puts bytes in with `push_back`, which runs as a whole, and the main loop takes
them out with `pop_front`, which does not: each of its accesses is a step of its own, and an
interrupt may come between any two. Removing an element loads the length, and stores it less
one in a later step.
-/
namespace SmartBell.Utils
open Common

/-- What the main loop has done of a call of `pop_front`. -/
inductive Consumer where
  | idle
  | tested
  | read (byte : UInt8)
  | advanced (byte : UInt8)
  | loaded (byte : UInt8) (entries : Nat)
  deriving DecidableEq, Repr

/-- The element that `pop_front` has passed but still counts. -/
def Consumer.passed : Consumer → List UInt8
  | .advanced byte => [byte]
  | .loaded byte _ => [byte]
  | _ => []

/-- The buffer and the two that use it, with the bytes that were put in and those that were
taken out so far. -/
structure SharedBuffer (N : Nat) where
  buffer : CircularBuffer N
  consumer : Consumer
  pushed : List UInt8
  popped : List UInt8

namespace SharedBuffer
variable {N : Nat}

def start : SharedBuffer N := ⟨.start, .idle, [], []⟩

/-- The next access of `pop_front`; from `idle` it is the first one of a new call. -/
def consume (s : SharedBuffer N) : SharedBuffer N :=
  match s.consumer with
  | .idle => if s.buffer.circBufferEmpty then s else { s with consumer := .tested }
  | .tested => { s with consumer := .read s.buffer.values[s.buffer.head]! }
  | .read byte =>
    { s with
      buffer := { s.buffer with head := (s.buffer.head + 1) % N }
      consumer := .advanced byte }
  | .advanced byte => { s with consumer := .loaded byte s.buffer.numEntries }
  | .loaded byte entries =>
    { s with
      buffer := { s.buffer with numEntries := (entries + 65535) % 65536 }
      consumer := .idle
      popped := s.popped ++ [byte] }

/-- An interrupt that receives `data`. -/
def interrupt (data : UInt8) (s : SharedBuffer N) : SharedBuffer N :=
  { s with
    buffer := (s.buffer.pushBack data).2
    pushed := if (s.buffer.pushBack data).1 then s.pushed ++ [data] else s.pushed }

inductive Event where
  | consume
  | interrupt (data : UInt8)
  deriving DecidableEq, Repr

def step (s : SharedBuffer N) : Event → SharedBuffer N
  | .consume => s.consume
  | .interrupt data => s.interrupt data

/-- Between calls of `pop_front` the length counts what was put in and not taken out, and the
bytes come out as they went in. -/
def Lawful (s : SharedBuffer N) : Prop :=
  (s.consumer = .idle → s.buffer.numEntries + s.popped.length = s.pushed.length) ∧
    s.popped <+: s.pushed

instance : DecidablePred (Lawful (N := N)) := fun _ => inferInstanceAs (Decidable (_ ∧ _))

/-- The step does not store a length over one that an interrupt has changed since it was
loaded. -/
def Undisturbed (s : SharedBuffer N) (e : Event) : Prop :=
  match s.consumer, e with
  | .loaded _ entries, .consume => s.buffer.numEntries = entries
  | _, _ => True

/-! ## What the length counts during a call -/

/-- What the call in progress has seen is still true, or was true when it looked. -/
def Sees (b : CircularBuffer N) (q : List UInt8) : Consumer → Prop
  | .idle => True
  | .tested => q ≠ []
  | .read byte => ∃ rest, q = byte :: rest
  | .advanced _ => True
  | .loaded _ entries => 1 ≤ entries ∧ entries ≤ b.numEntries

/-- The bytes that were put in are those taken out, the one that is passed, and the queue. -/
structure Coherent (s : SharedBuffer N) (q : List UInt8) : Prop where
  pushed : s.pushed = s.popped ++ (s.consumer.passed ++ q)
  counts : s.buffer.Counts s.consumer.passed.length q
  consumer : Sees s.buffer q s.consumer

theorem Coherent.start (hpos : 1 ≤ N) : (start : SharedBuffer N).Coherent [] where
  pushed := rfl
  counts := ⟨hpos, rfl, rfl, Nat.zero_le N, .nil _ _⟩
  consumer := trivial

theorem Coherent.lawful {s : SharedBuffer N} {q : List UInt8} (h : s.Coherent q) : s.Lawful := by
  have hentries := h.counts.numEntries
  rw [Lawful, h.pushed]
  refine ⟨?_, List.prefix_append _ _⟩
  intro hidle
  rw [hentries, List.length_append, List.length_append, hidle]
  exact Nat.add_comm _ _

/-! ## Steps of the main loop -/

section Consume
variable {b : CircularBuffer N} {q pushed popped : List UInt8} {x : UInt8}

/-- Without an interrupt in between, the five accesses are a call of `pop_front`. -/
theorem consume_uninterrupted (hb : b.Represents (x :: q)) (data : UInt8) :
    run step ⟨b, .idle, pushed, popped⟩ (List.replicate 5 .consume) =
      ⟨(b.popFront (some data)).2.2, .idle, pushed, popped ++ [x]⟩ := by
  have hsome : b.circBufferEmpty = false := by
    rw [Bool.eq_false_iff, Ne, hb.empty_iff]
    exact List.cons_ne_nil x q
  have hfirst := (CircularBuffer.represents_iff_counts.mp hb).first
  simp [List.replicate, step, consume, hsome, hfirst, CircularBuffer.popFront]

/-- An access of `pop_front` keeps what it relies on, unless it stores a length that is out of
date. -/
theorem Coherent.consume {s : SharedBuffer N} (h : s.Coherent q) (hN : N ≤ 32767)
    (hundisturbed : s.Undisturbed .consume) : ∃ q', s.consume.Coherent q' := by
  obtain ⟨b, c, pushed, popped⟩ := s
  obtain ⟨hpushed, hb, hsees⟩ := h
  cases c with
  | idle =>
    unfold SharedBuffer.consume
    split_ifs with hempty
    · exact ⟨q, hpushed, hb, hsees⟩
    · have hsome : q ≠ [] := by
        rintro rfl
        exact hempty (beq_iff_eq.mpr hb.numEntries)
      exact ⟨q, hpushed, hb, hsome⟩
  | tested =>
    obtain ⟨first, rest, rfl⟩ := List.exists_cons_of_ne_nil hsees
    exact ⟨first :: rest, hpushed, hb, rest, by rw [hb.first]⟩
  | read byte =>
    obtain ⟨rest, rfl⟩ := hsees
    exact ⟨rest, hpushed, hb.advance, trivial⟩
  | advanced byte =>
    have hsome : 1 ≤ b.numEntries := by
      rw [hb.numEntries]
      exact Nat.le_add_right 1 _
    exact ⟨q, hpushed, hb, hsome, le_rfl⟩
  | loaded byte entries =>
    refine ⟨q, hpushed.trans ?_, hb.store hN hundisturbed, trivial⟩
    exact (List.append_assoc popped [byte] q).symm

/-- The store of a length that is out of date loses count of a byte. -/
theorem Coherent.disturbed {s : SharedBuffer N} (h : s.Coherent q)
    (hdisturbed : ¬s.Undisturbed .consume) : ¬s.consume.Lawful := by
  obtain ⟨b, c, pushed, popped⟩ := s
  obtain ⟨hpushed, hb, hsees⟩ := h
  cases c with
  | loaded byte entries =>
    obtain ⟨hsome, hle⟩ : 1 ≤ entries ∧ entries ≤ b.numEntries := hsees
    have hchanged : ¬b.numEntries = entries := hdisturbed
    have hentries : b.numEntries = [byte].length + q.length := hb.numEntries
    have hbytes : pushed = popped ++ ([byte] ++ q) := hpushed
    intro hlawful
    have hcounted : (entries + 65535) % 65536 + (popped ++ [byte]).length = pushed.length :=
      hlawful.1 rfl
    rw [hbytes] at hcounted
    simp only [List.length_append, List.length_singleton] at hcounted hentries
    omega
  | _ => exact absurd trivial hdisturbed

end Consume

/-! ## Interrupts -/

section Interrupt
variable {b : CircularBuffer N} {q : List UInt8}

/-- A byte more in the queue changes nothing of what the call in progress has seen. -/
theorem Sees.push {c : Consumer} {b' : CircularBuffer N} (h : Sees b q c)
    (hgrows : b.numEntries ≤ b'.numEntries) (data : UInt8) : Sees b' (q ++ [data]) c := by
  cases c with
  | idle => trivial
  | tested => exact List.append_ne_nil_of_left_ne_nil h _
  | read byte =>
    obtain ⟨rest, rfl⟩ := h
    exact ⟨rest ++ [data], rfl⟩
  | advanced byte => trivial
  | loaded byte entries => exact ⟨h.1, h.2.trans hgrows⟩

/-- An interrupt keeps what a call of `pop_front` in progress relies on. -/
theorem Coherent.interrupt {s : SharedBuffer N} (h : s.Coherent q) (hN : N ≤ 32767)
    (data : UInt8) : ∃ q', (s.interrupt data).Coherent q' := by
  rw [SharedBuffer.interrupt]
  rcases h.counts.pushBack hN data with ⟨hpush, -⟩ | ⟨hpush, -, hnext⟩
  · rw [hpush]
    exact ⟨q, h⟩
  · have hgrows : s.buffer.numEntries ≤ (s.buffer.pushBack data).2.numEntries := by
      rw [h.counts.numEntries, hnext.numEntries, List.length_append]
      exact Nat.add_le_add_left (Nat.le_add_right _ _) _
    refine ⟨q ++ [data], ?_, hnext, h.consumer.push hgrows data⟩
    simp only [if_pos hpush]
    rw [h.pushed, List.append_assoc, List.append_assoc]

end Interrupt

/-! ## Runs -/

theorem Coherent.step {s : SharedBuffer N} {q : List UInt8} {e : Event} (h : s.Coherent q)
    (hN : N ≤ 32767) (hundisturbed : s.Undisturbed e) : ∃ q', (s.step e).Coherent q' := by
  cases e with
  | consume => exact h.consume hN hundisturbed
  | interrupt data => exact h.interrupt hN data

/-- The length and the bytes taken out are right throughout a run exactly if no interrupt puts
a byte in between the load of the length in `pop_front` and its store. -/
theorem lawful_iff_undisturbed (hpos : 1 ≤ N) (hN : N ≤ 32767) (es : List Event) :
    Throughout step Lawful (start : SharedBuffer N) es ↔
      Along step Undisturbed (start : SharedBuffer N) es := by
  refine throughout_iff_along_of_invariant (I := fun s => ∃ q, s.Coherent q) ?_ ?_ ?_
    ⟨[], .start hpos⟩
  · rintro s ⟨q, h⟩
    exact h.lawful
  · rintro s e ⟨q, h⟩ hundisturbed
    exact h.step hN hundisturbed
  · rintro s e ⟨q, h⟩ hdisturbed
    cases e with
    | consume => exact h.disturbed hdisturbed
    | interrupt data =>
      refine absurd ?_ hdisturbed
      unfold Undisturbed
      split <;> trivial

/-- An interrupt that comes before the length is loaded does no harm. -/
theorem lawful_early :
    Throughout step Lawful (start : SharedBuffer 16)
      [.interrupt 1, .consume, .interrupt 2, .consume, .consume, .consume, .consume] :=
  (lawful_iff_undisturbed (by omega) (by omega) _).mpr
    ⟨trivial, trivial, trivial, trivial, trivial, trivial, rfl, trivial⟩

/-- One that comes after it is lost: the buffer counts as empty with a byte in it. -/
theorem not_lawful :
    ¬Throughout step Lawful (start : SharedBuffer 16)
      [.interrupt 1, .consume, .consume, .consume, .consume, .interrupt 2, .consume] := by
  decide

end SharedBuffer
end SmartBell.Utils
