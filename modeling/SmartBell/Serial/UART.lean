import SmartBell.Common.Ring
import SmartBell.Common.Runs

/-!
# Receiving over the UART

The receive interrupt puts bytes into a ring of 64 cells and the main loop takes them out. The
interrupt runs as a whole; the main loop's loads and stores are steps of their own, with an
interrupt possible between any two. The interrupt alone writes `rx_head_` and the cells, the main
loop alone `rx_tail_`.
-/
namespace SmartBell.Serial
open Common

def kRXBufferSize : Nat := 64

def ringNext (index mask : Nat) : Nat := ((index + 1) &&& mask) % 256

/-- `rx_head_`, `rx_tail_` and `rx_buffer_`. -/
structure UART where
  rxHead : Nat
  rxTail : Nat
  rxBuffer : Vector UInt8 kRXBufferSize

namespace UART

def start : UART := ⟨0, 0, Vector.replicate kRXBufferSize 0⟩

/-- The test of the interrupt: the next cell is free. -/
def accepts (u : UART) : Bool := ringNext u.rxHead (kRXBufferSize - 1) != u.rxTail

/-- `USART_RX_vect`. -/
def usartRxVect (receivedByte : UInt8) (u : UART) : UART :=
  if u.accepts then
    { u with
      rxBuffer := u.rxBuffer.setIfInBounds u.rxHead receivedByte
      rxHead := ringNext u.rxHead (kRXBufferSize - 1) }
  else u

def isReadDataAvailable (u : UART) : Bool := u.rxTail != u.rxHead

/-- `read_byte` without an interrupt in between. -/
def readByte (u : UART) : UInt8 × UART :=
  if u.rxTail ≠ u.rxHead then
    (u.rxBuffer[u.rxTail]!, { u with rxTail := ringNext u.rxTail (kRXBufferSize - 1) })
  else (0, u)

end UART

/-! ## The main loop, access by access -/

inductive Call where
  | isReadDataAvailable
  | readByte
  deriving DecidableEq, Repr

/-- Where the main loop stands in a call. The order in which `!=` loads its operands is not
specified. -/
inductive Reader where
  | idle
  | tailLoaded (call : Call) (tail : Nat)
  | headLoaded (call : Call) (head : Nat)
  | available
  | indexed (index : Nat)
  | copied (byte : UInt8)
  | reloaded (byte : UInt8) (tail : Nat)
  deriving DecidableEq, Repr

/-- What a call of `read_byte` returned: whether from a cell, and whether it came after an
`is_read_data_available` that returned true. -/
structure Return where
  byte : UInt8
  taken : Bool
  checked : Bool
  deriving DecidableEq, Repr

structure Receiver where
  uart : UART
  reader : Reader
  /-- The last call was one of `is_read_data_available`, and returned true. -/
  checked : Bool
  accepted : List UInt8
  returned : List Return

namespace Receiver

def start : Receiver := ⟨.start, .idle, false, [], []⟩

/-- The main loop calls a function, which loads one of the indices. -/
def begin (call : Call) (tailFirst : Bool) (s : Receiver) : Receiver :=
  match s.reader with
  | .idle =>
    if tailFirst then { s with reader := .tailLoaded call s.uart.rxTail }
    else { s with reader := .headLoaded call s.uart.rxHead }
  | _ => s

/-- Both indices are loaded. -/
def compare (call : Call) (tail head : Nat) (s : Receiver) : Receiver :=
  match call with
  | .isReadDataAvailable => { s with reader := .idle, checked := tail != head }
  | .readByte =>
    if tail ≠ head then { s with reader := .available }
    else
      { s with
        reader := .idle
        checked := false
        returned := s.returned ++ [⟨0, false, s.checked⟩] }

/-- The next access of a call. -/
def access (s : Receiver) : Receiver :=
  match s.reader with
  | .idle => s
  | .tailLoaded call tail => s.compare call tail s.uart.rxHead
  | .headLoaded call head => s.compare call s.uart.rxTail head
  | .available => { s with reader := .indexed s.uart.rxTail }
  | .indexed index => { s with reader := .copied s.uart.rxBuffer[index]! }
  | .copied byte => { s with reader := .reloaded byte s.uart.rxTail }
  | .reloaded byte tail =>
    { s with
      uart := { s.uart with rxTail := ringNext tail (kRXBufferSize - 1) }
      reader := .idle
      checked := false
      returned := s.returned ++ [⟨byte, true, s.checked⟩] }

def receive (byte : UInt8) (s : Receiver) : Receiver :=
  { s with
    uart := s.uart.usartRxVect byte
    accepted := if s.uart.accepts then s.accepted ++ [byte] else s.accepted }

inductive Event where
  | begin (call : Call) (tailFirst : Bool)
  | access
  | receive (byte : UInt8)
  deriving DecidableEq, Repr

def step (s : Receiver) : Event → Receiver
  | .begin call tailFirst => s.begin call tailFirst
  | .access => s.access
  | .receive byte => s.receive byte

/-- Without an interrupt in between, the accesses of a call are the call. -/
theorem isReadDataAvailable_uninterrupted {s : Receiver} (hidle : s.reader = .idle)
    (tailFirst : Bool) :
    run step s [.begin .isReadDataAvailable tailFirst, .access] =
      { s with checked := s.uart.isReadDataAvailable } := by
  obtain ⟨u, r, checked, accepted, returned⟩ := s
  subst hidle
  cases tailFirst <;> rfl

theorem readByte_uninterrupted {s : Receiver} (hidle : s.reader = .idle) (tailFirst : Bool) :
    run step s (.begin .readByte tailFirst :: List.replicate 5 .access) =
      { s with
        uart := s.uart.readByte.2
        checked := false
        returned := s.returned ++
          [⟨s.uart.readByte.1, s.uart.isReadDataAvailable, s.checked⟩] } := by
  obtain ⟨u, r, checked, accepted, returned⟩ := s
  subst hidle
  rw [UART.readByte, UART.isReadDataAvailable]
  by_cases hempty : u.rxTail = u.rxHead <;> cases tailFirst <;>
    simp [List.replicate, step, begin, access, compare, hempty]

/-- The bytes that `read_byte` returned from cells; each of them released its cell. -/
def taken (s : Receiver) : List UInt8 := (s.returned.filter (·.taken)).map (·.byte)

/-- The bytes that `read_byte` returned after a check. -/
def checkedBytes (s : Receiver) : List UInt8 := (s.returned.filter (·.checked)).map (·.byte)

/-- The accepted bytes that have not been released. -/
def unread (s : Receiver) : List UInt8 := s.accepted.drop s.taken.length

/-! ## What the two rely on -/

/-- These bytes are in the ring, and at most one cell less than there are. -/
structure Holds (u : UART) (unread : List UInt8) : Prop where
  tail : u.rxTail < 64
  head : u.rxHead = (u.rxTail + unread.length) % 64
  notFull : unread.length ≤ 63
  cells : Ring.Holds u.rxBuffer u.rxTail unread

/-- What the main loop has loaded is still true of the ring, or was true and has become true of
more: only a loaded `rx_head_` may be out of date, and then there are more bytes than it says. -/
def Sees (u : UART) (unread : List UInt8) (checked : Bool) : Reader → Prop
  | .idle => True
  | .tailLoaded _ tail => tail = u.rxTail
  | .headLoaded _ head =>
    ∃ k ≤ unread.length, head = (u.rxTail + k) % 64 ∧ (checked = true → 1 ≤ k)
  | .available => unread ≠ []
  | .indexed index => index = u.rxTail ∧ unread ≠ []
  | .copied byte => ∃ rest, unread = byte :: rest
  | .reloaded byte tail => tail = u.rxTail ∧ ∃ rest, unread = byte :: rest

structure Agrees (s : Receiver) (unread : List UInt8) : Prop where
  accepted : s.accepted = s.taken ++ unread
  ring : Holds s.uart unread
  reader : Sees s.uart unread s.checked s.reader
  checked : s.checked = true → unread ≠ []
  returned : ∀ r ∈ s.returned, r.checked = true → r.taken = true

theorem ringNext_eq {index : Nat} : ringNext index (kRXBufferSize - 1) = (index + 1) % 64 := by
  have hmask : (index + 1) &&& (kRXBufferSize - 1) = (index + 1) % 64 :=
    Nat.and_two_pow_sub_one_eq_mod (index + 1) 6
  rw [ringNext, hmask]
  omega

section Holds
variable {u : UART} {unread : List UInt8}

/-- The interrupt refuses a byte exactly if 63 are in the ring. -/
theorem Holds.accepts_iff (h : Holds u unread) : u.accepts = true ↔ unread.length < 63 := by
  have htail := h.tail
  have hroom := h.notFull
  rw [UART.accepts, ringNext_eq, h.head, bne_iff_ne]
  omega

theorem Holds.usartRxVect (h : Holds u unread) (hroom : unread.length < 63) (byte : UInt8) :
    Holds (u.usartRxVect byte) (unread ++ [byte]) := by
  rw [UART.usartRxVect, if_pos (h.accepts_iff.mpr hroom), ringNext_eq]
  have hhead := h.head
  refine ⟨h.tail, ?_, ?_, ?_⟩
  · simp only [List.length_append, List.length_singleton]
    omega
  · simp only [List.length_append, List.length_singleton]
    omega
  · rw [hhead]
    exact h.cells.push (hroom.trans (by decide)) byte

/-- Storing `rx_tail_` releases the first byte. -/
theorem Holds.release {byte : UInt8} (h : Holds u (byte :: unread)) :
    Holds { u with rxTail := ringNext u.rxTail (kRXBufferSize - 1) } unread := by
  rw [ringNext_eq]
  have hhead := h.head
  have hroom := h.notFull
  rw [List.length_cons] at hhead hroom
  refine ⟨Nat.mod_lt _ (by decide), ?_, ?_, h.cells.pop⟩
  · simp only
    omega
  · omega

theorem Holds.first {byte : UInt8} (h : Holds u (byte :: unread)) :
    u.rxBuffer[u.rxTail]! = byte :=
  h.cells.first_at_front h.tail

/-- The comparison of `rx_tail_` with an `rx_head_` from up to now. -/
theorem Holds.tail_ne_iff (h : Holds u unread) {k : Nat} (hk : k ≤ unread.length) :
    u.rxTail ≠ (u.rxTail + k) % 64 ↔ 1 ≤ k := by
  have htail := h.tail
  have hroom := h.notFull
  omega

/-- More bytes in the ring change nothing of what the main loop relies on. -/
theorem Sees.push {checked : Bool} {r : Reader} {u' : UART} (h : Sees u unread checked r)
    (htail : u'.rxTail = u.rxTail) (byte : UInt8) : Sees u' (unread ++ [byte]) checked r := by
  cases r with
  | idle => trivial
  | tailLoaded call tail => exact h.trans htail.symm
  | headLoaded call head =>
    obtain ⟨k, hk, hhead, hsome⟩ := h
    refine ⟨k, hk.trans ?_, by rwa [htail], hsome⟩
    simp
  | available => exact List.append_ne_nil_of_left_ne_nil h _
  | indexed index => exact ⟨h.1.trans htail.symm, List.append_ne_nil_of_left_ne_nil h.2 _⟩
  | copied byte' =>
    obtain ⟨rest, rfl⟩ := h
    exact ⟨rest ++ [byte], rfl⟩
  | reloaded byte' tail =>
    obtain ⟨hloaded, rest, rfl⟩ := h
    exact ⟨hloaded.trans htail.symm, rest ++ [byte], rfl⟩

end Holds

/-! ## Steps -/

section Agrees
variable {s : Receiver} {unread : List UInt8}

theorem Agrees.start : Agrees start [] where
  accepted := rfl
  ring := ⟨by decide, rfl, by decide, .nil _ _⟩
  reader := trivial
  checked := nofun
  returned := nofun

theorem Agrees.unread_eq (h : Agrees s unread) : s.unread = unread := by
  rw [Receiver.unread, h.accepted, List.drop_left]

/-- Moving on in a call, with the ring and the bytes as they are. -/
theorem Agrees.withReader (h : Agrees s unread) {r : Reader}
    (hr : Sees s.uart unread s.checked r) : Agrees { s with reader := r } unread :=
  ⟨h.accepted, h.ring, hr, h.checked, h.returned⟩

theorem Agrees.receive (h : Agrees s unread) (byte : UInt8) :
    ∃ unread', Agrees (s.receive byte) unread' := by
  rcases Nat.lt_or_ge unread.length 63 with hroom | hfull
  · have haccepts := h.ring.accepts_iff.mpr hroom
    have htail : (s.uart.usartRxVect byte).rxTail = s.uart.rxTail := by
      rw [UART.usartRxVect, if_pos haccepts]
    refine ⟨unread ++ [byte], ?_, h.ring.usartRxVect hroom byte, h.reader.push htail byte, ?_,
      h.returned⟩
    · rw [Receiver.receive]
      simp only [if_pos haccepts]
      rw [h.accepted, List.append_assoc]
      rfl
    · intro hchecked
      exact List.append_ne_nil_of_left_ne_nil (h.checked hchecked) _
  · have hrefuses : ¬s.uart.accepts = true := by
      rw [h.ring.accepts_iff]
      omega
    refine ⟨unread, ?_⟩
    rw [Receiver.receive, UART.usartRxVect, if_neg hrefuses, if_neg hrefuses]
    exact h

theorem Agrees.begin (h : Agrees s unread) (call : Call) (tailFirst : Bool) :
    Agrees (s.begin call tailFirst) unread := by
  unfold Receiver.begin
  split
  · split
    · exact h.withReader rfl
    · refine h.withReader ⟨unread.length, le_rfl, h.ring.head, ?_⟩
      intro hchecked
      exact List.length_pos_iff.mpr (h.checked hchecked)
  · exact h

/-- The comparison of the two indices, where the loaded `rx_head_` counts `k` bytes. -/
theorem Agrees.compare (h : Agrees s unread) (call : Call) {head k : Nat}
    (hk : k ≤ unread.length) (hhead : head = (s.uart.rxTail + k) % 64)
    (hsome : s.checked = true → 1 ≤ k) : Agrees (s.compare call s.uart.rxTail head) unread := by
  have hne : s.uart.rxTail ≠ head ↔ 1 ≤ k := by
    rw [hhead]
    exact h.ring.tail_ne_iff hk
  have hnonempty : s.uart.rxTail ≠ head → unread ≠ [] := by
    intro hdiffer
    exact List.length_pos_iff.mp ((hne.mp hdiffer).trans hk)
  cases call with
  | isReadDataAvailable =>
    refine ⟨h.accepted, h.ring, trivial, ?_, h.returned⟩
    intro hchecked
    exact hnonempty (bne_iff_ne.mp hchecked)
  | readByte =>
    by_cases hdiffer : s.uart.rxTail ≠ head
    · rw [Receiver.compare]
      simp only [if_pos hdiffer]
      exact h.withReader (hnonempty hdiffer)
    · have hunchecked : s.checked = false := by
        rw [Bool.eq_false_iff]
        intro hchecked
        exact hdiffer (hne.mpr (hsome hchecked))
      rw [Receiver.compare]
      simp only [if_neg hdiffer]
      refine ⟨?_, h.ring, trivial, nofun, ?_⟩
      · rw [h.accepted]
        simp [taken]
      · refine List.forall_mem_append.mpr ⟨h.returned, List.forall_mem_singleton.mpr ?_⟩
        rw [hunchecked]
        nofun

/-- The store of `rx_tail_` releases the byte that is returned. -/
theorem Agrees.release {byte : UInt8} (h : Agrees s (byte :: unread)) {tail : Nat}
    (hreader : s.reader = .reloaded byte tail) (htail : tail = s.uart.rxTail) :
    Agrees s.access unread := by
  rw [Receiver.access, hreader]
  subst htail
  refine ⟨?_, h.ring.release, trivial, nofun, ?_⟩
  · rw [h.accepted]
    simp [taken]
  · exact List.forall_mem_append.mpr
      ⟨h.returned, List.forall_mem_singleton.mpr fun _ => rfl⟩

theorem Agrees.access (h : Agrees s unread) : ∃ unread', Agrees s.access unread' := by
  have hreader := h.reader
  cases hr : s.reader with
  | idle =>
    refine ⟨unread, ?_⟩
    rw [Receiver.access, hr]
    exact h
  | tailLoaded call tail =>
    rw [hr] at hreader
    refine ⟨unread, ?_⟩
    rw [Receiver.access, hr]
    simp only [show tail = s.uart.rxTail from hreader]
    refine h.compare call le_rfl h.ring.head ?_
    intro hchecked
    exact List.length_pos_iff.mpr (h.checked hchecked)
  | headLoaded call head =>
    rw [hr] at hreader
    obtain ⟨k, hk, hhead, hsome⟩ := hreader
    refine ⟨unread, ?_⟩
    rw [Receiver.access, hr]
    exact h.compare call hk hhead hsome
  | available =>
    rw [hr] at hreader
    refine ⟨unread, ?_⟩
    rw [Receiver.access, hr]
    exact h.withReader ⟨rfl, hreader⟩
  | indexed index =>
    rw [hr] at hreader
    obtain ⟨rfl, hsome⟩ := hreader
    obtain ⟨first, rest, rfl⟩ := List.exists_cons_of_ne_nil hsome
    refine ⟨first :: rest, ?_⟩
    rw [Receiver.access, hr]
    exact h.withReader ⟨rest, by rw [h.ring.first]⟩
  | copied byte =>
    rw [hr] at hreader
    refine ⟨unread, ?_⟩
    rw [Receiver.access, hr]
    exact h.withReader ⟨rfl, hreader⟩
  | reloaded byte tail =>
    rw [hr] at hreader
    obtain ⟨htail, rest, rfl⟩ := hreader
    exact ⟨rest, h.release hr htail⟩

theorem Agrees.step (h : Agrees s unread) (e : Event) : ∃ unread', Agrees (s.step e) unread' := by
  cases e with
  | begin call tailFirst => exact ⟨unread, h.begin call tailFirst⟩
  | access => exact h.access
  | receive byte => exact h.receive byte

end Agrees

/-! ## Runs -/

/-- What `read_byte` returned after a check it took from a cell; the bytes taken are the first
ones accepted, and so are those returned after a check if there was always one; the others are
still in their cells. -/
structure Fifo (s : Receiver) : Prop where
  checked_taken : ∀ r ∈ s.returned, r.checked = true → r.taken = true
  taken_prefix : s.taken <+: s.accepted
  checked_prefix : (∀ r ∈ s.returned, r.taken = true → r.checked = true) →
    s.checkedBytes <+: s.accepted
  unread_kept : Ring.Holds s.uart.rxBuffer s.uart.rxTail s.unread

theorem Agrees.fifo {s : Receiver} {unread : List UInt8} (h : Agrees s unread) : s.Fifo := by
  have htaken : s.taken <+: s.accepted := by
    rw [h.accepted]
    exact List.prefix_append _ _
  refine ⟨h.returned, htaken, ?_, ?_⟩
  · intro halways
    have hsame : s.checkedBytes = s.taken := by
      refine congrArg (List.map _) (List.filter_congr fun r hr => ?_)
      exact Bool.eq_iff_iff.mpr ⟨h.returned r hr, halways r hr⟩
    rwa [hsame]
  · rw [h.unread_eq]
    exact h.ring.cells

/-- The interrupt discards a byte only if 63 accepted bytes have not been released. -/
def DiscardsFull (s : Receiver) (e : Event) : Prop :=
  ∀ byte, e = .receive byte → (s.step e).accepted ≠ s.accepted ++ [byte] →
    s.accepted.length = s.taken.length + 63

theorem Agrees.discardsFull {s : Receiver} {unread : List UInt8} (h : Agrees s unread)
    (e : Event) : s.DiscardsFull e := by
  rintro byte rfl hdiscarded
  have hrefuses : ¬s.uart.accepts = true := by
    intro haccepts
    exact hdiscarded (if_pos haccepts)
  have hroom := h.ring.notFull
  rw [h.ring.accepts_iff] at hrefuses
  rw [h.accepted, List.length_append]
  omega

/-- However interrupts fall between the accesses of the main loop, and however long it runs, the
ring is a queue that loses a byte only when it is full. -/
theorem receive_fifo (es : List Event) :
    Throughout step Fifo start es ∧ Along step DiscardsFull start es := by
  have hagrees : Throughout step (fun s => ∃ unread, Agrees s unread) start es := by
    refine throughout_of_step ?_ ⟨[], .start⟩ es
    rintro s e ⟨unread, h⟩
    exact h.step e
  refine ⟨hagrees.mono ?_, hagrees.along.mono ?_⟩
  · rintro s ⟨unread, h⟩
    exact h.fifo
  · rintro s e ⟨unread, h⟩
    exact h.discardsFull e
end Receiver
end SmartBell.Serial
