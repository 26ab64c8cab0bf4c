import SmartBell.Common.Bytes
import SmartBell.Common.Halting
import SmartBell.Utils.CircularBuffer

/-!
# Sending over SPI, polled and buffered

`SPI.cpp` is built in one of two variants. Both write a byte to `SPDR` and wait until it is
shifted out, the one for `SPIF`, the other for a flag that the transfer interrupt sets. Time goes
in ticks: in each the hardware shifts, and then either the interrupt runs as a whole or the
program makes one access. The watchdog and the delays around slave select are left out.
-/
namespace SmartBell.Serial
open Common Utils

/-! ## The hardware -/

/-- How many ticks each transfer takes, and the byte that comes back with it. -/
structure Wire where
  delay : Nat → Nat
  reply : Nat → UInt8

structure Transfer where
  byte : UInt8
  reply : UInt8
  left : Nat
  deriving DecidableEq, Repr

/-- `SPDR` as it is read, the flags of `SPSR` and whether `SPSR` was read with them set, the slave
select pin, and the bytes shifted out so far. -/
structure Registers where
  shifting : Option Transfer
  spdr : UInt8
  spif : Bool
  spifRead : Bool
  wcol : Bool
  wcolRead : Bool
  slaveSelect : Bool
  started : Nat
  shifted : List UInt8
  deriving DecidableEq, Repr

namespace Registers

def start : Registers := ⟨none, 0, false, false, false, false, true, 0, []⟩

/-- Reading `SPSR` is the first half of clearing a flag. -/
def readSPSR (r : Registers) : Registers := { r with spifRead := r.spif, wcolRead := r.wcol }

/-- Any access to `SPDR` is the second. -/
def accessSPDR (r : Registers) : Registers :=
  { r with
    spif := r.spif && !r.spifRead
    spifRead := false
    wcol := r.wcol && !r.wcolRead
    wcolRead := false }

/-- A write starts a transfer, or is discarded during one. -/
def writeSPDR (w : Wire) (byte : UInt8) (r : Registers) : Registers :=
  match r.shifting with
  | none =>
    { r.accessSPDR with
      shifting := some ⟨byte, w.reply r.started, w.delay r.started⟩
      started := r.started + 1 }
  | some _ => { r.accessSPDR with wcol := true }

def tick (r : Registers) : Registers :=
  match r.shifting with
  | none => r
  | some ⟨byte, reply, 0⟩ =>
    { r with shifting := none, spdr := reply, spif := true, shifted := r.shifted ++ [byte] }
  | some ⟨byte, reply, left + 1⟩ => { r with shifting := some ⟨byte, reply, left⟩ }

end Registers

/-! ## The polled variant -/

namespace Polled

/-- Where the program stands, with the bytes it has still to write. -/
inductive Place where
  | select (bytes : List UInt8)
  | next (rest : List UInt8)
  | wait (rest : List UInt8)
  | deselect
  | returned
  deriving DecidableEq, Repr

end Polled

structure Polled where
  registers : Registers
  place : Polled.Place
  deriving DecidableEq, Repr

namespace Polled

def send (byte : UInt8) (r : Registers) : Polled := ⟨r, .select [byte]⟩

def sendBytes (bytes : List UInt8) (r : Registers) : Polled := ⟨r, .select bytes⟩

def sendString (string : List UInt8) (r : Registers) : Polled := ⟨r, .select (cstring string)⟩

/-- The next access of the program. -/
def proceed (w : Wire) (s : Polled) : Polled :=
  match s.place with
  | .select bytes => ⟨{ s.registers with slaveSelect := false }, .next bytes⟩
  | .next [] => { s with place := .deselect }
  | .next (byte :: rest) => ⟨s.registers.writeSPDR w byte, .wait rest⟩
  | .wait rest =>
    if s.registers.spif then ⟨s.registers.readSPSR, .next rest⟩
    else { s with registers := s.registers.readSPSR }
  | .deselect => ⟨{ s.registers with slaveSelect := true }, .returned⟩
  | .returned => s

def step (w : Wire) (s : Polled) : Polled := proceed w { s with registers := s.registers.tick }

def Returned (s : Polled) : Prop := s.place = .returned

end Polled

/-! ## The buffered variant -/

def kTXRXBufferSize : Nat := 16

namespace Buffered

inductive Place where
  | reset
  | select
  | pop
  | write (byte : UInt8)
  | wait
  | deselect
  | returned
  deriving DecidableEq, Repr

end Buffered

structure Buffered where
  registers : Registers
  txRxDone : Bool
  rxBuffer : CircularBuffer kTXRXBufferSize
  txBuffer : CircularBuffer kTXRXBufferSize
  place : Buffered.Place
  deriving DecidableEq

namespace Buffered

def start : Buffered := ⟨.start, false, .start, .start, .returned⟩

/-- What the loops put into the buffer; whether it took a byte is not looked at. -/
def pushAll (bytes : List UInt8) (b : CircularBuffer kTXRXBufferSize) :
    CircularBuffer kTXRXBufferSize :=
  bytes.foldl (fun b byte => (b.pushBack byte).2) b

def send (byte : UInt8) (s : Buffered) : Buffered :=
  { s with txBuffer := (s.txBuffer.pushBack byte).2, place := .reset }

def sendBytes (bytes : List UInt8) (s : Buffered) : Buffered :=
  { s with txBuffer := pushAll bytes s.txBuffer, place := .reset }

def sendString (string : List UInt8) (s : Buffered) : Buffered :=
  { s with txBuffer := pushAll (cstring string) s.txBuffer, place := .reset }

/-- `SPI_STC_vect`; the hardware clears `SPIF` when it starts. -/
def spiStcVect (s : Buffered) : Buffered :=
  let registers := { s.registers with spif := false }.readSPSR
  if registers.wcol then { s with registers := registers.accessSPDR, txRxDone := true }
  else
    { s with
      registers := registers.accessSPDR
      rxBuffer := (s.rxBuffer.pushBack registers.spdr).2
      txRxDone := true }

/-- The next access of `send_`. -/
def proceed (w : Wire) (s : Buffered) : Buffered :=
  match s.place with
  | .reset => { s with txRxDone := false, place := .select }
  | .select =>
    { s with registers := { s.registers with slaveSelect := false }, place := .pop }
  | .pop =>
    match s.txBuffer.popFront (some 0) with
    | (true, some byte, b) => { s with txBuffer := b, place := .write byte }
    | (_, _, b) => { s with txBuffer := b, place := .deselect }
  | .write byte => { s with registers := s.registers.writeSPDR w byte, place := .wait }
  | .wait => if s.txRxDone then { s with place := .pop } else s
  | .deselect =>
    { s with registers := { s.registers with slaveSelect := true }, place := .returned }
  | .returned => s

def step (w : Wire) (s : Buffered) : Buffered :=
  let s := { s with registers := s.registers.tick }
  if s.registers.spif then s.spiStcVect else s.proceed w

def Returned (s : Buffered) : Prop := s.place = .returned

end Buffered

/-! ## What a call does -/

/-- A call of one of the three functions. Neither the length of an array nor that of a string is
beyond 65535. -/
inductive Sending where
  | send (byte : UInt8)
  | sendBytes (bytes : List UInt8)
  | sendString (string : List UInt8)
  deriving DecidableEq, Repr

namespace Sending

def bytes : Sending → List UInt8
  | .send byte => [byte]
  | .sendBytes bytes => bytes
  | .sendString string => cstring string

def polled (r : Registers) : Sending → Polled
  | .send byte => .send byte r
  | .sendBytes bytes => .sendBytes bytes r
  | .sendString string => .sendString string r

def buffered (s : Buffered) : Sending → Buffered
  | .send byte => s.send byte
  | .sendBytes bytes => s.sendBytes bytes
  | .sendString string => s.sendString string

end Sending

/-- No transfer is running, nothing is counted as shifted out yet, and a flag that is still set
goes with the next access. -/
structure Registers.AtRest (r : Registers) : Prop where
  shifting : r.shifting = none
  shifted : r.shifted = []
  spif : r.spif = true → r.spifRead = true

structure Buffered.AtRest (s : Buffered) : Prop where
  shifting : s.registers.shifting = none
  shifted : s.registers.shifted = []
  spif : s.registers.spif = false
  txBuffer : s.txBuffer.Represents []

/-- Slave select is high, and before it went so all these bytes and no others had been shifted
out. -/
structure Registers.Delivered (out : List UInt8) (r : Registers) : Prop where
  shifting : r.shifting = none
  shifted : r.shifted = out
  slaveSelect : r.slaveSelect = true

/-- The two variants do the same, whatever the timing and what comes back: the call returns, and
once slave select is raised the same bytes have been shifted out. -/
def Sending.Equivalent (c : Sending) : Prop :=
  ∃ out,
    (∀ (w : Wire) (r : Registers), r.AtRest →
      StopsWith (Polled.step w) Polled.Returned (·.registers.Delivered out) (c.polled r)) ∧
    ∀ (w : Wire) (s : Buffered), s.AtRest →
      StopsWith (Buffered.step w) Buffered.Returned (·.registers.Delivered out) (c.buffered s)

/-! ## Ticks of the hardware -/

namespace Registers
variable {r : Registers}

theorem tick_idle (h : r.shifting = none) : r.tick = r := by
  unfold tick
  rw [h]

theorem tick_last {byte reply : UInt8} (h : r.shifting = some ⟨byte, reply, 0⟩) :
    r.tick =
      { r with shifting := none, spdr := reply, spif := true, shifted := r.shifted ++ [byte] } := by
  unfold tick
  rw [h]

theorem tick_running {byte reply : UInt8} {left : Nat}
    (h : r.shifting = some ⟨byte, reply, left + 1⟩) :
    r.tick = { r with shifting := some ⟨byte, reply, left⟩ } := by
  unfold tick
  rw [h]

theorem writeSPDR_idle (h : r.shifting = none) (w : Wire) (byte : UInt8) :
    r.writeSPDR w byte =
      { r.accessSPDR with
        shifting := some ⟨byte, w.reply r.started, w.delay r.started⟩
        started := r.started + 1 } := by
  unfold writeSPDR
  rw [h]

/-- A flag that was read is cleared by the access. -/
theorem accessSPDR_spif (h : r.spif = true → r.spifRead = true) : r.accessSPDR.spif = false := by
  cases hspif : r.spif with
  | false => simp [accessSPDR, hspif]
  | true => simp [accessSPDR, hspif, h hspif]

end Registers

/-! ## The polled variant sends every byte -/

namespace Polled
variable {w : Wire} {out : List UInt8}

theorem step_idle {r : Registers} (h : r.shifting = none) (p : Place) :
    step w ⟨r, p⟩ = proceed w ⟨r, p⟩ := by
  simp only [step, r.tick_idle h]

theorem delivers_deselect {r : Registers} (hidle : r.shifting = none) (hout : r.shifted = out) :
    StopsWith (step w) Returned (·.registers.Delivered out) ⟨r, .deselect⟩ := by
  rw [stopsWith_step nofun, step_idle hidle]
  refine stopsWith_of_fixed ?_ rfl ⟨hidle, hout, rfl⟩
  exact step_idle (r := { r with slaveSelect := true }) hidle .returned

/-- The wait ends once the transfer does, and has read the flag then. -/
theorem delivers_wait {rest : List UInt8} (hnext : ∀ r : Registers, r.shifting = none →
      (r.spif = true → r.spifRead = true) → r.shifted ++ rest = out →
      StopsWith (step w) Returned (·.registers.Delivered out) ⟨r, .next rest⟩)
    {left : Nat} {byte reply : UInt8} {r : Registers}
    (hrunning : r.shifting = some ⟨byte, reply, left⟩) (hspif : r.spif = false)
    (hout : r.shifted ++ byte :: rest = out) :
    StopsWith (step w) Returned (·.registers.Delivered out) ⟨r, .wait rest⟩ := by
  induction left generalizing r with
  | zero =>
    rw [stopsWith_step nofun, step, r.tick_last hrunning]
    refine hnext _ rfl (fun _ => rfl) ?_
    rw [← hout]
    exact List.append_assoc r.shifted [byte] rest
  | succ left ih =>
    have hstep : step w ⟨r, .wait rest⟩ =
        ⟨{ r with shifting := some ⟨byte, reply, left⟩ }.readSPSR, .wait rest⟩ := by
      rw [step, r.tick_running hrunning]
      simp [proceed, hspif]
    rw [stopsWith_step nofun, hstep]
    exact ih rfl hspif hout

theorem delivers_next {rest : List UInt8} {r : Registers} (hidle : r.shifting = none)
    (hread : r.spif = true → r.spifRead = true) (hout : r.shifted ++ rest = out) :
    StopsWith (step w) Returned (·.registers.Delivered out) ⟨r, .next rest⟩ := by
  induction rest generalizing r with
  | nil =>
    rw [stopsWith_step nofun, step_idle hidle]
    exact delivers_deselect hidle ((List.append_nil _).symm.trans hout)
  | cons byte rest ih =>
    have hstep : step w ⟨r, .next (byte :: rest)⟩ =
        ⟨{ r.accessSPDR with
            shifting := some ⟨byte, w.reply r.started, w.delay r.started⟩
            started := r.started + 1 }, .wait rest⟩ := by
      rw [step_idle hidle, ← r.writeSPDR_idle hidle]
      rfl
    rw [stopsWith_step nofun, hstep]
    exact delivers_wait (fun _ => ih) rfl (r.accessSPDR_spif hread) hout

end Polled

theorem Sending.polled_delivers (c : Sending) (w : Wire) {r : Registers} (h : r.AtRest) :
    StopsWith (Polled.step w) Polled.Returned (·.registers.Delivered c.bytes) (c.polled r) := by
  have hstart : c.polled r = ⟨r, .select c.bytes⟩ := by cases c <;> rfl
  rw [hstart, stopsWith_step nofun, Polled.step_idle h.shifting]
  refine Polled.delivers_next h.shifting h.spif ?_
  simp only [h.shifted, List.nil_append]

/-! ## The buffered variant waits for the first byte only -/

namespace Buffered
variable {w : Wire} {out : List UInt8} {r : Registers} {done : Bool}
  {rx tx : CircularBuffer kTXRXBufferSize} {p : Place}

theorem step_idle (hidle : r.shifting = none) (hspif : r.spif = false) :
    step w ⟨r, done, rx, tx, p⟩ = proceed w ⟨r, done, rx, tx, p⟩ := by
  simp [step, r.tick_idle hidle, hspif]

theorem step_running {byte reply : UInt8} {left : Nat}
    (hrunning : r.shifting = some ⟨byte, reply, left + 1⟩) (hspif : r.spif = false) :
    step w ⟨r, done, rx, tx, p⟩ =
      proceed w ⟨{ r with shifting := some ⟨byte, reply, left⟩ }, done, rx, tx, p⟩ := by
  simp [step, r.tick_running hrunning, hspif]

/-- At the end of a transfer the interrupt runs, and the program stays where it is. -/
theorem step_last (w : Wire) (done : Bool) (rx tx : CircularBuffer kTXRXBufferSize) (p : Place)
    {byte reply : UInt8} (hrunning : r.shifting = some ⟨byte, reply, 0⟩) :
    ∃ r' rx', step w ⟨r, done, rx, tx, p⟩ = ⟨r', true, rx', tx, p⟩ ∧ r'.shifting = none ∧
      r'.spif = false ∧ r'.shifted = r.shifted ++ [byte] := by
  rw [step, r.tick_last hrunning]
  simp only [if_pos, spiStcVect]
  split
  · exact ⟨_, _, rfl, rfl, rfl, rfl⟩
  · exact ⟨_, _, rfl, rfl, rfl, rfl⟩

theorem proceed_pop_empty (htx : tx.Represents []) :
    proceed w ⟨r, done, rx, tx, .pop⟩ = ⟨r, done, rx, tx, .deselect⟩ := by
  simp only [proceed, htx.popFront_fails (.inr rfl)]

theorem proceed_pop (w : Wire) (r : Registers) (done : Bool) (rx : CircularBuffer kTXRXBufferSize)
    {byte : UInt8} {q : List UInt8} (htx : tx.Represents (byte :: q)) :
    ∃ tx', proceed w ⟨r, done, rx, tx, .pop⟩ = ⟨r, done, rx, tx', .write byte⟩ ∧
      tx'.Represents q := by
  obtain ⟨tx', hpop, hnext⟩ := htx.popFront (by decide) 0
  refine ⟨tx', ?_, hnext⟩
  simp only [proceed, hpop]

theorem delivers_end (htx : tx.Represents []) (hidle : r.shifting = none)
    (hspif : r.spif = false) (hout : r.shifted = out) :
    StopsWith (step w) Returned (·.registers.Delivered out) ⟨r, done, rx, tx, .pop⟩ := by
  rw [stopsWith_step nofun, step_idle hidle hspif, proceed_pop_empty htx, stopsWith_step nofun,
    step_idle hidle hspif]
  refine stopsWith_of_fixed ?_ rfl ⟨hidle, hout, rfl⟩
  exact step_idle (r := { r with slaveSelect := true }) hidle hspif

theorem delivers_wait {left : Nat} {byte reply : UInt8} (htx : tx.Represents [])
    (hrunning : r.shifting = some ⟨byte, reply, left⟩) (hspif : r.spif = false)
    (hout : r.shifted ++ [byte] = out) :
    StopsWith (step w) Returned (·.registers.Delivered out) ⟨r, false, rx, tx, .wait⟩ := by
  induction left generalizing r with
  | zero =>
    obtain ⟨r', rx', hstep, hidle, hspif', hshifted⟩ := step_last w false rx tx
      .wait hrunning
    rw [stopsWith_step nofun, hstep, stopsWith_step nofun, step_idle hidle hspif']
    exact delivers_end htx hidle hspif' (hshifted.trans hout)
  | succ left ih =>
    rw [stopsWith_step nofun, step_running hrunning hspif]
    exact ih rfl hspif hout

/-- A call sets the flag back and selects the slave. -/
theorem stopsWith_reset {Q : Buffered → Prop} (hidle : r.shifting = none)
    (hspif : r.spif = false) :
    StopsWith (step w) Returned Q ⟨r, done, rx, tx, .reset⟩ ↔
      StopsWith (step w) Returned Q ⟨{ r with slaveSelect := false }, false, rx, tx, .pop⟩ := by
  have hreset : step w ⟨r, done, rx, tx, .reset⟩ = ⟨r, false, rx, tx, .select⟩ :=
    step_idle hidle hspif
  have hselect : step w ⟨r, false, rx, tx, .select⟩ =
      ⟨{ r with slaveSelect := false }, false, rx, tx, .pop⟩ := step_idle hidle hspif
  rw [stopsWith_step nofun, hreset, stopsWith_step nofun, hselect]

/-- The next byte is taken out of the buffer, and its transfer started. -/
theorem stopsWith_pop (w : Wire) (done : Bool) (rx : CircularBuffer kTXRXBufferSize)
    (Q : Buffered → Prop) {byte : UInt8} {q : List UInt8}
    (htx : tx.Represents (byte :: q)) (hidle : r.shifting = none) (hspif : r.spif = false) :
    ∃ r' tx', tx'.Represents q ∧
      r'.shifting = some ⟨byte, w.reply r.started, w.delay r.started⟩ ∧ r'.spif = false ∧
      r'.shifted = r.shifted ∧
      (StopsWith (step w) Returned Q ⟨r, done, rx, tx, .pop⟩ ↔
        StopsWith (step w) Returned Q ⟨r', done, rx, tx', .wait⟩) := by
  obtain ⟨tx', hpop, htx'⟩ := proceed_pop w r done rx htx
  have hwrite : step w ⟨r, done, rx, tx', .write byte⟩ =
      ⟨r.writeSPDR w byte, done, rx, tx', .wait⟩ := step_idle hidle hspif
  refine ⟨r.writeSPDR w byte, tx', htx', ?_⟩
  rw [stopsWith_step nofun, step_idle hidle hspif, hpop, stopsWith_step nofun, hwrite,
    r.writeSPDR_idle hidle]
  refine ⟨rfl, r.accessSPDR_spif ?_, rfl, Iff.rfl⟩
  rw [hspif]
  nofun

/-- One byte, or none. -/
theorem delivers_short {bytes : List UInt8} (hshort : bytes.length ≤ 1)
    (htx : tx.Represents bytes) (hidle : r.shifting = none) (hspif : r.spif = false)
    (hshifted : r.shifted = []) :
    StopsWith (step w) Returned (·.registers.Delivered bytes) ⟨r, done, rx, tx, .reset⟩ := by
  rw [stopsWith_reset hidle hspif]
  match bytes, hshort with
  | [], _ => exact delivers_end htx hidle hspif hshifted
  | [byte], _ =>
    obtain ⟨r', tx', htx', hrunning, hspif', hshifted', hiff⟩ := stopsWith_pop w
      false rx (·.registers.Delivered [byte]) (r := { r with slaveSelect := false }) htx hidle hspif
    rw [hiff]
    refine delivers_wait htx' hrunning hspif' ?_
    rw [hshifted', hshifted]
    rfl

/-- With the flag still set from an earlier byte nothing waits: the rest of the buffer is written
into the running transfer, and slave select is raised before that has ended. -/
theorem not_delivers_pop {q : List UInt8} {byte reply : UInt8} {left : Nat}
    (htx : tx.Represents q) (hrunning : r.shifting = some ⟨byte, reply, left⟩)
    (hlong : 3 * q.length + 2 ≤ left) (hspif : r.spif = false) :
    ¬StopsWith (step w) Returned (·.registers.Delivered out) ⟨r, true, rx, tx, .pop⟩ := by
  induction q generalizing r tx left with
  | nil =>
    obtain ⟨left, rfl⟩ : ∃ k, left = k + 2 := ⟨left - 2, by omega⟩
    have hraise : step w ⟨{ r with shifting := some ⟨byte, reply, left + 1⟩ }, true, rx, tx,
          .deselect⟩ =
        ⟨{ r with shifting := some ⟨byte, reply, left⟩, slaveSelect := true }, true, rx, tx,
          .returned⟩ := step_running rfl hspif
    rw [stopsWith_step nofun, step_running hrunning hspif, proceed_pop_empty htx,
      stopsWith_step nofun, hraise]
    intro h
    have hended := (h.here rfl).shifting
    cases hended
  | cons next q ih =>
    rw [List.length_cons] at hlong
    obtain ⟨left, rfl⟩ : ∃ k, left = k + 3 := ⟨left - 3, by omega⟩
    obtain ⟨tx', hpop, htx'⟩ := proceed_pop w
      { r with shifting := some ⟨byte, reply, left + 2⟩ } true rx htx
    -- the write is a collision, and the transfer goes on
    have hwrite : step w ⟨{ r with shifting := some ⟨byte, reply, left + 2⟩ }, true, rx, tx',
          .write next⟩ =
        ⟨{ r.accessSPDR with shifting := some ⟨byte, reply, left + 1⟩, wcol := true }, true, rx,
          tx', .wait⟩ := step_running rfl hspif
    have hspif' : r.accessSPDR.spif = false := by simp [Registers.accessSPDR, hspif]
    have hwait : step w ⟨{ r.accessSPDR with
            shifting := some ⟨byte, reply, left + 1⟩, wcol := true }, true, rx, tx', .wait⟩ =
        ⟨{ r.accessSPDR with shifting := some ⟨byte, reply, left⟩, wcol := true }, true, rx, tx',
          .pop⟩ := step_running rfl hspif'
    rw [stopsWith_step nofun, step_running hrunning hspif, hpop, stopsWith_step nofun, hwrite,
      stopsWith_step nofun, hwait]
    exact ih htx' rfl (by omega) hspif'

/-- The second byte of a call is written when the flag is set. -/
theorem not_delivers_wait {q : List UInt8} {next byte reply : UInt8} {left : Nat}
    (htx : tx.Represents (next :: q)) (hslow : ∀ k, 3 * q.length + 3 ≤ w.delay k)
    (hrunning : r.shifting = some ⟨byte, reply, left⟩) (hspif : r.spif = false) :
    ¬StopsWith (step w) Returned (·.registers.Delivered out) ⟨r, false, rx, tx, .wait⟩ := by
  induction left generalizing r with
  | zero =>
    obtain ⟨r₁, rx', hstep, hidle, hspif₁, -⟩ := step_last w false rx tx
      .wait hrunning
    obtain ⟨r₂, tx', htx', hrunning₂, hspif₂, -, hiff⟩ := stopsWith_pop w true
      rx' (·.registers.Delivered out) htx hidle hspif₁
    have hlong := hslow r₁.started
    obtain ⟨left, hleft⟩ : ∃ k, w.delay r₁.started = k + 1 := ⟨w.delay r₁.started - 1, by omega⟩
    rw [hleft] at hrunning₂
    rw [stopsWith_step nofun, hstep, stopsWith_step nofun, step_idle hidle hspif₁]
    change ¬StopsWith (step w) Returned _ ⟨r₁, true, rx', tx, .pop⟩
    rw [hiff, stopsWith_step nofun, step_running hrunning₂ hspif₂]
    exact not_delivers_pop htx' rfl (by omega) hspif₂
  | succ left ih =>
    rw [stopsWith_step nofun, step_running hrunning hspif]
    exact ih rfl hspif

end Buffered

theorem Sending.buffered_eq (c : Sending) (s : Buffered) :
    c.buffered s = { s with txBuffer := Buffered.pushAll c.bytes s.txBuffer, place := .reset } := by
  cases c <;> rfl

/-- What a call puts into the empty buffer. -/
theorem Sending.pushAll_represents (c : Sending) {b : CircularBuffer kTXRXBufferSize}
    (h : b.Represents []) :
    (Buffered.pushAll c.bytes b).Represents (c.bytes.take kTXRXBufferSize) :=
  h.pushAll (by decide) c.bytes

/-- With transfers that take their time, slave select is raised before the second byte is out. -/
theorem Sending.not_delivered (c : Sending) (hlong : 2 ≤ c.bytes.length) (out : List UInt8) :
    ∃ (w : Wire) (s : Buffered), s.AtRest ∧
      ¬StopsWith (Buffered.step w) Buffered.Returned (·.registers.Delivered out)
        (c.buffered s) := by
  refine ⟨⟨fun _ => 64, fun _ => 0⟩, .start, ⟨rfl, rfl, rfl, .start (by decide)⟩, ?_⟩
  rw [c.buffered_eq]
  have htx := c.pushAll_represents (.start (by decide))
  obtain ⟨first, second, rest, hbytes⟩ : ∃ a b l, c.bytes = a :: b :: l := by
    match c.bytes, hlong with
    | a :: b :: l, _ => exact ⟨a, b, l, rfl⟩
  have htake : c.bytes.take kTXRXBufferSize = first :: second :: rest.take 14 := by
    rw [hbytes]
    rfl
  rw [htake] at htx
  obtain ⟨r, tx', htx', hrunning, hspif, -, hiff⟩ := Buffered.stopsWith_pop
    ⟨fun _ => 64, fun _ => 0⟩ false .start (·.registers.Delivered out)
    (r := { Registers.start with slaveSelect := false }) htx rfl rfl
  intro h
  have hpop := (Buffered.stopsWith_reset rfl rfl).mp h
  refine Buffered.not_delivers_wait htx' ?_ hrunning hspif (hiff.mp hpop)
  intro k
  have hrest := List.length_take_le 14 rest
  simp only
  omega

/-- The buffered variant does what the polled one does exactly if there is no more than one
byte. -/
theorem Sending.equivalent_iff (c : Sending) : c.Equivalent ↔ c.bytes.length ≤ 1 := by
  constructor
  · rintro ⟨out, -, hbuffered⟩
    by_contra hlong
    obtain ⟨w, s, hs, hnot⟩ := c.not_delivered (by omega) out
    exact hnot (hbuffered w s hs)
  · intro hshort
    refine ⟨c.bytes, fun w r hr => c.polled_delivers w hr, fun w s hs => ?_⟩
    have htx := c.pushAll_represents hs.txBuffer
    rw [List.take_of_length_le (hshort.trans (by decide))] at htx
    rw [c.buffered_eq]
    exact Buffered.delivers_short hshort htx hs.shifting hs.spif hs.shifted

/-- Two bytes are one too many. -/
theorem Sending.not_equivalent_two : ¬(Sending.sendBytes [1, 2]).Equivalent := by
  rintro ⟨out, -, hbuffered⟩
  obtain ⟨w, s, hs, hnot⟩ := (Sending.sendBytes [1, 2]).not_delivered (by decide) out
  exact hnot (hbuffered w s hs)

end SmartBell.Serial
