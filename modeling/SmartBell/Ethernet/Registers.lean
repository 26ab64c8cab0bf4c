import SmartBell.Common.Looping
import SmartBell.Ethernet.Chip
import SmartBell.Ethernet.Frames

/-!
# Registers of a socket

The register functions of `w5500.h` and the rest of `w5500.c`, on the board: the chip, what happens
to it before each of the bytes that are still to go over the bus, and the variables of the library.
A computation that needs one more byte than that stops. So does one that C leaves undefined: an
access before the callbacks are registered, and one past the end of an array.
-/
namespace SmartBell.Ethernet.W5500
open Common

/-- The chip and what is to happen to it, whether the callbacks of the bus are registered, and the
static variables of `socket.c`, with the fact that an access went past one of the arrays. -/
structure Board where
  chip : Chip
  schedule : List (List Chip.Event)
  registered : Bool
  sockAnyPort : UInt16
  sockIoMode : UInt16
  sockIsSending : UInt16
  sockRemainedSize : Vector UInt16 wizchipSockNum
  sockPackInfo : Vector UInt8 wizchipSockNum
  overrun : Bool

/-- The board after power-up, and what is to happen. -/
def Board.powerUp (schedule : List (List Chip.Event)) : Board where
  chip := .powerUp
  schedule
  registered := false
  sockAnyPort := 0xC000
  sockIoMode := 0
  sockIsSending := 0
  sockRemainedSize := .replicate wizchipSockNum 0
  sockPackInfo := .replicate wizchipSockNum 0
  overrun := false

/-- What happens before the next byte goes over the bus. -/
def elapse : Attempt Board Unit := fun s =>
  match s.schedule with
  | [] => (none, s)
  | es :: schedule => (some (), { s with chip := run Chip.happen s.chip es, schedule })

/-- The next byte. The library starts with the functions for another bus, which know nothing of this
one, in the place of the callbacks. -/
def transfer : Attempt Board Unit := fun s => if s.registered then elapse s else (none, s)

/-- An access past the end of an array. -/
def overrun {α : Type} : Attempt Board α := fun s => (none, { s with overrun := true })

def board : Device Board where
  read block offset := do
    transfer
    let s ← Attempt.read
    pure (s.chip.read block offset)
  write block offset v := do
    transfer
    .modify fun s => { s with chip := s.chip.write block offset v }

/-- The callbacks that `W5500Interface::init` registers. -/
def callbacks : Callbacks := ⟨true, true⟩

/-! ## Register functions -/

def sregBlock (sn : UInt8) : UInt32 := 1 + 4 * sn.toUInt32
def txbufBlock (sn : UInt8) : UInt32 := 2 + 4 * sn.toUInt32
def rxbufBlock (sn : UInt8) : UInt32 := 3 + 4 * sn.toUInt32

def wizchipOffsetInc (addrSel n : UInt32) : UInt32 := addrSel + (n <<< 8)

/-- The address of a register of socket `sn`. -/
def snReg (reg : UInt16) (sn : UInt8) : UInt32 := addrSel reg (sregBlock sn)

def getByte (reg : UInt16) (sn : UInt8) : Attempt Board UInt8 :=
  wizchipRead board callbacks (snReg reg sn)

def setByte (reg : UInt16) (sn v : UInt8) : Attempt Board Unit :=
  wizchipWrite board callbacks (snReg reg sn) v

def getWord (reg : UInt16) (sn : UInt8) : Attempt Board UInt16 := do
  let high ← wizchipRead board callbacks (snReg reg sn)
  let low ← wizchipRead board callbacks (wizchipOffsetInc (snReg reg sn) 1)
  pure (joinBytes high low)

def setWord (reg : UInt16) (sn : UInt8) (w : UInt16) : Attempt Board Unit := do
  wizchipWrite board callbacks (snReg reg sn) (highByte w)
  wizchipWrite board callbacks (wizchipOffsetInc (snReg reg sn) 1) (lowByte w)

variable (sn : UInt8)

def getSnMR := getByte snMR sn
def setSnMR (mr : UInt8) := setByte snMR sn mr
def getSnCR := getByte snCR sn
def setSnCR (cr : UInt8) := setByte snCR sn cr
def getSnIR : Attempt Board UInt8 := do
  let ir ← getByte snIR sn
  pure (ir &&& 0x1F)
def setSnIR (ir : UInt8) := setByte snIR sn (ir &&& 0x1F)
def getSnIMR : Attempt Board UInt8 := do
  let imr ← getByte snIMR sn
  pure (imr &&& 0x1F)
def setSnIMR (imr : UInt8) := setByte snIMR sn (imr &&& 0x1F)
def getSnSR := getByte snSR sn
def setSnPORT (port : UInt16) := setWord snPORT sn port
def getSnDIPR := wizchipReadBuf board callbacks (snReg snDIPR sn) 4
def setSnDIPR (dipr : Vector UInt8 4) :=
  wizchipWriteBuf board callbacks (snReg snDIPR sn) dipr.toList 4
def getSnDPORT := getWord snDPORT sn
def setSnDPORT (dport : UInt16) := setWord snDPORT sn dport
def getSnMSSR := getWord snMSSR sn
def setSnMSSR (mss : UInt16) := setWord snMSSR sn mss
def getSnTOS := getByte snTOS sn
def setSnTOS (tos : UInt8) := setByte snTOS sn tos
def getSnTTL := getByte snTTL sn
def setSnTTL (ttl : UInt8) := setByte snTTL sn ttl
def getSnRXBUFSIZE := getByte snRXBUFSIZE sn
def getSnTXBUFSIZE := getByte snTXBUFSIZE sn
def getSnTXWR := getWord snTXWR sn
def setSnTXWR (txwr : UInt16) := setWord snTXWR sn txwr
def getSnRXRD := getWord snRXRD sn
def setSnRXRD (rxrd : UInt16) := setWord snRXRD sn rxrd
def getSnKPALVTR := getByte snKPALVTR sn
def setSnKPALVTR (kpalvt : UInt8) := setByte snKPALVTR sn kpalvt
def getSnRxMAX : Attempt Board UInt16 := do
  let size ← getSnRXBUFSIZE sn
  pure (size.toUInt16 <<< 10)
def getSnTxMAX : Attempt Board UInt16 := do
  let size ← getSnTXBUFSIZE sn
  pure (size.toUInt16 <<< 10)

/-! ## `w5500.c` -/

/-- Loops end with the schedule. -/
def Board.ahead (s : Board) : Nat := s.schedule.length

/-- A register of two bytes that changes under the reader's hands is read until two values agree. -/
def readTwice (reg : UInt16) (sn : UInt8) : Attempt Board UInt16 :=
  Attempt.loop Board.ahead (fun val => do
    let val1 ← getWord reg sn
    if val1 ≠ 0 then do
      let val ← getWord reg sn
      pure (if val ≠ val1 then .inl val else .inr val)
    else pure (if val ≠ val1 then .inl val else .inr val)) 0

def getSnTXFSR := readTwice snTXFSR sn

def getSnRXRSR := readTwice snRXRSR sn

def wizSendData (wizdata : List UInt8) (len : UInt16) : Attempt Board Unit :=
  if len = 0 then pure ()
  else do
    let ptr ← getSnTXWR sn
    wizchipWriteBuf board callbacks (addrSel ptr (txbufBlock sn)) wizdata len
    setSnTXWR sn (ptr + len)

def wizRecvData (len : UInt16) : Attempt Board (List UInt8) :=
  if len = 0 then pure []
  else do
    let ptr ← getSnRXRD sn
    let wizdata ← wizchipReadBuf board callbacks (addrSel ptr (rxbufBlock sn)) len
    setSnRXRD sn (ptr + len)
    pure wizdata

def wizRecvIgnore (len : UInt16) : Attempt Board Unit := do
  let ptr ← getSnRXRD sn
  setSnRXRD sn (ptr + len)

/-! ## What the accesses are -/

/-- A look at a socket, after whatever happens before. -/
def peek {α : Type} (n : Fin 8) (f : Socket → α) : Attempt Board α := do
  transfer
  let s ← .read
  pure (f (s.chip.sockets n))

def Board.update (s : Board) (n : Fin 8) (g : Socket → Socket) : Board :=
  { s with chip := s.chip.setSocket n (g (s.chip.sockets n)) }

/-- A change of a socket by the host. -/
def poke (n : Fin 8) (g : Socket → Socket) : Attempt Board Unit := do
  transfer
  .modify fun s => s.update n g

namespace Socket

/-- The host writes into the transmit buffer. -/
def writeTx (x : Socket) (offset : UInt16) (v : UInt8) : Socket :=
  { x with tx := Function.update x.tx (offset.toNat % x.txSize) v }

def readRx (x : Socket) (offset : UInt16) : UInt8 := x.rx (offset.toNat % x.rxSize)

end Socket

/-- The socket whose blocks the number selects, and how far the offsets are off then. -/
def slotOf (sn : UInt8) : Fin 8 := ⟨sn.toNat % 8, Nat.mod_lt _ (by decide)⟩

def shiftOf (sn : UInt8) : UInt16 := (sn / 8).toUInt16

theorem shiftOf_eq_zero {sn : UInt8} (h : sn.toNat < 8) : shiftOf sn = 0 := by
  have hdiv : sn / 8 = 0 := by
    apply UInt8.toNat_inj.mp
    rw [UInt8.toNat_div]
    exact Nat.div_eq_of_lt h
  rw [shiftOf, hdiv]
  rfl

/-- The number of a block of that kind, of socket `sn`. -/
def Selects (kind : UInt8) (sn : UInt8) (block : UInt32) : Prop :=
  (block % 32).toUInt8 ≠ 0 ∧ (block % 32).toUInt8 % 4 = kind ∧
    Chip.slot (block % 32).toUInt8 = slotOf sn ∧ (block / 32).toUInt16 = shiftOf sn

instance (kind sn : UInt8) (block : UInt32) : Decidable (Selects kind sn block) :=
  inferInstanceAs (Decidable (_ ∧ _))

theorem sregBlock_selects (sn : UInt8) : Selects 1 sn (sregBlock sn) :=
  forall_byte (P := fun sn => Selects 1 sn (sregBlock sn)) (by decide +kernel) sn

theorem txbufBlock_selects (sn : UInt8) : Selects 2 sn (txbufBlock sn) :=
  forall_byte (P := fun sn => Selects 2 sn (txbufBlock sn)) (by decide +kernel) sn

theorem rxbufBlock_selects (sn : UInt8) : Selects 3 sn (rxbufBlock sn) :=
  forall_byte (P := fun sn => Selects 3 sn (rxbufBlock sn)) (by decide +kernel) sn

variable (reg : UInt16) (sn : UInt8)

/-- A register of a socket is a look at that socket. -/
theorem wizchipRead_snReg : wizchipRead board callbacks (snReg reg sn) =
    peek (slotOf sn) fun x => x.read (reg + shiftOf sn) := by
  obtain ⟨hzero, hkind, hslot, hshift⟩ := sregBlock_selects sn
  rw [snReg, wizchipRead_addrSel, hshift]
  simp [board, peek, Chip.read, hzero, hkind, hslot]

theorem wizchipWrite_snReg (v : UInt8) : wizchipWrite board callbacks (snReg reg sn) v =
    poke (slotOf sn) fun x => x.write (reg + shiftOf sn) v := by
  obtain ⟨hzero, hkind, hslot, hshift⟩ := sregBlock_selects sn
  rw [snReg, wizchipWrite_addrSel, hshift]
  simp [board, poke, Chip.write, Board.update, hzero, hkind, hslot]

theorem getByte_eq : getByte reg sn = peek (slotOf sn) fun x => x.read (reg + shiftOf sn) :=
  wizchipRead_snReg reg sn

theorem setByte_eq (v : UInt8) :
    setByte reg sn v = poke (slotOf sn) fun x => x.write (reg + shiftOf sn) v :=
  wizchipWrite_snReg reg sn v

theorem wizchipOffsetInc_snReg (h : reg ≠ 0xFFFF) :
    wizchipOffsetInc (snReg reg sn) 1 = snReg (reg + 1) sn := by
  have hlt := reg.toNat_lt
  have hmax : reg.toNat ≠ 65535 := fun hmax => h (UInt16.toNat_inj.mp hmax)
  have hone : ((1 : UInt32) <<< 8).toNat = 256 := by decide
  have hsucc : (reg + 1).toNat = reg.toNat + 1 := by
    rw [UInt16.toNat_add, UInt16.toNat_one]
    omega
  apply UInt32.toNat_inj.mp
  rw [wizchipOffsetInc, UInt32.toNat_add, hone, snReg, snReg, addrSel_toNat, addrSel_toNat, hsucc]
  omega

theorem getWord_eq (h : reg ≠ 0xFFFF) : getWord reg sn = (do
    let high ← peek (slotOf sn) fun x => x.read (reg + shiftOf sn)
    let low ← peek (slotOf sn) fun x => x.read (reg + 1 + shiftOf sn)
    pure (joinBytes high low)) := by
  rw [getWord, wizchipOffsetInc_snReg reg sn h, wizchipRead_snReg, wizchipRead_snReg]

theorem setWord_eq (h : reg ≠ 0xFFFF) (w : UInt16) : setWord reg sn w = (do
    poke (slotOf sn) fun x => x.write (reg + shiftOf sn) (highByte w)
    poke (slotOf sn) fun x => x.write (reg + 1 + shiftOf sn) (lowByte w)) := by
  rw [setWord, wizchipOffsetInc_snReg reg sn h, wizchipWrite_snReg, wizchipWrite_snReg]

/-- Looks at consecutive bytes, one after the other. -/
def peekEach (n : Fin 8) (f : UInt16 → Socket → UInt8) : UInt16 → Nat → Attempt Board (List UInt8)
  | _, 0 => pure []
  | offset, k + 1 => do
    let v ← peek n (f offset)
    let vs ← peekEach n f (offset + 1) k
    pure (v :: vs)

def pokeEach (n : Fin 8) (g : UInt16 → UInt8 → Socket → Socket) :
    UInt16 → List UInt8 → Attempt Board Unit
  | _, [] => pure ()
  | offset, v :: vs => do
    poke n (g offset v)
    pokeEach n g (offset + 1) vs

theorem readBytes_eq {block : UInt8} {n : Fin 8} {f : UInt16 → Socket → UInt8}
    (h : ∀ offset, board.read block offset = peek n (f offset)) (offset : UInt16) (k : Nat) :
    board.readBytes block offset k = peekEach n f offset k := by
  induction k generalizing offset with
  | zero => rfl
  | succ k ih => simp only [Device.readBytes, peekEach, h, ih]

theorem writeBytes_eq {block : UInt8} {n : Fin 8} {g : UInt16 → UInt8 → Socket → Socket}
    (h : ∀ offset v, board.write block offset v = poke n (g offset v)) (offset : UInt16)
    (vs : List UInt8) : board.writeBytes block offset vs = pokeEach n g offset vs := by
  induction vs generalizing offset with
  | nil => rfl
  | cons v vs ih => simp only [Device.writeBytes, pokeEach, h, ih]

theorem wizchipWriteBuf_snReg (pBuf : List UInt8) (len : UInt16) :
    wizchipWriteBuf board callbacks (snReg reg sn) pBuf len =
      pokeEach (slotOf sn) (fun offset v x => x.write offset v) (reg + shiftOf sn)
        (pBuf.take len.toNat) := by
  obtain ⟨hzero, hkind, hslot, hshift⟩ := sregBlock_selects sn
  rw [snReg, wizchipWriteBuf_addrSel, hshift]
  refine writeBytes_eq (fun offset v => ?_) _ _
  simp [board, poke, Chip.write, Board.update, hzero, hkind, hslot]

theorem wizchipReadBuf_rxbuf (ptr : UInt16) (len : UInt16) :
    wizchipReadBuf board callbacks (addrSel ptr (rxbufBlock sn)) len =
      peekEach (slotOf sn) (fun offset x => x.readRx offset) (ptr + shiftOf sn) len.toNat := by
  obtain ⟨hzero, hkind, hslot, hshift⟩ := rxbufBlock_selects sn
  rw [wizchipReadBuf_addrSel, hshift]
  refine readBytes_eq (fun offset => ?_) _ _
  simp [board, peek, Chip.read, Socket.readRx, hzero, hkind, hslot]

theorem wizchipWriteBuf_txbuf (ptr : UInt16) (pBuf : List UInt8) (len : UInt16) :
    wizchipWriteBuf board callbacks (addrSel ptr (txbufBlock sn)) pBuf len =
      pokeEach (slotOf sn) (fun offset v x => x.writeTx offset v) (ptr + shiftOf sn)
        (pBuf.take len.toNat) := by
  obtain ⟨hzero, hkind, hslot, hshift⟩ := txbufBlock_selects sn
  rw [wizchipWriteBuf_addrSel, hshift]
  refine writeBytes_eq (fun offset v => ?_) _ _
  simp [board, poke, Chip.write, Board.update, Socket.writeTx, hzero, hkind, hslot]

end SmartBell.Ethernet.W5500
