import SmartBell.Common.Attempt
import SmartBell.Common.Bytes

/-!
# SPI frames

The access functions of `w5500.c`. A frame is the offset, a control byte with the number of the
block and the direction, and then data bytes for this offset and the ones behind it. The functions
send it byte by byte or, where the burst callbacks are registered, in bursts.
-/
namespace SmartBell.Ethernet.W5500
open Common

/-- A chip with blocks of bytes. An access may have an effect, and may never come to an end. -/
structure Device (σ : Type) where
  read (block : UInt8) (offset : UInt16) : Attempt σ UInt8
  write (block : UInt8) (offset : UInt16) (value : UInt8) : Attempt σ Unit

namespace Device
variable {σ : Type} (d : Device σ)

/-- So many bytes from this offset on. -/
def readBytes (block : UInt8) : UInt16 → Nat → Attempt σ (List UInt8)
  | _, 0 => pure []
  | offset, n + 1 => do
    let v ← d.read block offset
    let vs ← readBytes block (offset + 1) n
    pure (v :: vs)

def writeBytes (block : UInt8) : UInt16 → List UInt8 → Attempt σ Unit
  | _, [] => pure ()
  | offset, v :: vs => do
    d.write block offset v
    writeBytes block (offset + 1) vs

end Device

section Frames
variable {σ : Type} (d : Device σ)

/-! ## The chip's side of the bus -/

/-- What the next byte of a frame is. -/
inductive Phase where
  | high
  | low (high : UInt8)
  | control (offset : UInt16)
  | data (block : UInt8) (writes : Bool) (offset : UInt16)

/-- A byte over the bus, in exchange for one of the chip's. The control byte has to ask for data of
variable length; with a frame of one of the fixed lengths it goes no further. -/
def exchange (out : UInt8) : Attempt (Phase × σ) UInt8
  | (.high, s) => (some 0, .low out, s)
  | (.low high, s) => (some 0, .control (joinBytes high out), s)
  | (.control offset, s) =>
    if out &&& 3 = 0 then (some 0, .data (out >>> 3) (out &&& 4 ≠ 0) offset, s)
    else (none, .control offset, s)
  | (.data block true offset, s) =>
    ((d.write block offset out s).1.map fun _ => 0, .data block true (offset + 1),
      (d.write block offset out s).2)
  | (.data block false offset, s) =>
    ((d.read block offset s).1, .data block false (offset + 1), (d.read block offset s).2)

/-- A frame, from `CS._select` to `CS._deselect`. -/
def selected {α : Type} (x : Attempt (Phase × σ) α) : Attempt σ α := fun s =>
  ((x (.high, s)).1, (x (.high, s)).2.2)

/-! ## Callbacks -/

/-- A dummy byte generates the clock. -/
def cbSpiRead : Attempt (Phase × σ) UInt8 := exchange d 0xFF

def cbSpiWrite (data : UInt8) : Attempt (Phase × σ) Unit := do
  let _ ← exchange d data

def cbSpiReadBurst : Nat → Attempt (Phase × σ) (List UInt8)
  | 0 => pure []
  | len + 1 => do
    let v ← exchange d 0xFF
    let vs ← cbSpiReadBurst len
    pure (v :: vs)

def cbSpiWriteBurst : List UInt8 → Attempt (Phase × σ) Unit
  | [] => pure ()
  | data :: rest => do
    let _ ← exchange d data
    cbSpiWriteBurst rest

/-- Which burst callbacks are registered. -/
structure Callbacks where
  readBurst : Bool
  writeBurst : Bool
  deriving DecidableEq, Repr

/-! ## Access functions -/

def w5500SpiRead : UInt32 := (0x00 : UInt32) <<< 2
def w5500SpiWrite : UInt32 := (0x01 : UInt32) <<< 2
def w5500SpiVdmOp : UInt32 := 0x00

def addrHigh (addrSel : UInt32) : UInt8 := ((addrSel &&& 0x00FF0000) >>> 16).toUInt8
def addrMiddle (addrSel : UInt32) : UInt8 := ((addrSel &&& 0x0000FF00) >>> 8).toUInt8
def addrLow (addrSel : UInt32) : UInt8 := ((addrSel &&& 0x000000FF) >>> 0).toUInt8

/-- The address with three byte operations. -/
def writeAddrSel (addrSel : UInt32) : Attempt (Phase × σ) Unit := do
  cbSpiWrite d (addrHigh addrSel)
  cbSpiWrite d (addrMiddle addrSel)
  cbSpiWrite d (addrLow addrSel)

def spiData (addrSel : UInt32) : List UInt8 :=
  [addrHigh addrSel, addrMiddle addrSel, addrLow addrSel]

variable (w : Callbacks)

def wizchipRead (addrSel : UInt32) : Attempt σ UInt8 := selected do
  let addrSel := addrSel ||| (w5500SpiRead ||| w5500SpiVdmOp)
  if !w.readBurst || !w.writeBurst then writeAddrSel d addrSel
  else cbSpiWriteBurst d (spiData addrSel)
  cbSpiRead d

def wizchipWrite (addrSel : UInt32) (wb : UInt8) : Attempt σ Unit := selected do
  let addrSel := addrSel ||| (w5500SpiWrite ||| w5500SpiVdmOp)
  if !w.writeBurst then do
    writeAddrSel d addrSel
    cbSpiWrite d wb
  else cbSpiWriteBurst d (spiData addrSel ++ [wb])

/-- The loop of byte operations over a buffer to be filled. -/
def readEach : Nat → Attempt (Phase × σ) (List UInt8)
  | 0 => pure []
  | len + 1 => do
    let v ← cbSpiRead d
    let vs ← readEach len
    pure (v :: vs)

def writeEach : List UInt8 → Attempt (Phase × σ) Unit
  | [] => pure ()
  | v :: pBuf => do
    cbSpiWrite d v
    writeEach pBuf

def wizchipReadBuf (addrSel : UInt32) (len : UInt16) : Attempt σ (List UInt8) := selected do
  let addrSel := addrSel ||| (w5500SpiRead ||| w5500SpiVdmOp)
  if !w.readBurst || !w.writeBurst then do
    writeAddrSel d addrSel
    readEach d len.toNat
  else do
    cbSpiWriteBurst d (spiData addrSel)
    cbSpiReadBurst d len.toNat

def wizchipWriteBuf (addrSel : UInt32) (pBuf : List UInt8) (len : UInt16) : Attempt σ Unit :=
  selected do
    let addrSel := addrSel ||| (w5500SpiWrite ||| w5500SpiVdmOp)
    if !w.writeBurst then do
      writeAddrSel d addrSel
      writeEach d (pBuf.take len.toNat)
    else do
      cbSpiWriteBurst d (spiData addrSel)
      cbSpiWriteBurst d (pBuf.take len.toNat)

end Frames

/-! ## What the frames say -/

/-- The offset that an address selects. -/
def offsetOf (addrSel : UInt32) : UInt16 := (addrSel >>> 8).toUInt16

/-- The block that an address selects. -/
def blockOf (addrSel : UInt32) : UInt8 := (addrSel >>> 3).toUInt8 &&& 0x1F

/-- An address without the bits for the direction and the length of the data. -/
def Plain (addrSel : UInt32) : Prop := addrSel &&& 7 = 0

instance (addrSel : UInt32) : Decidable (Plain addrSel) := inferInstanceAs (Decidable (_ = _))

theorem addrHigh_toNat (a : UInt32) : (addrHigh a).toNat = a.toNat / 65536 % 256 := by
  have hshift : (16 : UInt32).toNat % 32 = 16 := by decide
  have hmask : (0x00FF0000 : UInt32).toNat >>> 16 = 2 ^ 8 - 1 := by decide
  rw [addrHigh, UInt32.toNat_toUInt8, UInt32.toNat_shiftRight, UInt32.toNat_and, hshift,
    Nat.shiftRight_and_distrib, hmask, Nat.and_two_pow_sub_one_eq_mod, Nat.shiftRight_eq_div_pow]
  omega

theorem addrMiddle_toNat (a : UInt32) : (addrMiddle a).toNat = a.toNat / 256 % 256 := by
  have hshift : (8 : UInt32).toNat % 32 = 8 := by decide
  have hmask : (0x0000FF00 : UInt32).toNat >>> 8 = 2 ^ 8 - 1 := by decide
  rw [addrMiddle, UInt32.toNat_toUInt8, UInt32.toNat_shiftRight, UInt32.toNat_and, hshift,
    Nat.shiftRight_and_distrib, hmask, Nat.and_two_pow_sub_one_eq_mod, Nat.shiftRight_eq_div_pow]
  omega

theorem addrLow_toNat (a : UInt32) : (addrLow a).toNat = a.toNat % 256 := by
  have hshift : (0 : UInt32).toNat % 32 = 0 := by decide
  have hmask : (0x000000FF : UInt32).toNat = 2 ^ 8 - 1 := by decide
  rw [addrLow, UInt32.toNat_toUInt8, UInt32.toNat_shiftRight, UInt32.toNat_and, hshift, hmask,
    Nat.and_two_pow_sub_one_eq_mod]
  simp

theorem offsetOf_eq (a : UInt32) : joinBytes (addrHigh a) (addrMiddle a) = offsetOf a := by
  have hshift : (8 : UInt32).toNat % 32 = 8 := by decide
  apply UInt16.toNat_inj.mp
  rw [joinBytes_toNat, addrHigh_toNat, addrMiddle_toNat, offsetOf, UInt32.toNat_toUInt16,
    UInt32.toNat_shiftRight, hshift, Nat.shiftRight_eq_div_pow]
  omega

theorem blockOf_eq (a : UInt32) : addrLow a >>> 3 = blockOf a := by
  have hshift : (3 : UInt32).toNat % 32 = 3 := by decide
  have hshift' : (3 : UInt8).toNat % 8 = 3 := by decide
  have hmask : (0x1F : UInt8).toNat = 2 ^ 5 - 1 := by decide
  apply UInt8.toNat_inj.mp
  rw [UInt8.toNat_shiftRight, addrLow_toNat, blockOf, UInt8.toNat_and, UInt32.toNat_toUInt8,
    UInt32.toNat_shiftRight, hshift, hshift', hmask, Nat.and_two_pow_sub_one_eq_mod,
    Nat.shiftRight_eq_div_pow, Nat.shiftRight_eq_div_pow]
  omega

/-- The bits for the length of the data, and the one that makes a frame one that writes. -/
theorem and_three_eq_zero_iff (b : UInt8) : b &&& 3 = 0 ↔ b.toNat % 4 = 0 :=
  forall_byte (P := fun b => b &&& 3 = 0 ↔ b.toNat % 4 = 0) (by decide +kernel) b

theorem and_four_ne_zero_iff (b : UInt8) : b &&& 4 ≠ 0 ↔ b.toNat / 4 % 2 = 1 :=
  forall_byte (P := fun b => b &&& 4 ≠ 0 ↔ b.toNat / 4 % 2 = 1) (by decide +kernel) b

theorem Plain.toNat {a : UInt32} (h : Plain a) : a.toNat % 8 = 0 := by
  have hmask : (7 : UInt32).toNat = 2 ^ 3 - 1 := by decide
  have hzero := congrArg UInt32.toNat h
  rwa [UInt32.toNat_and, hmask, Nat.and_two_pow_sub_one_eq_mod] at hzero

theorem Plain.reads {a : UInt32} (h : Plain a) : ¬(addrLow a &&& 4 ≠ 0) := by
  have hmod := h.toNat
  rw [and_four_ne_zero_iff, addrLow_toNat]
  omega

theorem Plain.variable_length {a : UInt32} (h : Plain a) : addrLow a &&& 3 = 0 := by
  have hmod := h.toNat
  rw [and_three_eq_zero_iff, addrLow_toNat]
  omega

/-- The bit for writing is none of the offset and the block. -/
theorem or_four_shiftRight (a k : Nat) (hk : 3 ≤ k) : (a ||| 4) >>> k = a >>> k := by
  have hfour : 4 >>> k = 0 := by
    rw [Nat.shiftRight_eq_div_pow]
    exact Nat.div_eq_of_lt (lt_of_lt_of_le (by decide) (Nat.pow_le_pow_right (by decide) hk))
  rw [Nat.shiftRight_or_distrib, hfour, Nat.or_zero]

theorem offsetOf_or_four (a : UInt32) : offsetOf (a ||| 4) = offsetOf a := by
  have hshift : (8 : UInt32).toNat % 32 = 8 := by decide
  have hfour : (4 : UInt32).toNat = 4 := rfl
  apply UInt16.toNat_inj.mp
  rw [offsetOf, offsetOf, UInt32.toNat_toUInt16, UInt32.toNat_toUInt16, UInt32.toNat_shiftRight,
    UInt32.toNat_shiftRight, hshift, UInt32.toNat_or, hfour, or_four_shiftRight _ _ (by decide)]

theorem blockOf_or_four (a : UInt32) : blockOf (a ||| 4) = blockOf a := by
  have hshift : (3 : UInt32).toNat % 32 = 3 := by decide
  have hfour : (4 : UInt32).toNat = 4 := rfl
  have hsame : (a ||| 4) >>> 3 = a >>> 3 := by
    apply UInt32.toNat_inj.mp
    rw [UInt32.toNat_shiftRight, UInt32.toNat_shiftRight, hshift, UInt32.toNat_or, hfour,
      or_four_shiftRight _ _ le_rfl]
  rw [blockOf, blockOf, hsame]

theorem writes_or_four (a : UInt32) : addrLow (a ||| 4) &&& 4 ≠ 0 := by
  have hfour : (4 : UInt32).toNat = 4 := rfl
  have hbit : (a.toNat ||| 4) / 4 % 2 = 1 := by
    have htest : (a.toNat ||| 4).testBit 2 = true := by
      rw [Nat.testBit_or]
      simp [show Nat.testBit 4 2 = true from rfl]
    simpa [Nat.testBit, Nat.shiftRight_eq_div_pow, Nat.one_and_eq_mod_two] using htest
  rw [and_four_ne_zero_iff, addrLow_toNat, UInt32.toNat_or, hfour]
  omega

theorem Plain.variable_length_or_four {a : UInt32} (h : Plain a) : addrLow (a ||| 4) &&& 3 = 0 := by
  have hfour : (4 : UInt32).toNat = 4 := rfl
  have hlow : (a.toNat ||| 4) % 2 ^ 2 = 0 := by
    have hmod := h.toNat
    have hzero : a.toNat % 2 ^ 2 = 0 := by omega
    rw [Nat.or_mod_two_pow, hzero]
    rfl
  rw [and_three_eq_zero_iff, addrLow_toNat, UInt32.toNat_or, hfour]
  omega

/-! ### The address phase -/

section Frames
variable {σ : Type} {d : Device σ}

theorem writeAddrSel_apply {a : UInt32} (h : addrLow a &&& 3 = 0) (s : σ) :
    writeAddrSel d a (.high, s) =
      (some (), .data (blockOf a) (addrLow a &&& 4 ≠ 0) (offsetOf a), s) := by
  simp [writeAddrSel, cbSpiWrite, exchange, Attempt.bind_apply, offsetOf_eq, blockOf_eq, h]

theorem cbSpiWriteBurst_spiData {a : UInt32} (h : addrLow a &&& 3 = 0) (rest : List UInt8) (s : σ) :
    cbSpiWriteBurst d (spiData a ++ rest) (.high, s) =
      cbSpiWriteBurst d rest (.data (blockOf a) (addrLow a &&& 4 ≠ 0) (offsetOf a), s) := by
  simp [spiData, cbSpiWriteBurst, exchange, Attempt.bind_apply, offsetOf_eq, blockOf_eq, h]

/-! ### The data phase -/

theorem exchange_read (out block : UInt8) (offset : UInt16) (s : σ) :
    exchange d out (.data block false offset, s) =
      ((d.read block offset s).1, .data block false (offset + 1), (d.read block offset s).2) := rfl

theorem exchange_write (out block : UInt8) (offset : UInt16) (s : σ) :
    exchange d out (.data block true offset, s) =
      ((d.write block offset out s).1.map fun _ => 0, .data block true (offset + 1),
        (d.write block offset out s).2) := rfl

theorem cbSpiReadBurst_apply (block : UInt8) (n : Nat) (offset : UInt16) (s : σ) :
    ∃ phase, cbSpiReadBurst d n (.data block false offset, s) =
      ((d.readBytes block offset n s).1, phase, (d.readBytes block offset n s).2) := by
  induction n generalizing offset s with
  | zero => exact ⟨_, rfl⟩
  | succ n ih =>
    rcases hread : d.read block offset s with ⟨_ | v, t⟩
    · refine ⟨.data block false (offset + 1), ?_⟩
      simp [cbSpiReadBurst, Device.readBytes, Attempt.bind_apply, exchange_read, hread]
    · obtain ⟨phase, hrest⟩ := ih (offset + 1) t
      refine ⟨phase, ?_⟩
      rcases hbytes : d.readBytes block (offset + 1) n t with ⟨_ | vs, u⟩
      all_goals
        rw [hbytes] at hrest
        simp [cbSpiReadBurst, Device.readBytes, Attempt.bind_apply, exchange_read, hread, hrest,
          hbytes]

theorem cbSpiWriteBurst_apply (block : UInt8) (vs : List UInt8) (offset : UInt16) (s : σ) :
    ∃ phase, cbSpiWriteBurst d vs (.data block true offset, s) =
      ((d.writeBytes block offset vs s).1, phase, (d.writeBytes block offset vs s).2) := by
  induction vs generalizing offset s with
  | nil => exact ⟨_, rfl⟩
  | cons v vs ih =>
    rcases hwrite : d.write block offset v s with ⟨_ | _, t⟩
    · refine ⟨.data block true (offset + 1), ?_⟩
      simp [cbSpiWriteBurst, Device.writeBytes, Attempt.bind_apply, exchange_write, hwrite]
    · obtain ⟨phase, hrest⟩ := ih (offset + 1) t
      refine ⟨phase, ?_⟩
      simp [cbSpiWriteBurst, Device.writeBytes, Attempt.bind_apply, exchange_write, hwrite, hrest]

theorem readEach_eq (n : Nat) : readEach d n = cbSpiReadBurst d n := by
  induction n with
  | zero => rfl
  | succ n ih => simp [readEach, cbSpiReadBurst, cbSpiRead, ih]

theorem writeEach_apply (vs : List UInt8) (s : Phase × σ) :
    writeEach d vs s = cbSpiWriteBurst d vs s := by
  induction vs generalizing s with
  | nil => rfl
  | cons v vs ih =>
    rcases hout : exchange d v s with ⟨_ | r, t⟩
    · simp [writeEach, cbSpiWriteBurst, cbSpiWrite, Attempt.bind_apply, hout]
    · simp [writeEach, cbSpiWriteBurst, cbSpiWrite, Attempt.bind_apply, hout, ih]

/-! ### The access functions -/

variable {w : Callbacks} {a : UInt32}

theorem Plain.writeAddrSel_read (h : Plain a) (s : σ) :
    writeAddrSel d (a ||| (w5500SpiRead ||| w5500SpiVdmOp)) (.high, s) =
      (some (), .data (blockOf a) false (offsetOf a), s) := by
  have hop : w5500SpiRead ||| w5500SpiVdmOp = 0 := by decide
  have hreads := h.reads
  rw [hop, UInt32.or_zero, writeAddrSel_apply h.variable_length]
  simp [hreads]

theorem Plain.spiData_read (h : Plain a) (s : σ) :
    cbSpiWriteBurst d (spiData (a ||| (w5500SpiRead ||| w5500SpiVdmOp))) (.high, s) =
      (some (), .data (blockOf a) false (offsetOf a), s) := by
  have hop : w5500SpiRead ||| w5500SpiVdmOp = 0 := by decide
  have hreads := h.reads
  have hburst := cbSpiWriteBurst_spiData (d := d) h.variable_length [] s
  rw [List.append_nil] at hburst
  rw [hop, UInt32.or_zero, hburst]
  simp [hreads, cbSpiWriteBurst]

theorem Plain.writeAddrSel_write (h : Plain a) (s : σ) :
    writeAddrSel d (a ||| (w5500SpiWrite ||| w5500SpiVdmOp)) (.high, s) =
      (some (), .data (blockOf a) true (offsetOf a), s) := by
  have hop : w5500SpiWrite ||| w5500SpiVdmOp = 4 := by decide
  have hwrites := writes_or_four a
  rw [hop, writeAddrSel_apply h.variable_length_or_four, offsetOf_or_four, blockOf_or_four]
  simp [hwrites]

theorem Plain.spiData_write (h : Plain a) (rest : List UInt8) (s : σ) :
    cbSpiWriteBurst d (spiData (a ||| (w5500SpiWrite ||| w5500SpiVdmOp)) ++ rest) (.high, s) =
      cbSpiWriteBurst d rest (.data (blockOf a) true (offsetOf a), s) := by
  have hop : w5500SpiWrite ||| w5500SpiVdmOp = 4 := by decide
  have hwrites := writes_or_four a
  rw [hop, cbSpiWriteBurst_spiData h.variable_length_or_four, offsetOf_or_four, blockOf_or_four]
  simp [hwrites]

theorem wizchipRead_eq (h : Plain a) : wizchipRead d w a = d.read (blockOf a) (offsetOf a) := by
  funext s
  simp only [wizchipRead, selected, Attempt.ite_apply, Attempt.bind_some (h.writeAddrSel_read s),
    Attempt.bind_some (h.spiData_read s), ite_self, cbSpiRead, exchange_read]

theorem wizchipReadBuf_eq (h : Plain a) (len : UInt16) :
    wizchipReadBuf d w a len = d.readBytes (blockOf a) (offsetOf a) len.toNat := by
  funext s
  obtain ⟨phase, hdata⟩ := cbSpiReadBurst_apply (d := d) (blockOf a) len.toNat (offsetOf a) s
  simp only [wizchipReadBuf, selected, Attempt.ite_apply, Attempt.bind_some (h.writeAddrSel_read s),
    Attempt.bind_some (h.spiData_read s), ite_self, readEach_eq, hdata]

theorem wizchipWriteBuf_eq (h : Plain a) (pBuf : List UInt8) (len : UInt16) :
    wizchipWriteBuf d w a pBuf len =
      d.writeBytes (blockOf a) (offsetOf a) (pBuf.take len.toNat) := by
  funext s
  obtain ⟨phase, hdata⟩ :=
    cbSpiWriteBurst_apply (d := d) (blockOf a) (pBuf.take len.toNat) (offsetOf a) s
  have hburst := h.spiData_write (d := d) [] s
  rw [List.append_nil] at hburst
  have haddr := hburst.trans (rfl : _ = (some (), Phase.data (blockOf a) true (offsetOf a), s))
  simp only [wizchipWriteBuf, selected, Attempt.ite_apply,
    Attempt.bind_some (h.writeAddrSel_write s),
    Attempt.bind_some haddr, ite_self, writeEach_apply, hdata]

theorem wizchipWrite_eq (h : Plain a) (wb : UInt8) :
    wizchipWrite d w a wb = d.write (blockOf a) (offsetOf a) wb := by
  funext s
  have hbyte : cbSpiWrite d wb (.data (blockOf a) true (offsetOf a), s) =
      cbSpiWriteBurst d [wb] (.data (blockOf a) true (offsetOf a), s) := rfl
  simp only [wizchipWrite, selected, Attempt.ite_apply, Attempt.bind_some (h.writeAddrSel_write s),
    h.spiData_write, hbyte, ite_self]
  rcases hwrite : d.write (blockOf a) (offsetOf a) wb s with ⟨_ | _, t⟩
  all_goals simp [cbSpiWriteBurst, Attempt.bind_apply, exchange_write, hwrite]

end Frames

/-! ## Addresses -/

/-- The address of an offset in a block. -/
def addrSel (offset : UInt16) (block : UInt32) : UInt32 := (offset.toUInt32 <<< 8) + (block <<< 3)

theorem addrSel_toNat (offset : UInt16) (block : UInt32) :
    (addrSel offset block).toNat = (offset.toNat * 256 + block.toNat * 8) % 2 ^ 32 := by
  have height : (8 : UInt32).toNat % 32 = 8 := by decide
  have hthree : (3 : UInt32).toNat % 32 = 3 := by decide
  rw [addrSel, UInt32.toNat_add, UInt32.toNat_shiftLeft, UInt32.toNat_shiftLeft, height, hthree,
    UInt16.toNat_toUInt32, Nat.shiftLeft_eq, Nat.shiftLeft_eq, ← Nat.add_mod]

theorem plain_addrSel (offset : UInt16) (block : UInt32) : Plain (addrSel offset block) := by
  have hmask : (7 : UInt32).toNat = 2 ^ 3 - 1 := by decide
  apply UInt32.toNat_inj.mp
  rw [UInt32.toNat_and, hmask, Nat.and_two_pow_sub_one_eq_mod, addrSel_toNat, UInt32.toNat_zero]
  omega

/-- A number of a block that needs more than five bits carries over into the offset. -/
theorem offsetOf_addrSel (offset : UInt16) (block : UInt32) :
    offsetOf (addrSel offset block) = offset + (block / 32).toUInt16 := by
  have hshift : (8 : UInt32).toNat % 32 = 8 := by decide
  have hdiv : (32 : UInt32).toNat = 32 := rfl
  apply UInt16.toNat_inj.mp
  rw [offsetOf, UInt32.toNat_toUInt16, UInt32.toNat_shiftRight, hshift, addrSel_toNat,
    Nat.shiftRight_eq_div_pow, UInt16.toNat_add, UInt32.toNat_toUInt16, UInt32.toNat_div, hdiv]
  omega

theorem blockOf_addrSel (offset : UInt16) (block : UInt32) :
    blockOf (addrSel offset block) = (block % 32).toUInt8 := by
  have hshift : (3 : UInt32).toNat % 32 = 3 := by decide
  have hmask : (0x1F : UInt8).toNat = 2 ^ 5 - 1 := by decide
  have hmod : (32 : UInt32).toNat = 32 := rfl
  apply UInt8.toNat_inj.mp
  rw [blockOf, UInt8.toNat_and, hmask, Nat.and_two_pow_sub_one_eq_mod, UInt32.toNat_toUInt8,
    UInt32.toNat_shiftRight, hshift, addrSel_toNat, Nat.shiftRight_eq_div_pow, UInt32.toNat_toUInt8,
    UInt32.toNat_mod, hmod]
  omega

section Selected
variable {σ : Type} (d : Device σ) (w : Callbacks) (offset : UInt16) (block : UInt32)

theorem wizchipRead_addrSel : wizchipRead d w (addrSel offset block) =
    d.read (block % 32).toUInt8 (offset + (block / 32).toUInt16) := by
  rw [wizchipRead_eq (plain_addrSel offset block), blockOf_addrSel, offsetOf_addrSel]

theorem wizchipWrite_addrSel (wb : UInt8) : wizchipWrite d w (addrSel offset block) wb =
    d.write (block % 32).toUInt8 (offset + (block / 32).toUInt16) wb := by
  rw [wizchipWrite_eq (plain_addrSel offset block), blockOf_addrSel, offsetOf_addrSel]

theorem wizchipReadBuf_addrSel (len : UInt16) : wizchipReadBuf d w (addrSel offset block) len =
    d.readBytes (block % 32).toUInt8 (offset + (block / 32).toUInt16) len.toNat := by
  rw [wizchipReadBuf_eq (plain_addrSel offset block), blockOf_addrSel, offsetOf_addrSel]

theorem wizchipWriteBuf_addrSel (pBuf : List UInt8) (len : UInt16) :
    wizchipWriteBuf d w (addrSel offset block) pBuf len =
      d.writeBytes (block % 32).toUInt8 (offset + (block / 32).toUInt16)
        (pBuf.take len.toNat) := by
  rw [wizchipWriteBuf_eq (plain_addrSel offset block), blockOf_addrSel, offsetOf_addrSel]

/-- The device does not notice how the bytes come: with any callbacks, an access function makes
the accesses to this block in the order of the buffer, and no others. -/
theorem accesses_of_address (wb : UInt8) (pBuf : List UInt8) (len : UInt16) :
    wizchipRead d w (addrSel offset block) =
        d.read (block % 32).toUInt8 (offset + (block / 32).toUInt16) ∧
      wizchipWrite d w (addrSel offset block) wb =
        d.write (block % 32).toUInt8 (offset + (block / 32).toUInt16) wb ∧
      wizchipReadBuf d w (addrSel offset block) len =
        d.readBytes (block % 32).toUInt8 (offset + (block / 32).toUInt16) len.toNat ∧
      wizchipWriteBuf d w (addrSel offset block) pBuf len =
        d.writeBytes (block % 32).toUInt8 (offset + (block / 32).toUInt16)
          (pBuf.take len.toNat) :=
  ⟨wizchipRead_addrSel d w offset block, wizchipWrite_addrSel d w offset block wb,
    wizchipReadBuf_addrSel d w offset block len, wizchipWriteBuf_addrSel d w offset block pBuf len⟩

end Selected

end SmartBell.Ethernet.W5500
