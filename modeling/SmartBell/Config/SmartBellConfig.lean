import SmartBell.Common.Bytes

/-!
# The stored configuration record

`SmartBellConfig` as the firmware keeps it in RAM and in EEPROM. The AVR packs the
fields without padding, so byte `i` of the record is found by offset; `image` and
`ofImage` are the two directions, and the record is the 119 bytes of its image.
-/
namespace SmartBell.Config
open Common

structure SmartBellConfig where
  brokerIp : Vector UInt8 4
  brokerPort : UInt16
  clientId : Vector UInt8 16
  input1Topic : Vector UInt8 25
  input2Topic : Vector UInt8 25
  gongBaseTopic : Vector UInt8 25
  deviceIp : Vector UInt8 4
  subnet : Vector UInt8 4
  gateway : Vector UInt8 4
  mac : Vector UInt8 6
  magic : UInt32
  deriving DecidableEq, Repr

namespace SmartBellConfig

/-- `sizeof(SmartBellConfig)` on the target. -/
def size : Nat := 119

/-- Byte `i` of the record in memory. -/
def image (c : SmartBellConfig) (i : Nat) : UInt8 :=
  if i < 4 then (c.brokerIp[i]?).getD 0
  else if i < 6 then leByte c.brokerPort.toNat (i - 4)
  else if i < 22 then (c.clientId[i - 6]?).getD 0
  else if i < 47 then (c.input1Topic[i - 22]?).getD 0
  else if i < 72 then (c.input2Topic[i - 47]?).getD 0
  else if i < 97 then (c.gongBaseTopic[i - 72]?).getD 0
  else if i < 101 then (c.deviceIp[i - 97]?).getD 0
  else if i < 105 then (c.subnet[i - 101]?).getD 0
  else if i < 109 then (c.gateway[i - 105]?).getD 0
  else if i < 115 then (c.mac[i - 109]?).getD 0
  else leByte c.magic.toNat (i - 115)

/-- The record that a block of memory holds. -/
def ofImage (m : Nat → UInt8) : SmartBellConfig where
  brokerIp := Vector.ofFn fun i => m i
  brokerPort := word16 (m 4) (m 5)
  clientId := Vector.ofFn fun i => m (6 + i)
  input1Topic := Vector.ofFn fun i => m (22 + i)
  input2Topic := Vector.ofFn fun i => m (47 + i)
  gongBaseTopic := Vector.ofFn fun i => m (72 + i)
  deviceIp := Vector.ofFn fun i => m (97 + i)
  subnet := Vector.ofFn fun i => m (101 + i)
  gateway := Vector.ofFn fun i => m (105 + i)
  mac := Vector.ofFn fun i => m (109 + i)
  magic := word32 (m 115) (m 116) (m 117) (m 118)

/-- Only the bytes of the record itself are read. -/
theorem ofImage_congr {m m' : Nat → UInt8} (h : ∀ i < size, m i = m' i) :
    ofImage m = ofImage m' := by
  unfold size at h
  have array (n off : Nat) (hoff : off + n ≤ 119) :
      (Vector.ofFn fun i : Fin n => m (off + i)) = Vector.ofFn fun i : Fin n => m' (off + i) :=
    congrArg Vector.ofFn (funext fun i => h _ (by have := i.isLt; omega))
  have first : (Vector.ofFn fun i : Fin 4 => m i) = Vector.ofFn fun i : Fin 4 => m' i :=
    congrArg Vector.ofFn (funext fun i => h _ (by have := i.isLt; omega))
  simp only [ofImage, mk.injEq]
  refine ⟨first, ?_, array 16 6 (by omega), array 25 22 (by omega), array 25 47 (by omega),
    array 25 72 (by omega), array 4 97 (by omega), array 4 101 (by omega), array 4 105 (by omega),
    array 6 109 (by omega), ?_⟩
  · rw [h 4 (by omega), h 5 (by omega)]
  · rw [h 115 (by omega), h 116 (by omega), h 117 (by omega), h 118 (by omega)]

/-- Reading back what was written gives the record. -/
@[simp] theorem ofImage_image (c : SmartBellConfig) : ofImage c.image = c := by
  obtain ⟨ip, port, id, in1, in2, gong, dev, sub, gw, mac, magic⟩ := c
  have hport := word16_leByte port
  have hmagic := word32_leByte magic
  simp only [ofImage, mk.injEq]
  refine ⟨?_, by simpa [image] using hport, ?_, ?_, ?_, ?_, ?_, ?_, ?_, ?_,
    by simpa [image] using hmagic⟩
  all_goals
    apply Vector.ext
    intro i hi
    simp (disch := omega) only [Vector.getElem_ofFn, image, ↓if_neg, ↓if_pos,
      Nat.add_sub_cancel_left, Vector.getElem?_eq_getElem, Option.getD_some]

/-- The record carries every byte of the block it was read from. -/
theorem image_ofImage (m : Nat → UInt8) {i : Nat} (hi : i < size) : (ofImage m).image i = m i := by
  unfold size at hi
  have hfield : i < 4 ∨ (i = 4 ∨ i = 5) ∨ (6 ≤ i ∧ i < 22) ∨ (22 ≤ i ∧ i < 47) ∨ (47 ≤ i ∧ i < 72) ∨
      (72 ≤ i ∧ i < 97) ∨ (97 ≤ i ∧ i < 101) ∨ (101 ≤ i ∧ i < 105) ∨ (105 ≤ i ∧ i < 109) ∨
      (109 ≤ i ∧ i < 115) ∨ (i = 115 ∨ i = 116 ∨ i = 117 ∨ i = 118) := by omega
  -- the two words are rebuilt from their bytes, every other field is an array
  rcases hfield with h | hport | h | h | h | h | h | h | h | h | hmagic
  case inr.inl =>
    rcases hport with rfl | rfl
    · exact (leByte_word16 (m 4) (m 5)).1
    · exact (leByte_word16 (m 4) (m 5)).2
  case inr.inr.inr.inr.inr.inr.inr.inr.inr.inr =>
    obtain ⟨h0, h1, h2, h3⟩ := leByte_word32 (m 115) (m 116) (m 117) (m 118)
    rcases hmagic with rfl | rfl | rfl | rfl
    · exact h0
    · exact h1
    · exact h2
    · exact h3
  all_goals
    simp (disch := omega) only [image, ↓if_neg, ↓if_pos, ofImage, Vector.getElem?_eq_getElem,
      Vector.getElem_ofFn, Option.getD_some, Nat.add_sub_of_le]

end SmartBellConfig
end SmartBell.Config
