import Mathlib.Data.List.TakeWhile
import Mathlib.Tactic

/-!
# Bytes, C strings and words in memory

A C string is read from a byte sequence up to its first NUL. Memories are total
functions from addresses to bytes; a block is written byte by byte, in whatever
order the hardware takes, and `writeBytes` over a prefix of that order is a write
that was cut short.
-/
namespace SmartBell.Common

/-- A property of bytes is checked byte by byte. -/
theorem forall_byte {P : UInt8 → Prop} (h : ∀ n : Fin 256, P (UInt8.ofFin n)) (b : UInt8) :
    P b := by
  simpa using h b.toFin

/-! ## Text -/

/-- The bytes of an ASCII literal, without the terminating NUL. -/
def ascii (s : String) : List UInt8 := s.toList.map fun c => UInt8.ofNat c.toNat

def chr (c : Char) : UInt8 := UInt8.ofNat c.toNat

def isDigit (c : UInt8) : Bool := chr '0' ≤ c && c ≤ chr '9'

/-- The value of a digit character. -/
def digit (c : UInt8) : Nat := c.toNat - (chr '0').toNat

/-- Skip the spaces at the head of a string. -/
def skipSpaces (s : List UInt8) : List UInt8 := s.dropWhile (· == chr ' ')

/-- The C string stored at the head of a byte sequence. -/
def cstring (bs : List UInt8) : List UInt8 := bs.takeWhile (· != 0)

@[simp] theorem cstring_nil : cstring [] = [] := rfl

@[simp] theorem cstring_zero (bs : List UInt8) : cstring (0 :: bs) = [] := by
  simp [cstring]

theorem cstring_cons {b : UInt8} (hb : b ≠ 0) (bs : List UInt8) :
    cstring (b :: bs) = b :: cstring bs := by
  simp [cstring, hb]

theorem zero_not_mem_cstring (bs : List UInt8) : 0 ∉ cstring bs := by
  intro h
  simpa using List.mem_takeWhile_imp h

theorem cstring_eq_self {bs : List UInt8} (h : 0 ∉ bs) : cstring bs = bs := by
  induction bs with
  | nil => rfl
  | cons b bs ih =>
    simp only [List.mem_cons, not_or] at h
    rw [cstring_cons (Ne.symm h.1), ih h.2]

theorem cstring_append_nul {bs : List UInt8} (h : 0 ∉ bs) (rest : List UInt8) :
    cstring (bs ++ 0 :: rest) = bs := by
  induction bs with
  | nil => simp
  | cons b bs ih =>
    simp only [List.mem_cons, not_or] at h
    rw [List.cons_append, cstring_cons (Ne.symm h.1), ih h.2]

/-- What lies behind a NUL does not matter. -/
theorem cstring_append_of_mem {bs : List UInt8} (h : 0 ∈ bs) (rest : List UInt8) :
    cstring (bs ++ rest) = cstring bs := by
  induction bs with
  | nil => cases h
  | cons b bs ih =>
    by_cases hb : b = 0
    · subst hb
      simp
    · have hlater : 0 ∈ bs := by simpa [Ne.symm hb] using h
      rw [List.cons_append, cstring_cons hb, cstring_cons hb, ih hlater]

/-- Whether or not there is a NUL further to the front. -/
theorem mem_of_mem_cstring_append {c : UInt8} {bs rest : List UInt8}
    (h : c ∈ cstring (bs ++ 0 :: rest)) : c ∈ bs := by
  induction bs with
  | nil => simp at h
  | cons b bs ih =>
    by_cases hb : b = 0
    · subst hb
      simp at h
    · rw [List.cons_append, cstring_cons hb, List.mem_cons] at h
      exact List.mem_cons.mpr (h.imp id ih)

theorem cstring_isPrefix (bs : List UInt8) : cstring bs <+: bs := List.takeWhile_prefix _

theorem cstring_length_lt_of_mem {bs : List UInt8} (h : 0 ∈ bs) :
    (cstring bs).length < bs.length := by
  refine lt_of_le_of_ne (cstring_isPrefix bs).length_le fun heq => ?_
  have hall : cstring bs = bs := (cstring_isPrefix bs).eq_of_length heq
  exact zero_not_mem_cstring bs (hall.symm ▸ h)

/-! ## Fixed-size character arrays -/

section CharArray
variable {n : Nat}

/-- Overwrite an array from its start on. -/
def overwrite (dst : Vector UInt8 n) (bs : List UInt8) : Vector UInt8 n :=
  Vector.ofFn fun i => (bs[i.val]?).getD dst[i]

/-- Copy at most `count` characters of a C string and pad with NULs up to `count`. -/
def strncpy (dst : Vector UInt8 n) (src : List UInt8) (count : Nat) : Vector UInt8 n :=
  Vector.ofFn fun i => if i.val < count then ((cstring src)[i.val]?).getD 0 else dst[i]

@[simp] theorem getElem_overwrite (dst : Vector UInt8 n) (bs : List UInt8) (i : Nat) (hi : i < n) :
    (overwrite dst bs)[i] = (bs[i]?).getD dst[i] := by
  simp [overwrite]

@[simp] theorem getElem_strncpy (dst : Vector UInt8 n) (src : List UInt8) (count i : Nat)
    (hi : i < n) :
    (strncpy dst src count)[i] = if i < count then ((cstring src)[i]?).getD 0 else dst[i] := by
  simp [strncpy]

/-- Overwrite an array from cell `k` on. -/
def overwriteAt (dst : Vector UInt8 n) (k : Nat) (bs : List UInt8) : Vector UInt8 n :=
  Vector.ofFn fun i => if i.val < k then dst[i] else (bs[i.val - k]?).getD dst[i]

theorem overwriteAt_nil (dst : Vector UInt8 n) (k : Nat) : overwriteAt dst k [] = dst := by
  apply Vector.ext
  intro i hi
  simp [overwriteAt]

theorem overwriteAt_zero (dst : Vector UInt8 n) (bs : List UInt8) :
    overwriteAt dst 0 bs = overwrite dst bs := by
  apply Vector.ext
  intro i hi
  simp [overwriteAt]

/-- Writing one cell and then the cells after it. -/
theorem overwriteAt_cons (dst : Vector UInt8 n) (k : Nat) (b : UInt8) (bs : List UInt8) :
    overwriteAt (dst.setIfInBounds k b) (k + 1) bs = overwriteAt dst k (b :: bs) := by
  apply Vector.ext
  intro i hi
  rcases Nat.lt_trichotomy i k with h | rfl | h
  · have hk : i < k + 1 := by omega
    simp [overwriteAt, -Order.lt_add_one_iff, h, hk, Nat.ne_of_gt h]
  · simp [overwriteAt]
  · have hk : ¬i < k + 1 := by omega
    have hsub : i - k = i - (k + 1) + 1 := by omega
    simp [overwriteAt, -Order.lt_add_one_iff, hk, Nat.not_lt_of_gt h,
      Nat.ne_of_lt h, hsub]

@[simp] theorem overwrite_nil (dst : Vector UInt8 n) : overwrite dst [] = dst := by
  apply Vector.ext
  intro i hi
  simp

theorem toList_overwrite {dst : Vector UInt8 n} {bs : List UInt8} (h : bs.length ≤ n) :
    (overwrite dst bs).toList = bs ++ dst.toList.drop bs.length := by
  apply List.ext_getElem
  · simp
    omega
  · intro i hi hi'
    have hin : i < n := by simpa using hi
    by_cases hb : i < bs.length
    · simp [hb]
    · have hsum : bs.length + (i - bs.length) = i := by omega
      simp [List.getElem_append_right (Nat.le_of_not_lt hb), Nat.le_of_not_lt hb, hsum]

/-- Overwriting changes nothing exactly if the new bytes are already there. -/
theorem overwrite_eq_self_iff {dst : Vector UInt8 n} {bs : List UInt8} (h : bs.length ≤ n) :
    overwrite dst bs = dst ↔ bs <+: dst.toList := by
  rw [List.prefix_iff_getElem]
  constructor
  · intro heq
    refine ⟨by simpa using h, fun i hi => ?_⟩
    have hin : i < n := hi.trans_le h
    have hcell := congrArg (fun v => v[i]) heq
    simpa [hi] using hcell
  · rintro ⟨_, hcells⟩
    apply Vector.ext
    intro i hi
    by_cases hb : i < bs.length
    · simpa [hb] using hcells i hb
    · simp [Nat.le_of_not_lt hb]

/-- A NUL in a cell bounds the string in front of it. -/
theorem cstring_length_le_of_cell {v : Vector UInt8 n} {i : Nat} (hi : i < n) (h : v[i] = 0) :
    (cstring v.toList).length ≤ i := by
  by_contra hlt
  have hlong : i < (cstring v.toList).length := by omega
  have hcell : (cstring v.toList)[i] = v[i] :=
    ((cstring_isPrefix v.toList).getElem hlong).trans (Vector.getElem_toList _)
  have hmem : (cstring v.toList)[i] ∈ cstring v.toList := List.getElem_mem hlong
  rw [hcell, h] at hmem
  exact zero_not_mem_cstring _ hmem

/-- An array whose cells spell `s` followed by a NUL stores the C string `s`. -/
theorem cstring_toList_eq {v : Vector UInt8 n} {s : List UInt8} (hs : 0 ∉ s) (hlen : s.length < n)
    (hcells : ∀ (i : Nat) (h : i < s.length), v[i] = s[i]) (hnul : v[s.length] = 0) :
    cstring v.toList = s := by
  have hsplit : v.toList = s ++ 0 :: v.toList.drop (s.length + 1) := by
    apply List.ext_getElem
    · simp
      omega
    · intro i h1 h2
      rcases Nat.lt_trichotomy i s.length with hi | rfl | hi
      · simpa [List.getElem_append_left hi] using hcells i hi
      · simpa using hnul
      · obtain ⟨k, rfl⟩ : ∃ k, i = s.length + 1 + k := ⟨i - (s.length + 1), by omega⟩
        rw [List.getElem_append_right (by omega)]
        simp [show s.length + 1 + k - s.length = k + 1 by omega]
  rw [hsplit, cstring_append_nul hs]

end CharArray

/-! ## Memories -/

abbrev Memory := Nat → UInt8

/-- The bytes from address `base` on, by offset. -/
def Memory.block (m : Memory) (base : Nat) : Nat → UInt8 := fun i => m (base + i)

/-- Write byte `i` of an image to `base + i`, for the offsets of `order` one after the other. -/
def Memory.writeBytes (m : Memory) (base : Nat) (image : Nat → UInt8) (order : List Nat) :
    Memory :=
  order.foldl (fun m i => Function.update m (base + i) (image i)) m

@[simp] theorem Memory.block_apply (m : Memory) (base i : Nat) : m.block base i = m (base + i) :=
  rfl

/-- What a memory holds after any part of a block write: the image where it was written,
and the old bytes everywhere else. -/
theorem Memory.writeBytes_apply (m : Memory) (base : Nat) (image : Nat → UInt8)
    (order : List Nat) (a : Nat) :
    m.writeBytes base image order a =
      if ∃ i ∈ order, a = base + i then image (a - base) else m a := by
  induction order generalizing m with
  | nil => simp [writeBytes]
  | cons i order ih =>
    have step : m.writeBytes base image (i :: order) =
        Memory.writeBytes (Function.update m (base + i) (image i)) base image order := rfl
    rw [step, ih]
    by_cases later : ∃ j ∈ order, a = base + j
    · have now : ∃ j ∈ i :: order, a = base + j :=
        later.imp fun j hj => ⟨List.mem_cons_of_mem _ hj.1, hj.2⟩
      simp only [later, now, if_true]
    · by_cases here : a = base + i
      · have now : ∃ j ∈ i :: order, a = base + j := ⟨i, List.mem_cons_self, here⟩
        simp only [later, now, if_true, if_false]
        subst here
        simp
      · have never : ¬∃ j ∈ i :: order, a = base + j := by
          rintro ⟨j, hj, rfl⟩
          rcases List.mem_cons.mp hj with rfl | hj
          · exact here rfl
          · exact later ⟨j, hj, rfl⟩
        simp only [later, never, if_false]
        exact Function.update_of_ne here _ _

theorem Memory.block_writeBytes (m : Memory) (base : Nat) (image : Nat → UInt8)
    (order : List Nat) (i : Nat) :
    (m.writeBytes base image order).block base i = if i ∈ order then image i else m (base + i) := by
  rw [Memory.block_apply, Memory.writeBytes_apply]
  simp

/-! ## Little-endian words -/

/-- Byte `k` of a number, least significant first. -/
def leByte (n k : Nat) : UInt8 := UInt8.ofNat (n / 256 ^ k)

def word16 (b0 b1 : UInt8) : UInt16 := UInt16.ofNat (b0.toNat + 256 * b1.toNat)

def word32 (b0 b1 b2 b3 : UInt8) : UInt32 :=
  UInt32.ofNat (b0.toNat + 256 * b1.toNat + 65536 * b2.toNat + 16777216 * b3.toNat)

theorem word16_leByte (w : UInt16) : word16 (leByte w.toNat 0) (leByte w.toNat 1) = w := by
  have hw := w.toNat_lt
  apply UInt16.toNat_inj.mp
  simp only [word16, leByte, UInt16.toNat_ofNat', UInt8.toNat_ofNat']
  omega

theorem word32_leByte (w : UInt32) :
    word32 (leByte w.toNat 0) (leByte w.toNat 1) (leByte w.toNat 2) (leByte w.toNat 3) = w := by
  have hw := w.toNat_lt
  apply UInt32.toNat_inj.mp
  simp only [word32, leByte, UInt32.toNat_ofNat', UInt8.toNat_ofNat']
  omega

theorem leByte_word16 (b0 b1 : UInt8) :
    leByte (word16 b0 b1).toNat 0 = b0 ∧ leByte (word16 b0 b1).toNat 1 = b1 := by
  have h0 := b0.toNat_lt
  have h1 := b1.toNat_lt
  constructor <;> apply UInt8.toNat_inj.mp <;>
    simp only [word16, leByte, UInt16.toNat_ofNat', UInt8.toNat_ofNat'] <;> omega

theorem leByte_word32 (b0 b1 b2 b3 : UInt8) :
    leByte (word32 b0 b1 b2 b3).toNat 0 = b0 ∧ leByte (word32 b0 b1 b2 b3).toNat 1 = b1 ∧
      leByte (word32 b0 b1 b2 b3).toNat 2 = b2 ∧ leByte (word32 b0 b1 b2 b3).toNat 3 = b3 := by
  have h0 := b0.toNat_lt
  have h1 := b1.toNat_lt
  have h2 := b2.toNat_lt
  have h3 := b3.toNat_lt
  refine ⟨?_, ?_, ?_, ?_⟩ <;> apply UInt8.toNat_inj.mp <;>
    simp only [word32, leByte, UInt32.toNat_ofNat', UInt8.toNat_ofNat'] <;> omega

/-! ## Bits of a word -/

/-- Clearing a bit leaves the others. -/
theorem and_not_and {x bit b : UInt16} (h : bit &&& b = 0) : x &&& ~~~bit &&& b = x &&& b := by
  have hbits := congrArg UInt16.toBitVec h
  apply UInt16.toBitVec_inj.mp
  ext i hi
  have hbit := congrArg (BitVec.getLsbD · i) hbits
  simp [BitVec.getLsbD_eq_getElem hi] at hbit ⊢
  grind

/-- Setting a bit leaves the others. -/
theorem or_and {x bit b : UInt16} (h : bit &&& b = 0) : (x ||| bit) &&& b = x &&& b := by
  have hbits := congrArg UInt16.toBitVec h
  apply UInt16.toBitVec_inj.mp
  ext i hi
  have hbit := congrArg (BitVec.getLsbD · i) hbits
  simp [BitVec.getLsbD_eq_getElem hi] at hbit ⊢
  grind

/-! ## Words with the high byte first -/

def highByte (w : UInt16) : UInt8 := (w >>> 8).toUInt8

def lowByte (w : UInt16) : UInt8 := w.toUInt8

def joinBytes (high low : UInt8) : UInt16 := (high.toUInt16 <<< 8) + low.toUInt16

theorem joinBytes_toNat (high low : UInt8) :
    (joinBytes high low).toNat = high.toNat * 256 + low.toNat := by
  have hhigh := high.toNat_lt
  have hlow := low.toNat_lt
  have hshift : 2 ^ (UInt16.toNat 8 % 16) = 256 := by decide
  rw [joinBytes, UInt16.toNat_add, UInt16.toNat_shiftLeft, UInt8.toNat_toUInt16,
    UInt8.toNat_toUInt16, Nat.shiftLeft_eq, hshift]
  omega

theorem highByte_toNat (w : UInt16) : (highByte w).toNat = w.toNat / 256 := by
  have hlt := w.toNat_lt
  have hshift : 2 ^ (UInt16.toNat 8 % 16) = 256 := by decide
  rw [highByte, UInt16.toNat_toUInt8, UInt16.toNat_shiftRight, Nat.shiftRight_eq_div_pow, hshift]
  omega

theorem lowByte_toNat (w : UInt16) : (lowByte w).toNat = w.toNat % 256 := by
  simp [lowByte]

@[simp] theorem highByte_joinBytes (high low : UInt8) : highByte (joinBytes high low) = high := by
  have hlow := low.toNat_lt
  apply UInt8.toNat_inj.mp
  rw [highByte_toNat, joinBytes_toNat]
  omega

@[simp] theorem lowByte_joinBytes (high low : UInt8) : lowByte (joinBytes high low) = low := by
  have hlow := low.toNat_lt
  apply UInt8.toNat_inj.mp
  rw [lowByte_toNat, joinBytes_toNat]
  omega

@[simp] theorem joinBytes_highByte_lowByte (w : UInt16) :
    joinBytes (highByte w) (lowByte w) = w := by
  apply UInt16.toNat_inj.mp
  rw [joinBytes_toNat, highByte_toNat, lowByte_toNat]
  omega

end SmartBell.Common
