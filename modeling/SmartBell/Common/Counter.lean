import Mathlib.Tactic

/-!
# A 32-bit millisecond counter

Real time is a natural number, the counter shows it modulo `2^32`. The difference of
two readings is the time between them modulo `2^32`, so it may stand for any of
infinitely many intervals.
-/
namespace SmartBell.Common

/-- What the counter shows at real time `t`. -/
def counter (t : Nat) : UInt32 := UInt32.ofNat t

/-- The values of the counter. -/
def period : Nat := 4294967296

theorem counter_sub_toNat {s t : Nat} (h : s ≤ t) :
    (counter t - counter s).toNat = (t - s) % period := by
  unfold counter period
  rw [UInt32.toNat_sub, UInt32.toNat_ofNat', UInt32.toNat_ofNat']
  omega

theorem counter_sub_lt_iff {s t : Nat} (h : s ≤ t) (bound : UInt32) :
    counter t - counter s < bound ↔ (t - s) % period < bound.toNat := by
  rw [UInt32.lt_iff_toNat_lt, counter_sub_toNat h]

theorem lt_counter_sub_iff {s t : Nat} (h : s ≤ t) (bound : UInt32) :
    bound < counter t - counter s ↔ bound.toNat < (t - s) % period := by
  rw [UInt32.lt_iff_toNat_lt, counter_sub_toNat h]

theorem le_counter_sub_iff {s t : Nat} (h : s ≤ t) (bound : UInt32) :
    bound ≤ counter t - counter s ↔ bound.toNat ≤ (t - s) % period := by
  rw [UInt32.le_iff_toNat_le, counter_sub_toNat h]

theorem counter_le_counter_iff (s t : Nat) :
    counter s ≤ counter t ↔ s % period ≤ t % period := by
  rw [UInt32.le_iff_toNat_le]
  unfold counter period
  rw [UInt32.toNat_ofNat', UInt32.toNat_ofNat']

/-- Of two times less than a period apart the counter shows the later one as greater exactly if it
does not wrap in between. -/
theorem counter_lt_iff_div_eq {s t : Nat} (hlt : s < t) (hclose : t < s + period) :
    ¬counter t ≤ counter s ↔ s / period = t / period := by
  rw [counter_le_counter_iff]
  unfold period at *
  omega

/-! ## Pointers of 16 bits -/

/-- The distance of two positions that are less than a turn apart. -/
theorem ofNat_sub_ofNat_toNat {s t : Nat} (h : s ≤ t) (hclose : t < s + 65536) :
    (UInt16.ofNat t - UInt16.ofNat s).toNat = t - s := by
  rw [UInt16.toNat_sub, UInt16.toNat_ofNat', UInt16.toNat_ofNat']
  omega

/-- Advancing the pointer advances the position. -/
theorem ofNat_add_word (s : Nat) (len : UInt16) :
    UInt16.ofNat s + len = UInt16.ofNat (s + len.toNat) := by
  rw [UInt16.ofNat_add, UInt16.ofNat_toNat]

/-- In a memory whose size divides a turn the pointer shows the place of the position. -/
theorem ofNat_toNat_mod {n : Nat} (h : n ∣ 65536) (s : Nat) :
    (UInt16.ofNat s).toNat % n = s % n := by
  rw [UInt16.toNat_ofNat']
  exact Nat.mod_mod_of_dvd s h

end SmartBell.Common
