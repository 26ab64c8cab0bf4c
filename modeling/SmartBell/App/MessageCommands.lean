import SmartBell.App.GongController
import SmartBell.Common.Decimal

/-!
# Commands by MQTT message

`process_mqtt_message` turns a message into calls of the gong controller. The duration is
added up in 16 bits and compared with its maximum after each digit, so a number from 65536
on may have wrapped to a small one by then.
-/
namespace SmartBell.App
open Common

namespace SmartBellTopics

def kGongUpperfloorStatus : List UInt8 := ascii "smartbell/gong/upperfloor/status"
def kGongGroundfloorStatus : List UInt8 := ascii "smartbell/gong/groundfloor/status"
def kTestGongUpperfloor : List UInt8 := ascii "smartbell/gong/upperfloor/testgong"
def kTestGongGroundfloor : List UInt8 := ascii "smartbell/gong/groundfloor/testgong"
def kTestGongBoth : List UInt8 := ascii "smartbell/gong/testgong"
def kGongDuration : List UInt8 := ascii "smartbell/gong/duration"

end SmartBellTopics

def lower (c : UInt8) : UInt8 :=
  if chr 'A' ≤ c ∧ c ≤ chr 'Z' then c + (chr 'a' - chr 'A') else c

/-- `payload_str`: the first 15 bytes, in lower case. -/
def payloadString (payload : List UInt8) : List UInt8 := (payload.take 15).map lower

/-- The loop over the digits, which is left at the first number above 10000. -/
def durationFrom : List UInt8 → UInt16 → UInt16
  | [], duration => duration
  | c :: str, duration =>
    if isDigit c then
      let duration := duration * 10 + UInt16.ofNat (digit c)
      if duration > 10000 then duration else durationFrom str duration
    else duration

/-- `process_mqtt_message` at time `now`: what it calls `gong_controller_` with. -/
def processMqttMessage (now : Nat) (topic payload : List UInt8) : List GongController.Event :=
  let payloadStr := payloadString payload
  let enabled := (ascii "active").isPrefixOf payloadStr
  if topic = SmartBellTopics.kGongUpperfloorStatus then [.setEnabled .upperfloor enabled]
  else if topic = SmartBellTopics.kGongGroundfloorStatus then [.setEnabled .groundfloor enabled]
  else if topic = SmartBellTopics.kTestGongUpperfloor then [.trigger now .upperfloor true 0]
  else if topic = SmartBellTopics.kTestGongGroundfloor then [.trigger now .groundfloor true 0]
  else if topic = SmartBellTopics.kTestGongBoth then [.trigger now .both true 0]
  else if topic = SmartBellTopics.kGongDuration then
    let duration := durationFrom payloadStr 0
    if duration ≥ 100 ∧ duration ≤ 10000 then [.setDuration duration] else []
  else []

/-- The digits at the start of what is read of a payload. -/
def sentDigits (payload : List UInt8) : List UInt8 := (payload.take 15).takeWhile isDigit

def sentNumber (payload : List UInt8) : Nat := decimalValue (sentDigits payload)

/-- The number sent sets the duration if it is in the range, and does nothing if it is not. -/
def DurationChecked (now : Nat) (payload : List UInt8) : Prop :=
  processMqttMessage now SmartBellTopics.kGongDuration payload =
    if 100 ≤ sentNumber payload ∧ sentNumber payload ≤ 10000 then
      [.setDuration (UInt16.ofNat (sentNumber payload))]
    else []

instance (now : Nat) (payload : List UInt8) : Decidable (DurationChecked now payload) :=
  inferInstanceAs (Decidable (_ = _))

/-! ## The digits of a payload -/

theorem lower_of_isDigit {c : UInt8} (h : isDigit c = true) : lower c = c := by
  have hall : ∀ c, isDigit c = true → lower c = c := forall_byte (by decide +kernel)
  exact hall c h

theorem isDigit_lower (c : UInt8) : isDigit (lower c) = isDigit c := by
  have hall : ∀ c, isDigit (lower c) = isDigit c := forall_byte (by decide +kernel)
  exact hall c

/-- Lower case does not touch the digits. -/
theorem takeWhile_map_lower (s : List UInt8) :
    (s.map lower).takeWhile isDigit = s.takeWhile isDigit := by
  induction s with
  | nil => rfl
  | cons c s ih =>
    rw [List.map_cons, List.takeWhile_cons, List.takeWhile_cons, isDigit_lower, ih]
    split_ifs with hc
    · rw [lower_of_isDigit hc]
    · rfl

theorem durationFrom_takeWhile (s : List UInt8) (duration : UInt16) :
    durationFrom s duration = durationFrom (s.takeWhile isDigit) duration := by
  induction s generalizing duration with
  | nil => rfl
  | cons c s ih =>
    by_cases hc : isDigit c = true
    · rw [List.takeWhile_cons_of_pos hc]
      simp only [durationFrom, hc, if_true]
      rw [ih]
    · rw [List.takeWhile_cons_of_neg hc]
      simp [durationFrom, hc]

/-! ## The loop -/

/-- No number on the way is above 10000 when it is taken modulo 2^16. -/
def NeverAbove (v : Nat) (ds : List UInt8) : Prop :=
  ∀ part, part <+: ds → decimalFrom v part % 65536 ≤ 10000

theorem neverAbove_cons {v : Nat} {c : UInt8} {ds : List UInt8} (hv : v % 65536 ≤ 10000) :
    NeverAbove v (c :: ds) ↔ NeverAbove (v * 10 + digit c) ds := by
  constructor
  · intro h part hpart
    rw [← decimalFrom_cons]
    exact h (c :: part) (List.prefix_cons_inj c |>.mpr hpart)
  · intro h part hpart
    rcases List.prefix_cons_iff.mp hpart with rfl | ⟨rest, rfl, hrest⟩
    · exact hv
    · rw [decimalFrom_cons]
      exact h rest hrest

theorem NeverAbove.start {v : Nat} {ds : List UInt8} (h : NeverAbove v ds) : v % 65536 ≤ 10000 :=
  h [] (List.nil_prefix)

/-- The loop computes modulo 2^16, and ends above 10000 if it ever gets there. -/
theorem durationFrom_spec {ds : List UInt8} (hds : Digits ds) {v : Nat} {duration : UInt16}
    (hv : duration.toNat = v % 65536) (hle : v % 65536 ≤ 10000) :
    (NeverAbove v ds → (durationFrom ds duration).toNat = decimalFrom v ds % 65536) ∧
      (¬NeverAbove v ds → 10000 < (durationFrom ds duration).toNat) := by
  induction ds generalizing v duration with
  | nil =>
    refine ⟨fun _ => hv, fun hnot => absurd ?_ hnot⟩
    intro part hpart
    rw [List.prefix_nil.mp hpart]
    exact hle
  | cons c ds ih =>
    obtain ⟨hc, hds⟩ := digits_cons.mp hds
    have hdigit := digit_le hc
    have hnext : (duration * 10 + UInt16.ofNat (digit c)).toNat = (v * 10 + digit c) % 65536 := by
      have hten : (10 : UInt16).toNat = 10 := rfl
      rw [UInt16.toNat_add, UInt16.toNat_mul, UInt16.toNat_ofNat', hten, hv]
      omega
    have habove : duration * 10 + UInt16.ofNat (digit c) > 10000 ↔
        10000 < (v * 10 + digit c) % 65536 := by
      rw [← hnext]
      exact UInt16.lt_iff_toNat_lt
    rw [neverAbove_cons hle, decimalFrom_cons]
    simp only [durationFrom, hc, if_true]
    split_ifs with hbreak
    · have hlarge := habove.mp hbreak
      rw [hnext]
      exact ⟨fun h => absurd h.start (Nat.not_le.mpr hlarge), fun _ => hlarge⟩
    · exact ih hds hnext (Nat.le_of_not_lt (mt habove.mpr hbreak))

theorem durationFrom_zero (payload : List UInt8) :
    let ds := sentDigits payload
    (NeverAbove 0 ds → (durationFrom ds 0).toNat = decimalValue ds % 65536) ∧
      (¬NeverAbove 0 ds → 10000 < (durationFrom ds 0).toNat) := by
  have hzero : (0 : UInt16).toNat = 0 % 65536 := rfl
  exact durationFrom_spec (digits_takeWhile _) hzero (Nat.zero_le _)

/-! ## Messages -/

theorem processMqttMessage_duration (now : Nat) (payload : List UInt8) :
    processMqttMessage now SmartBellTopics.kGongDuration payload =
      let duration := durationFrom (sentDigits payload) 0
      if duration ≥ 100 ∧ duration ≤ 10000 then [.setDuration duration] else [] := by
  unfold processMqttMessage
  rw [if_neg (by decide), if_neg (by decide), if_neg (by decide), if_neg (by decide),
    if_neg (by decide), if_pos rfl, durationFrom_takeWhile, payloadString, takeWhile_map_lower]
  rfl

/-- A number that is never above 10000 modulo 2^16 on the way is taken modulo 2^16. -/
theorem processMqttMessage_of_neverAbove {payload : List UInt8} (now : Nat)
    (h : NeverAbove 0 (sentDigits payload)) :
    processMqttMessage now SmartBellTopics.kGongDuration payload =
      if 100 ≤ sentNumber payload % 65536 then [.setDuration (UInt16.ofNat (sentNumber payload))]
      else [] := by
  have hloop := (durationFrom_zero payload).1 h
  have hle := h (sentDigits payload) (List.prefix_refl _)
  have hsame : durationFrom (sentDigits payload) 0 = UInt16.ofNat (sentNumber payload) := by
    apply UInt16.toNat_inj.mp
    rw [UInt16.toNat_ofNat']
    exact hloop
  rw [processMqttMessage_duration]
  dsimp only
  rw [hsame]
  refine if_congr ?_ rfl rfl
  rw [ge_iff_le, UInt16.le_iff_toNat_le, UInt16.le_iff_toNat_le, UInt16.toNat_ofNat']
  exact and_iff_left hle

/-- Every other number does nothing. -/
theorem processMqttMessage_of_above {payload : List UInt8} (now : Nat)
    (h : ¬NeverAbove 0 (sentDigits payload)) :
    processMqttMessage now SmartBellTopics.kGongDuration payload = [] := by
  have hloop := (durationFrom_zero payload).2 h
  have hlarge : ¬durationFrom (sentDigits payload) 0 ≤ 10000 := fun hle =>
    Nat.not_le.mpr hloop (UInt16.le_iff_toNat_le.mp hle)
  rw [processMqttMessage_duration]
  exact if_neg fun hrange => hlarge hrange.2

/-- The range is checked on the number sent exactly if that is 10000 at most, or less than 100
modulo 2^16, or if its digits up to some place are more than 10000 modulo 2^16. -/
theorem durationChecked_iff (now : Nat) (payload : List UInt8) :
    DurationChecked now payload ↔ sentNumber payload ≤ 10000 ∨ sentNumber payload % 65536 < 100 ∨
      ∃ part, part <+: sentDigits payload ∧ 10000 < decimalValue part % 65536 := by
  unfold DurationChecked
  by_cases h : NeverAbove 0 (sentDigits payload)
  · have hnone : ¬∃ part, part <+: sentDigits payload ∧ 10000 < decimalValue part % 65536 := by
      rintro ⟨part, hpart, hlarge⟩
      exact Nat.not_le.mpr hlarge (h part hpart)
    rw [processMqttMessage_of_neverAbove now h]
    by_cases hsmall : sentNumber payload ≤ 10000
    · have hmod : sentNumber payload % 65536 = sentNumber payload := Nat.mod_eq_of_lt (by omega)
      simp [hsmall, hmod]
    · simp [hsmall, hnone]
  · rw [processMqttMessage_of_above now h]
    simp only [NeverAbove, not_forall, Nat.not_le] at h
    obtain ⟨part, hpart, hlarge⟩ := h
    have hlong : 10000 < sentNumber payload := by
      have hle : decimalValue part ≤ sentNumber payload := decimalFrom_le_of_prefix 0 hpart
      have hmod := Nat.mod_le (decimalValue part) 65536
      unfold decimalValue at *
      omega
    have hout : ¬(100 ≤ sentNumber payload ∧ sentNumber payload ≤ 10000) := by omega
    rw [if_neg hout]
    exact iff_of_true rfl (.inr (.inr ⟨part, hpart, hlarge⟩))

/-- The number 65636 sets the duration to 100. -/
theorem not_durationChecked_wrapped : ¬DurationChecked 0 (ascii "65636") := by
  decide

end SmartBell.App
