import SmartBell.Config.Reboots

/-!
# Loading twice

A record that is accepted only in the legacy slot is copied to the primary one. The two
slots do not overlap, so the copy is what the next `load` finds, and the legacy record stays
where it is for a firmware that still looks there.
-/
namespace SmartBell.Config
open Common SmartBellConfig

/-- `load` finds a record that it accepts in one of the slots. -/
def Accepts (m : Memory) : Prop :=
  isValidConfig (eepromReadCfg m eepromAddr) = true ∨
    isValidConfig (eepromReadCfg m eepromAddrLegacy) = true

/-- A write to the primary slot reaches no byte outside of it. -/
theorem eepromWriteCfg_of_outside (c : SmartBellConfig) (m : Memory) {a : Nat}
    (h : ∀ i < size, a ≠ eepromAddr + i) : eepromWriteCfg c m eepromAddr a = m a := by
  rw [eepromWriteCfg, Memory.writeBytes_apply, if_neg]
  rintro ⟨i, hi, rfl⟩
  exact h i (List.mem_range.mp hi) rfl

/-- A slot that reads as a record holds its bytes. -/
theorem image_of_eepromReadCfg {m : Memory} {addr : Nat} {c : SmartBellConfig}
    (h : eepromReadCfg m addr = c) {i : Nat} (hi : i < size) : m (addr + i) = c.image i := by
  rw [← h]
  exact (image_ofImage (m.block addr) hi).symm

/-! ## One load -/

theorem load_of_primary {s : ConfigStore}
    (h : isValidConfig (eepromReadCfg s.eeprom eepromAddr) = true) :
    (load s).1 = { s with config := eepromReadCfg s.eeprom eepromAddr } :=
  Holds.load ⟨rfl, h⟩

theorem load_of_legacy {s : ConfigStore}
    (hprimary : ¬isValidConfig (eepromReadCfg s.eeprom eepromAddr) = true)
    (hlegacy : isValidConfig (eepromReadCfg s.eeprom eepromAddrLegacy) = true) :
    (load s).1 =
      { s with
        config := eepromReadCfg s.eeprom eepromAddrLegacy
        eeprom :=
          eepromWriteCfg (eepromReadCfg s.eeprom eepromAddrLegacy) s.eeprom eepromAddr } := by
  unfold load
  dsimp only
  rw [if_neg hprimary, if_pos hlegacy]

theorem load_of_not_accepts {s : ConfigStore} (h : ¬Accepts s.eeprom) : (load s).1 = s := by
  obtain ⟨hprimary, hlegacy⟩ := not_or.mp h
  unfold load
  dsimp only
  rw [if_neg hprimary, if_neg hlegacy]

/-- Whatever record was accepted, the primary slot holds it afterwards. -/
theorem load_holds {s : ConfigStore} (h : Accepts s.eeprom) :
    Holds (load s).1.eeprom (load s).1.config := by
  by_cases hprimary : isValidConfig (eepromReadCfg s.eeprom eepromAddr) = true
  · rw [load_of_primary hprimary]
    exact ⟨rfl, hprimary⟩
  · have hlegacy := h.resolve_left hprimary
    rw [load_of_legacy hprimary hlegacy]
    refine ⟨?_, hlegacy⟩
    have hslot := eepromReadCfg_writeBytes s.eeprom (eepromReadCfg s.eeprom eepromAddrLegacy)
      (List.range size)
    exact hslot.trans (splice_eq_new fun i hi hnot => absurd (List.mem_range.mpr hi) hnot)

/-- Only the bytes of the primary slot are ever written. -/
theorem load_eeprom_of_outside (s : ConfigStore) {a : Nat} (h : ∀ i < size, a ≠ eepromAddr + i) :
    (load s).1.eeprom a = s.eeprom a := by
  by_cases hprimary : isValidConfig (eepromReadCfg s.eeprom eepromAddr) = true
  · rw [load_of_primary hprimary]
  · by_cases hlegacy : isValidConfig (eepromReadCfg s.eeprom eepromAddrLegacy) = true
    · rw [load_of_legacy hprimary hlegacy]
      exact eepromWriteCfg_of_outside _ _ h
    · rw [load_of_not_accepts (not_or.mpr ⟨hprimary, hlegacy⟩)]

/-- The slots do not overlap. -/
theorem legacy_outside_primary {i : Nat} (hi : i < size) :
    ∀ j < size, eepromAddrLegacy + i ≠ eepromAddr + j := by
  intro j _
  have hslot : eepromAddrLegacy + size ≤ eepromAddr := by decide
  omega

/-! ## The next load -/

theorem load_load (s : ConfigStore) : (load (load s).1).1 = (load s).1 := by
  by_cases h : Accepts s.eeprom
  · exact Holds.load (load_holds h)
  · rw [load_of_not_accepts h, load_of_not_accepts h]

/-- A second `load` changes neither the configuration nor a byte of the EEPROM. After the first one
the primary slot holds the accepted record byte for byte and is itself accepted; with no record to
accept nothing has changed. The bytes of the legacy slot stay as they are in any case. -/
theorem load_idempotent (s : ConfigStore) :
    ((load (load s).1).1.config = (load s).1.config ∧
      (load (load s).1).1.eeprom = (load s).1.eeprom) ∧
    (Accepts s.eeprom →
      (∀ i < size, (load s).1.eeprom (eepromAddr + i) = (load s).1.config.image i) ∧
      isValidConfig (eepromReadCfg (load s).1.eeprom eepromAddr) = true) ∧
    (¬Accepts s.eeprom → (load s).1.config = s.config ∧ (load s).1.eeprom = s.eeprom) ∧
    ∀ i < size, (load s).1.eeprom (eepromAddrLegacy + i) = s.eeprom (eepromAddrLegacy + i) := by
  refine ⟨?_, fun h => ?_, fun h => ?_, fun i hi => ?_⟩
  · rw [load_load]
    exact ⟨rfl, rfl⟩
  · obtain ⟨hslot, hvalid⟩ := load_holds h
    refine ⟨fun i hi => image_of_eepromReadCfg hslot hi, ?_⟩
    rw [hslot]
    exact hvalid
  · rw [load_of_not_accepts h]
    exact ⟨rfl, rfl⟩
  · exact load_eeprom_of_outside s (legacy_outside_primary hi)

end SmartBell.Config
