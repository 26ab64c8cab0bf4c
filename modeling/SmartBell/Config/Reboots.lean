import SmartBell.Config.TornSave
import SmartBell.Config.WellFormed

/-!
# Reboots

A reboot keeps nothing but the EEPROM: a fresh instance on zeroed memory loads its
configuration from there. `load` would refuse a saved record with port zero, and a
record in the legacy slot, of an older firmware, waits behind the primary one; no
command sequence gets to the first, and no accepted primary slot lets the second
through. So what the last `save` wrote is what every later reboot comes up with.
-/
namespace SmartBell.Config
open Common

/-- Start again from the EEPROM. -/
def reboot (s : ConfigStore) : ConfigStore := (load (.boot s.eeprom)).1

/-- What happens to the configuration: commands, direct calls of `save`, and resets of the
controller. -/
inductive Operation where
  | processCommand (text : List UInt8)
  | save
  | reboot
  deriving DecidableEq, Repr

/-- A command that does not return waits for the watchdog to reset the controller. -/
def Operation.step (s : ConfigStore) : Operation → ConfigStore
  | .processCommand text =>
    let answer := Config.processCommand text s
    if answer.returns then answer.store else Config.reboot answer.store
  | .save => (Config.save s).1
  | .reboot => Config.reboot s

/-- The operation saves the configuration. -/
def Operation.Saves : Operation → Prop
  | .processCommand text => commandOf text = .save
  | .save => True
  | .reboot => False

/-! ## Accepted configurations -/

/-- What `load` checks cannot be lost to a command. -/
theorem valid_keptByStores : KeptByStores fun c => isValidConfig c = true where
  address field hfield ip c h := by
    simp only [List.mem_cons, List.not_mem_nil, or_false] at hfield
    rcases hfield with rfl | rfl | rfl | rfl <;> exact h
  brokerPort port c hport h :=
    (isValidConfig_iff _).mpr ⟨((isValidConfig_iff c).mp h).1, hport⟩
  clientId id c _ h := h
  input1Topic topic c _ h := h
  input2Topic topic c _ h := h
  gongBaseTopic topic c _ h := h
  magic c h := (isValidConfig_iff _).mpr ⟨rfl, ((isValidConfig_iff c).mp h).2⟩
  reset c _ := (isValidConfig_iff _).mpr ⟨rfl, by simp [resetToDefaults]⟩

theorem staticConfig_valid : isValidConfig staticConfig = true :=
  (isValidConfig_iff _).mpr ⟨staticConfig_wellFormed.magic, staticConfig_wellFormed.brokerPort⟩

theorem load_valid {s : ConfigStore} (h : isValidConfig s.config = true) :
    isValidConfig (load s).1.config = true := by
  rw [load_config]
  cases hrecord : acceptedRecord s.eeprom with
  | none => exact h
  | some c => exact acceptedRecord_valid hrecord

theorem reboot_valid (s : ConfigStore) : isValidConfig (reboot s).config = true :=
  load_valid staticConfig_valid

/-- Whatever happens, the live configuration is one that `load` would accept. -/
theorem step_valid {s : ConfigStore} (h : isValidConfig s.config = true) (o : Operation) :
    isValidConfig (o.step s).config = true := by
  cases o with
  | processCommand text =>
    simp only [Operation.step]
    split_ifs
    · exact processCommand_keeps valid_keptByStores text h
    · exact reboot_valid _
  | save => exact valid_keptByStores.magic s.config h
  | reboot => exact reboot_valid s

theorem run_valid (eeprom : Memory) (os : List Operation) :
    isValidConfig (run Operation.step (.boot eeprom) os).config = true :=
  run_invariant (I := fun s : ConfigStore => isValidConfig s.config = true)
    (fun _ o h => step_valid h o) staticConfig_valid os

/-! ## The slot -/

/-- The primary slot holds this configuration, and `load` accepts it. -/
def Holds (m : Memory) (c : SmartBellConfig) : Prop :=
  eepromReadCfg m eepromAddr = c ∧ isValidConfig c = true

/-- An accepted primary slot is loaded, and the EEPROM is left alone. -/
theorem Holds.load {s : ConfigStore} {c : SmartBellConfig} (h : Holds s.eeprom c) :
    (load s).1 = { s with config := c } := by
  obtain ⟨hslot, hvalid⟩ := h
  simp [Config.load, hslot, hvalid]

theorem Holds.reboot {s : ConfigStore} {c : SmartBellConfig} (h : Holds s.eeprom c) :
    (reboot s).config = c ∧ Holds (reboot s).eeprom c := by
  have hload : Config.reboot s = { ConfigStore.boot s.eeprom with config := c } := Holds.load h
  rw [hload]
  exact ⟨rfl, h⟩

/-- The magic word that `save` puts into the record is there already. -/
theorem save_config {s : ConfigStore} (h : isValidConfig s.config = true) :
    (save s).1.config = s.config := by
  simp only [save]
  rw [← ((isValidConfig_iff s.config).mp h).1]

/-- Only `save` writes the EEPROM. -/
theorem processCommand_eeprom {text : List UInt8} (h : commandOf text ≠ .save)
    (s : ConfigStore) : (processCommand text s).store.eeprom = s.eeprom := by
  unfold processCommand
  cases hcommand : commandOf text with
  | save => exact absurd hcommand h
  | help | showConfig | reboot | unknown | ip | sn | gw | reset => rfl
  | br arg =>
    simp only [Command.run, brCommand]
    split
    · rfl
    · split_ifs
      · split <;> rfl
      · rfl
  | id arg =>
    simp only [Command.run, idCommand]
    split_ifs
    · rw [ConfigStore.eeprom_say_withConfig]
    · rfl
  | input arg =>
    simp only [Command.run, inputCommand]
    split_ifs <;> rfl
  | gongSub arg =>
    simp only [Command.run, gongSubCommand]
    split_ifs <;> rfl

/-- A saving operation puts the live configuration into the slot and returns with it. -/
theorem step_saves {s : ConfigStore} {o : Operation} (hsave : o.Saves)
    (h : isValidConfig s.config = true) :
    (o.step s).config = s.config ∧ Holds (o.step s).eeprom s.config := by
  have hstep : (o.step s) = (save s).1 := by
    cases o with
    | processCommand text =>
      have hcommand : commandOf text = .save := hsave
      simp [Operation.step, processCommand, hcommand, Command.run, ConfigStore.say]
    | save => rfl
    | reboot => exact absurd hsave id
  rw [hstep]
  exact ⟨save_config h, (eepromReadCfg_save s).trans (save_config h), h⟩

/-- Everything else leaves the slot alone. -/
theorem step_holds {s : ConfigStore} {c : SmartBellConfig} (h : Holds s.eeprom c)
    (o : Operation) (hsave : ¬o.Saves) : Holds (o.step s).eeprom c := by
  cases o with
  | processCommand text =>
    have hkeep := processCommand_eeprom hsave s
    simp only [Operation.step]
    split_ifs
    · rwa [hkeep]
    · exact (Holds.reboot (by rwa [hkeep])).2
  | save => exact absurd trivial hsave
  | reboot => exact h.reboot.2

/-- The next reboot after a run comes up with the configuration that was live at its last
save, in every field. -/
theorem reboot_after_save (eeprom : Memory) {before after : List Operation} {o : Operation}
    (hsave : o.Saves) (hlast : ∀ o ∈ after, ¬o.Saves) :
    let saved := (run Operation.step (.boot eeprom) before).config
    (run Operation.step (.boot eeprom) (before ++ [o])).config = saved ∧
      (reboot (run Operation.step (.boot eeprom) (before ++ o :: after))).config = saved := by
  intro saved
  obtain ⟨hsame, hholds⟩ := step_saves hsave (run_valid eeprom before)
  have hkept : Holds (run Operation.step (.boot eeprom) (before ++ o :: after)).eeprom saved := by
    rw [run_append, run_cons]
    exact run_of_along (I := fun s : ConfigStore => Holds s.eeprom saved)
      (fun _ o h ho => step_holds h o ho) hholds
      (along_of_forall (P := fun o : Operation => ¬o.Saves) hlast)
  rw [run_snoc]
  exact ⟨hsame, hkept.reboot.1⟩

/-- A client id that was saved comes back although another one was entered after it, with a
valid record of an older firmware in the legacy slot. -/
theorem reboot_after_save_id :
    let eeprom : Memory := { staticConfig with brokerPort := 1884 }.image
    let run := run Operation.step (.boot eeprom)
    (reboot (run [.reboot, .processCommand (ascii "id porch"), .save,
      .processCommand (ascii "id hall"), .processCommand (ascii "reboot")])).config =
      (run [.reboot, .processCommand (ascii "id porch")]).config :=
  (@reboot_after_save _
    [.reboot, .processCommand (ascii "id porch")]
    [.processCommand (ascii "id hall"), .processCommand (ascii "reboot")] .save trivial
    (by simp [Operation.Saves]; decide)).2

end SmartBell.Config
