import SmartBell.App.LineEditor

/-!
# Who changes the configuration

Configuration and EEPROM are changed at the console and nowhere else. What they are after a
run depends on the characters that were read, in their order: neither the broker nor the
buttons have a part in it, nor the time at which something was typed. The flag that a
`save` raises is the one member that the main loop writes as well; no command reads it.
-/
namespace SmartBell.App
open Common Config MQTT Attempt

/-! ## The record of a store -/

/-- Configuration and EEPROM are the same; the flag is not looked at. -/
structure SameRecord (s s' : ConfigStore) : Prop where
  config : s'.config = s.config
  eeprom : s'.eeprom = s.eeprom

instance : IsPreorder ConfigStore SameRecord where
  refl _ := ⟨rfl, rfl⟩
  trans _ _ _ h h' := ⟨h'.config.trans h.config, h'.eeprom.trans h.eeprom⟩

/-- What has been typed so far, line by line. -/
def typed (s : ConfigStore) (texts : List (List UInt8)) : ConfigStore :=
  run (fun s text => (processCommand text s).store) s texts

section Commands
variable {s s' : ConfigStore}

theorem say_sameRecord {c c' : SmartBellConfig} (h : SameRecord s s') (hc : c' = c)
    (msg msg' : List UInt8) :
    SameRecord ((s.withConfig c).say msg).store ((s'.withConfig c').say msg').store :=
  ⟨hc, h.eeprom⟩

theorem brCommand_sameRecord (h : SameRecord s s') (text : List UInt8) :
    SameRecord (brCommand text s).store (brCommand text s').store := by
  unfold brCommand
  rw [h.config]
  dsimp only
  cases afterSeparator (skipSpaces text) with
  | none => exact h
  | some portText =>
    dsimp only
    split_ifs
    · cases parsePortU16 portText with
      | none => exact say_sameRecord h rfl _ _
      | some port => exact say_sameRecord h rfl _ _
    · exact say_sameRecord h rfl _ _

/-- A command does the same whether a `save` is pending or not. -/
theorem processCommand_sameRecord (h : SameRecord s s') (text : List UInt8) :
    SameRecord (processCommand text s).store (processCommand text s').store := by
  have hconfig := h.config
  unfold processCommand
  cases commandOf text with
  | help | showConfig | reboot | unknown => exact h
  | ip arg | sn arg | gw arg =>
    exact say_sameRecord h (by rw [hconfig]) _ _
  | br arg => exact brCommand_sameRecord h arg
  | id arg =>
    simp only [Command.run, idCommand]
    split_ifs
    · exact say_sameRecord h (by rw [hconfig]) _ _
    · exact h
  | input arg =>
    simp only [Command.run, inputCommand]
    split_ifs
    · exact say_sameRecord h (by rw [hconfig]) _ _
    · exact say_sameRecord h (by rw [hconfig]) _ _
    · exact h
  | gongSub arg =>
    simp only [Command.run, gongSubCommand]
    split_ifs
    · exact say_sameRecord h (by rw [hconfig]) _ _
    · exact h
  | save => exact ⟨by simp [Command.run, save, ConfigStore.say, hconfig],
      by simp [Command.run, save, ConfigStore.say, hconfig, h.eeprom]⟩
  | reset => exact say_sameRecord h (by rw [hconfig]) _ _

theorem typed_sameRecord (h : SameRecord s s') (texts : List (List UInt8)) :
    SameRecord (typed s texts) (typed s' texts) := by
  induction texts generalizing s s' with
  | nil => exact h
  | cons text texts ih => exact ih (processCommand_sameRecord h text)

end Commands

/-! ## The parts of a run -/

/-- The record behind is the one before. -/
def Firmware.SameRecord (f f' : Firmware) : Prop := App.SameRecord f.console.store f'.console.store

instance : IsPreorder Firmware Firmware.SameRecord where
  refl f := refl_of App.SameRecord f.console.store
  trans _ _ _ h h' := trans_of App.SameRecord h h'

section Parts
variable {d : Driver}

theorem client_sameRecord {α : Type} (x : Attempt (Session Unit) α) :
    Moves Firmware.SameRecord (Firmware.client x) := fun _ => ⟨rfl, rfl⟩

theorem openSession_sameRecord : Moves Firmware.SameRecord (openSession d) :=
  .bind .read fun _ => .bind (client_sameRecord _) fun _ => .ite
    (fun _ => .bind (client_sameRecord _) fun _ => .pure true) fun _ => .pure false

theorem consumeSaveFlag_sameRecord (s : ConfigStore) : SameRecord s (consumeSaveFlag s).2 := by
  unfold consumeSaveFlag
  split_ifs <;> exact ⟨rfl, rfl⟩

theorem saveConnect_sameRecord : Moves Firmware.SameRecord (saveConnect d) := by
  intro f
  have hconsumed : f.SameRecord { f with
      console := { f.console with store := (consumeSaveFlag f.console.store).2 } } :=
    consumeSaveFlag_sameRecord f.console.store
  have hrest (b b' : Bool) : Moves Firmware.SameRecord (if b then do
      .modify fun f => { f with mqttConfigured := hasBroker f.config }
      if b' then openSession d else pure false
    else pure false : Attempt Firmware Bool) :=
    .ite (fun _ => .bind (fun _ => ⟨rfl, rfl⟩) fun _ => .ite (fun _ => openSession_sameRecord)
      fun _ => .pure false) fun _ => .pure false
  exact trans_of Firmware.SameRecord hconsumed (hrest _ _ _)

/-- A part other than the reader leaves configuration and EEPROM alone. -/
theorem perform_sameRecord {st : Stage} (hst : ∀ uart, st ≠ .console uart) :
    Moves Firmware.SameRecord (st.perform d) := by
  cases st with
  | boot pind =>
    exact .bind (.bind (.bind .read fun _ => .ite (fun _ => openSession_sameRecord)
      fun _ => .pure false) fun opened => .bind (fun _ => ⟨rfl, rfl⟩) fun _ => .pure opened)
      fun _ => .pure ()
  | watchdog => exact client_sameRecord _
  | client => exact .bind (client_sameRecord _) fun _ _ => ⟨rfl, rfl⟩
  | retry =>
    exact .bind (.bind .read fun _ => .ite
      (fun _ => .bind (fun _ => ⟨rfl, rfl⟩) fun _ => openSession_sameRecord)
      fun _ => .pure false) fun _ => .pure ()
  | save => exact .bind saveConnect_sameRecord fun _ => .pure ()
  | chime i pind =>
    exact .bind .read fun _ => .bind (client_sameRecord _) fun _ _ => ⟨rfl, rfl⟩
  | console uart => exact absurd rfl (hst uart)
  | delay elapsed =>
    intro f
    simp only [Stage.perform, delayRound, modify_apply]
    split_ifs <;> exact ⟨rfl, rfl⟩

/-- The commands of a part, and what they have done. -/
theorem perform_typed {f : Firmware} {s : ConfigStore} (h : SameRecord s f.console.store)
    (st : Stage) : SameRecord (typed s (passedBy (some (), f) st))
      (st.perform d f).2.console.store := by
  by_cases hconsole : ∃ uart, st = .console uart
  · obtain ⟨uart, rfl⟩ := hconsole
    have hend : (Stage.perform d (.console uart) f).2.console.store =
        typed f.console.store (f.console.linesPassed uart) := by
      rw [Stage.perform, consoleRound_apply]
      exact f.console.feed_store uart
    rw [hend]
    exact typed_sameRecord h _
  · have hother : ∀ uart, st ≠ .console uart := fun uart heq => hconsole ⟨uart, heq⟩
    obtain ⟨_, huart⟩ := perform_sameLine d hother f
    have hnone : passedBy (some (), f) st = [] := by
      rw [passedBy, huart]
      rfl
    rw [hnone]
    exact trans_of SameRecord h (perform_sameRecord hother f)

/-- Over a run the record is the one that the lines passed on have made of it. -/
theorem run_typed (o : Option Unit × Firmware) {s : ConfigStore}
    (h : SameRecord s o.2.console.store) (es : List Stage) :
    SameRecord (typed s (outputs (next (Stage.perform d)) passedBy o es))
      (run (next (Stage.perform d)) o es).2.console.store := by
  induction es generalizing o s with
  | nil => exact h
  | cons st es ih =>
    obtain ⟨_ | _, f⟩ := o
    · rw [outputs_stopped d (fun _ _ => rfl), run_next_stopped]
      exact h
    · rw [outputs, typed, run_append, run_cons]
      exact ih _ (perform_typed h st)

end Parts

/-- After any run from boot, whatever the broker sent, whoever rang and when: configuration and
EEPROM are what the commands of the lines typed at the console make of those that were loaded. The
lines are those of the reference editor on the bytes that were read, all that were delivered
unless the run was cut short. -/
theorem administered_at_console (d : Driver) (eeprom : Memory) (portB pind : UInt8) (chip : Chip)
    (rs : List Round) :
    let main := mainRun d pind rs (.loaded eeprom portB chip)
    ∃ bytes, bytes <+: rs.flatMap (·.uart) ∧
      (main.1.isSome → bytes = rs.flatMap (·.uart)) ∧
      SameRecord (typed (load (.boot eeprom)).1 (editedLines [] bytes)) main.2.console.store := by
  intro main
  have hrunning : ((some (), Firmware.loaded eeprom portB chip) : Option Unit × Firmware).1.isSome →
      (Firmware.loaded eeprom portB chip).console.running = true := fun _ => rfl
  have hperformed := mainRun_performs d pind rs (.loaded eeprom portB chip)
  obtain ⟨hconsumed, hall⟩ := bytes_read d _ (stages pind rs) hrunning
  rw [stages_uart] at hconsumed hall
  have hlines := lines_eq d _ (stages pind rs) hrunning
  have htyped := run_typed (d := d) (some (), Firmware.loaded eeprom portB chip)
    (refl_of SameRecord _) (stages pind rs)
  rw [hlines, ← hperformed] at htyped
  refine ⟨_, hconsumed, fun hfinished => hall ?_, htyped⟩
  rw [← hperformed, Option.isSome_map]
  exact hfinished

end SmartBell.App
