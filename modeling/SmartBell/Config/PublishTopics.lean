import SmartBell.Config.WellFormed

/-!
# The topics to publish to

A topic name in a PUBLISH is not empty and has no wildcard. What can be in the two
`input` fields is followed through everything that writes to the configuration: only a
record that is loaded and the `input` commands bring in a topic, and neither looks at it
for wildcards; until then both are the empty string.
-/
namespace SmartBell.Config
open Common

/-- Neither of the two characters that are wildcards in a topic filter. -/
def WildcardFree (topic : List UInt8) : Prop := chr '+' ∉ topic ∧ chr '#' ∉ topic

instance (topic : List UInt8) : Decidable (WildcardFree topic) :=
  inferInstanceAs (Decidable (_ ∧ _))

/-- A topic name that a PUBLISH may have. -/
def LegalTopic (topic : List UInt8) : Prop := topic ≠ [] ∧ WildcardFree topic

instance (topic : List UInt8) : Decidable (LegalTopic topic) :=
  inferInstanceAs (Decidable (_ ∧ _))

theorem WildcardFree.subset {topic topic' : List UInt8} (h : WildcardFree topic)
    (hsub : topic' ⊆ topic) : WildcardFree topic' :=
  ⟨fun hplus => h.1 (hsub hplus), fun hhash => h.2 (hsub hhash)⟩

/-! ## Fields -/

/-- A field whose string ends inside it and has no wildcards. -/
structure PlainTopic (v : Vector UInt8 25) : Prop where
  terminated : Terminated v
  wildcardFree : WildcardFree (cstring v.toList)

structure PlainTopics (c : SmartBellConfig) : Prop where
  input1Topic : PlainTopic c.input1Topic
  input2Topic : PlainTopic c.input2Topic

/-- What is stored of a text is among its first 24 characters. -/
theorem copyTopic_plain {t : List UInt8} (h : WildcardFree (t.take 24)) (dest : Vector UInt8 25) :
    PlainTopic (copyTopic t 0 dest) := by
  refine ⟨copyTopic_terminated t dest, h.subset fun c hc => ?_⟩
  rw [toList_copyTopic] at hc
  have htaken : c ∈ takenTopic t := mem_of_mem_cstring_append hc
  exact ((List.takeWhile_prefix _).take 24).subset htaken

/-! ## Commands -/

/-- No wildcard is among the characters that the command may store as an input topic. -/
def Command.WildcardFree : Command → Prop
  | .input arg => Config.WildcardFree ((skipSpaces (arg.drop 5)).take 24)
  | _ => True

theorem inputCommand_plainTopics {arg : List UInt8}
    (harg : WildcardFree ((skipSpaces (arg.drop 5)).take 24)) {s : ConfigStore}
    (h : PlainTopics s.config) : PlainTopics (inputCommand arg s).store.config := by
  unfold inputCommand
  dsimp only
  split_ifs
  · exact { h with input1Topic := copyTopic_plain harg _ }
  · exact { h with input2Topic := copyTopic_plain harg _ }
  · exact h

/-- A command other than `input` does not write to the two fields. -/
theorem run_plainTopics {cmd : Command} (hcmd : cmd.WildcardFree) {s : ConfigStore}
    (h : PlainTopics s.config) : PlainTopics (cmd.run s).store.config := by
  cases cmd with
  | input arg => exact inputCommand_plainTopics hcmd h
  | help | showConfig | reboot | unknown => exact h
  | ip arg | sn arg | gw arg | save | reset => exact ⟨h.input1Topic, h.input2Topic⟩
  | br arg =>
    simp only [Command.run, brCommand]
    cases afterSeparator (skipSpaces arg) with
    | none => exact h
    | some portText =>
      dsimp only
      split_ifs
      · cases parsePortU16 portText with
        | none =>
          rw [ConfigStore.config_say_withConfig]
          exact ⟨h.input1Topic, h.input2Topic⟩
        | some port =>
          rw [ConfigStore.config_say_withConfig]
          exact ⟨h.input1Topic, h.input2Topic⟩
      · rw [ConfigStore.config_say_withConfig]
        exact ⟨h.input1Topic, h.input2Topic⟩
  | id arg =>
    simp only [Command.run, idCommand]
    split_ifs
    · rw [ConfigStore.config_say_withConfig]
      exact ⟨h.input1Topic, h.input2Topic⟩
    · exact h
  | gongSub arg =>
    simp only [Command.run, gongSubCommand]
    split_ifs
    · rw [ConfigStore.config_say_withConfig]
      exact ⟨h.input1Topic, h.input2Topic⟩
    · exact h

/-! ## Start -/

/-- The two fields are empty until something is loaded or typed. -/
theorem staticConfig_plainTopics : PlainTopics staticConfig where
  input1Topic := ⟨staticConfig_wellFormed.input1Topic, by decide⟩
  input2Topic := ⟨staticConfig_wellFormed.input2Topic, by decide⟩

theorem load_plainTopics {eeprom : Memory}
    (h : ∀ c, acceptedRecord eeprom = some c → PlainTopics c) :
    PlainTopics (load (.boot eeprom)).1.config := by
  rw [load_config]
  cases hrecord : acceptedRecord (ConfigStore.boot eeprom).eeprom with
  | none => exact staticConfig_plainTopics
  | some c => exact h c hrecord

end SmartBell.Config
