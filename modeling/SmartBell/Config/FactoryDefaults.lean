import SmartBell.Config.CommandEffects

/-!
# Back to factory defaults

`reset` is to load the factory defaults, and the constructor relies on the same function. It
assigns every field but the three topics, which are blank on a static instance only because
its memory is. What an earlier command or a loaded record has put there stays.
-/
namespace SmartBell.Config
open Common

/-- The three topics are as on a static instance, every byte zero. -/
structure BlankTopics (c : SmartBellConfig) : Prop where
  input1Topic : c.input1Topic = Vector.replicate 25 0
  input2Topic : c.input2Topic = Vector.replicate 25 0
  gongBaseTopic : c.gongBaseTopic = Vector.replicate 25 0

/-- The configuration of a static instance after these calls. -/
def configAfter (eeprom : Memory) (calls : List ConfigCall) : SmartBellConfig :=
  (run ConfigCall.step (.boot eeprom) calls).config

/-- The configuration after these calls and the command `text`. -/
def commandAfter (eeprom : Memory) (calls : List ConfigCall) (text : List UInt8) :
    SmartBellConfig :=
  (processCommand text (run ConfigCall.step (.boot eeprom) calls)).store.config

/-- A `reset` after either history leads to one and the same configuration, the one of a fresh
static instance. -/
def RestoresDefaults (m₁ m₂ : Memory) (calls₁ calls₂ : List ConfigCall) : Prop :=
  ∀ text₁ text₂, commandOf text₁ = .reset → commandOf text₂ = .reset →
    commandAfter m₁ calls₁ text₁ = commandAfter m₂ calls₂ text₂ ∧
      commandAfter m₁ calls₁ text₁ = staticConfig

/-! ## The defaults -/

/-- The client id is padded up to its last cell, and that one is set. -/
theorem clientId_default (v w : Vector UInt8 16) (id : List UInt8) :
    (strncpy v id 15).set 15 0 (Nat.lt_add_one 15) =
      (strncpy w id 15).set 15 0 (Nat.lt_add_one 15) := by
  apply Vector.ext
  intro i hi
  rw [Vector.getElem_set, Vector.getElem_set, getElem_strncpy, getElem_strncpy]
  split_ifs
  · rfl
  · rfl
  · omega

theorem staticConfig_blankTopics : BlankTopics staticConfig :=
  ⟨by decide, by decide, by decide⟩

/-- Everything but the topics is restored. -/
theorem resetToDefaults_eq_static_iff (c : SmartBellConfig) :
    resetToDefaults c = staticConfig ↔ BlankTopics c := by
  have hstatic := staticConfig_blankTopics
  constructor
  · intro h
    rw [← h] at hstatic
    exact ⟨hstatic.input1Topic, hstatic.input2Topic, hstatic.gongBaseTopic⟩
  · intro h
    have hid := clientId_default c.clientId (SmartBellConfig.ofImage fun _ => 0).clientId
      (ascii "smartbell")
    have h1 := h.input1Topic.trans hstatic.input1Topic.symm
    have h2 := h.input2Topic.trans hstatic.input2Topic.symm
    have hgong := h.gongBaseTopic.trans hstatic.gongBaseTopic.symm
    simp only [staticConfig, resetToDefaults] at h1 h2 hgong ⊢
    rw [hid, h1, h2, hgong]

theorem commandAfter_reset {text : List UInt8} (h : commandOf text = .reset) (eeprom : Memory)
    (calls : List ConfigCall) :
    commandAfter eeprom calls text = resetToDefaults (configAfter eeprom calls) := by
  unfold commandAfter processCommand
  rw [h]
  rfl

/-! ## What brings in a topic -/

/-- The command stores a topic. -/
def Command.storesTopic : Command → Bool
  | .input arg => ((ascii "1 pt ").isPrefixOf arg || (ascii "2 pt ").isPrefixOf arg) &&
      hasTopic (skipSpaces (arg.drop 5))
  | .gongSub arg => hasTopic (skipSpaces arg)
  | _ => false

/-- The call stores no topic, and loads no record with one. -/
def BringsNoTopic (s : ConfigStore) : ConfigCall → Prop
  | .load => ∀ c, acceptedRecord s.eeprom = some c → BlankTopics c
  | .save => True
  | .processCommand text => (commandOf text).storesTopic = false

/-- A topic is stored with its first character. -/
theorem copyTopic_ne_blank {t : List UInt8} (htopic : hasTopic t = true) (hnul : 0 ∉ t)
    (dest : Vector UInt8 25) : copyTopic t 0 dest ≠ Vector.replicate 25 0 := by
  intro h
  cases t with
  | nil => cases htopic
  | cons c t =>
    have htaken : takenTopic (c :: t) = c :: (t.takeWhile (!endsLine ·)).take 23 := by
      have hc : endsLine c = false := by simpa [hasTopic] using htopic
      simp [takenTopic, hc]
    have hfirst := toList_copyTopic (c :: t) dest
    rw [h, htaken] at hfirst
    have hzero : (0 : UInt8) = c := (List.cons.inj hfirst).1
    exact hnul (hzero ▸ List.mem_cons_self)

/-- A command that is not about the topics leaves them alone. -/
theorem blankTopics_congr {fields : List Field} {c d : SmartBellConfig}
    (h : ChangesOnly fields c d) (h1 : .input1Topic ∉ fields) (h2 : .input2Topic ∉ fields)
    (hgong : .gongBaseTopic ∉ fields) : BlankTopics d ↔ BlankTopics c := by
  have hsame1 : d.input1Topic = c.input1Topic := h .input1Topic h1
  have hsame2 : d.input2Topic = c.input2Topic := h .input2Topic h2
  have hsameGong : d.gongBaseTopic = c.gongBaseTopic := h .gongBaseTopic hgong
  constructor
  · rintro ⟨hd1, hd2, hdgong⟩
    exact ⟨hsame1 ▸ hd1, hsame2 ▸ hd2, hsameGong ▸ hdgong⟩
  · rintro ⟨hc1, hc2, hcgong⟩
    exact ⟨hsame1.trans hc1, hsame2.trans hc2, hsameGong.trans hcgong⟩

theorem inputCommand_blankTopics_iff {arg : List UInt8} (hnul : 0 ∉ arg) {s : ConfigStore}
    (h : BlankTopics s.config) :
    BlankTopics (inputCommand arg s).store.config ↔ (Command.input arg).storesTopic = false := by
  have htopic : 0 ∉ skipSpaces (arg.drop 5) := fun hmem =>
    hnul (List.drop_subset 5 arg ((List.dropWhile_suffix _).subset hmem))
  unfold inputCommand Command.storesTopic
  dsimp only
  split_ifs with hgo hfirst
  · rw [hgo]
    refine iff_of_false (fun hblank => ?_) Bool.true_eq_false.mp
    exact copyTopic_ne_blank (Bool.and_eq_true_iff.mp hgo).2 htopic _ hblank.input1Topic
  · rw [hgo]
    refine iff_of_false (fun hblank => ?_) Bool.true_eq_false.mp
    exact copyTopic_ne_blank (Bool.and_eq_true_iff.mp hgo).2 htopic _ hblank.input2Topic
  · exact iff_of_true h (Bool.eq_false_iff.mpr hgo)

theorem gongSubCommand_blankTopics_iff {arg : List UInt8} (hnul : 0 ∉ arg) {s : ConfigStore}
    (h : BlankTopics s.config) :
    BlankTopics (gongSubCommand arg s).store.config ↔
      (Command.gongSub arg).storesTopic = false := by
  have htopic : 0 ∉ skipSpaces arg := fun hmem => hnul ((List.dropWhile_suffix _).subset hmem)
  unfold gongSubCommand Command.storesTopic
  dsimp only
  split_ifs with hgo
  · rw [hgo]
    refine iff_of_false (fun hblank => ?_) Bool.true_eq_false.mp
    exact copyTopic_ne_blank hgo htopic _ hblank.gongBaseTopic
  · exact iff_of_true h (Bool.eq_false_iff.mpr hgo)

/-- Blank topics stay blank exactly under a command that stores none. -/
theorem processCommand_blankTopics_iff (text : List UInt8) {s : ConfigStore}
    (h : BlankTopics s.config) :
    BlankTopics (processCommand text s).store.config ↔ (commandOf text).storesTopic = false := by
  have hnul := zero_not_mem_argument text
  have hframe := (commandOf text).run_changesOnly s
  unfold processCommand
  cases hcommand : commandOf text with
  | input arg =>
    rw [hcommand] at hnul
    exact inputCommand_blankTopics_iff hnul h
  | gongSub arg =>
    rw [hcommand] at hnul
    exact gongSubCommand_blankTopics_iff hnul h
  | help | showConfig | ip | sn | gw | br | id | save | reset | reboot | unknown =>
    rw [hcommand] at hframe
    have hkept := blankTopics_congr hframe (by simp [Command.fields]) (by simp [Command.fields])
      (by simp [Command.fields])
    exact iff_of_true (hkept.mpr h) rfl

theorem step_blankTopics_iff {s : ConfigStore} (h : BlankTopics s.config) (call : ConfigCall) :
    BlankTopics (call.step s).config ↔ BringsNoTopic s call := by
  cases call with
  | load =>
    rw [ConfigCall.step, load_config]
    cases hrecord : acceptedRecord s.eeprom with
    | none => exact iff_of_true h fun c hc => absurd (hrecord.symm.trans hc) nofun
    | some c =>
      simp [BringsNoTopic, hrecord]
  | save => exact iff_of_true ⟨h.input1Topic, h.input2Topic, h.gongBaseTopic⟩ trivial
  | processCommand text => exact processCommand_blankTopics_iff text h

/-- The topics are blank throughout a run exactly if no call of it brings one in. -/
theorem blankTopics_throughout_iff (eeprom : Memory) (calls : List ConfigCall) :
    Throughout ConfigCall.step (fun s => BlankTopics s.config) (.boot eeprom) calls ↔
      Along ConfigCall.step BringsNoTopic (.boot eeprom) calls :=
  throughout_iff_along (I := fun s : ConfigStore => BlankTopics s.config) (C := BringsNoTopic)
    (fun _ call h => step_blankTopics_iff h call) staticConfig_blankTopics

/-! ## Two histories -/

/-- `reset` restores the factory defaults after two histories exactly if the topics are blank when
it comes. So it does if no call of either history has brought in a topic. -/
theorem restoresDefaults_iff (m₁ m₂ : Memory) (calls₁ calls₂ : List ConfigCall) :
    (RestoresDefaults m₁ m₂ calls₁ calls₂ ↔
      BlankTopics (configAfter m₁ calls₁) ∧ BlankTopics (configAfter m₂ calls₂)) ∧
    (Along ConfigCall.step BringsNoTopic (.boot m₁) calls₁ →
      Along ConfigCall.step BringsNoTopic (.boot m₂) calls₂ →
      RestoresDefaults m₁ m₂ calls₁ calls₂) := by
  have hiff : RestoresDefaults m₁ m₂ calls₁ calls₂ ↔
      BlankTopics (configAfter m₁ calls₁) ∧ BlankTopics (configAfter m₂ calls₂) := by
    rw [← resetToDefaults_eq_static_iff, ← resetToDefaults_eq_static_iff]
    constructor
    · intro h
      have hreset : commandOf (ascii "reset") = .reset := by decide
      obtain ⟨heq, hstatic⟩ := h _ _ hreset hreset
      simp only [commandAfter_reset hreset] at heq hstatic
      exact ⟨hstatic, heq.symm.trans hstatic⟩
    · rintro ⟨h₁, h₂⟩ text₁ text₂ htext₁ htext₂
      rw [commandAfter_reset htext₁, commandAfter_reset htext₂, h₁, h₂]
      exact ⟨rfl, rfl⟩
  refine ⟨hiff, fun h₁ h₂ => hiff.mpr ⟨?_, ?_⟩⟩
  · exact ((blankTopics_throughout_iff m₁ calls₁).mpr h₁).last
  · exact ((blankTopics_throughout_iff m₂ calls₂).mpr h₂).last

/-- A topic that was typed is still there after `reset`. -/
theorem not_restoresDefaults :
    ¬RestoresDefaults (fun _ => 0xFF) (fun _ => 0xFF)
      [.processCommand (ascii "gong sub attic")] [] := by
  intro h
  have hreset : commandOf (ascii "reset") = .reset := by decide
  obtain ⟨_, hstatic⟩ := h _ _ hreset hreset
  exact absurd (congrArg SmartBellConfig.gongBaseTopic hstatic) (by decide)

end SmartBell.Config
