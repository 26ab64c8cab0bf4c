import SmartBell.Common.Runs
import SmartBell.Config.LightweightConfig

/-!
# Well-formed configurations

Every reader of the configuration scans its character arrays for a NUL without a
bound. The commands keep a NUL inside each array, a non-zero port and the magic word;
`load` checks the last two only, so a record it accepts brings its arrays unchecked.
A run keeps the configuration well formed exactly if every record it loads is
terminated.
-/
namespace SmartBell.Config
open Common

/-- A NUL inside the array itself. -/
def Terminated {n : Nat} (v : Vector UInt8 n) : Prop := (0 : UInt8) ∈ v.toList

instance {n : Nat} (v : Vector UInt8 n) : Decidable (Terminated v) :=
  inferInstanceAs (Decidable ((0 : UInt8) ∈ v.toList))

theorem terminated_of_cell {n : Nat} {v : Vector UInt8 n} {i : Nat} (hi : i < n) (h : v[i] = 0) :
    Terminated v := by
  have hmem : v[i] ∈ v.toList := by simp
  rwa [h] at hmem

/-- The last cell of the client id is written after every copy. -/
theorem terminated_set_last (v : Vector UInt8 16) (h : 15 < 16) : Terminated (v.set 15 0 h) :=
  terminated_of_cell h (Vector.getElem_set_self h)

/-- The four strings of the record end inside their arrays. -/
structure StringsTerminated (c : SmartBellConfig) : Prop where
  clientId : Terminated c.clientId
  input1Topic : Terminated c.input1Topic
  input2Topic : Terminated c.input2Topic
  gongBaseTopic : Terminated c.gongBaseTopic

structure WellFormed (c : SmartBellConfig) : Prop extends StringsTerminated c where
  brokerPort : c.brokerPort ≠ 0
  magic : c.magic = magicWord

/-- A string that ends inside its array does not run on. -/
theorem stringAt_of_terminated (c : SmartBellConfig) {n off : Nat} {v : Vector UInt8 n}
    (hfield : ∀ (i : Nat) (h : i < n), c.image (off + i) = v[i])
    (hoff : off + n ≤ SmartBellConfig.size) (hv : Terminated v) :
    c.stringAt off = cstring v.toList := by
  have hsplit : SmartBellConfig.size - off = n + (SmartBellConfig.size - off - n) := by omega
  have hcells : (List.range' off n).map c.image = v.toList := by
    apply List.ext_getElem
    · simp
    · intro i h1 h2
      simpa using hfield i (by simpa using h2)
  rw [SmartBellConfig.stringAt, hsplit, ← List.range'_append_1, List.map_append, hcells]
  exact cstring_append_of_mem hv _

theorem Terminated.cstring_length_lt {n : Nat} {v : Vector UInt8 n} (h : Terminated v) :
    (cstring v.toList).length < n := by
  simpa using cstring_length_lt_of_mem h

/-- Where the character arrays are in the record. -/
theorem image_strings (c : SmartBellConfig) :
    (∀ (i : Nat) (h : i < 16), c.image (6 + i) = c.clientId[i]) ∧
      (∀ (i : Nat) (h : i < 25), c.image (22 + i) = c.input1Topic[i]) ∧
      (∀ (i : Nat) (h : i < 25), c.image (47 + i) = c.input2Topic[i]) ∧
      ∀ (i : Nat) (h : i < 25), c.image (72 + i) = c.gongBaseTopic[i] := by
  refine ⟨?_, ?_, ?_, ?_⟩ <;>
  · intro i hi
    simp (disch := omega) only [SmartBellConfig.image, if_neg, if_pos, Nat.add_sub_cancel_left,
      Vector.getElem?_eq_getElem, Option.getD_some]

theorem clientIdString_of_terminated {c : SmartBellConfig} (h : Terminated c.clientId) :
    c.clientIdString = cstring c.clientId.toList :=
  stringAt_of_terminated c (image_strings c).1 (by decide) h

theorem input1TopicString_of_terminated {c : SmartBellConfig} (h : Terminated c.input1Topic) :
    c.input1TopicString = cstring c.input1Topic.toList :=
  stringAt_of_terminated c (image_strings c).2.1 (by decide) h

theorem input2TopicString_of_terminated {c : SmartBellConfig} (h : Terminated c.input2Topic) :
    c.input2TopicString = cstring c.input2Topic.toList :=
  stringAt_of_terminated c (image_strings c).2.2.1 (by decide) h

theorem gongBaseTopicString_of_terminated {c : SmartBellConfig} (h : Terminated c.gongBaseTopic) :
    c.gongBaseTopicString = cstring c.gongBaseTopic.toList :=
  stringAt_of_terminated c (image_strings c).2.2.2 (by decide) h

/-! ## Commands -/

theorem resetToDefaults_wellFormed {c : SmartBellConfig} (h1 : Terminated c.input1Topic)
    (h2 : Terminated c.input2Topic) (h3 : Terminated c.gongBaseTopic) :
    WellFormed (resetToDefaults c) where
  clientId := terminated_set_last _ (by omega)
  input1Topic := h1
  input2Topic := h2
  gongBaseTopic := h3
  brokerPort := by simp [resetToDefaults]
  magic := rfl

theorem staticConfig_wellFormed : WellFormed staticConfig :=
  resetToDefaults_wellFormed
    (terminated_of_cell (i := 0) (by omega) (by simp [SmartBellConfig.ofImage]))
    (terminated_of_cell (i := 0) (by omega) (by simp [SmartBellConfig.ofImage]))
    (terminated_of_cell (i := 0) (by omega) (by simp [SmartBellConfig.ofImage]))

/-- What the copy loop takes of a text. -/
def takenTopic (t : List UInt8) : List UInt8 := (t.takeWhile (!endsLine ·)).take 24

/-- The copy loop writes what it takes, and its NUL, over the array. -/
theorem copyTopic_eq_overwriteAt (t : List UInt8) (len : Nat) (dest : Vector UInt8 25)
    (hlen : len ≤ 24) : copyTopic t len dest =
      overwriteAt dest len ((t.takeWhile (!endsLine ·)).take (24 - len) ++ [0]) := by
  have hnul (len : Nat) (dest : Vector UInt8 25) :
      dest.setIfInBounds len 0 = overwriteAt dest len [0] := by
    rw [← overwriteAt_cons, overwriteAt_nil]
  induction t generalizing len dest with
  | nil => rw [copyTopic, hnul, List.takeWhile_nil, List.take_nil, List.nil_append]
  | cons c t ih =>
    unfold copyTopic
    split_ifs with hgo
    · have hroom : 24 - len = 24 - (len + 1) + 1 := by omega
      have hrest := ih (len + 1) (dest.setIfInBounds len c) (by omega)
      have htaken : (c :: t).takeWhile (!endsLine ·) = c :: t.takeWhile (!endsLine ·) := by
        simp [hgo.1]
      rw [hrest, overwriteAt_cons, htaken, hroom, List.take_succ_cons, List.cons_append]
    · rw [hnul]
      by_cases hend : endsLine c
      · simp [hend]
      · have hfull : 24 - len = 0 := by
          simp [hend] at hgo
          omega
        simp [hfull]

theorem toList_copyTopic (t : List UInt8) (dest : Vector UInt8 25) :
    (copyTopic t 0 dest).toList =
      takenTopic t ++ 0 :: dest.toList.drop ((takenTopic t).length + 1) := by
  have hlen : (takenTopic t ++ [0]).length ≤ 25 := by
    simp [takenTopic]
  have hwritten : copyTopic t 0 dest = overwrite dest (takenTopic t ++ [0]) := by
    rw [copyTopic_eq_overwriteAt t 0 dest (by omega), overwriteAt_zero]
    rfl
  rw [hwritten, toList_overwrite hlen]
  simp

/-- It always leaves its NUL, after 24 characters at the latest. -/
theorem copyTopic_terminated (t : List UInt8) (dest : Vector UInt8 25) :
    Terminated (copyTopic t 0 dest) := by
  rw [Terminated, toList_copyTopic]
  simp

/-- A property of configurations that no store of a command breaks. -/
structure KeptByStores (P : SmartBellConfig → Prop) : Prop where
  address : ∀ field ∈ [deviceIpField, subnetField, gatewayField, brokerIpField], ∀ ip c,
    P c → P (field.put ip c)
  brokerPort : ∀ port c, port ≠ 0 → P c → P { c with brokerPort := port }
  clientId : ∀ id c, Terminated id → P c → P { c with clientId := id }
  input1Topic : ∀ topic c, Terminated topic → P c → P { c with input1Topic := topic }
  input2Topic : ∀ topic c, Terminated topic → P c → P { c with input2Topic := topic }
  gongBaseTopic : ∀ topic c, Terminated topic → P c → P { c with gongBaseTopic := topic }
  magic : ∀ c, P c → P { c with magic := magicWord }
  reset : ∀ c, P c → P (resetToDefaults c)

section Stores
variable {P : SmartBellConfig → Prop} (hP : KeptByStores P) {s : ConfigStore}
include hP

theorem setAddress_keeps {field : AddressField}
    (hfield : field ∈ [deviceIpField, subnetField, gatewayField, brokerIpField])
    (ok bad arg : List UInt8) (h : P s.config) : P (setAddress field ok bad arg s).store.config :=
  hP.address field hfield _ _ h

theorem brCommand_keeps (text : List UInt8) (h : P s.config) :
    P (brCommand text s).store.config := by
  have haddress (ip : Vector UInt8 4) : P (brokerIpField.put ip s.config) :=
    hP.address brokerIpField (by simp) ip _ h
  unfold brCommand
  dsimp only
  cases afterSeparator (skipSpaces text) with
  | none => exact h
  | some portText =>
    dsimp only
    split_ifs
    · cases hport : parsePortU16 portText with
      | none => exact haddress _
      | some port => exact hP.brokerPort port _ (parsePortU16_ne_zero hport) (haddress _)
    · exact haddress _

theorem idCommand_keeps (text : List UInt8) (h : P s.config) :
    P (idCommand text s).store.config := by
  unfold idCommand
  dsimp only
  split_ifs
  · exact hP.clientId _ _ (terminated_set_last _ (by omega)) h
  · exact h

theorem inputCommand_keeps (arg : List UInt8) (h : P s.config) :
    P (inputCommand arg s).store.config := by
  unfold inputCommand
  dsimp only
  split_ifs
  · exact hP.input1Topic _ _ (copyTopic_terminated _ _) h
  · exact hP.input2Topic _ _ (copyTopic_terminated _ _) h
  · exact h

theorem gongSubCommand_keeps (arg : List UInt8) (h : P s.config) :
    P (gongSubCommand arg s).store.config := by
  unfold gongSubCommand
  dsimp only
  split_ifs
  · exact hP.gongBaseTopic _ _ (copyTopic_terminated _ _) h
  · exact h

/-- No command, accepted or refused, breaks the property. -/
theorem processCommand_keeps (text : List UInt8) (h : P s.config) :
    P (processCommand text s).store.config := by
  unfold processCommand
  cases commandOf text with
  | help | showConfig | reboot | unknown => exact h
  | ip arg | sn arg | gw arg => exact setAddress_keeps hP (by simp) _ _ arg h
  | br arg => exact brCommand_keeps hP arg h
  | id arg => exact idCommand_keeps hP arg h
  | input arg => exact inputCommand_keeps hP arg h
  | gongSub arg => exact gongSubCommand_keeps hP arg h
  | save => exact hP.magic _ h
  | reset => exact hP.reset _ h

end Stores

theorem wellFormed_keptByStores : KeptByStores WellFormed where
  address field hfield ip c h := by
    simp only [List.mem_cons, List.not_mem_nil, or_false] at hfield
    rcases hfield with rfl | rfl | rfl | rfl <;> exact { h with }
  brokerPort port c hport h := { h with brokerPort := hport }
  clientId id c hid h := { h with clientId := hid }
  input1Topic topic c htopic h := { h with input1Topic := htopic }
  input2Topic topic c htopic h := { h with input2Topic := htopic }
  gongBaseTopic topic c htopic h := { h with gongBaseTopic := htopic }
  magic c h := { h with magic := rfl }
  reset c h := resetToDefaults_wellFormed h.input1Topic h.input2Topic h.gongBaseTopic

theorem processCommand_wellFormed (text : List UInt8) {s : ConfigStore}
    (h : WellFormed s.config) : WellFormed (processCommand text s).store.config :=
  processCommand_keeps wellFormed_keptByStores text h

/-- The configuration of a statically allocated instance after these commands. -/
def commanded (eeprom : Memory) (texts : List (List UInt8)) : SmartBellConfig :=
  (run (fun s text => (processCommand text s).store) (.boot eeprom) texts).config

theorem commanded_wellFormed (eeprom : Memory) (texts : List (List UInt8)) :
    WellFormed (commanded eeprom texts) :=
  run_invariant (I := fun s : ConfigStore => WellFormed s.config)
    (fun _ text h => processCommand_wellFormed text h) staticConfig_wellFormed texts

/-! ## Loading -/

/-- The record that `load` takes over, from the primary slot or else from the legacy one. -/
def acceptedRecord (m : Memory) : Option SmartBellConfig :=
  if isValidConfig (eepromReadCfg m eepromAddr) then some (eepromReadCfg m eepromAddr)
  else if isValidConfig (eepromReadCfg m eepromAddrLegacy) then
    some (eepromReadCfg m eepromAddrLegacy)
  else none

theorem isValidConfig_iff (c : SmartBellConfig) :
    isValidConfig c = true ↔ c.magic = magicWord ∧ c.brokerPort ≠ 0 := by
  unfold isValidConfig
  split_ifs <;> simp_all

theorem acceptedRecord_valid {m : Memory} {c : SmartBellConfig} (h : acceptedRecord m = some c) :
    isValidConfig c = true := by
  unfold acceptedRecord at h
  split_ifs at h with hprimary hlegacy
  · exact Option.some.inj h ▸ hprimary
  · exact Option.some.inj h ▸ hlegacy

/-- `load` replaces the whole record, or leaves it alone. -/
theorem load_config (s : ConfigStore) :
    (load s).1.config = (acceptedRecord s.eeprom).getD s.config := by
  unfold load acceptedRecord
  dsimp only
  split_ifs <;> rfl

/-- The checks of `load` leave exactly the strings open. -/
theorem load_wellFormed_iff {s : ConfigStore} (h : WellFormed s.config) :
    WellFormed (load s).1.config ↔
      ∀ c, acceptedRecord s.eeprom = some c → StringsTerminated c := by
  rw [load_config]
  cases hrecord : acceptedRecord s.eeprom with
  | none => simpa using h
  | some c =>
    have hvalid := (isValidConfig_iff c).mp (acceptedRecord_valid hrecord)
    simp only [Option.getD_some, Option.some.injEq, forall_eq']
    exact ⟨fun hc => hc.toStringsTerminated, fun hc =>
      { hc with brokerPort := hvalid.2, magic := hvalid.1 }⟩

/-! ## Runs -/

/-- The calls made on a `LightweightConfig`. -/
inductive ConfigCall where
  | load
  | save
  | processCommand (text : List UInt8)
  deriving DecidableEq, Repr

def ConfigCall.step (s : ConfigStore) : ConfigCall → ConfigStore
  | .load => (Config.load s).1
  | .save => (Config.save s).1
  | .processCommand text => (Config.processCommand text s).store

/-- A `load` takes over a record whose strings are terminated, if it takes over any. -/
def LoadsTerminated (s : ConfigStore) (call : ConfigCall) : Prop :=
  call = .load → ∀ c, acceptedRecord s.eeprom = some c → StringsTerminated c

theorem step_wellFormed_iff {s : ConfigStore} (call : ConfigCall) (h : WellFormed s.config) :
    WellFormed (call.step s).config ↔ LoadsTerminated s call := by
  cases call with
  | load =>
    have hload := load_wellFormed_iff h
    exact ⟨fun hc _ => hload.mp hc, fun hc => hload.mpr (hc rfl)⟩
  | save =>
    have hsaved : WellFormed (ConfigCall.step s .save).config := { h with magic := rfl }
    exact iff_of_true hsaved nofun
  | processCommand text => exact iff_of_true (processCommand_wellFormed text h) nofun

/-- The configuration of a statically allocated instance is well formed after every call of a
run exactly if every record the run loads has its strings terminated. -/
theorem wellFormed_throughout_iff (eeprom : Memory) (calls : List ConfigCall) :
    Throughout ConfigCall.step (fun s => WellFormed s.config) (.boot eeprom) calls ↔
      Along ConfigCall.step LoadsTerminated (.boot eeprom) calls :=
  throughout_iff_along (I := fun s : ConfigStore => WellFormed s.config) (C := LoadsTerminated)
    (fun _ call h => step_wellFormed_iff call h) staticConfig_wellFormed

/-- A record with the magic word and a port, and no NUL in its base topic. -/
def unterminatedRecord : SmartBellConfig :=
  { staticConfig with gongBaseTopic := Vector.replicate 25 (chr 'a') }

/-- An EEPROM that holds this record is loaded, and breaks the configuration. -/
theorem load_unterminated :
    ¬Throughout ConfigCall.step (fun s => WellFormed s.config)
      (.boot fun a => unterminatedRecord.image (a - eepromAddr)) [.load] := by
  intro h
  exact absurd h.last.gongBaseTopic (by decide)

end SmartBell.Config
