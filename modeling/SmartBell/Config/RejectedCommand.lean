import SmartBell.Config.LightweightConfig

/-!
# Commands that are answered with an error

A rejected command should leave the configuration alone. The address commands parse
straight into the live record, so a text that is rejected late has already replaced
octets; `br` also keeps the whole address when only its port is refused. The exact
condition is that every octet stored on the way was in its place before.
-/
namespace SmartBell.Config
open Common

/-- The command was answered with `Error: ...` or `Unknown command`. -/
def isErrorAnswer (output : List UInt8) : Bool :=
  (ascii "Error: ").isPrefixOf output || (ascii "Unknown command").isPrefixOf output

/-- The address field and text of an `ip`, `sn` or `gw` command that is rejected. -/
def rejectedField (field : AddressField) (arg : List UInt8) : Option (AddressField × List UInt8) :=
  if (octetsWritten arg).length = 4 then none else some (field, arg)

/-- The same for `br`, which refuses a command for its address or for its port. A command
without a separator is refused before anything is parsed. -/
def rejectedBroker (text : List UInt8) : Option (AddressField × List UInt8) :=
  match afterSeparator (skipSpaces text) with
  | none => none
  | some portText =>
    if (octetsWritten (skipSpaces text)).length = 4 ∧ parsePortU16 portText ≠ none then none
    else some (brokerIpField, skipSpaces text)

/-- The field and the address text of a command that is rejected after parsing an address. -/
def rejectedAddress : Command → Option (AddressField × List UInt8)
  | .ip arg => rejectedField deviceIpField arg
  | .sn arg => rejectedField subnetField arg
  | .gw arg => rejectedField gatewayField arg
  | .br arg => rejectedBroker arg
  | _ => none

/-- An error answer of this call left the configuration as it was. -/
def UnchangedOnError (s : ConfigStore) (answer : Answer) : Prop :=
  isErrorAnswer answer.output = true → answer.store.config = s.config

/-- Every octet stored by a rejected command was already there. -/
def StoresNothingNew (rejected : Option (AddressField × List UInt8)) (c : SmartBellConfig) : Prop :=
  ∀ field arg, rejected = some (field, arg) → octetsWritten arg <+: (field.get c).toList

theorem storesNothingNew_none (c : SmartBellConfig) : StoresNothingNew none c := by
  intro field arg h
  cases h

/-- Storing the octets of a text leaves the record alone exactly if they were there. -/
theorem put_octetsWritten_eq_self_iff (field : AddressField) (arg : List UInt8)
    (c : SmartBellConfig) : field.put (overwrite (field.get c) (octetsWritten arg)) c = c ↔
      octetsWritten arg <+: (field.get c).toList := by
  rw [field.put_eq_self_iff, overwrite_eq_self_iff (octetsWritten_length_le arg)]

/-- A call that changes nothing, or whose answer is no error, needs no condition. -/
theorem unchangedOnError_say {s : ConfigStore} {out : List UInt8} (c : SmartBellConfig)
    (h : c = s.config ∨ isErrorAnswer out = false) :
    UnchangedOnError s ((s.withConfig c).say out) ↔ StoresNothingNew none s.config := by
  refine ⟨fun _ => storesNothingNew_none _, fun _ herror => ?_⟩
  rcases h with rfl | hout
  · rfl
  · exact absurd (hout.symm.trans herror) (by decide)

/-- A call that stores the octets of a text and then refuses it. -/
theorem unchangedOnError_store (field : AddressField) (arg : List UInt8) (s : ConfigStore)
    {bad : List UInt8} (hbad : isErrorAnswer bad = true) :
    UnchangedOnError s ((s.withConfig (field.put (overwrite (field.get s.config)
        (octetsWritten arg)) s.config)).say bad) ↔
      StoresNothingNew (some (field, arg)) s.config := by
  have hput := put_octetsWritten_eq_self_iff field arg s.config
  constructor
  · rintro h _ _ ⟨⟩
    exact hput.mp (h hbad)
  · intro h _
    exact hput.mpr (h field arg rfl)

theorem setAddress_unchanged_iff (field : AddressField) {ok bad : List UInt8} (arg : List UInt8)
    (s : ConfigStore) (hok : isErrorAnswer ok = false) (hbad : isErrorAnswer bad = true) :
    UnchangedOnError s (setAddress field ok bad arg s) ↔
      StoresNothingNew (rejectedField field arg) s.config := by
  unfold setAddress rejectedField
  rw [parseIp_eq]
  by_cases haccept : (octetsWritten arg).length = 4
  · simp only [haccept, decide_true, if_true]
    exact unchangedOnError_say _ (.inr hok)
  · simp only [haccept, decide_false, if_false, Bool.false_eq_true]
    exact unchangedOnError_store field arg s hbad

theorem brCommand_unchanged_iff (text : List UInt8) (s : ConfigStore) :
    UnchangedOnError s (brCommand text s) ↔ StoresNothingNew (rejectedBroker text) s.config := by
  have hbad : isErrorAnswer (ascii "Error: Usage: br <ip>:<port>\r\n") = true := by decide
  have store := unchangedOnError_store brokerIpField (skipSpaces text) s hbad
  unfold brCommand rejectedBroker
  dsimp only
  cases hsep : afterSeparator (skipSpaces text) with
  | none => exact unchangedOnError_say s.config (.inl rfl)
  | some portText =>
    dsimp only
    rw [parseIp_eq]
    by_cases haccept : (octetsWritten (skipSpaces text)).length = 4
    · simp only [haccept, decide_true, if_true, true_and]
      cases hport : parsePortU16 portText with
      | none => exact store
      | some port =>
        exact unchangedOnError_say _ (.inr (by decide))
    · simp only [haccept, decide_false, if_false, Bool.false_eq_true, false_and]
      exact store

/-- A command that does not parse an address never changes the record when it is refused. -/
theorem idCommand_unchanged (text : List UInt8) (s : ConfigStore) :
    UnchangedOnError s (idCommand text s) ↔ StoresNothingNew none s.config := by
  unfold idCommand
  dsimp only
  split_ifs
  · exact unchangedOnError_say _ (.inr (by decide))
  · exact unchangedOnError_say s.config (.inl rfl)

theorem inputCommand_unchanged (arg : List UInt8) (s : ConfigStore) :
    UnchangedOnError s (inputCommand arg s) ↔ StoresNothingNew none s.config := by
  unfold inputCommand
  dsimp only
  split_ifs
  · exact unchangedOnError_say _ (.inr (by decide))
  · exact unchangedOnError_say _ (.inr (by decide))
  · exact unchangedOnError_say s.config (.inl rfl)

theorem gongSubCommand_unchanged (arg : List UInt8) (s : ConfigStore) :
    UnchangedOnError s (gongSubCommand arg s) ↔ StoresNothingNew none s.config := by
  unfold gongSubCommand
  dsimp only
  split_ifs
  · exact unchangedOnError_say _ (.inr (by decide))
  · exact unchangedOnError_say s.config (.inl rfl)

/-- A command that is answered with an error leaves the configuration byte for byte as it was
exactly if every octet it stored before refusing was in place already. -/
theorem rejected_command_unchanged_iff (text : List UInt8) (s : ConfigStore) :
    UnchangedOnError s (processCommand text s) ↔
      StoresNothingNew (rejectedAddress (commandOf text)) s.config := by
  unfold processCommand
  cases commandOf text with
  | help | showConfig | reboot | unknown => exact unchangedOnError_say s.config (.inl rfl)
  | ip arg | sn arg | gw arg =>
    exact setAddress_unchanged_iff _ arg s (by decide) (by decide)
  | br arg => exact brCommand_unchanged_iff arg s
  | id arg => exact idCommand_unchanged arg s
  | input arg => exact inputCommand_unchanged arg s
  | gongSub arg => exact gongSubCommand_unchanged arg s
  | save =>
    refine ⟨fun _ => storesNothingNew_none _, fun _ herror => absurd herror ?_⟩
    simp only [Command.run, ConfigStore.say, save]
    decide
  | reset => exact unchangedOnError_say _ (.inr (by decide))

/-- `ip 10.20.300` is refused, and the first two octets of the device address are replaced. -/
theorem rejected_ip_changes_address :
    ¬UnchangedOnError (ConfigStore.boot fun _ => 0)
      (processCommand (ascii "ip 10.20.300") (ConfigStore.boot fun _ => 0)) := by
  unfold UnchangedOnError
  decide

end SmartBell.Config
