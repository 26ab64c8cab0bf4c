import SmartBell.Config.Parsers
import SmartBell.Config.SmartBellConfig

/-!
# `LightweightConfig`: loading, saving and the console commands

The live configuration, the flag that tells the main loop about a `save`, and the
EEPROM both are kept in. `processCommand` is the console's prefix dispatcher with
everything it prints; the three address commands, the two `input` topics and the
`gong sub` topic share their bodies and differ in the field they store to.
-/
namespace SmartBell.Config
open Common

def eepromAddr : Nat := 128
def eepromAddrLegacy : Nat := 0
def magicWord : UInt32 := 0xBEEFCAFE

/-- The members of `LightweightConfig` together with the EEPROM. -/
structure ConfigStore where
  config : SmartBellConfig
  saveFlag : Bool
  eeprom : Memory

/-- What a call leaves behind: the store, the text sent to the UART, the result, and
whether the call returned at all (`reboot` does not). -/
structure Answer where
  store : ConfigStore
  output : List UInt8
  result : Bool
  returns : Bool

/-! ## EEPROM -/

def isValidConfig (cfg : SmartBellConfig) : Bool :=
  if cfg.magic ≠ magicWord then false else if cfg.brokerPort = 0 then false else true

def eepromReadCfg (m : Memory) (addr : Nat) : SmartBellConfig := .ofImage (m.block addr)

/-- `eeprom_update_block` over the whole record. -/
def eepromWriteCfg (cfg : SmartBellConfig) (m : Memory) (addr : Nat) : Memory :=
  m.writeBytes addr cfg.image (List.range SmartBellConfig.size)

/-- `reset_to_defaults`; the three topics keep their contents. -/
def resetToDefaults (c : SmartBellConfig) : SmartBellConfig :=
  { c with
    brokerIp := #v[0, 0, 0, 0]
    brokerPort := 1883
    clientId := (strncpy c.clientId (ascii "smartbell") 15).set 15 0
    deviceIp := #v[192, 168, 1, 100]
    subnet := #v[255, 255, 255, 0]
    gateway := #v[192, 168, 1, 1]
    mac := #v[0x00, 0x08, 0xDC, 0xAB, 0xCD, 0xEF]
    magic := magicWord }

/-- The constructor on statically allocated, hence zeroed, memory. -/
def staticConfig : SmartBellConfig := resetToDefaults (.ofImage fun _ => 0)

def ConfigStore.boot (eeprom : Memory) : ConfigStore := ⟨staticConfig, false, eeprom⟩

def load (s : ConfigStore) : ConfigStore × List UInt8 :=
  let temp := eepromReadCfg s.eeprom eepromAddr
  if isValidConfig temp then ({ s with config := temp }, ascii "[CFG] Loaded\r\n")
  else
    -- one-time migration from the slot older firmware used
    let temp := eepromReadCfg s.eeprom eepromAddrLegacy
    if isValidConfig temp then
      ({ s with config := temp, eeprom := eepromWriteCfg temp s.eeprom eepromAddr },
        ascii "[CFG] Loaded (migrated)\r\n")
    else (s, ascii "[CFG] Invalid, using defaults\r\n")

def save (s : ConfigStore) : ConfigStore × List UInt8 :=
  let config := { s.config with magic := magicWord }
  ({ config, saveFlag := true, eeprom := eepromWriteCfg config s.eeprom eepromAddr },
    ascii "[CFG] Saved\r\n")

/-- `consume_save_flag`. -/
def consumeSaveFlag (s : ConfigStore) : Bool × ConfigStore :=
  if s.saveFlag then (true, { s with saveFlag := false }) else (false, s)

/-! ## Printing -/

def decimalDigit (n : Nat) : UInt8 := UInt8.ofNat ((chr '0').toNat + n)

/-- One octet as `print_ip` spells it. -/
def octetText (val : UInt8) : List UInt8 :=
  let val := val.toNat
  if val ≥ 100 then
    [decimalDigit (val / 100), decimalDigit (val % 100 / 10), decimalDigit (val % 100 % 10)]
  else if val ≥ 10 then [decimalDigit (val / 10), decimalDigit (val % 10)]
  else [decimalDigit val]

def printIp (ip : Vector UInt8 4) : List UInt8 :=
  octetText (ip.get 0) ++ ascii "." ++ octetText (ip.get 1) ++ ascii "." ++
    octetText (ip.get 2) ++ ascii "." ++ octetText (ip.get 3)

/-- The digits of a port from the last one on, at most `room` of them. -/
def portDigits : Nat → Nat → List UInt8
  | 0, _ => []
  | room + 1, p => if p = 0 then [] else decimalDigit (p % 10) :: portDigits room (p / 10)

def printPort (port : UInt16) : List UInt8 :=
  if port = 0 then ascii "0" else (portDigits 5 port.toNat).reverse

/-- The C string that starts at byte `off` of the record. An array without a NUL runs on into
the fields behind it. -/
def SmartBellConfig.stringAt (c : SmartBellConfig) (off : Nat) : List UInt8 :=
  cstring ((List.range' off (size - off)).map c.image)

def SmartBellConfig.clientIdString (c : SmartBellConfig) : List UInt8 := c.stringAt 6
def SmartBellConfig.input1TopicString (c : SmartBellConfig) : List UInt8 := c.stringAt 22
def SmartBellConfig.input2TopicString (c : SmartBellConfig) : List UInt8 := c.stringAt 47
def SmartBellConfig.gongBaseTopicString (c : SmartBellConfig) : List UInt8 := c.stringAt 72

/-! ## Commands -/

/-- A command that printed `msg` and returned true. -/
def ConfigStore.say (s : ConfigStore) (msg : List UInt8) : Answer := ⟨s, msg, true, true⟩

def ConfigStore.withConfig (s : ConfigStore) (config : SmartBellConfig) : ConfigStore :=
  { s with config }

@[simp] theorem ConfigStore.config_say_withConfig (s : ConfigStore) (config : SmartBellConfig)
    (msg : List UInt8) : ((s.withConfig config).say msg).store.config = config := rfl

@[simp] theorem ConfigStore.eeprom_say_withConfig (s : ConfigStore) (config : SmartBellConfig)
    (msg : List UInt8) : ((s.withConfig config).say msg).store.eeprom = s.eeprom := rfl

def smartBellFlashHelp : List UInt8 :=
  ascii "Commands:\r\n" ++
  ascii "  ip <a.b.c.d>        - Set device IP\r\n" ++
  ascii "  sn <a.b.c.d>        - Set subnet mask\r\n" ++
  ascii "  gw <a.b.c.d>        - Set gateway\r\n" ++
  ascii "  br <a.b.c.d>:<port> - Set broker IP and port\r\n" ++
  ascii "  id <name>           - Set MQTT client ID\r\n" ++
  ascii "  input 1 pt <name>   - Set publish topic for Bell Button 1\r\n" ++
  ascii "  input 2 pt <name>   - Set publish topic for Bell Button 2\r\n" ++
  ascii "  gong sub <name>     - Base topic Chime 1&2. Ex: <name>/1 (CMD: ON/OFF/RING)\r\n" ++
  ascii "  show                - Show current configuration\r\n" ++
  ascii "  save                - Save configuration to EEPROM\r\n" ++
  ascii "  reset               - Load factory defaults\r\n" ++
  ascii "  reboot              - Restart the microcontroller\r\n"

def showText (c : SmartBellConfig) : List UInt8 :=
  ascii "Device IP: " ++ printIp c.deviceIp ++ ascii "\r\nGateway: " ++ printIp c.gateway ++
    ascii "\r\nBroker: " ++ printIp c.brokerIp ++ ascii ":" ++ printPort c.brokerPort ++
    ascii "\r\nClient ID: " ++ c.clientIdString ++ ascii "\r\nInput 1 Topic: " ++
    c.input1TopicString ++ ascii "\r\nInput 2 Topic: " ++ c.input2TopicString ++
    ascii "\r\nGong Base Topic: " ++ c.gongBaseTopicString ++ ascii "\r\n"

/-- One of the address fields, as a place to store to. -/
structure AddressField where
  get : SmartBellConfig → Vector UInt8 4
  put : Vector UInt8 4 → SmartBellConfig → SmartBellConfig
  put_eq_self_iff : ∀ ip c, put ip c = c ↔ ip = get c

def deviceIpField : AddressField where
  get := (·.deviceIp)
  put ip c := { c with deviceIp := ip }
  put_eq_self_iff ip c := by cases c; simp

def subnetField : AddressField where
  get := (·.subnet)
  put ip c := { c with subnet := ip }
  put_eq_self_iff ip c := by cases c; simp

def gatewayField : AddressField where
  get := (·.gateway)
  put ip c := { c with gateway := ip }
  put_eq_self_iff ip c := by cases c; simp

def brokerIpField : AddressField where
  get := (·.brokerIp)
  put ip c := { c with brokerIp := ip }
  put_eq_self_iff ip c := by cases c; simp

/-- The body of `ip`, `sn` and `gw`: the octets go straight into the live record. -/
def setAddress (field : AddressField) (ok bad : List UInt8) (arg : List UInt8)
    (s : ConfigStore) : Answer :=
  let parsed := parseIp arg (field.get s.config)
  (s.withConfig (field.put parsed.2 s.config)).say (if parsed.1 then ok else bad)

def ipCommand : List UInt8 → ConfigStore → Answer :=
  setAddress deviceIpField (ascii "Device IP set\r\n") (ascii "Error: Invalid IP\r\n")

def snCommand : List UInt8 → ConfigStore → Answer :=
  setAddress subnetField (ascii "Subnet mask set\r\n") (ascii "Error: Invalid subnet mask\r\n")

def gwCommand : List UInt8 → ConfigStore → Answer :=
  setAddress gatewayField (ascii "Gateway set\r\n") (ascii "Error: Invalid gateway\r\n")

/-- The text behind the separator of `br`: the first colon, or else the first space. -/
def afterSeparator (arg : List UInt8) : Option (List UInt8) :=
  if chr ':' ∈ arg then some ((arg.dropWhile (· != chr ':')).drop 1)
  else if chr ' ' ∈ arg then some ((arg.dropWhile (· != chr ' ')).drop 1)
  else none

def brCommand (text : List UInt8) (s : ConfigStore) : Answer :=
  let bad := ascii "Error: Usage: br <ip>:<port>\r\n"
  let arg := skipSpaces text
  match afterSeparator arg with
  | none => s.say bad
  | some portText =>
    let parsed := parseIp arg s.config.brokerIp
    let config := brokerIpField.put parsed.2 s.config
    if parsed.1 then
      match parsePortU16 portText with
      | some port =>
        (s.withConfig { config with brokerPort := port }).say (ascii "Broker set\r\n")
      | none => (s.withConfig config).say bad
    else (s.withConfig config).say bad

def idCommand (text : List UInt8) (s : ConfigStore) : Answer :=
  let id := skipSpaces text
  if id ≠ [] then
    let clientId := (strncpy s.config.clientId id 15).set 15 0
    (s.withConfig { s.config with clientId }).say (ascii "Client ID set\r\n")
  else s.say (ascii "Error: Invalid ID\r\n")

/-- Whether a character ends a topic on the command line. -/
def endsLine (c : UInt8) : Bool := c == chr '\r' || c == chr '\n'

/-- The copy loop of the topic commands from cell `len` on, with its `max_len` of 24. -/
def copyTopic : List UInt8 → Nat → Vector UInt8 25 → Vector UInt8 25
  | [], len, dest => dest.setIfInBounds len 0
  | c :: t, len, dest =>
    if !endsLine c ∧ len < 24 then copyTopic t (len + 1) (dest.setIfInBounds len c)
    else dest.setIfInBounds len 0

/-- Whether there is a topic to copy: `*t && *t != '\r' && *t != '\n'`. -/
def hasTopic : List UInt8 → Bool
  | [] => false
  | c :: _ => !endsLine c

def inputCommand (arg : List UInt8) (s : ConfigStore) : Answer :=
  let isInput1 := (ascii "1 pt ").isPrefixOf arg
  let isInput2 := (ascii "2 pt ").isPrefixOf arg
  let t := skipSpaces (arg.drop 5)
  if (isInput1 || isInput2) && hasTopic t then
    if isInput1 then
      (s.withConfig { s.config with input1Topic := copyTopic t 0 s.config.input1Topic }).say
        (ascii "Input 1 Topic set\r\n")
    else
      (s.withConfig { s.config with input2Topic := copyTopic t 0 s.config.input2Topic }).say
        (ascii "Input 2 Topic set\r\n")
  else s.say (ascii "Error: Usage: input [1|2] pt <topic>\r\n")

def gongSubCommand (arg : List UInt8) (s : ConfigStore) : Answer :=
  let t := skipSpaces arg
  if hasTopic t then
    (s.withConfig { s.config with gongBaseTopic := copyTopic t 0 s.config.gongBaseTopic }).say
      (ascii "Gong Base Topic set\r\n")
  else s.say (ascii "Error: Invalid topic\r\n")

/-- The commands of the console, each with the text behind its keyword. -/
inductive Command where
  | help | showConfig
  | ip (arg : List UInt8) | sn (arg : List UInt8) | gw (arg : List UInt8)
  | br (arg : List UInt8) | id (arg : List UInt8)
  | input (arg : List UInt8) | gongSub (arg : List UInt8)
  | save | reset | reboot | unknown
  deriving DecidableEq, Repr

/-- The prefix tests of `process_command`, in their order. -/
def Command.ofText (cmd : List UInt8) : Command :=
  if (ascii "help").isPrefixOf cmd then .help
  else if (ascii "show").isPrefixOf cmd then .showConfig
  else if (ascii "ip ").isPrefixOf cmd then .ip (cmd.drop 3)
  else if (ascii "sn ").isPrefixOf cmd then .sn (cmd.drop 3)
  else if (ascii "gw ").isPrefixOf cmd then .gw (cmd.drop 3)
  else if (ascii "br ").isPrefixOf cmd then .br (cmd.drop 3)
  else if (ascii "id ").isPrefixOf cmd then .id (cmd.drop 3)
  else if (ascii "input ").isPrefixOf cmd then .input (cmd.drop 6)
  else if (ascii "gong sub ").isPrefixOf cmd then .gongSub (cmd.drop 9)
  else if (ascii "save").isPrefixOf cmd then .save
  else if (ascii "reset").isPrefixOf cmd then .reset
  else if (ascii "reboot").isPrefixOf cmd then .reboot
  else .unknown

def Command.run (s : ConfigStore) : Command → Answer
  | .help => s.say smartBellFlashHelp
  | .showConfig => s.say (showText s.config)
  | .ip arg => ipCommand arg s
  | .sn arg => snCommand arg s
  | .gw arg => gwCommand arg s
  | .br arg => brCommand arg s
  | .id arg => idCommand arg s
  | .input arg => inputCommand arg s
  | .gongSub arg => gongSubCommand arg s
  | .save => (Config.save s).1.say ((Config.save s).2 ++ ascii "Config saved to EEPROM\r\n")
  | .reset => (s.withConfig (resetToDefaults s.config)).say (ascii "[CFG] Defaults loaded\r\n")
  | .reboot => ⟨s, ascii "Rebooting...\r\n", true, false⟩
  | .unknown => ⟨s, ascii "Unknown command\r\n", false, true⟩

/-- The command that `process_command` finds at its argument. -/
def commandOf (text : List UInt8) : Command := .ofText (skipSpaces (cstring text))

/-- `LightweightConfig::process_command` on the characters at its argument. -/
def processCommand (text : List UInt8) (s : ConfigStore) : Answer := (commandOf text).run s

end SmartBell.Config
