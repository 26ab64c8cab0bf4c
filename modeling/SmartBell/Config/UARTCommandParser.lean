import Mathlib.Data.List.DropRight
import SmartBell.Config.NumberTexts

/-!
# `UARTCommandParser`

The console of the older application. Its two number parsers add up in the width of what they
return, an octet or a port, and the first looks for values that are too large only when they
have wrapped; the second does not look.
-/
namespace SmartBell.Config.UARTCommandParser
open Common

/-! ## Texts -/

def isBlank (c : UInt8) : Bool := c == chr ' ' || c == chr '\t'

def skipWhitespace (str : List UInt8) : List UInt8 := str.dropWhile isBlank

def toLower (c : UInt8) : UInt8 := if chr 'A' ≤ c ∧ c ≤ chr 'Z' then c + 32 else c

/-- What follows the words, upper or lower case, if the text starts with them. -/
def startsWith : List UInt8 → List UInt8 → Option (List UInt8)
  | str, [] => some str
  | [], _ :: _ => none
  | c :: str, w :: words => if toLower c ≠ toLower w then none else startsWith str words

/-- The loop of `parse_number`. -/
def parseNumberFrom : List UInt8 → UInt16 → UInt16
  | [], result => result
  | c :: str, result =>
    if isDigit c then parseNumberFrom str (result * 10 + UInt16.ofNat (digit c)) else result

def parseNumber (str : List UInt8) : UInt16 := parseNumberFrom (skipWhitespace str) 0

/-- Behind the loop of `parse_ip`. -/
def parseIpEnd (octet : UInt8) (octetIndex digitCount : Nat) (ipOut : Vector UInt8 4) :
    Bool × Vector UInt8 4 :=
  if digitCount > 0 ∧ octetIndex = 3 then (true, ipOut.setIfInBounds octetIndex octet)
  else (false, ipOut)

/-- The loop of `parse_ip`. -/
def parseIpFrom : List UInt8 → UInt8 → Nat → Nat → Vector UInt8 4 → Bool × Vector UInt8 4
  | [], octet, octetIndex, digitCount, ipOut => parseIpEnd octet octetIndex digitCount ipOut
  | c :: str, octet, octetIndex, digitCount, ipOut =>
    if octetIndex < 4 then
      if isDigit c then
        let octet := octet * 10 + UInt8.ofNat (digit c)
        let digitCount := digitCount + 1
        if digitCount > 3 ∨ octet.toNat > 255 then (false, ipOut)
        else parseIpFrom str octet octetIndex digitCount ipOut
      else if c = chr '.' then
        if digitCount = 0 then (false, ipOut)
        else parseIpFrom str 0 (octetIndex + 1) 0 (ipOut.setIfInBounds octetIndex octet)
      else (false, ipOut)
    else parseIpEnd octet octetIndex digitCount ipOut

def parseIp (str : List UInt8) (ipOut : Vector UInt8 4) : Bool × Vector UInt8 4 :=
  parseIpFrom (skipWhitespace str) 0 0 0 ipOut

/-! ## Commands -/

inductive CommandType where
  | none
  | setIp
  | setSubnet
  | setGateway
  | setBrokerIp
  | setPort
  | setUser
  | setPass
  | setClientId
  | showConfig
  | save
  | reboot
  | help
  | unknown
  deriving DecidableEq, Repr

structure ParsedCommand where
  type : CommandType
  argument : Vector UInt8 80

/-- `parse_command`, with what is on the stack where it puts `result.argument`. -/
def parseCommand (stack : Vector UInt8 80) (cmd : List UInt8) : ParsedCommand :=
  let argument := stack.setIfInBounds 0 0
  let cmd := skipWhitespace cmd
  let withArgument (type : CommandType) (words : List UInt8) : Option ParsedCommand :=
    (startsWith cmd words).map fun arg => ⟨type, strncpy argument (skipWhitespace arg) 79⟩
  let alone (type : CommandType) (words : List UInt8) : Option ParsedCommand :=
    (startsWith cmd words).map fun _ => ⟨type, argument⟩
  if cmd = [] then ⟨.none, argument⟩
  else
    withArgument .setIp (ascii "set ip ")
      |>.or (withArgument .setSubnet (ascii "set subnet "))
      |>.or (withArgument .setGateway (ascii "set gw "))
      |>.or (withArgument .setGateway (ascii "set gateway "))
      |>.or (withArgument .setBrokerIp (ascii "set broker "))
      |>.or (withArgument .setPort (ascii "set port "))
      |>.or (withArgument .setUser (ascii "set user "))
      |>.or (alone .setUser (ascii "set user"))
      |>.or (withArgument .setPass (ascii "set pass "))
      |>.or (alone .setPass (ascii "set pass"))
      |>.or (withArgument .setClientId (ascii "set id "))
      |>.or (alone .showConfig (ascii "show"))
      |>.or (alone .save (ascii "save"))
      |>.or (alone .reboot (ascii "reboot"))
      |>.or (alone .help (ascii "help"))
      |>.getD ⟨.unknown, argument⟩

/-- What a command acts on: the UART, the `ConfigManager`, and the flags of the parser. -/
structure Console (m : Type → Type) where
  print : List UInt8 → m Unit
  getDeviceIp : m (Vector UInt8 4)
  getBrokerIp : m (Vector UInt8 4)
  getPort : m UInt16
  isValid : m Bool
  setDeviceIp : Vector UInt8 4 → m Unit
  setSubnet : Vector UInt8 4 → m Unit
  setGateway : Vector UInt8 4 → m Unit
  setBrokerIp : Vector UInt8 4 → m Unit
  setPort : UInt16 → m Unit
  setUsername : List UInt8 → m Unit
  setPassword : List UInt8 → m Unit
  setClientId : List UInt8 → m Unit
  save : m Bool
  setConfigSaved : m Unit
  setRebootRequested : m Unit
  reset : m Unit

/-- The loop of `print_number`: the digits in front of `buf[i]`. -/
def numberDigits : Nat → Nat → List UInt8 → List UInt8
  | 0, _, digits => digits
  | i + 1, value, digits =>
    if value > 0 then numberDigits i (value / 10) (UInt8.ofNat (48 + value % 10) :: digits)
    else digits

section Commands
variable {m : Type → Type} [Monad m] (d : Console m)

def printNumber (value : UInt16) : m Unit :=
  if value = 0 then d.print (ascii "0") else d.print (numberDigits 5 value.toNat [])

def printIp (ip : Vector UInt8 4) : m Unit := do
  printNumber d ip[0]!.toUInt16
  d.print (ascii ".")
  printNumber d ip[1]!.toUInt16
  d.print (ascii ".")
  printNumber d ip[2]!.toUInt16
  d.print (ascii ".")
  printNumber d ip[3]!.toUInt16

def showConfig : m Unit := do
  printIp d (← d.getDeviceIp)
  d.print (ascii " ")
  printIp d (← d.getBrokerIp)
  d.print (ascii ":")
  printNumber d (← d.getPort)
  d.print (ascii "\r\n")
  d.print (if ← d.isValid then ascii "OK\r\n" else ascii "ERR\r\n")

def showHelp : m Unit :=
  d.print (ascii "set ip|subnet|gw|broker|port|user|pass|id <val>\r\nshow|save|reboot|help\r\n")

/-- The cases of `execute_command` that set an address. -/
def setAddress (set : Vector UInt8 4 → m Unit) (label argument : List UInt8) : m Unit := do
  let (parsed, ip) := parseIp argument (Vector.replicate 4 0)
  if parsed then
    set ip
    d.print label
    printIp d ip
    d.print (ascii "\r\n")
  else d.print (ascii "ERR: format a.b.c.d\r\n")

def executeCommand (stack : Vector UInt8 80) (cmd : List UInt8) : m Unit := do
  let parsed := parseCommand stack cmd
  let argument := cstring parsed.argument.toList
  match parsed.type with
  | .setIp => setAddress d d.setDeviceIp (ascii "ip=") argument
  | .setSubnet => setAddress d d.setSubnet (ascii "subnet=") argument
  | .setGateway => setAddress d d.setGateway (ascii "gw=") argument
  | .setBrokerIp => setAddress d d.setBrokerIp (ascii "broker=") argument
  | .setPort =>
    d.setPort (parseNumber argument)
    d.print (ascii "port=")
    printNumber d (← d.getPort)
    d.print (ascii "\r\n")
  | .setUser =>
    d.setUsername argument
    d.print (ascii "user=")
    d.print argument
    d.print (ascii "\r\n")
  | .setPass =>
    d.setPassword argument
    d.print (ascii "pass=***\r\n")
  | .setClientId =>
    d.setClientId argument
    d.print (ascii "id=")
    d.print argument
    d.print (ascii "\r\n")
  | .showConfig => showConfig d
  | .save =>
    if ← d.save then
      d.setConfigSaved
      d.print (ascii "Saved\r\n")
    else d.print (ascii "Save failed\r\n")
  | .reboot =>
    d.print (ascii "Reboot...\r\n")
    d.setRebootRequested
    d.reset
  | .help => showHelp d
  | .unknown => d.print (ascii "?\r\n")
  | .none => pure ()

end Commands

/-! ## Addresses -/

/-- Four groups of one to three digits with single dots between them, and nothing else. -/
structure Quad (s g₀ g₁ g₂ g₃ : List UInt8) : Prop where
  text : s = g₀ ++ chr '.' :: (g₁ ++ chr '.' :: (g₂ ++ chr '.' :: g₃))
  groups : ∀ g ∈ [g₀, g₁, g₂, g₃], Digits g ∧ 1 ≤ g.length ∧ g.length ≤ 3

/-- `parse_ip` accepts the text exactly if it is such groups of at most 255 each, behind blanks,
and then stores their values in order. -/
def ParsesQuad (s : List UInt8) : Prop :=
  ∀ ip, ((parseIp s ip).1 = true ↔ ∃ g₀ g₁ g₂ g₃, Quad (skipWhitespace s) g₀ g₁ g₂ g₃ ∧
      ∀ g ∈ [g₀, g₁, g₂, g₃], decimalValue g ≤ 255) ∧
    ∀ g₀ g₁ g₂ g₃, Quad (skipWhitespace s) g₀ g₁ g₂ g₃ →
      (∀ g ∈ [g₀, g₁, g₂, g₃], decimalValue g ≤ 255) →
      (parseIp s ip).2.toList.map UInt8.toNat = [g₀, g₁, g₂, g₃].map decimalValue

/-- A text falls into such groups in one way only. -/
theorem Quad.unique {s g₀ g₁ g₂ g₃ h₀ h₁ h₂ h₃ : List UInt8} (h : Quad s g₀ g₁ g₂ g₃)
    (h' : Quad s h₀ h₁ h₂ h₃) : [g₀, g₁, g₂, g₃] = [h₀, h₁, h₂, h₃] := by
  have hdot (t : List UInt8) : ∀ c ∈ (chr '.' :: t).head?, isDigit c = false := by
    simp [dot_not_digit]
  have hend : ∀ c ∈ ([] : List UInt8).head?, isDigit c = false := by simp
  have htext := h.text.symm.trans h'.text
  obtain ⟨rfl, htext₁⟩ := digits_append_inj (h.groups g₀ (by simp)).1 (h'.groups h₀ (by simp)).1
    (hdot _) (hdot _) htext
  obtain ⟨rfl, htext₂⟩ := digits_append_inj (h.groups g₁ (by simp)).1 (h'.groups h₁ (by simp)).1
    (hdot _) (hdot _) (List.cons.inj htext₁).2
  obtain ⟨rfl, htext₃⟩ := digits_append_inj (h.groups g₂ (by simp)).1 (h'.groups h₂ (by simp)).1
    (hdot _) (hdot _) (List.cons.inj htext₂).2
  rw [(List.cons.inj htext₃).2]

section Scan
variable {s g t : List UInt8} {v octetIndex digitCount : Nat} {ip : Vector UInt8 4}

/-- One more digit, modulo 2^8. -/
theorem octet_digit (v : Nat) (c : UInt8) :
    UInt8.ofNat v * 10 + UInt8.ofNat (digit c) = UInt8.ofNat (v * 10 + digit c) := by
  rw [UInt8.ofNat_add, UInt8.ofNat_mul]
  rfl

/-- An octet is never above 255. -/
theorem not_octet_large (octet : UInt8) : ¬octet.toNat > 255 :=
  Nat.not_lt.mpr (Nat.le_of_lt_succ octet.toNat_lt)

theorem parseIpFrom_digits (hg : Digits g) (hindex : octetIndex < 4)
    (hcount : digitCount + g.length ≤ 3) :
    parseIpFrom (g ++ t) (UInt8.ofNat v) octetIndex digitCount ip =
      parseIpFrom t (UInt8.ofNat (decimalFrom v g)) octetIndex (digitCount + g.length) ip := by
  induction g generalizing v digitCount with
  | nil => rfl
  | cons c g ih =>
    obtain ⟨hc, hg⟩ := digits_cons.mp hg
    rw [List.length_cons] at hcount
    have hroom : ¬(digitCount + 1 > 3 ∨ (UInt8.ofNat (v * 10 + digit c)).toNat > 255) := by
      rintro (hlong | hlarge)
      · omega
      · exact not_octet_large _ hlarge
    rw [List.cons_append, parseIpFrom, if_pos hindex, if_pos hc, octet_digit]
    dsimp only
    rw [if_neg hroom, ih hg (by omega), decimalFrom_cons, List.length_cons, Nat.add_assoc,
      Nat.add_comm 1]

/-- A whole group, from its start. -/
theorem parseIpFrom_octet (hg : Digits g) (hindex : octetIndex < 4) (hlen : g.length ≤ 3) :
    parseIpFrom (g ++ t) 0 octetIndex 0 ip =
      parseIpFrom t (UInt8.ofNat (decimalValue g)) octetIndex g.length ip := by
  have hroom : 0 + g.length ≤ 3 := by rwa [Nat.zero_add]
  have hdigits : parseIpFrom (g ++ t) (UInt8.ofNat 0) octetIndex 0 ip = _ :=
    parseIpFrom_digits hg hindex hroom
  rwa [Nat.zero_add] at hdigits

theorem parseIpFrom_dot {octet : UInt8} (hindex : octetIndex < 4) (hcount : 0 < digitCount) :
    parseIpFrom (chr '.' :: t) octet octetIndex digitCount ip =
      parseIpFrom t 0 (octetIndex + 1) 0 (ip.setIfInBounds octetIndex octet) := by
  have hdigits : ¬digitCount = 0 := by omega
  rw [parseIpFrom, if_pos hindex, if_neg (by simp [dot_not_digit]), if_pos rfl, if_neg hdigits]

/-- Behind a fourth dot nothing is accepted. -/
theorem parseIpFrom_four (t : List UInt8) (ip : Vector UInt8 4) :
    (parseIpFrom t 0 4 0 ip).1 = false := by
  cases t <;> simp [parseIpFrom, parseIpEnd]

/-- A scan that accepts goes over a group first, and then to the next one or to the end. -/
theorem parseIpFrom_group (hindex : octetIndex < 4) (hcount : digitCount ≤ 3)
    (h : (parseIpFrom s (UInt8.ofNat v) octetIndex digitCount ip).1 = true) :
    ∃ g t, s = g ++ t ∧ Digits g ∧ 1 ≤ digitCount + g.length ∧ digitCount + g.length ≤ 3 ∧
      (octetIndex = 3 ∧ t = [] ∨ octetIndex < 3 ∧ ∃ t' ip', t = chr '.' :: t' ∧
        (parseIpFrom t' 0 (octetIndex + 1) 0 ip').1 = true) := by
  induction s generalizing v digitCount with
  | nil =>
    have hend : digitCount > 0 ∧ octetIndex = 3 := by
      by_contra hnot
      rw [parseIpFrom, parseIpEnd, if_neg hnot] at h
      cases h
    exact ⟨[], [], rfl, digits_nil, hend.1, hcount, .inl ⟨hend.2, rfl⟩⟩
  | cons c s ih =>
    rw [parseIpFrom, if_pos hindex, octet_digit] at h
    dsimp only at h
    split_ifs at h with hdigit hlong hdot hempty
    · obtain ⟨g, t, rfl, hg, hpos, hle, hnext⟩ := ih (by omega) h
      refine ⟨c :: g, t, rfl, digits_cons.mpr ⟨hdigit, hg⟩, ?_, ?_, hnext⟩ <;>
        rw [List.length_cons] <;> omega
    · subst hdot
      refine ⟨[], _, rfl, digits_nil, Nat.pos_of_ne_zero hempty, hcount, .inr ?_⟩
      by_cases hlast : octetIndex = 3
      · subst hlast
        rw [parseIpFrom_four] at h
        cases h
      · exact ⟨by omega, s, _, rfl, h⟩

end Scan

/-- Four groups are accepted, and their values stored modulo 2^8. -/
theorem Quad.parseIp {s g₀ g₁ g₂ g₃ : List UInt8} (h : Quad (skipWhitespace s) g₀ g₁ g₂ g₃)
    (ip : Vector UInt8 4) : (parseIp s ip).1 = true ∧
      (parseIp s ip).2.toList = [g₀, g₁, g₂, g₃].map fun g => UInt8.ofNat (decimalValue g) := by
  have hgroups := h.groups
  simp only [List.mem_cons, List.not_mem_nil, or_false, forall_eq_or_imp, forall_eq] at hgroups
  obtain ⟨⟨hd₀, hp₀, hl₀⟩, ⟨hd₁, hp₁, hl₁⟩, ⟨hd₂, hp₂, hl₂⟩, hd₃, hp₃, hl₃⟩ := hgroups
  have htext : skipWhitespace s =
      g₀ ++ chr '.' :: (g₁ ++ chr '.' :: (g₂ ++ chr '.' :: (g₃ ++ []))) := by
    rw [h.text, List.append_nil]
  rw [UARTCommandParser.parseIp, htext, parseIpFrom_octet hd₀ (by decide) hl₀,
    parseIpFrom_dot (by decide) hp₀, parseIpFrom_octet hd₁ (by decide) hl₁,
    parseIpFrom_dot (by decide) hp₁, parseIpFrom_octet hd₂ (by decide) hl₂,
    parseIpFrom_dot (by decide) hp₂, parseIpFrom_octet hd₃ (by decide) hl₃, parseIpFrom,
    parseIpEnd, if_pos ⟨hp₃, rfl⟩]
  refine ⟨rfl, ?_⟩
  apply List.ext_getElem
  · simp
  · intro i h1 h2
    have hi : i < 4 := by simpa using h2
    interval_cases i <;> simp

/-- Nothing else is accepted. -/
theorem exists_quad {s : List UInt8} {ip : Vector UInt8 4} (h : (parseIp s ip).1 = true) :
    ∃ g₀ g₁ g₂ g₃, Quad (skipWhitespace s) g₀ g₁ g₂ g₃ := by
  obtain ⟨g₀, t₀, hs, hd₀, hp₀, hl₀, ⟨hlate, _⟩ | ⟨_, t₁, ip₁, rfl, h₁⟩⟩ :=
    parseIpFrom_group (v := 0) (by decide) (Nat.zero_le _) h
  · cases hlate
  obtain ⟨g₁, _, rfl, hd₁, hp₁, hl₁, ⟨hlate, _⟩ | ⟨_, t₂, ip₂, rfl, h₂⟩⟩ :=
    parseIpFrom_group (v := 0) (by decide) (Nat.zero_le _) h₁
  · cases hlate
  obtain ⟨g₂, _, rfl, hd₂, hp₂, hl₂, ⟨hlate, _⟩ | ⟨_, t₃, ip₃, rfl, h₃⟩⟩ :=
    parseIpFrom_group (v := 0) (by decide) (Nat.zero_le _) h₂
  · cases hlate
  obtain ⟨g₃, _, rfl, hd₃, hp₃, hl₃, ⟨_, rfl⟩ | ⟨hearly, _⟩⟩ :=
    parseIpFrom_group (v := 0) (by decide) (Nat.zero_le _) h₃
  · rw [Nat.zero_add] at hp₀ hl₀ hp₁ hl₁ hp₂ hl₂ hp₃ hl₃
    refine ⟨g₀, g₁, g₂, g₃, by rw [hs, List.append_nil], ?_⟩
    simp only [List.mem_cons, List.not_mem_nil, or_false, forall_eq_or_imp, forall_eq]
    exact ⟨⟨hd₀, hp₀, hl₀⟩, ⟨hd₁, hp₁, hl₁⟩, ⟨hd₂, hp₂, hl₂⟩, hd₃, hp₃, hl₃⟩
  · exact absurd hearly (by decide)

/-- That is so unless the text is four groups one of which is above 255. -/
theorem parsesQuad_iff (s : List UInt8) : ParsesQuad s ↔
    ∀ g₀ g₁ g₂ g₃, Quad (skipWhitespace s) g₀ g₁ g₂ g₃ →
      ∀ g ∈ [g₀, g₁, g₂, g₃], decimalValue g ≤ 255 := by
  constructor
  · intro h g₀ g₁ g₂ g₃ hquad
    have haccepts := (hquad.parseIp (Vector.replicate 4 0)).1
    obtain ⟨h₀, h₁, h₂, h₃, hquad', hbounded⟩ := (h (Vector.replicate 4 0)).1.mp haccepts
    rwa [hquad.unique hquad']
  · intro h ip
    refine ⟨⟨fun haccepts => ?_, ?_⟩, ?_⟩
    · obtain ⟨g₀, g₁, g₂, g₃, hquad⟩ := exists_quad haccepts
      exact ⟨g₀, g₁, g₂, g₃, hquad, h _ _ _ _ hquad⟩
    · rintro ⟨g₀, g₁, g₂, g₃, hquad, _⟩
      exact (hquad.parseIp ip).1
    · intro g₀ g₁ g₂ g₃ hquad hbounded
      rw [(hquad.parseIp ip).2, List.map_map]
      refine List.map_congr_left fun g hg => ?_
      have hle := hbounded g hg
      rw [Function.comp_apply, UInt8.toNat_ofNat']
      omega

/-- An octet of 256 is taken for a zero. -/
theorem not_parsesQuad_wrapped : ¬ParsesQuad (ascii "256.1.1.1") := by
  intro h
  obtain ⟨g₀, g₁, g₂, g₃, hquad, hbounded⟩ := (h (Vector.replicate 4 0)).1.mp (by decide)
  have hbig : Digits (ascii "256") := List.all_eq_true.mp (by decide)
  have hone : Digits (ascii "1") := List.all_eq_true.mp (by decide)
  have hgroups : Quad (skipWhitespace (ascii "256.1.1.1")) (ascii "256") (ascii "1") (ascii "1")
      (ascii "1") :=
    ⟨by decide, by simp [hbig, hone]; decide⟩
  have hlarge : ascii "256" ∈ [g₀, g₁, g₂, g₃] := by
    rw [← hgroups.unique hquad]
    simp
  exact absurd (hbounded _ hlarge) (by decide)

/-! ## Ports -/

theorem parseNumberFrom_eq (s : List UInt8) (v : Nat) :
    parseNumberFrom s (UInt16.ofNat v) = UInt16.ofNat (decimalFrom v (s.takeWhile isDigit)) := by
  induction s generalizing v with
  | nil => rfl
  | cons c s ih =>
    by_cases hc : isDigit c = true
    · have hdigit : UInt16.ofNat v * 10 + UInt16.ofNat (digit c) =
          UInt16.ofNat (v * 10 + digit c) := by
        rw [UInt16.ofNat_add, UInt16.ofNat_mul]
        rfl
      rw [parseNumberFrom, if_pos hc, hdigit, ih, List.takeWhile_cons_of_pos hc, decimalFrom_cons]
    · rw [parseNumberFrom, if_neg hc, List.takeWhile_cons_of_neg hc, decimalFrom_nil]

/-- `parse_number` is the number of the digits behind the blanks, modulo 2^16. -/
theorem parseNumber_eq (s : List UInt8) :
    parseNumber s = UInt16.ofNat (decimalValue ((skipWhitespace s).takeWhile isDigit)) :=
  parseNumberFrom_eq (skipWhitespace s) 0

theorem skipWhitespace_idempotent (s : List UInt8) :
    skipWhitespace (skipWhitespace s) = skipWhitespace s := List.dropWhile_idempotent _ _

/-- The argument of a command, if it fits. -/
theorem cstring_argument (stack : Vector UInt8 80) {arg : List UInt8} (hnul : 0 ∉ arg)
    (hlen : arg.length < 79) : cstring (strncpy stack arg 79).toList = arg := by
  apply cstring_toList_eq hnul (by omega)
  · intro i hi
    have hcopied : i < 79 := by omega
    simp [hcopied, cstring_eq_self hnul, hi]
  · simp [hlen, cstring_eq_self hnul]

theorem startsWith_append (words text : List UInt8) :
    startsWith (words ++ text) words = some text := by
  induction words with
  | nil => cases text <;> rfl
  | cons w words ih => simp [startsWith, ih]

/-- A text is not taken for one that starts with other words. -/
theorem startsWith_append_of_ne {c w : UInt8} (h : toLower c ≠ toLower w)
    (common str words : List UInt8) :
    startsWith (common ++ c :: str) (common ++ w :: words) = none := by
  induction common with
  | nil => simp [startsWith, h]
  | cons c common ih => simp [startsWith, ih]

theorem parseCommand_setPort (stack : Vector UInt8 80) (text : List UInt8) :
    parseCommand stack (ascii "set port " ++ text) =
      ⟨.setPort, strncpy (stack.setIfInBounds 0 0) (skipWhitespace text) 79⟩ := by
  have hskip : skipWhitespace (ascii "set port " ++ text) = ascii "set port " ++ text := rfl
  have hport : startsWith (ascii "set port " ++ text) (ascii "set port ") = some text :=
    startsWith_append _ text
  have hother {w : UInt8} (hw : toLower (chr 'p') ≠ toLower w) (words : List UInt8) :
      startsWith (ascii "set port " ++ text) (ascii "set " ++ w :: words) = none :=
    startsWith_append_of_ne hw (ascii "set ") (ascii "ort " ++ text) words
  have hip : startsWith (ascii "set port " ++ text) (ascii "set ip ") = none :=
    hother (w := chr 'i') (by decide) (ascii "p ")
  have hsubnet : startsWith (ascii "set port " ++ text) (ascii "set subnet ") = none :=
    hother (w := chr 's') (by decide) (ascii "ubnet ")
  have hgw : startsWith (ascii "set port " ++ text) (ascii "set gw ") = none :=
    hother (w := chr 'g') (by decide) (ascii "w ")
  have hgateway : startsWith (ascii "set port " ++ text) (ascii "set gateway ") = none :=
    hother (w := chr 'g') (by decide) (ascii "ateway ")
  have hbroker : startsWith (ascii "set port " ++ text) (ascii "set broker ") = none :=
    hother (w := chr 'b') (by decide) (ascii "roker ")
  have hsome : ascii "set port " ++ text ≠ [] := nofun
  simp only [parseCommand, hskip, if_neg hsome, hip, hsubnet, hgw, hgateway, hbroker, hport,
    Option.map_none, Option.map_some, Option.none_or, Option.some_or, Option.getD_some]

/-- `set port` stores what `parse_number` gets from its argument, and prints what is stored. -/
theorem executeCommand_setPort {m : Type → Type} [Monad m] (d : Console m)
    (stack : Vector UInt8 80) {text : List UInt8} (hnul : 0 ∉ text) (hlen : text.length < 79) :
    executeCommand d stack (ascii "set port " ++ text) = (do
      d.setPort (parseNumber text)
      d.print (ascii "port=")
      printNumber d (← d.getPort)
      d.print (ascii "\r\n")) := by
  have hargument : cstring (strncpy (stack.setIfInBounds 0 0) (skipWhitespace text) 79).toList =
      skipWhitespace text := by
    refine cstring_argument _ (fun hmem => hnul ?_) (lt_of_le_of_lt ?_ hlen)
    · exact (List.dropWhile_suffix _).subset hmem
    · exact (List.dropWhile_suffix _).length_le
  have hnumber : parseNumber (skipWhitespace text) = parseNumber text := by
    rw [parseNumber, skipWhitespace_idempotent, parseNumber]
  simp only [executeCommand, parseCommand_setPort, hargument, hnumber]

/-- A `ConfigManager` that stores the port, with a list of the ports it was given. -/
def recorder : Console (StateM (List UInt16)) where
  print _ := pure ()
  getDeviceIp := pure (Vector.replicate 4 0)
  getBrokerIp := pure (Vector.replicate 4 0)
  getPort := return (← get).getLastD 0
  isValid := pure true
  setDeviceIp _ := pure ()
  setSubnet _ := pure ()
  setGateway _ := pure ()
  setBrokerIp _ := pure ()
  setPort port := modify (· ++ [port])
  setUsername _ := pure ()
  setPassword _ := pure ()
  setClientId _ := pure ()
  save := pure true
  setConfigSaved := pure ()
  setRebootRequested := pure ()
  reset := pure ()

/-- The ports that a command line passes to `set_port`. -/
def portsSet (stack : Vector UInt8 80) (cmd : List UInt8) : List UInt16 :=
  ((executeCommand recorder stack cmd).run []).2

/-- The number of the digits at the start of an argument. -/
def typedNumber (text : List UInt8) : Nat := decimalValue ((skipWhitespace text).takeWhile isDigit)

/-- `set port` passes on the number that was typed, and 0 for a number that is no port. -/
def PortTyped (stack : Vector UInt8 80) (text : List UInt8) : Prop :=
  portsSet stack (ascii "set port " ++ text) =
    [if 1 ≤ typedNumber text ∧ typedNumber text ≤ 65535 then UInt16.ofNat (typedNumber text) else 0]

instance (stack : Vector UInt8 80) (text : List UInt8) : Decidable (PortTyped stack text) :=
  inferInstanceAs (Decidable (_ = _))

theorem portsSet_setPort (stack : Vector UInt8 80) {text : List UInt8} (hnul : 0 ∉ text)
    (hlen : text.length < 79) :
    portsSet stack (ascii "set port " ++ text) = [parseNumber text] := by
  have hprint (value : UInt16) : printNumber recorder value = pure () := by
    unfold printNumber
    split_ifs <;> rfl
  rw [portsSet, executeCommand_setPort recorder stack hnul hlen]
  simp only [hprint]
  rfl

/-- The port passed on is the one typed exactly if that has 16 bits, or leaves no remainder
modulo 2^16. -/
theorem portTyped_iff (stack : Vector UInt8 80) (text : List UInt8)
    (hlen : (ascii "set port " ++ text).length ≤ 79)
    (hprintable : ∀ c ∈ text, 0x20 ≤ c ∧ c < 0x7F) :
    PortTyped stack text ↔ typedNumber text ≤ 65535 ∨ typedNumber text % 65536 = 0 := by
  have hnul : 0 ∉ text := fun hmem => absurd (hprintable 0 hmem).1 (by decide)
  have hfits : text.length < 79 := by
    have hwords : (ascii "set port ").length = 9 := rfl
    rw [List.length_append, hwords] at hlen
    omega
  have hzero : UInt16.ofNat (typedNumber text) = 0 ↔ typedNumber text % 65536 = 0 := by
    rw [← UInt16.toNat_inj, UInt16.toNat_ofNat']
    rfl
  have hnumber : parseNumber text = UInt16.ofNat (typedNumber text) := parseNumber_eq text
  rw [PortTyped, portsSet_setPort stack hnul hfits, hnumber, List.singleton_inj]
  split_ifs with hrange
  · exact iff_of_true rfl (.inl hrange.2)
  · rw [hzero]
    omega

/-- The default port of MQTT is passed on as typed. -/
theorem portTyped_mqtt : PortTyped (Vector.replicate 80 0) (ascii "1883") := by
  have hall : (ascii "1883").all (fun c => 0x20 ≤ c && c < 0x7F) = true := by decide
  refine (portTyped_iff (Vector.replicate 80 0) (ascii "1883") (by decide) ?_).mpr (by decide)
  intro c hc
  simpa using List.all_eq_true.mp hall c hc

/-- 67419 is passed on as 1883. -/
theorem not_portTyped_wrapped : ¬PortTyped (Vector.replicate 80 0) (ascii "67419") := by
  decide

end SmartBell.Config.UARTCommandParser
