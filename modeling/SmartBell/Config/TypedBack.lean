import SmartBell.Config.LightweightConfig
import SmartBell.Config.NumberTexts

/-!
# What `show` prints can be typed back

`print_ip` and the port loop of `show` spell numbers digit by digit, and `parse_ip` and
`parse_port_u16` read them. The printed texts are in the grammar of the parsers with the
printed numbers as their values, so the commands that take them store what was printed.
-/
namespace SmartBell.Config
open Common

/-! ## Printed numbers -/

theorem decimalDigit_spec {n : Nat} (h : n < 10) :
    isDigit (decimalDigit n) = true ∧ digit (decimalDigit n) = n := by
  have hall : ∀ n < 10, isDigit (decimalDigit n) = true ∧ digit (decimalDigit n) = n := by decide
  exact hall n h

/-- An octet is printed with the digits that it has. -/
theorem octetText_spec (val : UInt8) :
    Digits (octetText val) ∧ decimalValue (octetText val) = val.toNat := by
  have hval := val.toNat_lt
  unfold octetText
  dsimp only
  split_ifs with hthree htwo
  · obtain ⟨hd₀, hv₀⟩ := decimalDigit_spec (n := val.toNat / 100) (by omega)
    obtain ⟨hd₁, hv₁⟩ := decimalDigit_spec (n := val.toNat % 100 / 10) (by omega)
    obtain ⟨hd₂, hv₂⟩ := decimalDigit_spec (n := val.toNat % 100 % 10) (by omega)
    refine ⟨digits_cons.mpr ⟨hd₀, digits_cons.mpr ⟨hd₁, digits_cons.mpr ⟨hd₂, digits_nil⟩⟩⟩, ?_⟩
    simp only [decimalValue, decimalFrom_cons, decimalFrom_nil, hv₀, hv₁, hv₂]
    omega
  · obtain ⟨hd₀, hv₀⟩ := decimalDigit_spec (n := val.toNat / 10) (by omega)
    obtain ⟨hd₁, hv₁⟩ := decimalDigit_spec (n := val.toNat % 10) (by omega)
    refine ⟨by simp [hd₀, hd₁], ?_⟩
    simp only [decimalValue, decimalFrom_cons, decimalFrom_nil, hv₀, hv₁]
    omega
  · obtain ⟨hd₀, hv₀⟩ := decimalDigit_spec (n := val.toNat) (by omega)
    refine ⟨by simp [hd₀], ?_⟩
    simp only [decimalValue, decimalFrom_cons, decimalFrom_nil, hv₀]
    omega

theorem octetText_ne_nil (val : UInt8) : octetText val ≠ [] := by
  unfold octetText
  dsimp only
  split_ifs <;> simp

/-- The digits come last one first, so they are read from the end. -/
theorem portDigits_spec (room p : Nat) (h : p < 10 ^ room) :
    Digits (portDigits room p).reverse ∧ decimalValue (portDigits room p).reverse = p := by
  induction room generalizing p with
  | zero =>
    obtain rfl : p = 0 := by simpa using h
    exact ⟨digits_nil, rfl⟩
  | succ room ih =>
    unfold portDigits
    split_ifs with hzero
    · subst hzero
      exact ⟨digits_nil, rfl⟩
    · have hquotient : p / 10 < 10 ^ room := by
        rw [Nat.pow_succ] at h
        omega
      obtain ⟨hdigits, hvalue⟩ := ih (p / 10) hquotient
      obtain ⟨hlast, hdigit⟩ := decimalDigit_spec (n := p % 10) (by omega)
      rw [List.reverse_cons]
      refine ⟨fun c hc => ?_, ?_⟩
      · rcases List.mem_append.mp hc with hfront | hback
        · exact hdigits c hfront
        · rw [List.mem_singleton.mp hback]
          exact hlast
      · have hsplit := decimalFrom_append 0 (portDigits room (p / 10)).reverse
          [decimalDigit (p % 10)]
        rw [decimalFrom_cons, decimalFrom_nil, hdigit] at hsplit
        unfold decimalValue at hvalue ⊢
        rw [hsplit, hvalue]
        omega

theorem printPort_spec {port : UInt16} (h : port ≠ 0) :
    Digits (printPort port) ∧ decimalValue (printPort port) = port.toNat := by
  have hlt := port.toNat_lt
  rw [printPort, if_neg h]
  exact portDigits_spec 5 port.toNat (by omega)

/-! ## Reading them -/

theorem toList_address (ip : Vector UInt8 4) :
    ip.toList = [ip.get 0, ip.get 1, ip.get 2, ip.get 3] := by
  apply List.ext_getElem
  · simp
  · intro i h1 h2
    have hi : i < 4 := by simpa using h2
    rw [Vector.getElem_toList]
    interval_cases i <;> rfl

theorem printIp_groups (ip : Vector UInt8 4) {rest : List UInt8} (hends : EndsGroups rest) :
    DottedGroups (printIp ip ++ rest) (octetText (ip.get 0)) (octetText (ip.get 1))
      (octetText (ip.get 2)) (octetText (ip.get 3)) rest := by
  have hdot : ascii "." = [chr '.'] := by decide
  have hoctet (val : UInt8) := octetText_spec val
  refine ⟨?_, ?_, ?_, hends⟩
  · simp only [printIp, hdot, List.append_assoc, List.cons_append, List.nil_append]
  · simp only [List.mem_cons, List.not_mem_nil, or_false, forall_eq_or_imp, forall_eq]
    exact ⟨(hoctet _).1, (hoctet _).1, (hoctet _).1, (hoctet _).1⟩
  · simp only [List.mem_cons, List.not_mem_nil, or_false, forall_eq_or_imp, forall_eq,
      (hoctet _).2]
    have hbound (val : UInt8) : val.toNat ≤ 255 := Nat.le_of_lt_succ val.toNat_lt
    exact ⟨hbound _, hbound _, hbound _, hbound _⟩

/-- A printed address is accepted and read as itself. -/
theorem parseIp_printIp (ip old : Vector UInt8 4) {rest : List UInt8} (hends : EndsGroups rest) :
    parseIp (printIp ip ++ rest) old = (true, ip) := by
  have hgroups := printIp_groups ip hends
  refine Prod.ext ((parseIp_accepts_iff _ old).mpr ⟨_, _, _, _, _, hgroups⟩) ?_
  have hread := hgroups.parseIp old
  have hvalues : [octetText (ip.get 0), octetText (ip.get 1), octetText (ip.get 2),
      octetText (ip.get 3)].map decimalValue = ip.toList.map UInt8.toNat := by
    rw [toList_address]
    simp only [List.map_cons, List.map_nil, (octetText_spec _).2]
  rw [hvalues] at hread
  exact Vector.toList_inj.mp (List.map_injective_iff.mpr (fun _ _ => UInt8.toNat_inj.mp) hread)

theorem parsePortU16_printPort {port : UInt16} (h : port ≠ 0) :
    parsePortU16 (printPort port) = some port := by
  obtain ⟨hdigits, hvalue⟩ := printPort_spec h
  have hpos : 1 ≤ port.toNat := Nat.one_le_iff_ne_zero.mpr fun hzero =>
    h (UInt16.toNat_inj.mp hzero)
  refine parsePortU16_eq_some_iff.mpr
    ⟨hpos, [], printPort port, [], ?_, ?_, hdigits, ?_, ?_, hvalue⟩
  · simp
  · simp [Spaces]
  · intro hnil
    rw [hnil] at hvalue
    have hnone : decimalValue [] = 0 := rfl
    omega
  · simp [Spaces]

/-! ## Typing them -/

/-- The text that `show` prints behind `Broker: `. -/
def brokerText (c : SmartBellConfig) : List UInt8 :=
  printIp c.brokerIp ++ ascii ":" ++ printPort c.brokerPort

/-- What `show` prints behind the addresses and the broker. -/
def stringsText (c : SmartBellConfig) : List UInt8 :=
  ascii "\r\nClient ID: " ++ c.clientIdString ++ ascii "\r\nInput 1 Topic: " ++
    c.input1TopicString ++ ascii "\r\nInput 2 Topic: " ++ c.input2TopicString ++
    ascii "\r\nGong Base Topic: " ++ c.gongBaseTopicString ++ ascii "\r\n"

theorem show_output (s : ConfigStore) :
    (processCommand (ascii "show") s).output =
      ascii "Device IP: " ++ printIp s.config.deviceIp ++ ascii "\r\nGateway: " ++
        printIp s.config.gateway ++ ascii "\r\nBroker: " ++ brokerText s.config ++
        stringsText s.config := by
  have hshow : commandOf (ascii "show") = .showConfig := by decide
  have houtput : (processCommand (ascii "show") s).output = showText s.config := by
    rw [processCommand, hshow]
    rfl
  rw [houtput]
  simp only [showText, brokerText, stringsText, List.append_assoc]

/-- The characters of printed numbers. -/
def isNumberChar (c : UInt8) : Bool := isDigit c || c == chr '.'

theorem digits_numberChars {ds : List UInt8} (h : Digits ds) : ∀ c ∈ ds, isNumberChar c = true := by
  intro c hc
  simp [isNumberChar, h c hc]

theorem printIp_numberChars (ip : Vector UInt8 4) : ∀ c ∈ printIp ip, isNumberChar c = true := by
  have hoctet (val : UInt8) := digits_numberChars (octetText_spec val).1
  have hdot : ∀ c ∈ ascii ".", isNumberChar c = true := List.all_eq_true.mp (by decide)
  intro c hc
  simp only [printIp, List.mem_append] at hc
  rcases hc with (((((h | h) | h) | h) | h) | h) | h
  exacts [hoctet _ c h, hdot c h, hoctet _ c h, hdot c h, hoctet _ c h, hdot c h, hoctet _ c h]

theorem not_mem_of_numberChars {s : List UInt8} (h : ∀ c ∈ s, isNumberChar c = true) {c : UInt8}
    (hc : isNumberChar c = false) : c ∉ s := fun hmem =>
  Bool.false_ne_true (hc.symm.trans (h c hmem))

theorem not_mem_printIp (ip : Vector UInt8 4) {c : UInt8} (hc : isNumberChar c = false) :
    c ∉ printIp ip := not_mem_of_numberChars (printIp_numberChars ip) hc

theorem skipSpaces_printIp (ip : Vector UInt8 4) (rest : List UInt8) :
    skipSpaces (printIp ip ++ rest) = printIp ip ++ rest := by
  have hfirst : ∀ c ∈ (printIp ip ++ rest).head?, c ≠ chr ' ' := by
    intro c hc hspace
    have hne : printIp ip ≠ [] := by simp [printIp, octetText_ne_nil]
    rw [List.head?_append_of_ne_nil _ hne] at hc
    exact not_mem_printIp ip (by decide) (hspace ▸ List.mem_of_mem_head? hc)
  have hnone : Spaces [] := by simp [Spaces]
  exact skipSpaces_append hnone hfirst

/-- What follows the first colon. -/
theorem afterSeparator_of_not_mem {front : List UInt8} (h : chr ':' ∉ front) (t : List UInt8) :
    afterSeparator (front ++ ascii ":" ++ t) = some t := by
  have hcolon : ascii ":" = [chr ':'] := by decide
  have hmem : chr ':' ∈ front ++ ascii ":" ++ t := by simp [hcolon]
  have hfront : ∀ c ∈ front, (c != chr ':') = true := by
    intro c hc
    simp only [bne_iff_ne, ne_eq]
    rintro rfl
    exact h hc
  rw [afterSeparator, if_pos hmem, hcolon, List.append_assoc, List.dropWhile_append_of_pos hfront]
  simp

/-- A keyword of three characters is taken off a C string. -/
theorem commandOf_keyword {t : List UInt8} (hnul : 0 ∉ t) :
    commandOf (ascii "br " ++ t) = .br t ∧ commandOf (ascii "ip " ++ t) = .ip t ∧
      commandOf (ascii "gw " ++ t) = .gw t := by
  have hcstring (keyword : List UInt8) (h : 0 ∉ keyword) : cstring (keyword ++ t) = keyword ++ t :=
    cstring_eq_self fun hmem => (List.mem_append.mp hmem).elim h hnul
  refine ⟨?_, ?_, ?_⟩ <;>
  · rw [commandOf, hcstring _ (by decide)]
    rfl

theorem zero_not_mem_brokerText {c : SmartBellConfig} (hport : c.brokerPort ≠ 0) :
    0 ∉ brokerText c := by
  have hdigits := digits_numberChars (printPort_spec hport).1
  simp only [brokerText, List.mem_append, not_or]
  exact ⟨⟨not_mem_printIp _ (by decide), by decide⟩, not_mem_of_numberChars hdigits (by decide)⟩

/-- `br` on the printed broker. -/
theorem brCommand_brokerText {c : SmartBellConfig} (hport : c.brokerPort ≠ 0) (s : ConfigStore) :
    brCommand (brokerText c) s =
      (s.withConfig { s.config with brokerIp := c.brokerIp, brokerPort := c.brokerPort }).say
        (ascii "Broker set\r\n") := by
  have hskip : skipSpaces (brokerText c) = brokerText c := by
    rw [brokerText, List.append_assoc]
    exact skipSpaces_printIp _ _
  have hsep : afterSeparator (brokerText c) = some (printPort c.brokerPort) :=
    afterSeparator_of_not_mem (not_mem_printIp _ (by decide)) _
  have hends : EndsGroups (ascii ":" ++ printPort c.brokerPort) := by
    have hcolon : ascii ":" = [chr ':'] := by decide
    rw [hcolon]
    rintro _ ⟨⟩
    decide
  have haddress : parseIp (brokerText c) s.config.brokerIp = (true, c.brokerIp) := by
    rw [brokerText, List.append_assoc]
    exact parseIp_printIp _ _ hends
  unfold brCommand
  simp only [hskip, hsep, haddress, parsePortU16_printPort hport, if_true]
  rfl

/-- `ip` and `gw` on a printed address. -/
theorem setAddress_printIp (field : AddressField) (ok bad : List UInt8) (ip : Vector UInt8 4)
    (s : ConfigStore) :
    setAddress field ok bad (printIp ip) s = (s.withConfig (field.put ip s.config)).say ok := by
  have hends : EndsGroups [] := by simp [EndsGroups]
  have hparsed := parseIp_printIp ip (field.get s.config) hends
  rw [List.append_nil] at hparsed
  unfold setAddress
  simp only [hparsed, if_true]

/-- Typing `br` and the broker that `show` prints stores that broker and answers `Broker set`;
typing `ip` or `gw` and the printed address stores that one. Nothing else changes. -/
theorem show_typed_back (c : SmartBellConfig) (s : ConfigStore) :
    (processCommand (ascii "show") (s.withConfig c)).output =
      ascii "Device IP: " ++ printIp c.deviceIp ++ ascii "\r\nGateway: " ++ printIp c.gateway ++
        ascii "\r\nBroker: " ++ brokerText c ++ stringsText c ∧
    (c.brokerPort ≠ 0 →
      processCommand (ascii "br " ++ brokerText c) s =
        (s.withConfig { s.config with brokerIp := c.brokerIp, brokerPort := c.brokerPort }).say
          (ascii "Broker set\r\n")) ∧
    processCommand (ascii "ip " ++ printIp c.deviceIp) s =
      (s.withConfig { s.config with deviceIp := c.deviceIp }).say (ascii "Device IP set\r\n") ∧
    processCommand (ascii "gw " ++ printIp c.gateway) s =
      (s.withConfig { s.config with gateway := c.gateway }).say (ascii "Gateway set\r\n") := by
  have hnul (ip : Vector UInt8 4) : 0 ∉ printIp ip := not_mem_printIp ip (by decide)
  refine ⟨show_output (s.withConfig c), fun hport => ?_, ?_, ?_⟩
  · rw [processCommand, (commandOf_keyword (zero_not_mem_brokerText hport)).1]
    exact brCommand_brokerText hport s
  · rw [processCommand, (commandOf_keyword (hnul _)).2.1]
    exact setAddress_printIp deviceIpField _ _ _ s
  · rw [processCommand, (commandOf_keyword (hnul _)).2.2]
    exact setAddress_printIp gatewayField _ _ _ s

end SmartBell.Config
