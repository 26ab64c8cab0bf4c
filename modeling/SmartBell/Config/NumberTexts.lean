import SmartBell.Common.Decimal
import SmartBell.Config.Parsers

/-!
# What the number parsers accept

The texts that `parse_ip` and `parse_port_u16` accept, as texts: runs of digits with dots
between them, and a number among spaces. `parse_port_u16` wants a digit; `parse_ip` counts
the dots only, and takes a group without digits for a zero.
-/
namespace SmartBell.Config
open Common

/-! ## parse_ip -/

/-- No digit and no dot follows. -/
def EndsGroups (rest : List UInt8) : Prop := ∀ c ∈ rest.head?, isDigit c = false ∧ c ≠ chr '.'

/-- Four groups of digits at the head of a text, of at most 255 each and with single dots between
them. A group may have no digits. -/
structure DottedGroups (s g₀ g₁ g₂ g₃ rest : List UInt8) : Prop where
  text : s = g₀ ++ chr '.' :: (g₁ ++ chr '.' :: (g₂ ++ chr '.' :: (g₃ ++ rest)))
  digits : ∀ g ∈ [g₀, g₁, g₂, g₃], Digits g
  bounded : ∀ g ∈ [g₀, g₁, g₂, g₃], decimalValue g ≤ 255
  ends : EndsGroups rest

/-- Four such groups with one or more digits each. -/
structure DottedQuad (s g₀ g₁ g₂ g₃ rest : List UInt8) : Prop extends
    DottedGroups s g₀ g₁ g₂ g₃ rest where
  nonempty : ∀ g ∈ [g₀, g₁, g₂, g₃], g ≠ []

theorem dot_not_digit : isDigit (chr '.') = false := by decide

/-- A text falls into a run of digits and the rest in one way only. -/
theorem digits_append_inj {g g' t t' : List UInt8} (hg : Digits g) (hg' : Digits g')
    (ht : ∀ c ∈ t.head?, isDigit c = false) (ht' : ∀ c ∈ t'.head?, isDigit c = false)
    (h : g ++ t = g' ++ t') : g = g' ∧ t = t' := by
  obtain ⟨htake, hdrop⟩ := takeWhile_digits hg ht
  obtain ⟨htake', hdrop'⟩ := takeWhile_digits hg' ht'
  rw [h] at htake hdrop
  exact ⟨htake.symm.trans htake', hdrop.symm.trans hdrop'⟩

/-- So the groups of a text are determined by it. -/
theorem DottedGroups.unique {s g₀ g₁ g₂ g₃ rest h₀ h₁ h₂ h₃ rest' : List UInt8}
    (h : DottedGroups s g₀ g₁ g₂ g₃ rest) (h' : DottedGroups s h₀ h₁ h₂ h₃ rest') :
    [g₀, g₁, g₂, g₃] = [h₀, h₁, h₂, h₃] := by
  have hdot (t : List UInt8) : ∀ c ∈ (chr '.' :: t).head?, isDigit c = false := by
    simp [dot_not_digit]
  have htext := h.text.symm.trans h'.text
  obtain ⟨rfl, htext₁⟩ := digits_append_inj (h.digits g₀ (by simp)) (h'.digits h₀ (by simp))
    (hdot _) (hdot _) htext
  obtain ⟨rfl, htext₂⟩ := digits_append_inj (h.digits g₁ (by simp)) (h'.digits h₁ (by simp))
    (hdot _) (hdot _) (List.cons.inj htext₁).2
  obtain ⟨rfl, htext₃⟩ := digits_append_inj (h.digits g₂ (by simp)) (h'.digits h₂ (by simp))
    (hdot _) (hdot _) (List.cons.inj htext₂).2
  obtain ⟨rfl, _⟩ := digits_append_inj (h.digits g₃ (by simp)) (h'.digits h₃ (by simp))
    (fun c hc => (h.ends c hc).1) (fun c hc => (h'.ends c hc).1) (List.cons.inj htext₃).2
  rfl

/-! ### Group by group -/

section Scan
variable {octet val : Nat} {s g t : List UInt8}

/-- The scan goes over a group and carries its value on. -/
theorem octetsFrom_digits (hg : Digits g) (hle : decimalFrom val g ≤ 255) :
    octetsFrom (g ++ t) octet val = octetsFrom t octet (decimalFrom val g) := by
  induction g generalizing val with
  | nil => rfl
  | cons c g ih =>
    obtain ⟨hc, hg⟩ := digits_cons.mp hg
    rw [decimalFrom_cons] at hle ⊢
    have hsmall : ¬val * 10 + digit c > 255 := by
      have := le_decimalFrom (val * 10 + digit c) g
      omega
    rw [List.cons_append, octetsFrom, if_pos hc, if_neg hsmall]
    exact ih hg hle

theorem octetsFrom_dot (hoctet : octet < 3) :
    octetsFrom (chr '.' :: t) octet val = UInt8.ofNat val :: octetsFrom t (octet + 1) 0 := by
  have hroom : ¬octet ≥ 3 := by omega
  rw [octetsFrom, if_neg (by simp [dot_not_digit]), if_pos rfl, if_neg hroom]

theorem octetsFrom_end (hends : EndsGroups t) : octetsFrom t octet val = lastOctet octet val := by
  cases t with
  | nil => rfl
  | cons c t =>
    obtain ⟨hdigit, hdot⟩ := hends c rfl
    rw [octetsFrom, if_neg (by simp [hdigit]), if_neg hdot]

/-- A scan that stores all octets goes over a group first, and then to the next one or to the
end. -/
theorem octetsFrom_group (hoctet : octet ≤ 3) (hval : val ≤ 255)
    (h : octet + (octetsFrom s octet val).length = 4) :
    ∃ g t, s = g ++ t ∧ Digits g ∧ decimalFrom val g ≤ 255 ∧
      (octet = 3 ∧ EndsGroups t ∨
        octet < 3 ∧ ∃ t', t = chr '.' :: t' ∧
          octet + 1 + (octetsFrom t' (octet + 1) 0).length = 4) := by
  have hlast (val : Nat) (hlen : octet + (lastOctet octet val).length = 4) : octet = 3 := by
    unfold lastOctet at hlen
    split_ifs at hlen with hne
    · simp at hlen
      omega
    · omega
  induction s generalizing val with
  | nil =>
    exact ⟨[], [], rfl, digits_nil, hval, Or.inl ⟨hlast val h, by simp [EndsGroups]⟩⟩
  | cons c s ih =>
    rw [octetsFrom] at h
    split_ifs at h with hdigit hbig hdot hlate
    · simp at h
      omega
    · obtain ⟨g, t, rfl, hg, hle, hnext⟩ := ih (by omega) h
      exact ⟨c :: g, t, rfl, digits_cons.mpr ⟨hdigit, hg⟩, hle, hnext⟩
    · simp at h
      omega
    · subst hdot
      rw [List.length_cons] at h
      exact ⟨[], _, rfl, digits_nil, hval, Or.inr ⟨by omega, s, rfl, by omega⟩⟩
    · refine ⟨[], c :: s, rfl, digits_nil, hval, Or.inl ⟨hlast val h, ?_⟩⟩
      simp [EndsGroups, hdigit, hdot]

end Scan

/-- The octets stored for four groups are their values. -/
theorem DottedGroups.octetsWritten {s g₀ g₁ g₂ g₃ rest : List UInt8}
    (h : DottedGroups s g₀ g₁ g₂ g₃ rest) :
    octetsWritten s = [g₀, g₁, g₂, g₃].map fun g => UInt8.ofNat (decimalValue g) := by
  have hbounded := h.bounded
  have hdigits := h.digits
  simp only [List.mem_cons, List.not_mem_nil, or_false, forall_eq_or_imp, forall_eq]
    at hbounded hdigits
  obtain ⟨hle₀, hle₁, hle₂, hle₃⟩ := hbounded
  obtain ⟨hd₀, hd₁, hd₂, hd₃⟩ := hdigits
  rw [Config.octetsWritten, h.text, octetsFrom_digits hd₀ hle₀, octetsFrom_dot (by omega),
    octetsFrom_digits hd₁ hle₁, octetsFrom_dot (by omega), octetsFrom_digits hd₂ hle₂,
    octetsFrom_dot (by omega), octetsFrom_digits hd₃ hle₃, octetsFrom_end h.ends]
  rfl

/-- All four octets are stored for texts that begin with four groups only. -/
theorem exists_dottedGroups {s : List UInt8} (h : (octetsWritten s).length = 4) :
    ∃ g₀ g₁ g₂ g₃ rest, DottedGroups s g₀ g₁ g₂ g₃ rest := by
  have hzero : 0 + (octetsFrom s 0 0).length = 4 := by
    rw [Nat.zero_add]
    exact h
  obtain ⟨g₀, _, rfl, hd₀, hle₀, ⟨hlate, _⟩ | ⟨_, t₁, rfl, h₁⟩⟩ :=
    octetsFrom_group (by omega) (Nat.zero_le _) hzero
  · cases hlate
  obtain ⟨g₁, _, rfl, hd₁, hle₁, ⟨hlate, _⟩ | ⟨_, t₂, rfl, h₂⟩⟩ :=
    octetsFrom_group (by omega) (Nat.zero_le _) h₁
  · cases hlate
  obtain ⟨g₂, _, rfl, hd₂, hle₂, ⟨hlate, _⟩ | ⟨_, t₃, rfl, h₃⟩⟩ :=
    octetsFrom_group (by omega) (Nat.zero_le _) h₂
  · cases hlate
  obtain ⟨g₃, rest, rfl, hd₃, hle₃, ⟨_, hends⟩ | ⟨hearly, _⟩⟩ :=
    octetsFrom_group (by omega) (Nat.zero_le _) h₃
  · refine ⟨g₀, g₁, g₂, g₃, rest, rfl, ?_, ?_, hends⟩
    · simp [hd₀, hd₁, hd₂, hd₃]
    · simp only [List.mem_cons, List.not_mem_nil, or_false, forall_eq_or_imp, forall_eq]
      exact ⟨hle₀, hle₁, hle₂, hle₃⟩
  · omega

theorem parseIp_accepts_iff (s : List UInt8) (ip : Vector UInt8 4) :
    (parseIp s ip).1 = true ↔ ∃ g₀ g₁ g₂ g₃ rest, DottedGroups s g₀ g₁ g₂ g₃ rest := by
  rw [parseIp_eq, decide_eq_true_eq]
  refine ⟨exists_dottedGroups, fun ⟨g₀, g₁, g₂, g₃, rest, h⟩ => ?_⟩
  rw [h.octetsWritten]
  rfl

/-- The address that four groups are. -/
theorem DottedGroups.parseIp {s g₀ g₁ g₂ g₃ rest : List UInt8}
    (h : DottedGroups s g₀ g₁ g₂ g₃ rest) (ip : Vector UInt8 4) :
    (parseIp s ip).2.toList.map UInt8.toNat = [g₀, g₁, g₂, g₃].map decimalValue := by
  have hcells : (Config.parseIp s ip).2.toList = Config.octetsWritten s := by
    rw [parseIp_eq, h.octetsWritten]
    apply List.ext_getElem
    · simp
    · intro i h1 h2
      simp [overwrite]
  rw [hcells, h.octetsWritten, List.map_map]
  refine List.map_congr_left fun g hg => ?_
  have hle := h.bounded g hg
  rw [Function.comp_apply, UInt8.toNat_ofNat']
  omega

/-! ### Dotted quads -/

/-- `parse_ip` accepts the text exactly if it begins with a dotted quad, and then stores its four
values in order. -/
def ParsedAsQuad (s : List UInt8) : Prop :=
  ∀ ip, ((parseIp s ip).1 = true ↔ ∃ g₀ g₁ g₂ g₃ rest, DottedQuad s g₀ g₁ g₂ g₃ rest) ∧
    ∀ g₀ g₁ g₂ g₃ rest, DottedQuad s g₀ g₁ g₂ g₃ rest →
      (parseIp s ip).2.toList.map UInt8.toNat = [g₀, g₁, g₂, g₃].map decimalValue

/-- That is so unless the text begins with four groups one of which has no digits. -/
theorem parsedAsQuad_iff (s : List UInt8) : ParsedAsQuad s ↔
    ∀ g₀ g₁ g₂ g₃ rest, DottedGroups s g₀ g₁ g₂ g₃ rest → [] ∉ [g₀, g₁, g₂, g₃] := by
  constructor
  · intro h g₀ g₁ g₂ g₃ rest hgroups hempty
    have haccepts := (parseIp_accepts_iff s (Vector.replicate 4 0)).mpr ⟨_, _, _, _, _, hgroups⟩
    obtain ⟨h₀, h₁, h₂, h₃, rest', hquad⟩ := (h (Vector.replicate 4 0)).1.mp haccepts
    rw [hgroups.unique hquad.toDottedGroups] at hempty
    exact hquad.nonempty [] hempty rfl
  · intro h ip
    refine ⟨?_, fun g₀ g₁ g₂ g₃ rest hquad => hquad.toDottedGroups.parseIp ip⟩
    rw [parseIp_accepts_iff]
    constructor
    · rintro ⟨g₀, g₁, g₂, g₃, rest, hgroups⟩
      have hnone := h g₀ g₁ g₂ g₃ rest hgroups
      exact ⟨g₀, g₁, g₂, g₃, rest, hgroups, fun g hg hempty => hnone (hempty ▸ hg)⟩
    · rintro ⟨g₀, g₁, g₂, g₃, rest, hquad⟩
      exact ⟨g₀, g₁, g₂, g₃, rest, hquad.toDottedGroups⟩

/-- Two dots in a row are taken for a zero between them. -/
theorem not_parsedAsQuad : ¬ParsedAsQuad (ascii "10..1.1") := by
  intro h
  obtain ⟨g₀, g₁, g₂, g₃, rest, hquad⟩ := (h (Vector.replicate 4 0)).1.mp (by decide)
  have hten : Digits (ascii "10") := List.all_eq_true.mp (by decide)
  have hone : Digits (ascii "1") := List.all_eq_true.mp (by decide)
  have hgroups : DottedGroups (ascii "10..1.1") (ascii "10") [] (ascii "1") (ascii "1") [] :=
    ⟨by decide, by simp [hten, hone], by simp; decide, by simp [EndsGroups]⟩
  have hempty : [] ∈ [g₀, g₁, g₂, g₃] := by
    rw [← hgroups.unique hquad.toDottedGroups]
    simp
  exact hquad.nonempty [] hempty rfl

/-! ## parse_port_u16 -/

/-- A number among spaces. -/
def PortText (s : List UInt8) (n : Nat) : Prop :=
  ∃ sp ds sp', s = sp ++ (ds ++ sp') ∧ Spaces sp ∧ Digits ds ∧ ds ≠ [] ∧ Spaces sp' ∧
    decimalValue ds = n

/-- `parse_port_u16` with the number that it may replace. -/
def parsePortInto (str : List UInt8) (outPort : UInt16) : Bool × UInt16 :=
  ((parsePortU16 str).isSome, (parsePortU16 str).getD outPort)

/-- What the digit loop assigns to its accumulator, digit by digit. -/
def portSums : List UInt8 → Nat → List Nat
  | [], _ => []
  | c :: str, port =>
    if isDigit c then
      let sum := port * 10 + digit c
      sum :: if sum > 65535 then [] else portSums str sum
    else []

/-- The loop leaves before 32 bits are too few. -/
theorem portSums_lt (str : List UInt8) {port : Nat} (hport : port ≤ 65535) :
    ∀ sum ∈ portSums str port, sum < 2 ^ 32 := by
  induction str generalizing port with
  | nil => simp [portSums]
  | cons c str ih =>
    intro sum hsum
    unfold portSums at hsum
    split_ifs at hsum with hdigit
    · have hle := digit_le hdigit
      rcases List.mem_cons.mp hsum with rfl | hlater
      · omega
      · split_ifs at hlater with hbig
        · cases hlater
        · exact ih (by omega) sum hlater
    · cases hsum

/-- The digit loop takes all the digits there are, or meets a number that is too large. -/
theorem parsePortDigits_eq (str : List UInt8) {port : Nat} (hport : port ≤ 65535) :
    parsePortDigits str port =
      if decimalFrom port (str.takeWhile isDigit) ≤ 65535 then
        some (decimalFrom port (str.takeWhile isDigit), str.dropWhile isDigit)
      else none := by
  induction str generalizing port with
  | nil => simp [parsePortDigits, hport]
  | cons c str ih =>
    by_cases hdigit : isDigit c = true
    · rw [parsePortDigits, if_pos hdigit, List.takeWhile_cons_of_pos hdigit,
        List.dropWhile_cons_of_pos hdigit, decimalFrom_cons]
      split_ifs with hbig hle hle
      · have hmono := le_decimalFrom (port * 10 + digit c) (str.takeWhile isDigit)
        omega
      · rfl
      · rw [ih (by omega), if_pos hle]
      · rw [ih (by omega), if_neg hle]
    · rw [parsePortDigits, if_neg hdigit, List.takeWhile_cons_of_neg hdigit,
        List.dropWhile_cons_of_neg hdigit, decimalFrom_nil, if_pos hport]

/-- `parse_port_u16` in terms of the digits behind the spaces. -/
theorem parsePortU16_eq (s : List UInt8) :
    parsePortU16 s =
      if (skipSpaces s).takeWhile isDigit ≠ [] ∧
          decimalValue ((skipSpaces s).takeWhile isDigit) ≤ 65535 ∧
          skipSpaces ((skipSpaces s).dropWhile isDigit) = [] ∧
          decimalValue ((skipSpaces s).takeWhile isDigit) ≠ 0 then
        some (UInt16.ofNat (decimalValue ((skipSpaces s).takeWhile isDigit)))
      else none := by
  unfold parsePortU16
  cases skipSpaces s with
  | nil => simp
  | cons c str =>
    by_cases hdigit : isDigit c = true
    · have hne : (c :: str).takeWhile isDigit ≠ [] := by simp [hdigit]
      have hfirst : ¬(!isDigit c) = true := by simp [hdigit]
      dsimp only
      rw [if_neg hfirst, parsePortDigits_eq _ (Nat.zero_le _)]
      generalize (c :: str).takeWhile isDigit = ds at hne ⊢
      generalize (c :: str).dropWhile isDigit = rest
      rw [show decimalFrom 0 ds = decimalValue ds from rfl]
      by_cases hle : decimalValue ds ≤ 65535
      · simp only [hle, if_true]
        grind
      · simp [hle]
    · simp [hdigit]

/-- The digits behind the spaces are those of the number. -/
theorem PortText.digits_eq {s : List UInt8} {n : Nat} (h : PortText s n) :
    (skipSpaces s).takeWhile isDigit ≠ [] ∧
      decimalValue ((skipSpaces s).takeWhile isDigit) = n ∧
      Spaces ((skipSpaces s).dropWhile isDigit) := by
  obtain ⟨sp, ds, sp', rfl, hsp, hds, hne, hsp', rfl⟩ := h
  have hdigit : ∀ c ∈ (ds ++ sp').head?, c ≠ chr ' ' := by
    cases ds with
    | nil => exact absurd rfl hne
    | cons c ds =>
      intro d hd
      obtain rfl : c = d := Option.some.inj hd
      rintro rfl
      exact absurd (hds _ List.mem_cons_self) (by decide)
  have hrest : ∀ c ∈ sp'.head?, isDigit c = false := fun c hc =>
    not_isDigit_of_space (hsp' c (List.mem_of_mem_head? hc))
  obtain ⟨htake, hdrop⟩ := takeWhile_digits hds hrest
  rw [skipSpaces_append hsp hdigit, htake, hdrop]
  exact ⟨hne, rfl, hsp'⟩

/-- The texts of a port are the accepted ones. -/
theorem parsePortU16_eq_some_iff {s : List UInt8} {port : UInt16} :
    parsePortU16 s = some port ↔ 1 ≤ port.toNat ∧ PortText s port.toNat := by
  rw [parsePortU16_eq]
  constructor
  · intro h
    split_ifs at h with haccept
    obtain ⟨hne, hle, hrest, hzero⟩ := haccept
    obtain rfl := Option.some.inj h
    have hvalue : (UInt16.ofNat (decimalValue ((skipSpaces s).takeWhile isDigit))).toNat =
        decimalValue ((skipSpaces s).takeWhile isDigit) := by
      rw [UInt16.toNat_ofNat']
      omega
    obtain ⟨sp, hsp, hs⟩ := exists_spaces_append s
    rw [hvalue]
    refine ⟨by omega, sp, (skipSpaces s).takeWhile isDigit, (skipSpaces s).dropWhile isDigit, ?_,
      hsp, digits_takeWhile _, hne, skipSpaces_eq_nil_iff.mp hrest, rfl⟩
    rwa [List.takeWhile_append_dropWhile]
  · rintro ⟨hpos, htext⟩
    obtain ⟨hne, hvalue, hrest⟩ := htext.digits_eq
    have hlt := port.toNat_lt
    rw [if_pos ⟨hne, by omega, skipSpaces_eq_nil_iff.mpr hrest, by omega⟩, hvalue,
      UInt16.ofNat_toNat]

/-- `parse_port_u16` accepts exactly a number from 1 to 65535 among spaces, and stores it. It
stores nothing otherwise, and its accumulator never needs more than 32 bits. -/
theorem parsePort_exact (s : List UInt8) (outPort : UInt16) :
    ((parsePortInto s outPort).1 = true ↔ ∃ n, 1 ≤ n ∧ n ≤ 65535 ∧ PortText s n) ∧
      (∀ n, 1 ≤ n → n ≤ 65535 → PortText s n → (parsePortInto s outPort).2.toNat = n) ∧
      ((parsePortInto s outPort).1 = false → (parsePortInto s outPort).2 = outPort) ∧
      ∀ sum ∈ portSums (skipSpaces s) 0, sum < 2 ^ 32 := by
  have hsome (n : Nat) (hpos : 1 ≤ n) (hle : n ≤ 65535) (htext : PortText s n) :
      parsePortU16 s = some (UInt16.ofNat n) := by
    have hvalue : (UInt16.ofNat n).toNat = n := by
      rw [UInt16.toNat_ofNat']
      omega
    rw [parsePortU16_eq_some_iff, hvalue]
    exact ⟨hpos, htext⟩
  refine ⟨⟨fun h => ?_, ?_⟩, fun n hpos hle htext => ?_, fun h => ?_, portSums_lt _ (by omega)⟩
  · obtain ⟨port, hport⟩ := Option.isSome_iff_exists.mp h
    obtain ⟨hpos, htext⟩ := parsePortU16_eq_some_iff.mp hport
    have hlt := port.toNat_lt
    exact ⟨port.toNat, hpos, by omega, htext⟩
  · rintro ⟨n, hpos, hle, htext⟩
    simp [parsePortInto, hsome n hpos hle htext]
  · simp only [parsePortInto, hsome n hpos hle htext, Option.getD_some, UInt16.toNat_ofNat']
    omega
  · have hnone : parsePortU16 s = none := by simpa [parsePortInto] using h
    simp [parsePortInto, hnone]

end SmartBell.Config
