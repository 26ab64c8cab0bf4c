import SmartBell.Common.Bytes

/-!
# The console's two number parsers

`parse_ip` stores octets while it is still scanning; `parse_port_u16` reports a
number only once the whole text has been accepted. `octetsWritten` is what the
first one stores, as a function of the text alone: `parseIp_eq` reduces it to that
list, and the text is accepted exactly if all four octets were stored.
-/
namespace SmartBell.Config
open Common

/-! ## parse_ip -/

/-- The text has ended, or a character that belongs to no address. -/
def parseIpEnd (octet val : Nat) (ip : Vector UInt8 4) : Bool × Vector UInt8 4 :=
  if octet ≠ 3 then (false, ip) else (true, ip.set 3 (UInt8.ofNat val))

/-- The loop of `LightweightConfig::parse_ip`. -/
def parseIpFrom : List UInt8 → Nat → Nat → Vector UInt8 4 → Bool × Vector UInt8 4
  | [], octet, val, ip => parseIpEnd octet val ip
  | c :: str, octet, val, ip =>
    if isDigit c then
      if val * 10 + digit c > 255 then (false, ip)
      else parseIpFrom str octet (val * 10 + digit c) ip
    else if c = chr '.' then
      if octet ≥ 3 then (false, ip)
      else parseIpFrom str (octet + 1) 0 (ip.setIfInBounds octet (UInt8.ofNat val))
    else parseIpEnd octet val ip

/-- `LightweightConfig::parse_ip`: whether the text was accepted, and the address after it. -/
def parseIp (str : List UInt8) (ip : Vector UInt8 4) : Bool × Vector UInt8 4 :=
  parseIpFrom str 0 0 ip

/-- The last octet has no dot after it: it is stored when the text ends in the fourth group. -/
def lastOctet (octet val : Nat) : List UInt8 := if octet ≠ 3 then [] else [UInt8.ofNat val]

/-- The octets stored from cell `octet` on, with `val` accumulated so far. -/
def octetsFrom : List UInt8 → Nat → Nat → List UInt8
  | [], octet, val => lastOctet octet val
  | c :: str, octet, val =>
    if isDigit c then
      if val * 10 + digit c > 255 then [] else octetsFrom str octet (val * 10 + digit c)
    else if c = chr '.' then
      if octet ≥ 3 then [] else UInt8.ofNat val :: octetsFrom str (octet + 1) 0
    else lastOctet octet val

/-- The octets that `parse_ip` stores for a text, whether it accepts it or not. -/
def octetsWritten (str : List UInt8) : List UInt8 := octetsFrom str 0 0

theorem lastOctet_length_le (octet val : Nat) (h : octet ≤ 3) :
    octet + (lastOctet octet val).length ≤ 4 := by
  unfold lastOctet
  split_ifs <;> simp <;> omega

theorem octetsFrom_length_le (str : List UInt8) (octet val : Nat) (h : octet ≤ 3) :
    octet + (octetsFrom str octet val).length ≤ 4 := by
  have hnil : octet + ([] : List UInt8).length ≤ 4 := by simp; omega
  induction str generalizing octet val with
  | nil => exact lastOctet_length_le octet val h
  | cons c str ih =>
    simp only [octetsFrom]
    split_ifs
    · exact hnil
    · exact ih octet _ h hnil
    · exact hnil
    · have := ih (octet + 1) 0 (by omega) (by simp; omega)
      simp only [List.length_cons]
      omega
    · exact lastOctet_length_le octet val h

theorem octetsWritten_length_le (str : List UInt8) : (octetsWritten str).length ≤ 4 := by
  simpa [octetsWritten] using octetsFrom_length_le str 0 0 (by omega)

/-- The scan stopped: it has accepted the text if the octets stored complete the address. -/
theorem parseIp_stop (octet : Nat) (ip : Vector UInt8 4) (h : octet ≤ 3) :
    (false, ip) = (decide (octet + ([] : List UInt8).length = 4), overwriteAt ip octet []) := by
  have hne : ¬octet = 4 := by omega
  simp [overwriteAt_nil, hne]

theorem parseIpEnd_eq (octet val : Nat) (ip : Vector UInt8 4) (h : octet ≤ 3) :
    parseIpEnd octet val ip = (decide (octet + (lastOctet octet val).length = 4),
      overwriteAt ip octet (lastOctet octet val)) := by
  unfold parseIpEnd lastOctet
  split_ifs with h3
  · exact parseIp_stop octet ip h
  · obtain rfl : octet = 3 := by omega
    rw [← overwriteAt_cons, overwriteAt_nil]
    simp only [List.length_singleton, decide_true, Prod.mk.injEq, true_and]
    apply Vector.ext
    intro i hi
    simp [Vector.getElem_set, Vector.getElem_setIfInBounds]

theorem parseIpFrom_eq (str : List UInt8) (octet val : Nat) (ip : Vector UInt8 4)
    (h : octet ≤ 3) : parseIpFrom str octet val ip =
      (decide (octet + (octetsFrom str octet val).length = 4),
        overwriteAt ip octet (octetsFrom str octet val)) := by
  induction str generalizing octet val ip with
  | nil => exact parseIpEnd_eq octet val ip h
  | cons c str ih =>
    simp only [parseIpFrom, octetsFrom]
    split_ifs with hdigit hbig hdot hoctet
    · exact parseIp_stop octet ip h
    · exact ih octet _ ip h
    · exact parseIp_stop octet ip h
    · rw [ih (octet + 1) 0 _ (by omega), overwriteAt_cons, List.length_cons,
        Nat.add_right_comm, Nat.add_assoc]
    · exact parseIpEnd_eq octet val ip h

/-- `parse_ip` writes `octetsWritten` and accepts exactly if that is a whole address. -/
theorem parseIp_eq (str : List UInt8) (ip : Vector UInt8 4) :
    parseIp str ip =
      (decide ((octetsWritten str).length = 4), overwrite ip (octetsWritten str)) := by
  rw [parseIp, parseIpFrom_eq str 0 0 ip (by omega), overwriteAt_zero, Nat.zero_add]
  rfl

/-! ## parse_port_u16 -/

/-- The digit loop: the number and the rest of the text, or a number that is too large. -/
def parsePortDigits : List UInt8 → Nat → Option (Nat × List UInt8)
  | [], port => some (port, [])
  | c :: str, port =>
    if isDigit c then
      if port * 10 + digit c > 65535 then none else parsePortDigits str (port * 10 + digit c)
    else some (port, c :: str)

/-- `parse_port_u16`: the port that is stored, if the text is accepted. -/
def parsePortU16 (str : List UInt8) : Option UInt16 :=
  match skipSpaces str with
  | [] => none
  | c :: str =>
    if !isDigit c then none
    else match parsePortDigits (c :: str) 0 with
      | none => none
      | some (port, rest) =>
        if skipSpaces rest ≠ [] ∨ port = 0 then none else some (UInt16.ofNat port)

theorem parsePortDigits_lt {str rest : List UInt8} {port n : Nat} (hport : port < 65536)
    (h : parsePortDigits str port = some (n, rest)) : n < 65536 := by
  induction str generalizing port with
  | nil => simp only [parsePortDigits, Option.some.injEq, Prod.mk.injEq] at h; omega
  | cons c str ih =>
    simp only [parsePortDigits] at h
    split_ifs at h with hdigit hbig
    · exact ih (by omega) h
    · simp only [Option.some.injEq, Prod.mk.injEq] at h; omega

/-- Port zero is never accepted. -/
theorem parsePortU16_ne_zero {str : List UInt8} {port : UInt16}
    (h : parsePortU16 str = some port) : port ≠ 0 := by
  unfold parsePortU16 at h
  split at h
  · simp at h
  split_ifs at h
  split at h
  · simp at h
  rename_i n rest hdigits
  split_ifs at h with hrest
  have hn := parsePortDigits_lt (by omega) hdigits
  obtain rfl := Option.some.inj h
  intro hzero
  have := congrArg UInt16.toNat hzero
  simp only [UInt16.toNat_ofNat', UInt16.toNat_zero] at this
  omega

end SmartBell.Config
