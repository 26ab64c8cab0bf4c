import SmartBell.Common.Stores
import SmartBell.Config.WellFormed

/-!
# What a command writes

The fields of the record lie next to each other, and `parse_ip`, `strncpy` and the copy loops
of the topics write into them byte by byte. `Command.stores` lists what a command stores and
where in the record; performing the stores on the bytes of the record gives the configuration
that `process_command` leaves behind, and none of them leaves the fields that the command
is about. That the other fields keep their values follows from the addresses alone.
-/
namespace SmartBell.Config
open Common SmartBellConfig

/-! ## Fields -/

inductive Field where
  | brokerIp | brokerPort | clientId | input1Topic | input2Topic | gongBaseTopic
  | deviceIp | subnet | gateway | mac | magic
  deriving DecidableEq, Repr

namespace Field

/-- Where the field starts in the record. -/
def offset : Field → Nat
  | brokerIp => 0
  | brokerPort => 4
  | clientId => 6
  | input1Topic => 22
  | input2Topic => 47
  | gongBaseTopic => 72
  | deviceIp => 97
  | subnet => 101
  | gateway => 105
  | mac => 109
  | magic => 115

def length : Field → Nat
  | brokerPort => 2
  | brokerIp | deviceIp | subnet | gateway | magic => 4
  | mac => 6
  | clientId => 16
  | input1Topic | input2Topic | gongBaseTopic => 25

/-- Byte `i` of the record belongs to the field. -/
def Covers (f : Field) (i : Nat) : Prop := f.offset ≤ i ∧ i < f.offset + f.length

/-- The field has the same value in both records. -/
def Same (c d : SmartBellConfig) : Field → Prop
  | brokerIp => c.brokerIp = d.brokerIp
  | brokerPort => c.brokerPort = d.brokerPort
  | clientId => c.clientId = d.clientId
  | input1Topic => c.input1Topic = d.input1Topic
  | input2Topic => c.input2Topic = d.input2Topic
  | gongBaseTopic => c.gongBaseTopic = d.gongBaseTopic
  | deviceIp => c.deviceIp = d.deviceIp
  | subnet => c.subnet = d.subnet
  | gateway => c.gateway = d.gateway
  | mac => c.mac = d.mac
  | magic => c.magic = d.magic

theorem inside_record (f : Field) : f.offset + f.length ≤ size := by
  cases f <;> decide

/-- No two fields share a byte. -/
theorem eq_of_covers {f g : Field} {i : Nat} (hf : f.Covers i) (hg : g.Covers i) : f = g := by
  have hapart : f = g ∨ f.offset + f.length ≤ g.offset ∨ g.offset + g.length ≤ f.offset := by
    cases f <;> cases g <;> decide
  obtain ⟨hflow, hfhigh⟩ := hf
  obtain ⟨hglow, hghigh⟩ := hg
  rcases hapart with heq | hbefore | hbehind
  · exact heq
  · omega
  · omega

/-- A field is made of the bytes it covers. -/
theorem same_of_image {f : Field} {c d : SmartBellConfig}
    (h : ∀ i, f.Covers i → c.image i = d.image i) : f.Same c d := by
  have read {α : Type} (get : SmartBellConfig → α)
      (hread : get (ofImage c.image) = get (ofImage d.image)) : get c = get d := by
    rwa [ofImage_image, ofImage_image] at hread
  have array (n off : Nat) (hn : f.length = n) (hoff : f.offset = off) :
      (Vector.ofFn fun i : Fin n => c.image (off + i)) =
        Vector.ofFn fun i : Fin n => d.image (off + i) := by
    refine congrArg Vector.ofFn (funext fun i => h _ ?_)
    have hi := i.isLt
    exact ⟨by omega, by omega⟩
  cases f
  case brokerIp =>
    refine read (·.brokerIp) (congrArg Vector.ofFn (funext fun i => h _ ?_))
    exact ⟨Nat.zero_le _, by simp [offset, length]⟩
  case brokerPort =>
    refine read (·.brokerPort) ?_
    simp only [ofImage]
    rw [h 4 ⟨by decide, by decide⟩, h 5 ⟨by decide, by decide⟩]
  case magic =>
    refine read (·.magic) ?_
    simp only [ofImage]
    rw [h 115 ⟨by decide, by decide⟩, h 116 ⟨by decide, by decide⟩,
      h 117 ⟨by decide, by decide⟩, h 118 ⟨by decide, by decide⟩]
  case clientId => exact read (·.clientId) (array 16 6 rfl rfl)
  case input1Topic => exact read (·.input1Topic) (array 25 22 rfl rfl)
  case input2Topic => exact read (·.input2Topic) (array 25 47 rfl rfl)
  case gongBaseTopic => exact read (·.gongBaseTopic) (array 25 72 rfl rfl)
  case deviceIp => exact read (·.deviceIp) (array 4 97 rfl rfl)
  case subnet => exact read (·.subnet) (array 4 101 rfl rfl)
  case gateway => exact read (·.gateway) (array 4 105 rfl rfl)
  case mac => exact read (·.mac) (array 6 109 rfl rfl)

end Field

/-- At most these fields differ. -/
def ChangesOnly (fields : List Field) (c d : SmartBellConfig) : Prop :=
  ∀ f, f ∉ fields → f.Same d c

/-- The memory holds the record. -/
def Agrees (c : SmartBellConfig) (m : Memory) : Prop := ∀ i < size, c.image i = m i

theorem agrees_image (c : SmartBellConfig) : Agrees c c.image := fun _ _ => rfl

/-! ## Places to store to -/

/-- A field that is an array of bytes, as a place to store to. -/
structure ArrayField (f : Field) (n : Nat) where
  get : SmartBellConfig → Vector UInt8 n
  put : Vector UInt8 n → SmartBellConfig → SmartBellConfig
  length : f.length = n
  get_put : ∀ v c, get (put v c) = v
  inside : ∀ c, Memory.HasArray c.image f.offset (get c)
  outside : ∀ v c i, ¬f.Covers i → (put v c).image i = c.image i

/-- The stores to the cells of a field, by their place in the record. -/
def Field.stores (f : Field) (stores : List Store) : List Store := stores.map (.from f.offset)

/-- Stores to the cells of an array do to the record what they do to the array. -/
theorem ArrayField.agrees {f : Field} {n : Nat} (a : ArrayField f n) {c : SmartBellConfig}
    {m : Memory} (h : Agrees c m) {stores : List Store} (hinside : ∀ st ∈ stores, st.addr < n) :
    Agrees (a.put (storeCells (a.get c) stores) c) (m.perform (f.stores stores)) := by
  have hfits := f.inside_record
  have hlength := a.length
  have harray : m.HasArray f.offset (a.get c) := fun i hi =>
    (h (f.offset + i) (by omega)).symm.trans (a.inside c i hi)
  intro i hi
  by_cases hcover : f.Covers i
  · obtain ⟨hlow, hhigh⟩ := hcover
    obtain ⟨k, rfl⟩ := Nat.exists_eq_add_of_le hlow
    have hk : k < n := by omega
    have hbyte := a.inside (a.put (storeCells (a.get c) stores) c) k hk
    simp only [a.get_put] at hbyte
    exact hbyte.trans (harray.perform hinside k hk).symm
  · rw [a.outside _ c i hcover, h i hi]
    refine (Memory.perform_of_forall_ne fun st hst => ?_).symm
    obtain ⟨st', hst', rfl⟩ := List.mem_map.mp hst
    have hcell := hinside st' hst'
    intro haddr
    exact hcover ⟨by simp [← haddr, Store.from], by simp [← haddr, Store.from]; omega⟩

theorem image_addresses (c : SmartBellConfig) :
    (∀ (i : Nat) (h : i < 4), c.image (0 + i) = c.brokerIp[i]) ∧
      (∀ (i : Nat) (h : i < 4), c.image (97 + i) = c.deviceIp[i]) ∧
      (∀ (i : Nat) (h : i < 4), c.image (101 + i) = c.subnet[i]) ∧
      (∀ (i : Nat) (h : i < 4), c.image (105 + i) = c.gateway[i]) ∧
      ∀ (i : Nat) (h : i < 6), c.image (109 + i) = c.mac[i] := by
  refine ⟨?_, ?_, ?_, ?_, ?_⟩ <;>
  · intro i hi
    unfold image
    grind

def clientIdArray : ArrayField .clientId 16 where
  get := (·.clientId)
  put v c := { c with clientId := v }
  length := rfl
  get_put _ _ := rfl
  inside c := (image_strings c).1
  outside v c i h := by
    unfold Field.Covers Field.offset Field.length at h
    unfold image
    grind

def input1TopicArray : ArrayField .input1Topic 25 where
  get := (·.input1Topic)
  put v c := { c with input1Topic := v }
  length := rfl
  get_put _ _ := rfl
  inside c := (image_strings c).2.1
  outside v c i h := by
    unfold Field.Covers Field.offset Field.length at h
    unfold image
    grind

def input2TopicArray : ArrayField .input2Topic 25 where
  get := (·.input2Topic)
  put v c := { c with input2Topic := v }
  length := rfl
  get_put _ _ := rfl
  inside c := (image_strings c).2.2.1
  outside v c i h := by
    unfold Field.Covers Field.offset Field.length at h
    unfold image
    grind

def gongBaseTopicArray : ArrayField .gongBaseTopic 25 where
  get := (·.gongBaseTopic)
  put v c := { c with gongBaseTopic := v }
  length := rfl
  get_put _ _ := rfl
  inside c := (image_strings c).2.2.2
  outside v c i h := by
    unfold Field.Covers Field.offset Field.length at h
    unfold image
    grind

def brokerIpArray : ArrayField .brokerIp 4 where
  get := (·.brokerIp)
  put v c := { c with brokerIp := v }
  length := rfl
  get_put _ _ := rfl
  inside c := (image_addresses c).1
  outside v c i h := by
    unfold Field.Covers Field.offset Field.length at h
    unfold image
    grind

def deviceIpArray : ArrayField .deviceIp 4 where
  get := (·.deviceIp)
  put v c := { c with deviceIp := v }
  length := rfl
  get_put _ _ := rfl
  inside c := (image_addresses c).2.1
  outside v c i h := by
    unfold Field.Covers Field.offset Field.length at h
    unfold image
    grind

def subnetArray : ArrayField .subnet 4 where
  get := (·.subnet)
  put v c := { c with subnet := v }
  length := rfl
  get_put _ _ := rfl
  inside c := (image_addresses c).2.2.1
  outside v c i h := by
    unfold Field.Covers Field.offset Field.length at h
    unfold image
    grind

def gatewayArray : ArrayField .gateway 4 where
  get := (·.gateway)
  put v c := { c with gateway := v }
  length := rfl
  get_put _ _ := rfl
  inside c := (image_addresses c).2.2.2.1
  outside v c i h := by
    unfold Field.Covers Field.offset Field.length at h
    unfold image
    grind

def macArray : ArrayField .mac 6 where
  get := (·.mac)
  put v c := { c with mac := v }
  length := rfl
  get_put _ _ := rfl
  inside c := (image_addresses c).2.2.2.2
  outside v c i h := by
    unfold Field.Covers Field.offset Field.length at h
    unfold image
    grind

/-! ### The two words -/

def portStores (port : UInt16) : List Store :=
  [0, 1].map fun k => ⟨Field.brokerPort.offset + k, leByte port.toNat k⟩

def magicStores (magic : UInt32) : List Store :=
  [0, 1, 2, 3].map fun k => ⟨Field.magic.offset + k, leByte magic.toNat k⟩

theorem agrees_portStores {c : SmartBellConfig} {m : Memory} (h : Agrees c m) (port : UInt16) :
    Agrees { c with brokerPort := port } (m.perform (portStores port)) := by
  intro i hi
  have hold := h i hi
  have hcases : i = 4 ∨ i = 5 ∨ i ≠ 4 ∧ i ≠ 5 := by omega
  rcases hcases with rfl | rfl | ⟨h4, h5⟩
  · rfl
  · rfl
  · rw [Memory.perform_of_forall_ne (by simp [portStores, Field.offset]; omega), ← hold]
    unfold image
    grind

theorem agrees_magicStores {c : SmartBellConfig} {m : Memory} (h : Agrees c m) (magic : UInt32) :
    Agrees { c with magic } (m.perform (magicStores magic)) := by
  intro i hi
  have hold := h i hi
  unfold size at hi
  have hcases : i < 115 ∨ i = 115 ∨ i = 116 ∨ i = 117 ∨ i = 118 := by omega
  rcases hcases with hlow | rfl | rfl | rfl | rfl
  · rw [Memory.perform_of_forall_ne (by simp [magicStores, Field.offset]; omega), ← hold]
    unfold image
    grind
  all_goals rfl

/-! ## The stores of the loops -/

/-- The store behind the loop of `parse_ip`. -/
def parseIpEndStores (octet val : Nat) : List Store :=
  if octet ≠ 3 then [] else [⟨3, UInt8.ofNat val⟩]

/-- What `parse_ip` stores, from group `octet` on. -/
def parseIpStores : List UInt8 → Nat → Nat → List Store
  | [], octet, val => parseIpEndStores octet val
  | c :: str, octet, val =>
    if isDigit c then
      if val * 10 + digit c > 255 then [] else parseIpStores str octet (val * 10 + digit c)
    else if c = chr '.' then
      if octet ≥ 3 then [] else ⟨octet, UInt8.ofNat val⟩ :: parseIpStores str (octet + 1) 0
    else parseIpEndStores octet val

/-- What the copy loop of the topic commands stores, from cell `len` on. -/
def copyTopicStores : List UInt8 → Nat → List Store
  | [], len => [⟨len, 0⟩]
  | c :: t, len =>
    if !endsLine c ∧ len < 24 then ⟨len, c⟩ :: copyTopicStores t (len + 1) else [⟨len, 0⟩]

/-- What `strncpy` stores: `count` bytes, the text and then NULs. -/
def strncpyStores (src : List UInt8) (count : Nat) : List Store :=
  storesAt 0 ((List.range count).map fun i => ((cstring src)[i]?).getD 0)

/-- `strncpy` of the first 15 characters, and the NUL in the last cell. -/
def clientIdStores (id : List UInt8) : List Store := strncpyStores id 15 ++ [⟨15, 0⟩]

theorem parseIpEndStores_eq (octet val : Nat) :
    parseIpEndStores octet val = storesAt octet (lastOctet octet val) := by
  unfold parseIpEndStores lastOctet
  split_ifs with hoctet
  · rfl
  · obtain rfl : octet = 3 := by omega
    rfl

theorem parseIpStores_eq (str : List UInt8) (octet val : Nat) :
    parseIpStores str octet val = storesAt octet (octetsFrom str octet val) := by
  induction str generalizing octet val with
  | nil => exact parseIpEndStores_eq octet val
  | cons c str ih =>
    rw [parseIpStores, octetsFrom]
    split_ifs
    · rfl
    · exact ih octet _
    · rfl
    · rw [ih, storesAt]
    · exact parseIpEndStores_eq octet val

/-- The loop of `parse_ip` stores to the four cells of the address only. -/
theorem parseIpStores_inside (str : List UInt8) :
    ∀ st ∈ parseIpStores str 0 0, st.addr < 4 := by
  intro st hst
  rw [parseIpStores_eq] at hst
  obtain ⟨_, hhigh⟩ := mem_storesAt hst
  have hlength := octetsWritten_length_le str
  unfold octetsWritten at hlength
  omega

theorem storeCells_parseIp (str : List UInt8) (ip : Vector UInt8 4) :
    storeCells ip (parseIpStores str 0 0) = (parseIp str ip).2 := by
  rw [parseIpStores_eq, storeCells_storesAt, overwriteAt_zero, parseIp_eq]
  rfl

theorem copyTopicStores_inside (t : List UInt8) (len : Nat) (hlen : len ≤ 24) :
    ∀ st ∈ copyTopicStores t len, st.addr < 25 := by
  induction t generalizing len with
  | nil =>
    intro st hst
    obtain rfl := List.mem_singleton.mp hst
    exact Nat.lt_succ_of_le hlen
  | cons c t ih =>
    intro st hst
    unfold copyTopicStores at hst
    split_ifs at hst with hgo
    · rcases List.mem_cons.mp hst with rfl | hlater
      · exact Nat.lt_succ_of_le hlen
      · exact ih (len + 1) hgo.2 st hlater
    · obtain rfl := List.mem_singleton.mp hst
      exact Nat.lt_succ_of_le hlen

theorem storeCells_copyTopic (t : List UInt8) (len : Nat) (dest : Vector UInt8 25) :
    storeCells dest (copyTopicStores t len) = copyTopic t len dest := by
  induction t generalizing len dest with
  | nil => rfl
  | cons c t ih =>
    unfold copyTopicStores copyTopic
    split_ifs with hgo
    · exact ih (len + 1) _
    · rfl

theorem clientIdStores_inside (id : List UInt8) : ∀ st ∈ clientIdStores id, st.addr < 16 := by
  intro st hst
  rcases List.mem_append.mp hst with hcopy | hnul
  · obtain ⟨_, hhigh⟩ := mem_storesAt hcopy
    simp only [List.length_map, List.length_range] at hhigh
    omega
  · obtain rfl := List.mem_singleton.mp hnul
    decide

theorem storeCells_clientId (id : List UInt8) (dest : Vector UInt8 16) :
    storeCells dest (clientIdStores id) =
      (strncpy dest id 15).set 15 0 (Nat.lt_add_one 15) := by
  have hcopy : storeCells dest (strncpyStores id 15) = strncpy dest id 15 := by
    rw [strncpyStores, storeCells_storesAt, overwriteAt_zero]
    apply Vector.ext
    intro i hi
    by_cases hfirst : i < 15
    · simp [hfirst]
    · simp [hfirst]
  have hstores : storeCells dest (clientIdStores id) =
      (storeCells dest (strncpyStores id 15)).setIfInBounds 15 0 := List.foldl_append
  rw [hstores, hcopy]
  apply Vector.ext
  intro i hi
  rw [Vector.getElem_set, Vector.getElem_setIfInBounds]

/-! ## Commands -/

/-- The fields that a command is about. -/
def Command.fields : Command → List Field
  | .ip _ => [.deviceIp]
  | .sn _ => [.subnet]
  | .gw _ => [.gateway]
  | .br _ => [.brokerIp, .brokerPort]
  | .id _ => [.clientId]
  | .input arg =>
    if (ascii "1 pt ").isPrefixOf arg then [.input1Topic]
    else if (ascii "2 pt ").isPrefixOf arg then [.input2Topic]
    else []
  | .gongSub _ => [.gongBaseTopic]
  | .save => [.magic]
  | .reset => [.brokerIp, .brokerPort, .clientId, .deviceIp, .subnet, .gateway, .mac, .magic]
  | .help | .showConfig | .reboot | .unknown => []

def brStores (text : List UInt8) (c : SmartBellConfig) : List Store :=
  let arg := skipSpaces text
  match afterSeparator arg with
  | none => []
  | some portText =>
    let address := Field.brokerIp.stores (parseIpStores arg 0 0)
    if (parseIp arg c.brokerIp).1 then
      match parsePortU16 portText with
      | some port => address ++ portStores port
      | none => address
    else address

def idStores (text : List UInt8) : List Store :=
  let id := skipSpaces text
  if id ≠ [] then Field.clientId.stores (clientIdStores id) else []

def inputStores (arg : List UInt8) : List Store :=
  let isInput1 := (ascii "1 pt ").isPrefixOf arg
  let isInput2 := (ascii "2 pt ").isPrefixOf arg
  let t := skipSpaces (arg.drop 5)
  if (isInput1 || isInput2) && hasTopic t then
    if isInput1 then Field.input1Topic.stores (copyTopicStores t 0)
    else Field.input2Topic.stores (copyTopicStores t 0)
  else []

def gongSubStores (arg : List UInt8) : List Store :=
  let t := skipSpaces arg
  if hasTopic t then Field.gongBaseTopic.stores (copyTopicStores t 0) else []

def resetStores : List Store :=
  Field.brokerIp.stores (storesAt 0 [0, 0, 0, 0]) ++ (portStores 1883 ++
  (Field.clientId.stores (clientIdStores (ascii "smartbell")) ++
  (Field.deviceIp.stores (storesAt 0 [192, 168, 1, 100]) ++
  (Field.subnet.stores (storesAt 0 [255, 255, 255, 0]) ++
  (Field.gateway.stores (storesAt 0 [192, 168, 1, 1]) ++
  (Field.mac.stores (storesAt 0 [0x00, 0x08, 0xDC, 0xAB, 0xCD, 0xEF]) ++
  magicStores magicWord))))))

/-- Everything that a command stores to the record, in order. -/
def Command.stores (c : SmartBellConfig) : Command → List Store
  | .ip arg => Field.deviceIp.stores (parseIpStores arg 0 0)
  | .sn arg => Field.subnet.stores (parseIpStores arg 0 0)
  | .gw arg => Field.gateway.stores (parseIpStores arg 0 0)
  | .br text => brStores text c
  | .id text => idStores text
  | .input arg => inputStores arg
  | .gongSub arg => gongSubStores arg
  | .save => magicStores magicWord
  | .reset => resetStores
  | .help | .showConfig | .reboot | .unknown => []

/-! ### No store outside -/

theorem Field.stores_covered (f : Field) {stores : List Store}
    (hinside : ∀ st ∈ stores, st.addr < f.length) : ∀ st ∈ f.stores stores, f.Covers st.addr := by
  intro st hst
  obtain ⟨st', hst', rfl⟩ := List.mem_map.mp hst
  have hcell := hinside st' hst'
  exact ⟨Nat.le_add_right _ _, Nat.add_lt_add_left hcell _⟩

theorem storesAt_inside {n : Nat} {bs : List UInt8} (h : bs.length = n) :
    ∀ st ∈ storesAt 0 bs, st.addr < n := by
  intro st hst
  obtain ⟨_, hhigh⟩ := mem_storesAt hst
  omega

theorem portStores_covered (port : UInt16) :
    ∀ st ∈ portStores port, Field.brokerPort.Covers st.addr := by
  simp [portStores, Field.Covers, Field.offset, Field.length]

theorem magicStores_covered (magic : UInt32) :
    ∀ st ∈ magicStores magic, Field.magic.Covers st.addr := by
  simp [magicStores, Field.Covers, Field.offset, Field.length]

theorem brStores_covered (text : List UInt8) (c : SmartBellConfig) :
    ∀ st ∈ brStores text c, Field.brokerIp.Covers st.addr ∨ Field.brokerPort.Covers st.addr := by
  intro st hst
  have haddress (h : st ∈ Field.brokerIp.stores (parseIpStores (skipSpaces text) 0 0)) :
      Field.brokerIp.Covers st.addr :=
    Field.brokerIp.stores_covered (parseIpStores_inside _) st h
  unfold brStores at hst
  dsimp only at hst
  cases hsep : afterSeparator (skipSpaces text) with
  | none =>
    rw [hsep] at hst
    cases hst
  | some portText =>
    rw [hsep] at hst
    dsimp only at hst
    split_ifs at hst
    · cases hport : parsePortU16 portText with
      | none =>
        rw [hport] at hst
        exact .inl (haddress hst)
      | some port =>
        rw [hport] at hst
        rcases List.mem_append.mp hst with h | h
        · exact .inl (haddress h)
        · exact .inr (portStores_covered port st h)
    · exact .inl (haddress hst)

theorem resetStores_covered :
    ∀ st ∈ resetStores, ∃ f ∈ Command.reset.fields, f.Covers st.addr := by
  intro st hst
  simp only [resetStores, List.mem_append] at hst
  rcases hst with h | h | h | h | h | h | h | h
  · exact ⟨.brokerIp, by decide, Field.stores_covered _ (storesAt_inside rfl) st h⟩
  · exact ⟨.brokerPort, by decide, portStores_covered _ st h⟩
  · exact ⟨.clientId, by decide, Field.stores_covered _ (clientIdStores_inside _) st h⟩
  · exact ⟨.deviceIp, by decide, Field.stores_covered _ (storesAt_inside rfl) st h⟩
  · exact ⟨.subnet, by decide, Field.stores_covered _ (storesAt_inside rfl) st h⟩
  · exact ⟨.gateway, by decide, Field.stores_covered _ (storesAt_inside rfl) st h⟩
  · exact ⟨.mac, by decide, Field.stores_covered _ (storesAt_inside rfl) st h⟩
  · exact ⟨.magic, by decide, magicStores_covered _ st h⟩

/-- A command stores to the fields that it is about, and nowhere else. -/
theorem Command.stores_covered (c : SmartBellConfig) (cmd : Command) :
    ∀ st ∈ cmd.stores c, ∃ f ∈ cmd.fields, f.Covers st.addr := by
  intro st hst
  cases cmd with
  | help | showConfig | reboot | unknown => cases hst
  | ip arg | sn arg | gw arg =>
    exact ⟨_, List.mem_singleton_self _, Field.stores_covered _ (parseIpStores_inside arg) st hst⟩
  | br text =>
    rcases brStores_covered text c st hst with h | h
    · exact ⟨.brokerIp, by simp [Command.fields], h⟩
    · exact ⟨.brokerPort, by simp [Command.fields], h⟩
  | id text =>
    simp only [Command.stores, idStores] at hst
    split_ifs at hst
    · exact ⟨.clientId, List.mem_singleton_self _,
        Field.stores_covered _ (clientIdStores_inside _) st hst⟩
    · cases hst
  | input arg =>
    simp only [Command.stores, inputStores] at hst
    have htopic (t : List UInt8) : ∀ st ∈ copyTopicStores t 0, st.addr < 25 :=
      copyTopicStores_inside t 0 (by omega)
    split_ifs at hst with hgo hfirst
    · exact ⟨.input1Topic, by simp [Command.fields, hfirst],
        Field.stores_covered _ (htopic _) st hst⟩
    · have hsecond : (ascii "2 pt ").isPrefixOf arg = true := by
        simpa [hfirst] using (Bool.and_eq_true_iff.mp hgo).1
      exact ⟨.input2Topic, by simp [Command.fields, hfirst, hsecond],
        Field.stores_covered _ (htopic _) st hst⟩
    · cases hst
  | gongSub arg =>
    simp only [Command.stores, gongSubStores] at hst
    split_ifs at hst
    · exact ⟨.gongBaseTopic, List.mem_singleton_self _,
        Field.stores_covered _ (copyTopicStores_inside _ 0 (by omega)) st hst⟩
    · cases hst
  | save => exact ⟨.magic, by decide, magicStores_covered _ st hst⟩
  | reset => exact resetStores_covered st hst

/-! ### The stores are what a command does -/

/-- An array that is stored as a whole. -/
theorem ArrayField.agrees_whole {f : Field} {n : Nat} (a : ArrayField f n) {c : SmartBellConfig}
    {m : Memory} (h : Agrees c m) (w : Vector UInt8 n) :
    Agrees (a.put w c) (m.perform (f.stores (storesAt 0 w.toList))) := by
  have hcells : storeCells (a.get c) (storesAt 0 w.toList) = w := by
    rw [storeCells_storesAt, overwriteAt_zero]
    apply Vector.ext
    intro i hi
    simp [hi]
  have hinside : ∀ st ∈ storesAt 0 w.toList, st.addr < n := storesAt_inside (by simp)
  have hstored := a.agrees h hinside
  rwa [hcells] at hstored

theorem ArrayField.agrees_parseIp {f : Field} (a : ArrayField f 4) {c : SmartBellConfig}
    {m : Memory} (h : Agrees c m) (arg : List UInt8) :
    Agrees (a.put (parseIp arg (a.get c)).2 c) (m.perform (f.stores (parseIpStores arg 0 0))) := by
  rw [← storeCells_parseIp]
  exact a.agrees h (parseIpStores_inside arg)

theorem ArrayField.agrees_copyTopic {f : Field} (a : ArrayField f 25) {c : SmartBellConfig}
    {m : Memory} (h : Agrees c m) (t : List UInt8) :
    Agrees (a.put (copyTopic t 0 (a.get c)) c) (m.perform (f.stores (copyTopicStores t 0))) := by
  rw [← storeCells_copyTopic]
  exact a.agrees h (copyTopicStores_inside t 0 (by omega))

theorem agrees_clientId {c : SmartBellConfig} {m : Memory} (h : Agrees c m) (id : List UInt8) :
    Agrees { c with clientId := (strncpy c.clientId id 15).set 15 0 (Nat.lt_add_one 15) }
      (m.perform (Field.clientId.stores (clientIdStores id))) := by
  rw [← storeCells_clientId]
  exact clientIdArray.agrees h (clientIdStores_inside id)

theorem agrees_brCommand (text : List UInt8) (s : ConfigStore) :
    Agrees (brCommand text s).store.config
      (Memory.perform s.config.image (brStores text s.config)) := by
  have haddress := brokerIpArray.agrees_parseIp (agrees_image s.config) (skipSpaces text)
  unfold brCommand brStores
  dsimp only
  cases afterSeparator (skipSpaces text) with
  | none => exact agrees_image s.config
  | some portText =>
    dsimp only
    split_ifs
    · cases parsePortU16 portText with
      | none => exact haddress
      | some port =>
        dsimp only
        rw [Memory.perform_append]
        exact agrees_portStores haddress port
    · exact haddress

theorem agrees_resetToDefaults (c : SmartBellConfig) :
    Agrees (resetToDefaults c) (Memory.perform c.image resetStores) := by
  have h₁ := brokerIpArray.agrees_whole (agrees_image c) #v[0, 0, 0, 0]
  have h₂ := agrees_portStores h₁ 1883
  have h₃ := agrees_clientId h₂ (ascii "smartbell")
  have h₄ := deviceIpArray.agrees_whole h₃ #v[192, 168, 1, 100]
  have h₅ := subnetArray.agrees_whole h₄ #v[255, 255, 255, 0]
  have h₆ := gatewayArray.agrees_whole h₅ #v[192, 168, 1, 1]
  have h₇ := macArray.agrees_whole h₆ #v[0x00, 0x08, 0xDC, 0xAB, 0xCD, 0xEF]
  have h₈ := agrees_magicStores h₇ magicWord
  simp only [← Memory.perform_append, List.append_assoc] at h₈
  exact h₈

/-- Performing the stores on the bytes of the record gives the new configuration. -/
theorem Command.run_agrees (cmd : Command) (s : ConfigStore) :
    Agrees (cmd.run s).store.config (Memory.perform s.config.image (cmd.stores s.config)) := by
  have hsame := agrees_image s.config
  cases cmd with
  | help | showConfig | reboot | unknown => exact hsame
  | ip arg => exact deviceIpArray.agrees_parseIp hsame arg
  | sn arg => exact subnetArray.agrees_parseIp hsame arg
  | gw arg => exact gatewayArray.agrees_parseIp hsame arg
  | br text => exact agrees_brCommand text s
  | id text =>
    simp only [Command.run, Command.stores, idCommand, idStores]
    split_ifs
    · rw [ConfigStore.config_say_withConfig]
      exact agrees_clientId hsame _
    · exact hsame
  | input arg =>
    simp only [Command.run, Command.stores, inputCommand, inputStores]
    split_ifs
    · exact input1TopicArray.agrees_copyTopic hsame _
    · exact input2TopicArray.agrees_copyTopic hsame _
    · exact hsame
  | gongSub arg =>
    simp only [Command.run, Command.stores, gongSubCommand, gongSubStores]
    split_ifs
    · exact gongBaseTopicArray.agrees_copyTopic hsame _
    · exact hsame
  | save => exact agrees_magicStores hsame magicWord
  | reset => exact agrees_resetToDefaults s.config

/-- What is not stored to keeps its value. -/
theorem Command.run_changesOnly (cmd : Command) (s : ConfigStore) :
    ChangesOnly cmd.fields s.config (cmd.run s).store.config := by
  intro f hf
  refine Field.same_of_image fun i hi => ?_
  have hsize : i < size := hi.2.trans_le f.inside_record
  rw [cmd.run_agrees s i hsize]
  refine Memory.perform_of_forall_ne fun st hst haddr => hf ?_
  obtain ⟨g, hg, hcover⟩ := cmd.stores_covered s.config st hst
  rw [haddr] at hcover
  rwa [Field.eq_of_covers hi hcover]

/-! ## Stored strings -/

/-- The array holds the C string, with its NUL inside. -/
def Spells {n : Nat} (v : Vector UInt8 n) (s : List UInt8) : Prop :=
  cstring v.toList = s ∧ Terminated v

/-- The text behind the keyword. -/
def Command.argument : Command → List UInt8
  | .ip arg | .sn arg | .gw arg | .br arg | .id arg | .input arg | .gongSub arg => arg
  | .help | .showConfig | .save | .reset | .reboot | .unknown => []

theorem Command.argument_ofText_subset (cmd : List UInt8) : (ofText cmd).argument ⊆ cmd := by
  have test (b : Prop) [Decidable b] (x y : Command) (hx : x.argument ⊆ cmd)
      (hy : y.argument ⊆ cmd) : (if b then x else y).argument ⊆ cmd := by
    split
    · exact hx
    · exact hy
  unfold ofText
  repeat' apply test
  all_goals simp only [Command.argument, List.drop_subset, List.nil_subset]

/-- The argument of a command is a C string. -/
theorem zero_not_mem_argument (text : List UInt8) : 0 ∉ (commandOf text).argument := by
  intro h
  have hmem : 0 ∈ skipSpaces (cstring text) := Command.argument_ofText_subset _ h
  exact zero_not_mem_cstring text ((List.dropWhile_suffix _).subset hmem)

theorem spells_clientId {id : List UInt8} (hnul : 0 ∉ id) (dest : Vector UInt8 16) :
    Spells ((strncpy dest id 15).set 15 0 (Nat.lt_add_one 15)) (id.take 15) := by
  refine ⟨?_, terminated_set_last _ (by omega)⟩
  have hshort : (id.take 15).length ≤ 15 := List.length_take_le 15 id
  refine cstring_toList_eq (fun h => hnul (List.mem_of_mem_take h)) (by omega) ?_ ?_
  · intro i hi
    have hi15 : i < 15 := hi.trans_le hshort
    have hid : i < id.length := by
      rw [List.length_take] at hi
      omega
    rw [Vector.getElem_set_ne _ _ (by omega), getElem_strncpy, if_pos hi15, cstring_eq_self hnul,
      List.getElem?_eq_getElem hid, Option.getD_some, List.getElem_take]
  · by_cases hlong : 15 ≤ id.length
    · have hlast : (id.take 15).length = 15 := by simp [hlong]
      simp [hlast]
    · have hlen : (id.take 15).length = id.length := by
        rw [List.length_take]
        omega
      have hcell : id.length < 15 := by omega
      simp only [hlen]
      rw [Vector.getElem_set_ne _ _ (by omega), getElem_strncpy, if_pos hcell,
        cstring_eq_self hnul, List.getElem?_eq_none le_rfl, Option.getD_none]

theorem spells_copyTopic {t : List UInt8} (hnul : 0 ∉ t) (dest : Vector UInt8 25) :
    Spells (copyTopic t 0 dest) (takenTopic t) := by
  refine ⟨?_, copyTopic_terminated t dest⟩
  rw [toList_copyTopic]
  exact cstring_append_nul
    (fun h => hnul ((List.takeWhile_prefix _).subset (List.mem_of_mem_take h))) _

theorem output_say_ne {s : ConfigStore} {msg msg' : List UInt8} (h : msg ≠ msg') :
    (s.say msg).output ≠ msg' := h

/-- An `id` command that reports success has stored its argument. -/
theorem idCommand_spells {arg : List UInt8} (hnul : 0 ∉ arg) (s : ConfigStore)
    (hset : (idCommand arg s).output = ascii "Client ID set\r\n") :
    Spells (idCommand arg s).store.config.clientId ((skipSpaces arg).take 15) := by
  have hid : 0 ∉ skipSpaces arg := fun h => hnul ((List.dropWhile_suffix _).subset h)
  unfold idCommand at hset ⊢
  dsimp only at hset ⊢
  split_ifs at hset ⊢
  · rw [ConfigStore.config_say_withConfig]
    exact spells_clientId hid _
  · exact absurd hset (output_say_ne (by decide))

theorem inputCommand_spells {arg : List UInt8} (hnul : 0 ∉ arg) (s : ConfigStore) :
    ((inputCommand arg s).output = ascii "Input 1 Topic set\r\n" →
      Spells (inputCommand arg s).store.config.input1Topic
        (takenTopic (skipSpaces (arg.drop 5)))) ∧
    ((inputCommand arg s).output = ascii "Input 2 Topic set\r\n" →
      Spells (inputCommand arg s).store.config.input2Topic
        (takenTopic (skipSpaces (arg.drop 5)))) := by
  have htopic : 0 ∉ skipSpaces (arg.drop 5) := fun h =>
    hnul (List.drop_subset 5 arg ((List.dropWhile_suffix _).subset h))
  unfold inputCommand
  dsimp only
  split_ifs
  · exact ⟨fun _ => spells_copyTopic htopic _,
      fun hset => absurd hset (output_say_ne (by decide))⟩
  · exact ⟨fun hset => absurd hset (output_say_ne (by decide)),
      fun _ => spells_copyTopic htopic _⟩
  · exact ⟨fun hset => absurd hset (output_say_ne (by decide)),
      fun hset => absurd hset (output_say_ne (by decide))⟩

theorem gongSubCommand_spells {arg : List UInt8} (hnul : 0 ∉ arg) (s : ConfigStore)
    (hset : (gongSubCommand arg s).output = ascii "Gong Base Topic set\r\n") :
    Spells (gongSubCommand arg s).store.config.gongBaseTopic (takenTopic (skipSpaces arg)) := by
  have htopic : 0 ∉ skipSpaces arg := fun h => hnul ((List.dropWhile_suffix _).subset h)
  unfold gongSubCommand at hset ⊢
  dsimp only at hset ⊢
  split_ifs at hset ⊢
  · exact spells_copyTopic htopic _
  · exact absurd hset (output_say_ne (by decide))

/-- What the string commands store when they report success. -/
structure StoresArgument (cmd : Command) (answer : Answer) : Prop where
  id : ∀ arg, cmd = .id arg → answer.output = ascii "Client ID set\r\n" →
    Spells answer.store.config.clientId ((skipSpaces arg).take 15)
  input1 : ∀ arg, cmd = .input arg → answer.output = ascii "Input 1 Topic set\r\n" →
    Spells answer.store.config.input1Topic (takenTopic (skipSpaces (arg.drop 5)))
  input2 : ∀ arg, cmd = .input arg → answer.output = ascii "Input 2 Topic set\r\n" →
    Spells answer.store.config.input2Topic (takenTopic (skipSpaces (arg.drop 5)))
  gongSub : ∀ arg, cmd = .gongSub arg → answer.output = ascii "Gong Base Topic set\r\n" →
    Spells answer.store.config.gongBaseTopic (takenTopic (skipSpaces arg))

theorem processCommand_storesArgument (text : List UInt8) (s : ConfigStore) :
    StoresArgument (commandOf text) (processCommand text s) := by
  have hnul := zero_not_mem_argument text
  unfold processCommand
  refine ⟨fun arg h => ?_, fun arg h => ?_, fun arg h => ?_, fun arg h => ?_⟩ <;>
    rw [h] at hnul ⊢
  · exact idCommand_spells hnul s
  · exact (inputCommand_spells hnul s).1
  · exact (inputCommand_spells hnul s).2
  · exact gongSubCommand_spells hnul s

/-- A command changes at most the fields it is about: `save` only the magic word, which it sets,
and none but `reset` the hardware address. A string command that reports success has stored its
argument. Everything is done by stores to the fields that the command is about. -/
theorem processCommand_effect (text : List UInt8) (s : ConfigStore) :
    let cmd := commandOf text
    let answer := processCommand text s
    ChangesOnly cmd.fields s.config answer.store.config ∧
      (cmd = .save → answer.store.config.magic = magicWord) ∧
      (cmd ≠ .reset → answer.store.config.mac = s.config.mac) ∧
      StoresArgument cmd answer ∧
      Agrees answer.store.config (Memory.perform s.config.image (cmd.stores s.config)) ∧
      ∀ st ∈ cmd.stores s.config, ∃ f ∈ cmd.fields, f.Covers st.addr := by
  intro cmd answer
  have hframe : ChangesOnly cmd.fields s.config answer.store.config := cmd.run_changesOnly s
  refine ⟨hframe, fun hsave => ?_, fun hreset => hframe .mac ?_, processCommand_storesArgument _ s,
    cmd.run_agrees s, cmd.stores_covered s.config⟩
  · have hanswer : answer = cmd.run s := rfl
    rw [hanswer, hsave]
    rfl
  · generalize cmd = command at hreset
    cases command with
    | reset => exact absurd rfl hreset
    | input arg =>
      simp only [Command.fields]
      split_ifs <;> decide
    | _ => simp [Command.fields]

end SmartBell.Config
