import SmartBell.Config.WellFormed

/-!
# The console line reader

The main loop collects characters in `cmd_buffer` and hands the line to the
configuration when it ends. The reader takes no more than 31 characters of a line, less
than the buffer and less than a topic command with a topic of the full 24 characters.
-/
namespace SmartBell.App
open Common Config

/-- `cmd_buffer`, `cmd_index` and what the reader works on. `running` is false once a
command did not return. -/
structure Console where
  cmdBuffer : Vector UInt8 64
  cmdIndex : Nat
  cmdIndex_le : cmdIndex ≤ 31
  store : ConfigStore
  output : List UInt8
  running : Bool

namespace Console

/-- The reader at power-up. -/
def start (store : ConfigStore) : Console :=
  ⟨Vector.replicate 64 0, 0, by omega, store, [], true⟩

def isLineEnd (c : UInt8) : Bool := c == chr '\r' || c == chr '\n'

def isErase (c : UInt8) : Bool := c == 0x08 || c == 0x7F

/-- Terminate the collected line and process it. -/
def endLine (k : Console) : Console :=
  let cmdBuffer := k.cmdBuffer.set k.cmdIndex 0 (by have := k.cmdIndex_le; omega)
  let answer := processCommand cmdBuffer.toList k.store
  { cmdBuffer, store := answer.store, running := answer.returns
    cmdIndex := if answer.returns then 0 else k.cmdIndex
    cmdIndex_le := by have := k.cmdIndex_le; split <;> omega
    output := k.output ++ ascii "\r\n" ++ answer.output }

def erase (k : Console) : Console :=
  { k with
    cmdIndex := k.cmdIndex - 1
    cmdIndex_le := by have := k.cmdIndex_le; omega
    output := k.output ++ [0x08, chr ' ', 0x08] }

/-- Store a character and echo it. -/
def push (k : Console) (c : UInt8) (h : k.cmdIndex < 31) : Console :=
  { k with
    cmdBuffer := k.cmdBuffer.set k.cmdIndex c
    cmdIndex := k.cmdIndex + 1
    cmdIndex_le := h
    output := k.output ++ cstring [c] }

/-- One round of the UART parser. -/
def readByte (k : Console) (c : UInt8) : Console :=
  if !k.running then k
  else if isLineEnd c then if 0 < k.cmdIndex then k.endLine else k
  else if isErase c then if 0 < k.cmdIndex then k.erase else k
  else if h : k.cmdIndex < 31 then k.push c h
  else k

def feed (k : Console) (bytes : List UInt8) : Console := bytes.foldl readByte k

/-! ## What the buffer holds -/

/-- A running reader that has collected `typed`. -/
structure Holds (k : Console) (typed : List UInt8) : Prop where
  running : k.running = true
  index : k.cmdIndex = typed.length
  cells : ∀ (i : Nat) (h : i < typed.length), k.cmdBuffer[i]? = some typed[i]

/-- Characters that the reader stores, and of which a C string can consist. -/
def isPlain (c : UInt8) : Bool := !isLineEnd c && !isErase c && c != 0

variable {k : Console} {typed : List UInt8}

/-- A stored character extends the line, up to 31 characters. -/
theorem Holds.readByte (h : k.Holds typed) {c : UInt8} (hc : isPlain c) :
    (k.readByte c).Holds ((typed ++ [c]).take 31) ∧ (k.readByte c).store = k.store := by
  have hle := k.cmdIndex_le
  have hindex := h.index
  obtain ⟨hend, herase⟩ : isLineEnd c = false ∧ isErase c = false := by
    simp only [isPlain] at hc
    grind
  unfold Console.readByte
  simp only [h.running, hend, herase, Bool.not_true, Bool.false_eq_true, if_false]
  split_ifs with hroom
  · have htake : (typed ++ [c]).take 31 = typed ++ [c] := by
      rw [List.take_of_length_le]
      simp
      omega
    refine ⟨⟨h.running, ?_, ?_⟩, rfl⟩
    · simp [push, htake, hindex]
    · rw [htake]
      intro i hi
      rcases Nat.lt_or_ge i typed.length with hold | hnew
      · have hne : k.cmdIndex ≠ i := by omega
        simpa [push, Vector.getElem?_set, hne, List.getElem_append_left hold] using
          h.cells i hold
      · obtain rfl : i = typed.length := by simp at hi; omega
        simp [push, hindex]
  · have htake : (typed ++ [c]).take 31 = typed := by
      rw [List.take_append_of_le_length (by omega), List.take_of_length_le (by omega)]
    rw [htake]
    exact ⟨h, rfl⟩

/-- A whole run of characters: what is past the 31st is dropped. -/
theorem Holds.feed (h : k.Holds typed) {text : List UInt8} (htext : ∀ c ∈ text, isPlain c) :
    (k.feed text).Holds ((typed ++ text).take 31) ∧ (k.feed text).store = k.store := by
  induction text generalizing k typed with
  | nil =>
    have hlen : typed.length ≤ 31 := h.index ▸ k.cmdIndex_le
    simpa [Console.feed, List.take_of_length_le hlen] using h
  | cons c text ih =>
    have hstep := h.readByte (htext c List.mem_cons_self)
    have hrest := ih hstep.1 fun d hd => htext d (List.mem_cons_of_mem _ hd)
    have hline : ((typed ++ [c]).take 31 ++ text).take 31 = (typed ++ c :: text).take 31 := by
      rw [List.append_cons typed c text]
      generalize typed ++ [c] = head
      rw [List.take_append, List.take_append, List.take_take, List.length_take]
      rcases Nat.lt_or_ge head.length 31 with hlt | hge
      · simp [Nat.min_eq_right hlt.le]
      · simp [Nat.min_eq_left hge, Nat.sub_eq_zero_of_le hge]
    rw [hline] at hrest
    exact ⟨hrest.1, hrest.2.trans hstep.2⟩

/-- The end of a line runs the command that the buffer spells. -/
theorem Holds.endLine (h : k.Holds typed) (hne : typed ≠ []) (hplain : ∀ c ∈ typed, c ≠ 0) :
    (k.readByte (chr '\r')).store = (processCommand typed k.store).store := by
  have hle := k.cmdIndex_le
  have hindex := h.index
  have hpos : 0 < k.cmdIndex := hindex ▸ List.length_pos_iff.mpr hne
  have hbuffer : cstring (k.cmdBuffer.set k.cmdIndex 0).toList = typed := by
    refine cstring_toList_eq (fun h0 => hplain 0 h0 rfl) (by omega) (fun i hi => ?_) ?_
    · have hcell := h.cells i hi
      have hi64 : i < 64 := by omega
      rw [Vector.getElem?_eq_getElem hi64, Option.some.injEq] at hcell
      rw [Vector.getElem_set_ne _ _ (by omega), hcell]
    · simp [hindex]
  have hzero : cstring typed = typed := cstring_eq_self fun h0 => hplain 0 h0 rfl
  have hend : k.readByte (chr '\r') = k.endLine := by
    simp [Console.readByte, h.running, isLineEnd, hpos]
  simp only [hend, Console.endLine, processCommand, commandOf, hbuffer, hzero]

end Console

/-! ## Topic commands -/

/-- The console commands that store a topic. -/
inductive TopicCommand where
  | input1 | input2 | gongSub
  deriving DecidableEq, Repr

namespace TopicCommand

/-- What is typed in front of the topic. -/
def keyword : TopicCommand → List UInt8
  | input1 => ascii "input 1 pt "
  | input2 => ascii "input 2 pt "
  | gongSub => ascii "gong sub "

def topic (c : SmartBellConfig) : TopicCommand → Vector UInt8 25
  | input1 => c.input1Topic
  | input2 => c.input2Topic
  | gongSub => c.gongBaseTopic

def withTopic (c : SmartBellConfig) (topic : Vector UInt8 25) : TopicCommand → SmartBellConfig
  | input1 => { c with input1Topic := topic }
  | input2 => { c with input2Topic := topic }
  | gongSub => { c with gongBaseTopic := topic }

/-- The characters of a topic that the reader still takes behind the keyword. -/
def room (cmd : TopicCommand) : Nat := 31 - cmd.keyword.length

end TopicCommand

/-- A printable ASCII character other than the space. -/
def isTopicChar (c : UInt8) : Bool := 0x21 ≤ c && c ≤ 0x7E

theorem isPlain_of_isTopicChar {c : UInt8} (h : isTopicChar c) : Console.isPlain c := by
  have hlow : 0x21 ≤ c ∧ c ≤ 0x7E := by simpa [isTopicChar] using h
  simp only [UInt8.le_iff_toNat_le] at hlow
  simp [Console.isPlain, Console.isLineEnd, Console.isErase, chr, ← UInt8.toNat_inj] at *
  omega

theorem not_endsLine_of_isTopicChar {c : UInt8} (h : isTopicChar c) : endsLine c = false := by
  have hplain := isPlain_of_isTopicChar h
  simp only [Console.isPlain, Console.isLineEnd] at hplain
  simp only [endsLine]
  grind

theorem ne_zero_of_isTopicChar {c : UInt8} (h : isTopicChar c) : c ≠ 0 := by
  have hplain := isPlain_of_isTopicChar h
  simp only [Console.isPlain] at hplain
  grind

theorem skipSpaces_topic {t : List UInt8} (ht : ∀ c ∈ t, isTopicChar c) : skipSpaces t = t := by
  cases t with
  | nil => rfl
  | cons c t =>
    have hc : c ≠ chr ' ' := by
      rintro rfl
      exact absurd (ht _ List.mem_cons_self) (by decide)
    simp [skipSpaces, hc]

theorem hasTopic_topic {t : List UInt8} (hne : t ≠ []) (ht : ∀ c ∈ t, isTopicChar c) :
    hasTopic t = true := by
  cases t with
  | nil => contradiction
  | cons c t => simp [hasTopic, not_endsLine_of_isTopicChar (ht c List.mem_cons_self)]

/-- A topic of at most 24 characters is copied as it stands. -/
theorem cstring_copyTopic {t : List UInt8} (ht : ∀ c ∈ t, isTopicChar c) (hlen : t.length ≤ 24)
    (dest : Vector UInt8 25) : cstring (copyTopic t 0 dest).toList = t := by
  have hwhole : takenTopic t = t := by
    rw [takenTopic, List.takeWhile_eq_self_iff.mpr, List.take_of_length_le hlen]
    intro c hc
    simp [not_endsLine_of_isTopicChar (ht c hc)]
  rw [toList_copyTopic, hwhole]
  exact cstring_append_nul (fun h0 => ne_zero_of_isTopicChar (ht 0 h0) rfl) _

/-- A topic command stores its topic and touches nothing else. -/
theorem processCommand_topic (cmd : TopicCommand) {t : List UInt8} (hne : t ≠ [])
    (ht : ∀ c ∈ t, isTopicChar c) (s : ConfigStore) :
    (processCommand (cmd.keyword ++ t) s).store.config =
      cmd.withTopic s.config (copyTopic t 0 (cmd.topic s.config)) := by
  have hskip := skipSpaces_topic ht
  have htopic := hasTopic_topic hne ht
  have hzero : 0 ∉ t := fun h0 => ne_zero_of_isTopicChar (ht 0 h0) rfl
  have hkeyword : cstring (cmd.keyword ++ t) = cmd.keyword ++ t := by
    refine cstring_eq_self fun h0 => ?_
    cases cmd <;> simp [TopicCommand.keyword, ascii, hzero] at h0
  rw [processCommand, commandOf, hkeyword]
  cases cmd with
  | input1 =>
    have hcmd : Command.ofText (skipSpaces (TopicCommand.keyword .input1 ++ t)) =
      .input (ascii "1 pt " ++ t) := rfl
    have hargs : (ascii "1 pt ").isPrefixOf (ascii "1 pt " ++ t) = true := rfl
    have hdrop : (ascii "1 pt " ++ t).drop 5 = t := rfl
    simp [hcmd, Command.run, inputCommand, hargs, hdrop, hskip, htopic, TopicCommand.withTopic,
      TopicCommand.topic, ConfigStore.say, ConfigStore.withConfig]
  | input2 =>
    have hcmd : Command.ofText (skipSpaces (TopicCommand.keyword .input2 ++ t)) =
      .input (ascii "2 pt " ++ t) := rfl
    have hfirst : (ascii "1 pt ").isPrefixOf (ascii "2 pt " ++ t) = false := rfl
    have hargs : (ascii "2 pt ").isPrefixOf (ascii "2 pt " ++ t) = true := rfl
    have hdrop : (ascii "2 pt " ++ t).drop 5 = t := rfl
    simp [hcmd, Command.run, inputCommand, hfirst, hargs, hdrop, hskip, htopic,
      TopicCommand.withTopic, TopicCommand.topic, ConfigStore.say, ConfigStore.withConfig]
  | gongSub =>
    have hcmd : Command.ofText (skipSpaces (TopicCommand.keyword .gongSub ++ t)) =
      .gongSub t := rfl
    simp [hcmd, Command.run, gongSubCommand, hskip, htopic, TopicCommand.withTopic,
      TopicCommand.topic, ConfigStore.say, ConfigStore.withConfig]

/-! ## Typing a topic -/

/-- Typing the command makes the C string in its array `t` and changes nothing else. -/
def StoredAsTyped (cmd : TopicCommand) (t : List UInt8) (k : Console) : Prop :=
  let after := (k.feed (cmd.keyword ++ t ++ [chr '\r'])).store.config
  cstring (cmd.topic after).toList = t ∧
    after = cmd.withTopic k.store.config (cmd.topic after)

instance (cmd : TopicCommand) (t : List UInt8) (k : Console) : Decidable (StoredAsTyped cmd t k) :=
  inferInstanceAs (Decidable (_ ∧ _))

theorem TopicCommand.keyword_plain (cmd : TopicCommand) : ∀ c ∈ cmd.keyword, Console.isPlain c := by
  cases cmd <;> decide +kernel

theorem TopicCommand.topic_withTopic (cmd : TopicCommand) (c : SmartBellConfig)
    (topic : Vector UInt8 25) : cmd.topic (cmd.withTopic c topic) = topic := by
  cases cmd <;> rfl

theorem TopicCommand.room_bounds (cmd : TopicCommand) :
    cmd.keyword.length + cmd.room = 31 ∧ 0 < cmd.room ∧ cmd.room ≤ 24 := by
  cases cmd <;> decide

/-- What typing a topic command stores: the characters there is room for. -/
theorem feed_topic (cmd : TopicCommand) {t : List UInt8} (hne : t ≠ [])
    (ht : ∀ c ∈ t, isTopicChar c) {k : Console} (hrunning : k.running = true)
    (hempty : k.cmdIndex = 0) :
    (k.feed (cmd.keyword ++ t ++ [chr '\r'])).store.config =
      cmd.withTopic k.store.config (copyTopic (t.take cmd.room) 0 (cmd.topic k.store.config)) := by
  obtain ⟨hlen, hpos, _⟩ := cmd.room_bounds
  have hstart : k.Holds [] := ⟨hrunning, hempty, fun i hi => absurd hi (by simp)⟩
  have hplain : ∀ c ∈ cmd.keyword ++ t, Console.isPlain c := fun c hc =>
    (List.mem_append.mp hc).elim (cmd.keyword_plain c) fun hc => isPlain_of_isTopicChar (ht c hc)
  obtain ⟨hheld, hstore⟩ := hstart.feed hplain
  have hline : ([] ++ (cmd.keyword ++ t)).take 31 = cmd.keyword ++ t.take cmd.room := by
    rw [List.nil_append, List.take_append, List.take_of_length_le (by omega)]
    congr 2
  rw [hline] at hheld
  have htaken : ∀ c ∈ t.take cmd.room, isTopicChar c := fun c hc => ht c (List.mem_of_mem_take hc)
  have htakenNe : t.take cmd.room ≠ [] := by
    simp [List.take_eq_nil_iff, hne, hpos.ne']
  have hend := hheld.endLine (by simp [htakenNe]) fun c hc => by
    have := hplain c (List.mem_append.mpr ((List.mem_append.mp hc).imp id List.mem_of_mem_take))
    simp only [Console.isPlain] at this
    grind
  rw [Console.feed, List.foldl_append]
  exact (congrArg ConfigStore.config hend).trans
    ((processCommand_topic cmd htakenNe htaken _).trans (by rw [hstore]))

/-- A topic is stored as it was typed exactly if it fits behind the keyword into the 31
characters of a line. -/
theorem storedAsTyped_iff (cmd : TopicCommand) (t : List UInt8) (hne : t ≠ [])
    (ht : ∀ c ∈ t, isTopicChar c) (k : Console) (hrunning : k.running = true)
    (hempty : k.cmdIndex = 0) :
    StoredAsTyped cmd t k ↔ t.length ≤ cmd.room := by
  have hstored := feed_topic cmd hne ht hrunning hempty
  have htaken : ∀ c ∈ t.take cmd.room, isTopicChar c := fun c hc => ht c (List.mem_of_mem_take hc)
  have hroom := cmd.room_bounds
  have hcopy := cstring_copyTopic htaken (by simp; omega) (cmd.topic k.store.config)
  simp only [StoredAsTyped, hstored, TopicCommand.topic_withTopic, hcopy, and_true]
  simp

theorem storedAsTyped_klingel :
    StoredAsTyped .gongSub (ascii "haus/klingel") (.start (.boot fun _ => 0xFF)) :=
  (storedAsTyped_iff .gongSub (ascii "haus/klingel") (by decide) (by decide +kernel) _ rfl
    rfl).mpr (by decide)

/-- A topic of 22 characters loses its last two on the way through the reader. -/
theorem not_storedAsTyped :
    ¬StoredAsTyped .input1 (ascii "haus/eingang/klingel/1") (.start (.boot fun _ => 0xFF)) := by
  decide +kernel

end SmartBell.App
