import SmartBell.App.Publications

/-!
# The line reader as a line editor

A line editor keeps the line that is being typed and nothing else. The line reader keeps it in
the first cells of a buffer that is never cleared, and passes on whatever is in front of the
first NUL there. `Console.line` is what the reader has of the line; a byte does to it what it
does in the editor, and so does a run of the main loop, wherever it looks at the UART.
-/
namespace SmartBell.App
open Common Config MQTT Attempt

/-! ## The editor -/

/-- The line after a byte, and the line that the byte hands over, if it does, as a C string. -/
def editByte (line : List UInt8) (c : UInt8) : List UInt8 × List (List UInt8) :=
  if c = chr '\r' ∨ c = chr '\n' then ([], if line = [] then [] else [cstring line])
  else if c = 0x08 ∨ c = 0x7F then (line.dropLast, [])
  else if line.length < 31 then (line ++ [c], [])
  else (line, [])

/-- The line after these bytes. -/
def editedLine (line bytes : List UInt8) : List UInt8 :=
  run (fun l c => (editByte l c).1) line bytes

/-- The lines that these bytes hand over. -/
def editedLines (line bytes : List UInt8) : List (List UInt8) :=
  outputs (fun l c => (editByte l c).1) (fun l c => (editByte l c).2) line bytes

theorem editedLines_append (line bytes bytes' : List UInt8) :
    editedLines line (bytes ++ bytes') =
      editedLines line bytes ++ editedLines (editedLine line bytes) bytes' :=
  outputs_append _ line bytes bytes'

/-! ## The reader -/

namespace Console

/-- What has been typed of the line. -/
def line (k : Console) : List UInt8 := k.cmdBuffer.toList.take k.cmdIndex

/-- The string that `process_command` is called with when a byte is read. -/
def passed (k : Console) (c : UInt8) : List (List UInt8) :=
  if k.running ∧ isLineEnd c ∧ 0 < k.cmdIndex then
    [cstring (k.cmdBuffer.toList.set k.cmdIndex 0)]
  else []

/-- The byte, if the reader is there to read it. -/
def read (k : Console) (c : UInt8) : List UInt8 := if k.running then [c] else []

/-- The cells of `cmd_buffer` that are touched when a byte is read: the one that is written, and
those of the string that `process_command` goes through, with its NUL. -/
def accesses (k : Console) (c : UInt8) : List Nat :=
  if !k.running then []
  else if isLineEnd c then
    if 0 < k.cmdIndex then
      k.cmdIndex :: List.range ((cstring (k.cmdBuffer.toList.set k.cmdIndex 0)).length + 1)
    else []
  else if isErase c then []
  else if k.cmdIndex < 31 then [k.cmdIndex]
  else []

variable {k : Console}

theorem length_line (k : Console) : k.line.length = k.cmdIndex := by
  have hle := k.cmdIndex_le
  simp [line]
  omega

theorem line_eq_nil_iff : k.line = [] ↔ k.cmdIndex = 0 := by
  rw [← k.length_line, List.length_eq_zero_iff]

/-- The buffer at the end of a line: the line, its NUL, and what earlier lines have left. -/
theorem toList_set_nul (k : Console) :
    k.cmdBuffer.toList.set k.cmdIndex 0 =
      k.line ++ 0 :: k.cmdBuffer.toList.drop (k.cmdIndex + 1) := by
  have hle := k.cmdIndex_le
  rw [List.set_eq_take_append_cons_drop, if_pos (by simp; omega)]
  rfl

/-- Nothing behind the line is passed on. -/
theorem cstring_set_nul (k : Console) :
    cstring (k.cmdBuffer.toList.set k.cmdIndex 0) = cstring k.line := by
  rw [toList_set_nul, List.append_cons, cstring_append_of_mem (by simp)]
  by_cases hnul : 0 ∈ k.line
  · exact cstring_append_of_mem hnul [0]
  · rw [cstring_append_nul hnul, cstring_eq_self hnul]

theorem isLineEnd_iff (c : UInt8) : isLineEnd c = true ↔ c = chr '\r' ∨ c = chr '\n' := by
  simp [isLineEnd]

theorem isErase_iff (c : UInt8) : isErase c = true ↔ c = 0x08 ∨ c = 0x7F := by
  simp [isErase]

/-- A reader passes on what the editor hands over. -/
theorem passed_eq (hrunning : k.running = true) (c : UInt8) :
    k.passed c = (editByte k.line c).2 := by
  unfold passed editByte
  simp only [hrunning, true_and, isLineEnd_iff, cstring_set_nul, line_eq_nil_iff]
  by_cases hend : c = chr '\r' ∨ c = chr '\n'
  · rw [if_pos hend]
    by_cases hempty : k.cmdIndex = 0
    · simp [hempty]
    · rw [if_pos ⟨hend, Nat.pos_of_ne_zero hempty⟩, if_neg hempty]
  · rw [if_neg fun h => hend h.1, if_neg hend]
    split_ifs <;> rfl

theorem line_endLine (h : k.endLine.running = true) : k.endLine.line = [] := by
  rw [line_eq_nil_iff]
  unfold endLine at h ⊢
  exact if_pos h

theorem line_erase (k : Console) : k.erase.line = k.line.dropLast := by
  have hlen := k.length_line
  rw [List.dropLast_eq_take, hlen]
  unfold line erase
  rw [List.take_take, Nat.min_eq_left (Nat.sub_le _ _)]

theorem line_push (c : UInt8) (hroom : k.cmdIndex < 31) :
    (k.push c hroom).line = k.line ++ [c] := by
  have hcell : k.cmdIndex < k.cmdBuffer.toList.length := by
    simp
    omega
  unfold line push
  dsimp only
  rw [Vector.toList_set, List.take_add_one, List.take_set_of_le le_rfl,
    List.getElem?_set_self hcell]
  rfl

/-- Read by a reader that goes on, a byte does to its line what it does in the editor. -/
theorem line_readByte (hrunning : k.running = true) {c : UInt8}
    (hnext : (k.readByte c).running = true) : (k.readByte c).line = (editByte k.line c).1 := by
  have hlen := k.length_line
  unfold readByte at hnext ⊢
  unfold editByte
  simp only [hrunning, Bool.not_true, Bool.false_eq_true, if_false, isLineEnd_iff, isErase_iff]
    at hnext ⊢
  by_cases hend : c = chr '\r' ∨ c = chr '\n'
  · simp only [if_pos hend] at hnext ⊢
    split_ifs at hnext ⊢ with hpos
    · exact line_endLine hnext
    · exact line_eq_nil_iff.mpr (by omega)
  · simp only [if_neg hend]
    by_cases herase : c = 0x08 ∨ c = 0x7F
    · simp only [if_pos herase]
      split_ifs with hpos
      · exact k.line_erase
      · have hempty : k.line = [] := line_eq_nil_iff.mpr (by omega)
        rw [hempty, List.dropLast_nil]
    · simp only [if_neg herase, hlen]
      split_ifs with hroom
      · exact line_push c hroom
      · rfl

/-- A reader that has stopped does not start again. -/
theorem readByte_of_stopped (hstopped : ¬k.running = true) (c : UInt8) : k.readByte c = k := by
  simp [readByte, hstopped]

/-! ### A stretch of bytes -/

/-- The strings that `process_command` is called with, over a stretch of bytes. -/
def linesPassed (k : Console) (bytes : List UInt8) : List (List UInt8) :=
  outputs readByte passed k bytes

/-- Those of the bytes that are read. -/
def bytesRead (k : Console) (bytes : List UInt8) : List UInt8 := outputs readByte read k bytes

theorem feed_of_stopped (hstopped : ¬k.running = true) (bytes : List UInt8) :
    k.feed bytes = k ∧ k.bytesRead bytes = [] ∧ k.linesPassed bytes = [] := by
  have hrun (c : UInt8) := readByte_of_stopped hstopped c
  induction bytes with
  | nil => exact ⟨rfl, rfl, rfl⟩
  | cons c bytes ih =>
    simp only [feed, List.foldl_cons, bytesRead, linesPassed, outputs, hrun] at ih ⊢
    rw [ih.1, ih.2.1, ih.2.2]
    simp [read, passed, hstopped]

/-- The commands that come of a byte are those of the string that is passed on. -/
theorem readByte_store (k : Console) (c : UInt8) :
    (k.readByte c).store = (k.passed c).foldl
      (fun store text => (processCommand text store).store) k.store := by
  have hcstring (text : List UInt8) (s : ConfigStore) :
      processCommand (cstring text) s = processCommand text s := by
    rw [processCommand, commandOf, cstring_eq_self (zero_not_mem_cstring text)]
    rfl
  have hle := k.cmdIndex_le
  have hset : (k.cmdBuffer.set k.cmdIndex 0 (by omega)).toList =
      k.cmdBuffer.toList.set k.cmdIndex 0 := Vector.toList_set _
  unfold readByte passed
  by_cases hrunning : k.running = true
  · by_cases hend : isLineEnd c = true
    · simp only [hrunning, hend, Bool.not_true, Bool.false_eq_true, if_false, if_true, true_and]
      split_ifs
      · rw [List.foldl_cons, List.foldl_nil, hcstring, ← hset]
        rfl
      · rfl
    · simp only [hrunning, hend, Bool.not_true, Bool.false_eq_true, if_false, false_and, and_false]
      split_ifs <;> rfl
  · simp [hrunning]

/-- The commands that come of a stretch of bytes are those of the lines passed on. -/
theorem feed_store (k : Console) (bytes : List UInt8) :
    (k.feed bytes).store = (k.linesPassed bytes).foldl
      (fun store text => (processCommand text store).store) k.store := by
  induction bytes generalizing k with
  | nil => rfl
  | cons c bytes ih =>
    have hrest := ih (k.readByte c)
    rw [readByte_store] at hrest
    simp only [linesPassed, outputs, List.foldl_append]
    exact hrest

/-- While the reader goes on, it reads everything and keeps the editor's line. -/
theorem feed_running {bytes : List UInt8} (hrunning : (k.feed bytes).running = true) :
    k.bytesRead bytes = bytes ∧ (k.feed bytes).line = editedLine k.line bytes := by
  induction bytes generalizing k with
  | nil => exact ⟨rfl, rfl⟩
  | cons c bytes ih =>
    have hlater : ((k.readByte c).feed bytes).running = true := hrunning
    have hnext : (k.readByte c).running = true := by
      by_contra hstopped
      rw [(feed_of_stopped hstopped bytes).1] at hlater
      exact hstopped hlater
    have hnow : k.running = true := by
      by_contra hstopped
      rw [readByte_of_stopped hstopped c] at hnext
      exact hstopped hnext
    obtain ⟨hread, hline⟩ := ih hlater
    rw [line_readByte hnow hnext] at hline
    refine ⟨?_, hline⟩
    have hfirst : k.read c = [c] := if_pos hnow
    rw [bytesRead, outputs, hfirst]
    exact congrArg (c :: ·) hread

/-- What the reader passes on is what the editor makes of the bytes that are read. -/
theorem linesPassed_eq (k : Console) (bytes : List UInt8) :
    k.linesPassed bytes = editedLines k.line (k.bytesRead bytes) := by
  induction bytes generalizing k with
  | nil => rfl
  | cons c bytes ih =>
    by_cases hnow : k.running = true
    · have hfirst : k.read c = [c] := if_pos hnow
      have hrest := ih (k.readByte c)
      rw [bytesRead, outputs, hfirst, List.singleton_append, linesPassed, outputs,
        passed_eq hnow]
      refine congrArg ((editByte k.line c).2 ++ ·) ?_
      by_cases hnext : (k.readByte c).running = true
      · rw [line_readByte hnow hnext] at hrest
        exact hrest
      · obtain ⟨_, hread, hlines⟩ := feed_of_stopped hnext bytes
        unfold bytesRead at hread
        unfold linesPassed at hlines
        rw [hread, hlines]
        rfl
    · obtain ⟨_, hread, hlines⟩ := feed_of_stopped hnow (c :: bytes)
      rw [hread, hlines]
      rfl

/-- What is read is what comes first. -/
theorem bytesRead_isPrefix (k : Console) (bytes : List UInt8) : k.bytesRead bytes <+: bytes := by
  induction bytes generalizing k with
  | nil => exact List.nil_prefix
  | cons c bytes ih =>
    by_cases hnow : k.running = true
    · have hfirst : k.read c = [c] := if_pos hnow
      rw [bytesRead, outputs, hfirst, List.singleton_append]
      exact (List.prefix_cons_inj c).mpr (ih (k.readByte c))
    · rw [(feed_of_stopped hnow (c :: bytes)).2.1]
      exact List.nil_prefix

/-- Every cell that is touched is one of the buffer. -/
theorem accesses_inside (k : Console) (c : UInt8) : ∀ i ∈ k.accesses c, i < 64 := by
  have hle := k.cmdIndex_le
  have hstring : (cstring (k.cmdBuffer.toList.set k.cmdIndex 0)).length ≤ k.cmdIndex := by
    rw [cstring_set_nul, ← k.length_line]
    exact (cstring_isPrefix k.line).length_le
  intro i hi
  unfold accesses at hi
  split_ifs at hi
  · cases hi
  · rcases List.mem_cons.mp hi with rfl | hread
    · omega
    · have hcell := List.mem_range.mp hread
      omega
  · cases hi
  · cases hi
  · obtain rfl := List.mem_singleton.mp hi
    omega
  · cases hi

/-- The cells that are touched over a stretch of bytes. -/
def cellsTouched (k : Console) (bytes : List UInt8) : List Nat := outputs readByte accesses k bytes

end Console

/-! ## What the rest of the loop leaves alone -/

/-- The line that is being typed is the same, and so is whether the reader goes on. -/
structure Firmware.SameLine (f f' : Firmware) : Prop where
  cmdBuffer : f'.console.cmdBuffer = f.console.cmdBuffer
  cmdIndex : f'.console.cmdIndex = f.console.cmdIndex
  running : f'.console.running = f.console.running

instance : IsPreorder Firmware Firmware.SameLine where
  refl _ := ⟨rfl, rfl, rfl⟩
  trans _ _ _ h h' :=
    ⟨h'.cmdBuffer.trans h.cmdBuffer, h'.cmdIndex.trans h.cmdIndex, h'.running.trans h.running⟩

theorem Firmware.SameLine.line {f f' : Firmware} (h : f.SameLine f') :
    f'.console.line = f.console.line := by
  rw [Console.line, h.cmdBuffer, h.cmdIndex]
  rfl

section SameLine
variable {d : Driver}

theorem client_sameLine {α : Type} (x : Attempt (Session Unit) α) :
    Moves Firmware.SameLine (Firmware.client x) := fun _ => ⟨rfl, rfl, rfl⟩

theorem openSession_sameLine : Moves Firmware.SameLine (openSession d) :=
  .bind .read fun _ => .bind (client_sameLine _) fun _ => .ite
    (fun _ => .bind (client_sameLine _) fun _ => .pure true) fun _ => .pure false

theorem retryConnect_sameLine : Moves Firmware.SameLine (retryConnect d) :=
  .bind .read fun _ => .ite
    (fun _ => .bind (fun _ => ⟨rfl, rfl, rfl⟩) fun _ => openSession_sameLine) fun _ => .pure false

theorem saveConnect_sameLine : Moves Firmware.SameLine (saveConnect d) :=
  .bind .read fun _ => .bind (fun _ => ⟨rfl, rfl, rfl⟩) fun _ => .ite
    (fun _ => .bind (fun _ => ⟨rfl, rfl, rfl⟩) fun _ => .ite (fun _ => openSession_sameLine)
      fun _ => .pure false) fun _ => .pure false

theorem boot_sameLine (pind : UInt8) : Moves Firmware.SameLine (boot d pind) :=
  .bind (.bind .read fun _ => .ite (fun _ => openSession_sameLine) fun _ => .pure false)
    fun opened => .bind (fun _ => ⟨rfl, rfl, rfl⟩) fun _ => .pure opened

theorem chimeRound_sameLine (i : ChimeId) (pind : UInt8) :
    Moves Firmware.SameLine (chimeRound d i pind) :=
  .bind .read fun _ => .bind (client_sameLine _) fun _ _ => ⟨rfl, rfl, rfl⟩

theorem clientRound_sameLine : Moves Firmware.SameLine (clientRound d) :=
  .bind (client_sameLine _) fun _ _ => ⟨rfl, rfl, rfl⟩

theorem delayRound_sameLine (elapsed : Nat) : Moves Firmware.SameLine (delayRound elapsed) := by
  intro f
  simp only [delayRound, modify_apply]
  split_ifs <;> exact ⟨rfl, rfl, rfl⟩

end SameLine

theorem consoleRound_apply (uart : List UInt8) (f : Firmware) :
    consoleRound uart f =
      (if (f.console.feed uart).running then some () else none,
        { f with console := f.console.feed uart }) := by
  simp only [consoleRound, bind_apply, modify_apply, read_apply, Attempt.require,
    Attempt.ite_apply]
  split_ifs <;> rfl

/-! ## Runs of the main loop -/

/-- The characters that wait at the UART when the part looks there. -/
def Stage.uart : Stage → List UInt8
  | .console uart => uart
  | _ => []

/-- The strings that `process_command` is called with in a part, if the run gets there. -/
def passedBy (o : Option Unit × Firmware) (st : Stage) : List (List UInt8) :=
  if o.1.isSome then o.2.console.linesPassed st.uart else []

def readBy (o : Option Unit × Firmware) (st : Stage) : List UInt8 :=
  if o.1.isSome then o.2.console.bytesRead st.uart else []

def touchedBy (o : Option Unit × Firmware) (st : Stage) : List Nat :=
  if o.1.isSome then o.2.console.cellsTouched st.uart else []

/-- A part other than the reader reads nothing and leaves the line alone. -/
theorem perform_sameLine (d : Driver) {st : Stage} (hst : ∀ uart, st ≠ .console uart)
    (f : Firmware) : f.SameLine (st.perform d f).2 ∧ st.uart = [] := by
  cases st with
  | boot pind => exact ⟨Moves.bind (boot_sameLine pind) (fun _ => .pure ()) f, rfl⟩
  | watchdog => exact ⟨client_sameLine _ f, rfl⟩
  | client => exact ⟨clientRound_sameLine f, rfl⟩
  | retry => exact ⟨Moves.bind retryConnect_sameLine (fun _ => .pure ()) f, rfl⟩
  | save => exact ⟨Moves.bind saveConnect_sameLine (fun _ => .pure ()) f, rfl⟩
  | chime i pind => exact ⟨chimeRound_sameLine i pind f, rfl⟩
  | console uart => exact absurd rfl (hst uart)
  | delay elapsed => exact ⟨delayRound_sameLine elapsed f, rfl⟩

section Lines
variable (d : Driver)

/-- Nothing comes of the parts behind the one that stopped. -/
theorem outputs_stopped {ω : Type} {out : Option Unit × Firmware → Stage → List ω}
    (hout : ∀ f st, out (none, f) st = []) (f : Firmware) (es : List Stage) :
    outputs (next (Stage.perform d)) out (none, f) es = [] := by
  induction es with
  | nil => rfl
  | cons st es ih =>
    rw [outputs, hout, List.nil_append]
    exact ih

/-- One part of the loop, with the reader running: it passes on what the editor makes of the bytes
that it reads, and either reads all and leaves the editor's line, or is the last part. -/
theorem next_line {f : Firmware} (hnow : f.console.running = true) (st : Stage) :
    passedBy (some (), f) st = editedLines f.console.line (readBy (some (), f) st) ∧
      ((readBy (some (), f) st = st.uart ∧
          (next (Stage.perform d) (some (), f) st).2.console.running = true ∧
          (next (Stage.perform d) (some (), f) st).2.console.line =
            editedLine f.console.line st.uart) ∨
        ((next (Stage.perform d) (some (), f) st).1 = none ∧
          readBy (some (), f) st <+: st.uart)) := by
  by_cases hconsole : ∃ uart, st = .console uart
  · obtain ⟨uart, rfl⟩ := hconsole
    have hstep : next (Stage.perform d) (some (), f) (.console uart) = consoleRound uart f := rfl
    refine ⟨f.console.linesPassed_eq uart, ?_⟩
    rw [hstep, consoleRound_apply]
    by_cases hnext : (f.console.feed uart).running = true
    · obtain ⟨hall, hline⟩ := Console.feed_running hnext
      exact .inl ⟨hall, hnext, hline⟩
    · exact .inr ⟨if_neg hnext, f.console.bytesRead_isPrefix uart⟩
  · obtain ⟨hsame, huart⟩ := perform_sameLine d (fun uart h => hconsole ⟨uart, h⟩) f
    have hread : readBy (some (), f) st = [] := by
      rw [readBy, huart]
      rfl
    have hpassed : passedBy (some (), f) st = [] := by
      rw [passedBy, huart]
      rfl
    rw [hread, hpassed, huart]
    exact ⟨rfl, .inl ⟨rfl, hsame.running.trans hnow, hsame.line⟩⟩

/-- Over a run the reader passes on what the editor makes of the bytes that are read. -/
theorem lines_eq (o : Option Unit × Firmware) (es : List Stage)
    (hrunning : o.1.isSome → o.2.console.running = true) :
    outputs (next (Stage.perform d)) passedBy o es =
      editedLines o.2.console.line (outputs (next (Stage.perform d)) readBy o es) := by
  induction es generalizing o with
  | nil => rfl
  | cons st es ih =>
    obtain ⟨_ | _, f⟩ := o
    · rw [outputs_stopped d (fun _ _ => rfl), outputs_stopped d (fun _ _ => rfl)]
      rfl
    · obtain ⟨hpassed, ⟨hall, hgoing, hline⟩ | ⟨hlast, _⟩⟩ := next_line d (hrunning rfl) st
      · rw [outputs, outputs, hpassed, hall, editedLines_append, ih _ fun _ => hgoing, hline]
      · have hnext : next (Stage.perform d) (some (), f) st = (none, _) := Prod.ext hlast rfl
        rw [outputs, outputs, hpassed, hnext, outputs_stopped d (fun _ _ => rfl),
          outputs_stopped d (fun _ _ => rfl), List.append_nil, List.append_nil]

/-- The bytes that are read come first among those delivered, and are all of them if the run
comes to its end. -/
theorem bytes_read (o : Option Unit × Firmware) (es : List Stage)
    (hrunning : o.1.isSome → o.2.console.running = true) :
    outputs (next (Stage.perform d)) readBy o es <+: es.flatMap Stage.uart ∧
      ((run (next (Stage.perform d)) o es).1.isSome →
        outputs (next (Stage.perform d)) readBy o es = es.flatMap Stage.uart) := by
  induction es generalizing o with
  | nil => exact ⟨List.prefix_rfl, fun _ => rfl⟩
  | cons st es ih =>
    obtain ⟨_ | _, f⟩ := o
    · rw [outputs_stopped d (fun _ _ => rfl), run_next_stopped]
      exact ⟨List.nil_prefix, fun h => absurd h Bool.false_ne_true⟩
    · rw [outputs, run_cons, List.flatMap_cons]
      obtain ⟨_, ⟨hall, hgoing, _⟩ | ⟨hlast, hpart⟩⟩ := next_line d (hrunning rfl) st
      · obtain ⟨hconsumed, hend⟩ := ih _ fun _ => hgoing
        rw [hall]
        exact ⟨(List.prefix_append_right_inj st.uart).mpr hconsumed,
          fun h => congrArg (st.uart ++ ·) (hend h)⟩
      · have hnext : next (Stage.perform d) (some (), f) st = (none, _) := Prod.ext hlast rfl
        rw [hnext, outputs_stopped d (fun _ _ => rfl), run_next_stopped, List.append_nil]
        exact ⟨hpart.trans (List.prefix_append _ _), fun h => absurd h Bool.false_ne_true⟩

/-- The characters that the rounds of a run find at the UART. -/
theorem stages_uart (pind : UInt8) (rs : List Round) :
    (stages pind rs).flatMap Stage.uart = rs.flatMap (·.uart) := by
  rw [stages, List.flatMap_cons, List.flatMap_assoc]
  refine List.flatMap_congr fun r _ => ?_
  simp [Round.stages, Stage.uart]

/-- Over any run from boot, however the bytes are spread over its rounds, the strings passed to
`process_command` are those of the reference editor on the bytes that are read: all that were
delivered, unless a command does not return or the run ends elsewhere. Every cell of `cmd_buffer`
that is touched is one of its 64. -/
theorem reader_refines_editor (eeprom : Memory) (portB pind : UInt8) (chip : Chip)
    (rs : List Round) :
    let o := (some (), Firmware.loaded eeprom portB chip)
    let main := next (Stage.perform d)
    let es := stages pind rs
    outputs main passedBy o es = editedLines [] (outputs main readBy o es) ∧
      outputs main readBy o es <+: rs.flatMap (·.uart) ∧
      ((mainRun d pind rs o.2).1.isSome →
        outputs main passedBy o es = editedLines [] (rs.flatMap (·.uart))) ∧
      ∀ i ∈ outputs main touchedBy o es, i < 64 := by
  intro o main es
  have hrunning : o.1.isSome → o.2.console.running = true := fun _ => rfl
  have hlines : outputs main passedBy o es = editedLines [] (outputs main readBy o es) :=
    lines_eq d o es hrunning
  obtain ⟨hconsumed, hend⟩ := bytes_read d o es hrunning
  rw [stages_uart] at hconsumed hend
  refine ⟨hlines, hconsumed, fun hfinished => ?_, ?_⟩
  · have hperformed := congrArg Prod.fst (mainRun_performs d pind rs o.2)
    have hlast : (run main o es).1.isSome := by
      rw [← hperformed, Option.isSome_map]
      exact hfinished
    rw [hlines, hend hlast]
  · refine forall_mem_outputs (fun o st i hi => ?_) o es
    unfold touchedBy at hi
    split_ifs at hi
    · exact forall_mem_outputs (fun k c => k.accesses_inside c) _ _ i hi
    · cases hi

end Lines
end SmartBell.App
