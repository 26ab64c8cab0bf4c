import SmartBell.Common.Rounds
import SmartBell.Config.UARTCommandParser

/-!
# The command buffer of `UARTCommandParser`

`process` takes one byte of the UART at a time and keeps the line in a buffer that it clears behind
itself. The buffer carries what `parse_command` relies on: the characters in front of the index are
printable, and behind it there is nothing but NULs. To everything that it works with it is a line
editor that keeps the line and nothing else.
-/
namespace SmartBell.Config.UARTCommandParser
open Common

/-- What `process` works with: beside the console the receiver of the UART, which has a byte or has
none, its transmitter, the stack under `parse_command` and the flag that a reboot was asked for. -/
structure Terminal (m : Type → Type) extends Console m where
  receive : m (Option UInt8)
  send : UInt8 → m Unit
  stack : m (Vector UInt8 80)
  rebootRequested : m Bool

/-- The characters that get into a line. -/
def Printable (c : UInt8) : Prop := 0x20 ≤ c ∧ c < 0x7F

instance : DecidablePred Printable := fun _ => inferInstanceAs (Decidable (_ ∧ _))

def IsErase (c : UInt8) : Prop := c = 0x08 ∨ c = 0x7F

instance : DecidablePred IsErase := fun _ => inferInstanceAs (Decidable (_ ∨ _))

def IsLineEnd (c : UInt8) : Prop := c = chr '\r' ∨ c = chr '\n'

instance : DecidablePred IsLineEnd := fun _ => inferInstanceAs (Decidable (_ ∨ _))

/-! ## The buffer -/

/-- `command_buffer_` and `buffer_index_`. -/
structure CommandBuffer where
  commandBuffer : Vector UInt8 80
  bufferIndex : Nat
  bufferIndex_lt : bufferIndex < 80
  typed : ∀ c ∈ commandBuffer.toList.take bufferIndex, Printable c
  cleared : ∀ c ∈ commandBuffer.toList.drop bufferIndex, c = 0

namespace CommandBuffer

def start : CommandBuffer where
  commandBuffer := Vector.replicate 80 0
  bufferIndex := 0
  bufferIndex_lt := by decide
  typed := by simp
  cleared := by simp

theorem toList_set (v : Vector UInt8 80) {i : Nat} (hi : i < 80) (c : UInt8) :
    (v.set i c hi).toList = v.toList.take i ++ c :: v.toList.drop (i + 1) := by
  rw [Vector.toList_set, List.set_eq_take_append_cons_drop, if_pos (by simpa using hi)]

theorem take_toList_set (v : Vector UInt8 80) {i : Nat} (hi : i < 80) (c : UInt8) :
    (v.set i c hi).toList.take (i + 1) = v.toList.take i ++ [c] := by
  have hlength : (v.toList.take i).length = i := by simpa using hi.le
  rw [toList_set, List.take_append, hlength, Nat.add_sub_cancel_left,
    List.take_of_length_le (by omega)]
  rfl

theorem drop_toList_set (v : Vector UInt8 80) {i : Nat} (hi : i < 80) (c : UInt8) :
    (v.set i c hi).toList.drop i = c :: v.toList.drop (i + 1) := by
  have hlength : (v.toList.take i).length = i := by simpa using hi.le
  rw [toList_set]
  exact List.drop_left' hlength

def erase (p : CommandBuffer) (h : 0 < p.bufferIndex) : CommandBuffer where
  commandBuffer := p.commandBuffer.set (p.bufferIndex - 1) 0 (by have := p.bufferIndex_lt; omega)
  bufferIndex := p.bufferIndex - 1
  bufferIndex_lt := by
    have := p.bufferIndex_lt
    omega
  typed c hc := by
    rw [Vector.toList_set, List.take_set_of_le le_rfl] at hc
    exact p.typed c ((List.take_prefix_take_left (Nat.sub_le _ _)).subset hc)
  cleared c hc := by
    rw [drop_toList_set, Nat.sub_add_cancel h] at hc
    rcases List.mem_cons.mp hc with rfl | hc
    · rfl
    · exact p.cleared c hc

def push (p : CommandBuffer) (c : UInt8) (hroom : p.bufferIndex < 79) (hc : Printable c) :
    CommandBuffer where
  commandBuffer := p.commandBuffer.set p.bufferIndex c p.bufferIndex_lt
  bufferIndex := p.bufferIndex + 1
  bufferIndex_lt := by omega
  typed c' hc' := by
    rw [take_toList_set] at hc'
    rcases List.mem_append.mp hc' with hc' | hc'
    · exact p.typed c' hc'
    · rwa [List.mem_singleton.mp hc']
  cleared c' hc' := by
    rw [← List.drop_drop, drop_toList_set] at hc'
    exact p.cleared c' (List.drop_subset_drop_left _ (Nat.le_succ _) hc')

/-- What has been typed of the line. -/
def line (p : CommandBuffer) : List UInt8 := p.commandBuffer.toList.take p.bufferIndex

end CommandBuffer

/-! ## `process` -/

section Process
variable {m : Type → Type} [Monad m] (d : Terminal m)

/-- The prompt behind a line. -/
def prompt : m Unit := do
  if ← d.rebootRequested then pure () else d.print (ascii "> ")

/-- The command that was collected, if there is one. -/
def CommandBuffer.execute (p : CommandBuffer) : m CommandBuffer :=
  if 0 < p.bufferIndex then do
    let stack ← d.stack
    executeCommand d.toConsole stack
      (cstring (p.commandBuffer.set p.bufferIndex 0 p.bufferIndex_lt).toList)
    pure .start
  else pure p

/-- What a byte does, behind its echo; true if it ends a line. -/
def CommandBuffer.processByte (p : CommandBuffer) (c : UInt8) : m (Bool × CommandBuffer) :=
  if IsErase c then
    if h : 0 < p.bufferIndex then do
      d.print [chr ' ', 0x08]
      pure (false, p.erase h)
    else pure (false, p)
  else if IsLineEnd c then do
    d.print (ascii "\r\n")
    let p ← p.execute d
    prompt d
    pure (true, p)
  else if h : p.bufferIndex < 79 ∧ Printable c then
    pure (false, p.push c h.1 h.2)
  else pure (false, p)

def process (p : CommandBuffer) : m (Bool × CommandBuffer) := do
  let byte ← d.receive
  match byte with
  | none => pure (false, p)
  | some c => do
    d.send c
    p.processByte d c

/-! ## The editor -/

/-- The command on a line, if there is anything on it. -/
def executeLine (line : List UInt8) : m Unit :=
  if line = [] then pure ()
  else do
    let stack ← d.stack
    executeCommand d.toConsole stack line

/-- What a byte does to the line, and to the world. -/
def editByte (line : List UInt8) (c : UInt8) : m (Bool × List UInt8) :=
  if IsErase c then
    if line = [] then pure (false, [])
    else do
      d.print [chr ' ', 0x08]
      pure (false, line.dropLast)
  else if IsLineEnd c then do
    d.print (ascii "\r\n")
    executeLine d line
    prompt d
    pure (true, [])
  else pure (false, if line.length < 79 ∧ Printable c then line ++ [c] else line)

def edit (line : List UInt8) : m (Bool × List UInt8) := do
  let byte ← d.receive
  match byte with
  | none => pure (false, line)
  | some c => do
    d.send c
    editByte d line c

end Process

/-! ## `process` is the editor -/

namespace CommandBuffer
variable (p : CommandBuffer)

theorem length_line : p.line.length = p.bufferIndex := by
  have := p.bufferIndex_lt
  simp [line]
  omega

theorem line_eq_nil_iff : p.line = [] ↔ p.bufferIndex = 0 := by
  rw [← p.length_line, List.length_eq_zero_iff]

theorem zero_not_mem_line : 0 ∉ p.line := fun h => absurd (p.typed 0 h).1 (by decide)

theorem line_erase (h : 0 < p.bufferIndex) : (p.erase h).line = p.line.dropLast := by
  rw [List.dropLast_eq_take, p.length_line, line, line, erase, Vector.toList_set,
    List.take_set_of_le le_rfl, List.take_take, Nat.min_eq_left (Nat.sub_le _ _)]

theorem line_push (c : UInt8) (hroom : p.bufferIndex < 79) (hc : Printable c) :
    (p.push c hroom hc).line = p.line ++ [c] := take_toList_set p.commandBuffer p.bufferIndex_lt c

/-- The line is what `execute_command` finds in the buffer. -/
theorem cstring_commandBuffer :
    cstring (p.commandBuffer.set p.bufferIndex 0 p.bufferIndex_lt).toList = p.line := by
  rw [toList_set]
  exact cstring_append_nul p.zero_not_mem_line _

variable {m : Type → Type} [Monad m] [LawfulMonad m] (d : Terminal m)

theorem execute_view : line <$> p.execute d = (fun _ => []) <$> executeLine d p.line := by
  by_cases hempty : p.bufferIndex = 0
  · have hline : p.line = [] := p.line_eq_nil_iff.mpr hempty
    rw [execute, executeLine, if_neg (by omega), if_pos hline, map_pure, map_pure, hline]
  · have hline : p.line ≠ [] := fun h => hempty (p.line_eq_nil_iff.mp h)
    rw [execute, executeLine, if_pos (Nat.pos_of_ne_zero hempty), if_neg hline,
      cstring_commandBuffer]
    simp only [map_bind, bind_pure_comp, Functor.map_map]
    rfl

theorem processByte_view (c : UInt8) :
    (fun r => (r.1, r.2.line)) <$> p.processByte d c = editByte d p.line c := by
  unfold processByte editByte
  by_cases herase : IsErase c
  · rw [if_pos herase, if_pos herase]
    by_cases hempty : p.bufferIndex = 0
    · have hline : p.line = [] := p.line_eq_nil_iff.mpr hempty
      rw [dif_neg (by omega), if_pos hline, map_pure, hline]
    · have hline : p.line ≠ [] := fun h => hempty (p.line_eq_nil_iff.mp h)
      rw [dif_pos (Nat.pos_of_ne_zero hempty), if_neg hline]
      simp only [map_bind, map_pure, line_erase]
  rw [if_neg herase, if_neg herase]
  by_cases hend : IsLineEnd c
  · -- The buffer is that of an empty line behind it, whether there was a command or not.
    rw [if_pos hend, if_pos hend]
    have hexecute {β : Type} (k : List UInt8 → m β) :
        (do let p ← p.execute d; k p.line) = (do executeLine d p.line; k []) := by
      rw [← bind_map_left, execute_view, bind_map_left]
    simp only [map_bind, map_pure]
    refine bind_congr fun _ => ?_
    exact hexecute fun line => do prompt d; pure (true, line)
  · rw [if_neg hend, if_neg hend, p.length_line]
    by_cases hroom : p.bufferIndex < 79 ∧ Printable c
    · rw [dif_pos hroom, if_pos hroom, map_pure, line_push]
    · rw [dif_neg hroom, if_neg hroom, map_pure]

end CommandBuffer

variable {m : Type → Type} [Monad m] [LawfulMonad m] (d : Terminal m)

theorem process_view (p : CommandBuffer) :
    (fun r => (r.1, r.2.line)) <$> process d p = edit d p.line := by
  simp only [process, edit, map_bind]
  refine bind_congr fun byte => ?_
  cases byte with
  | none => rw [map_pure]
  | some c => simp only [map_bind, p.processByte_view]

/-- However often `process` is called, and whatever it works with: it returns what the editor
returns, and has the same effects in the same order, so that the commands it executes are the lines
of the editor. -/
theorem process_edits (n : Nat) (p : CommandBuffer) :
    (fun rs => (rs.1, rs.2.line)) <$> rounds (process d) n p = rounds (edit d) n p.line :=
  rounds_view CommandBuffer.line (process_view d) n p

/-- A console with nothing behind it: the bytes that are typed, and the text that was printed. -/
def typewriter : Terminal (StateM (List UInt8 × List UInt8)) where
  print text := modify fun s => (s.1, s.2 ++ text)
  getDeviceIp := pure (Vector.replicate 4 0)
  getBrokerIp := pure (Vector.replicate 4 0)
  getPort := pure 1883
  isValid := pure true
  setDeviceIp _ := pure ()
  setSubnet _ := pure ()
  setGateway _ := pure ()
  setBrokerIp _ := pure ()
  setPort _ := pure ()
  setUsername _ := pure ()
  setPassword _ := pure ()
  setClientId _ := pure ()
  save := pure true
  setConfigSaved := pure ()
  setRebootRequested := pure ()
  reset := pure ()
  receive := modifyGet fun s => (s.1.head?, s.1.tail, s.2)
  send c := modify fun s => (s.1, s.2 ++ [c])
  stack := pure (Vector.replicate 80 0)
  rebootRequested := pure false

theorem process_edits_typewriter :
    (fun rs => (rs.1, rs.2.line)) <$> rounds (process typewriter) 4 .start =
      rounds (edit typewriter) 4 [] := process_edits typewriter 4 .start

/-- An unknown command, behind a character that was taken back. -/
example : ((rounds (edit typewriter) 4 []).run ([chr 's', 0x7F] ++ ascii "?\r", [])).2.2 =
    [chr 's', 0x7F, chr ' ', 0x08] ++ ascii "?\r\r\n?\r\n> " := by decide +kernel

end SmartBell.Config.UARTCommandParser
