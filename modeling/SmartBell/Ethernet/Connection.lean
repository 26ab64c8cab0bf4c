import SmartBell.Ethernet.Interleaving

/-!
# A connection

The chip does little to the pointers of a TCP socket: it takes over the ones that `SEND` and `RECV`
order, sends a byte, has one confirmed or stores a packet, and starts anew where a connection is
made. The writes of the host are as few.
-/
namespace SmartBell.Ethernet.W5500
open Common

namespace Socket

/-- The sizes that a buffer can have, in kilobytes. -/
def bufferSizes : List UInt8 := [1, 2, 4, 8, 16]

structure Sized (x : Socket) : Prop where
  txKilobytes : x.bytes snTXBUFSIZE ∈ bufferSizes
  rxKilobytes : x.bytes snRXBUFSIZE ∈ bufferSizes

/-- A TCP socket that is not about to be opened anew. -/
structure Opened (x : Socket) : Prop extends Sized x where
  mode : x.bytes snMR &&& 0x0F = snMrTcp
  command : x.cr ≠ snCrOpen

/-- The states before a connection is made. -/
def Early (sr : UInt8) : Prop := sr = sockInit ∨ Connecting sr

instance : DecidablePred Early := fun _ => inferInstanceAs (Decidable (_ ∨ _))

/-- A TCP socket whose connection was made, or never will be. -/
structure Settled (x : Socket) : Prop extends Opened x where
  late : ¬Early x.sr

theorem size_of_mem {k : UInt8} (h : k ∈ bufferSizes) :
    k.toNat * 1024 ∣ 65536 ∧ k.toNat * 1024 ≤ 16384 :=
  forall_byte (P := fun k => k ∈ bufferSizes →
    k.toNat * 1024 ∣ 65536 ∧ k.toNat * 1024 ≤ 16384) (by decide +kernel) k h

section Sized
variable {x : Socket}

theorem Sized.tx_dvd (h : Sized x) : x.txSize ∣ 65536 := (size_of_mem h.txKilobytes).1
theorem Sized.tx_le (h : Sized x) : x.txSize ≤ 16384 := (size_of_mem h.txKilobytes).2
theorem Sized.rx_dvd (h : Sized x) : x.rxSize ∣ 65536 := (size_of_mem h.rxKilobytes).1
theorem Sized.rx_le (h : Sized x) : x.rxSize ≤ 16384 := (size_of_mem h.rxKilobytes).2

end Sized

/-! ## What the chip does -/

theorem word_setWord (x : Socket) {reg : UInt16} (hne : reg ≠ reg + 1) (w : UInt16) :
    (x.setWord reg w).word reg = w := by
  simp only [word, setWord, Function.update_self, Function.update_of_ne hne,
    joinBytes_highByte_lowByte]

/-- A packet is stored byte by byte, and nothing else changes. -/
theorem foldl_store (bytes : List UInt8) (x : Socket) : ∃ rx,
    bytes.foldl store x = { x with
      rx, arrived := x.arrived + bytes.length, heard := x.heard ++ bytes } := by
  induction bytes generalizing x with
  | nil => exact ⟨x.rx, by simp⟩
  | cons v bytes ih =>
    obtain ⟨rx, hrest⟩ := ih (x.store v)
    refine ⟨rx, ?_⟩
    rw [List.foldl_cons, hrest]
    simp [store, Nat.add_assoc, Nat.add_comm 1]

/-- The registers that keep what is written are the host's, apart from the pointers. -/
theorem act_bytes (x : Socket) (a : Act) {reg : UInt16}
    (hreg : reg ∉ [snTXWR, snTXWR + 1, snRXRD, snRXRD + 1]) :
    (x.act a).bytes reg = x.bytes reg := by
  simp only [List.mem_cons, List.not_mem_nil, or_false, not_or] at hreg
  obtain ⟨htx, htx', hrx, hrx'⟩ := hreg
  cases a with
  | accept =>
    simp only [Socket.act, Socket.accept, Socket.command]
    split_ifs
    · cases openedState (x.bytes snMR &&& 0x0F) with
      | none => rfl
      | some sr => simp [restartTx, restartRx, setWord, htx, htx', hrx, hrx']
    all_goals rfl
  | connected start =>
    rw [Socket.act]
    split_ifs
    · simp [restartTx, setWord, htx, htx']
    · rfl
  | receive bytes =>
    obtain ⟨rx, hstore⟩ := foldl_store bytes x
    rw [Socket.act, hstore]
    split_ifs <;> rfl
  | interrupt bits => rfl
  | request | ending sr | transmit | acknowledge =>
    rw [Socket.act]
    split_ifs <;> rfl

theorem Sized.act {x : Socket} (h : Sized x) (a : Act) : Sized (x.act a) := by
  refine ⟨?_, ?_⟩
  · rw [x.act_bytes a (by decide)]
    exact h.txKilobytes
  · rw [x.act_bytes a (by decide)]
    exact h.rxKilobytes

theorem act_size (x : Socket) (a : Act) :
    (x.act a).txSize = x.txSize ∧ (x.act a).rxSize = x.rxSize := by
  rw [txSize, txSize, rxSize, rxSize, x.act_bytes a (by decide), x.act_bytes a (by decide)]
  exact ⟨rfl, rfl⟩

theorem act_tx (x : Socket) (a : Act) : (x.act a).tx = x.tx := by
  cases a with
  | accept =>
    simp only [Socket.act, Socket.accept, Socket.command]
    split_ifs
    · cases openedState (x.bytes snMR &&& 0x0F) <;> rfl
    all_goals rfl
  | receive bytes =>
    obtain ⟨rx, hstore⟩ := foldl_store bytes x
    rw [Socket.act, hstore]
    split_ifs <;> rfl
  | interrupt bits => rfl
  | request | connected start | ending sr | transmit | acknowledge =>
    rw [Socket.act]
    split_ifs <;> rfl

/-- A command is pending as long as it is not accepted. -/
theorem act_cr (x : Socket) (a : Act) : (x.act a).cr = x.cr ∨ a = .accept ∧ (x.act a).cr = 0 := by
  cases a with
  | accept => exact .inr ⟨rfl, rfl⟩
  | receive bytes =>
    obtain ⟨rx, hstore⟩ := foldl_store bytes x
    rw [Socket.act, hstore]
    split_ifs <;> exact .inl rfl
  | interrupt bits => exact .inl rfl
  | request | connected start | ending sr | transmit | acknowledge =>
    rw [Socket.act]
    split_ifs <;> exact .inl rfl

section Opened
variable {x : Socket}

/-- A command that does not open the socket may change its state, and takes over a pointer. -/
theorem accept_eq (hcr : x.cr ≠ snCrOpen) :
    ∃ sr, (sr = x.sr ∨ Ending sr ∨ Early x.sr ∧ Early sr) ∧ x.accept =
      { x with
        cr := 0
        sr
        limit := if x.cr = snCrSend then x.sent + (x.word snTXWR - UInt16.ofNat x.sent).toNat
          else x.limit
        freed := if x.cr = snCrRecv then x.freed + (x.word snRXRD - UInt16.ofNat x.freed).toNat
          else x.freed } := by
  simp only [Socket.accept, Socket.command, if_neg hcr]
  by_cases hlisten : x.cr = snCrListen
  · have hother : x.cr ≠ snCrSend ∧ x.cr ≠ snCrRecv := by rw [hlisten]; decide
    simp only [if_pos hlisten, if_neg hother.1, if_neg hother.2]
    by_cases hinit : x.sr = sockInit
    · exact ⟨sockListen, .inr (.inr ⟨.inl hinit, by decide⟩), by simp only [if_pos hinit]⟩
    · exact ⟨x.sr, .inl rfl, by simp only [if_neg hinit]⟩
  by_cases hconnect : x.cr = snCrConnect
  · have hother : x.cr ≠ snCrSend ∧ x.cr ≠ snCrRecv := by rw [hconnect]; decide
    simp only [if_neg hlisten, if_pos hconnect, if_neg hother.1, if_neg hother.2]
    by_cases hinit : x.sr = sockInit
    · exact ⟨sockSynsent, .inr (.inr ⟨.inl hinit, by decide⟩), by simp only [if_pos hinit]⟩
    · exact ⟨x.sr, .inl rfl, by simp only [if_neg hinit]⟩
  simp only [if_neg hlisten, if_neg hconnect]
  by_cases hdiscon : x.cr = snCrDiscon
  · have hother : x.cr ≠ snCrSend ∧ x.cr ≠ snCrRecv := by rw [hdiscon]; decide
    simp only [if_pos hdiscon, if_neg hother.1, if_neg hother.2]
    by_cases hestablished : x.sr = sockEstablished
    · exact ⟨sockFinWait, .inr (.inl (by decide)), by simp only [if_pos hestablished]⟩
    by_cases hwait : x.sr = sockCloseWait
    · exact ⟨sockLastAck, .inr (.inl (by decide)), by simp only [if_neg hestablished, if_pos hwait]⟩
    · exact ⟨x.sr, .inl rfl, by simp only [if_neg hestablished, if_neg hwait]⟩
  by_cases hclose : x.cr = snCrClose
  · have hother : x.cr ≠ snCrSend ∧ x.cr ≠ snCrRecv := by rw [hclose]; decide
    refine ⟨sockClosed, .inr (.inl (by decide)), ?_⟩
    simp only [if_neg hdiscon, if_pos hclose, if_neg hother.1, if_neg hother.2]
  refine ⟨x.sr, .inl rfl, ?_⟩
  by_cases hsend : x.cr = snCrSend
  · have hother : x.cr ≠ snCrRecv := by rw [hsend]; decide
    simp only [if_neg hdiscon, if_neg hclose, if_pos hsend, if_neg hother]
  by_cases hrecv : x.cr = snCrRecv
  · simp only [if_neg hdiscon, if_neg hclose, if_neg hsend, if_pos hrecv]
  · simp only [if_neg hdiscon, if_neg hclose, if_neg hsend, if_neg hrecv]

theorem Opened.act (h : Opened x) (a : Act) : Opened (x.act a) := by
  refine ⟨h.toSized.act a, ?_, ?_⟩
  · rw [x.act_bytes a (by decide)]
    exact h.mode
  · rcases x.act_cr a with hcr | ⟨-, hcr⟩
    · rw [hcr]
      exact h.command
    · rw [hcr]
      decide

theorem Ending.late {sr : UInt8} (h : Ending sr) : ¬Early sr :=
  forall_byte (P := fun sr => Ending sr → ¬Early sr) (by decide +kernel) sr h

/-- How the state of a socket may change that was opened before. -/
theorem act_sr (hcr : x.cr ≠ snCrOpen) (a : Act) :
    (x.act a).sr = x.sr ∨ Ending (x.act a).sr ∨ Early x.sr := by
  cases a with
  | accept =>
    obtain ⟨sr, hsr, haccept⟩ := accept_eq hcr
    rw [Socket.act, haccept]
    exact hsr.imp_right (Or.imp_right And.left)
  | request =>
    rw [Socket.act]
    split_ifs with hlisten
    · exact .inr (.inr (by rw [hlisten]; decide))
    · exact .inl rfl
  | connected start =>
    rw [Socket.act]
    split_ifs with hconnecting
    · exact .inr (.inr (.inr hconnecting))
    · exact .inl rfl
  | ending sr =>
    rw [Socket.act]
    split_ifs with hending
    · exact .inr (.inl hending)
    · exact .inl rfl
  | receive bytes =>
    obtain ⟨rx, hstore⟩ := foldl_store bytes x
    rw [Socket.act, hstore]
    split_ifs <;> exact .inl rfl
  | interrupt bits => exact .inl rfl
  | transmit | acknowledge =>
    rw [Socket.act]
    split_ifs <;> exact .inl rfl

theorem Settled.act (h : Settled x) (a : Act) : Settled (x.act a) := by
  refine ⟨h.toOpened.act a, ?_⟩
  rcases act_sr h.command a with hsr | hsr | hearly
  · rw [hsr]
    exact h.late
  · exact hsr.late
  · exact absurd hearly h.late

/-- The pointer of the receive side is the host's. -/
theorem act_rxBytes (hcr : x.cr ≠ snCrOpen) (a : Act) {reg : UInt16}
    (hreg : reg ∉ [snTXWR, snTXWR + 1]) : (x.act a).bytes reg = x.bytes reg := by
  simp only [List.mem_cons, List.not_mem_nil, or_false, not_or] at hreg
  obtain ⟨hhigh, hlow⟩ := hreg
  cases a with
  | accept =>
    obtain ⟨sr, -, haccept⟩ := accept_eq hcr
    rw [Socket.act, haccept]
  | connected start =>
    rw [Socket.act]
    split_ifs
    · simp [restartTx, setWord, hhigh, hlow]
    · rfl
  | receive bytes =>
    obtain ⟨rx, hstore⟩ := foldl_store bytes x
    rw [Socket.act, hstore]
    split_ifs <;> rfl
  | interrupt bits => rfl
  | request | ending sr | transmit | acknowledge =>
    rw [Socket.act]
    split_ifs <;> rfl

/-- The connection is made that the socket waits for. -/
def Makes (x : Socket) (a : Act) : Prop := Connecting x.sr ∧ ∃ start, a = .connected start

/-- So is that of the transmit side, unless a connection is made. -/
theorem act_txBytes (hcr : x.cr ≠ snCrOpen) {a : Act} (ha : ¬x.Makes a) :
    (x.act a).bytes = x.bytes := by
  cases a with
  | accept =>
    obtain ⟨sr, -, haccept⟩ := accept_eq hcr
    rw [Socket.act, haccept]
  | connected start => rw [Socket.act, if_neg fun hsr => ha ⟨hsr, start, rfl⟩]
  | receive bytes =>
    obtain ⟨rx, hstore⟩ := foldl_store bytes x
    rw [Socket.act, hstore]
    split_ifs <;> rfl
  | interrupt bits => rfl
  | request | ending sr | transmit | acknowledge =>
    rw [Socket.act]
    split_ifs <;> rfl

theorem act_rxWord (hcr : x.cr ≠ snCrOpen) (a : Act) :
    (x.act a).word snRXRD = x.word snRXRD := by
  rw [word, word, act_rxBytes hcr a (by decide), act_rxBytes hcr a (by decide)]

/-! ### The transmit side -/

/-- What may become of the transmit side. -/
inductive TxMove (x y : Socket) : Prop
  | idle (acked : y.acked = x.acked) (sent : y.sent = x.sent) (limit : y.limit = x.limit)
    (wire : y.wire = x.wire) (cr : y.cr = x.cr ∨ y.cr = 0 ∧ x.cr ≠ snCrSend)
  | order (ordered : x.cr = snCrSend) (acked : y.acked = x.acked) (sent : y.sent = x.sent)
    (limit : y.limit = x.sent + (x.word snTXWR - UInt16.ofNat x.sent).toNat)
    (wire : y.wire = x.wire) (cr : y.cr = 0)
  | transmit (waiting : x.sent < x.limit) (acked : y.acked = x.acked) (sent : y.sent = x.sent + 1)
    (limit : y.limit = x.limit) (wire : y.wire = x.wire ++ [x.tx (x.sent % x.txSize)])
    (cr : y.cr = x.cr)
  | acknowledge (open_ : x.acked < x.sent) (acked : y.acked = x.acked + 1) (sent : y.sent = x.sent)
    (limit : y.limit = x.limit) (wire : y.wire = x.wire) (cr : y.cr = x.cr)

theorem TxMove.refl (x : Socket) : TxMove x x := .idle rfl rfl rfl rfl (.inl rfl)

theorem txMove (hcr : x.cr ≠ snCrOpen) {a : Act} (ha : ¬x.Makes a) : TxMove x (x.act a) := by
  cases a with
  | accept =>
    obtain ⟨sr, -, haccept⟩ := accept_eq hcr
    rw [Socket.act, haccept]
    by_cases hsend : x.cr = snCrSend
    · exact .order hsend rfl rfl (if_pos hsend) rfl rfl
    · exact .idle rfl rfl (if_neg hsend) rfl (.inr ⟨rfl, hsend⟩)
  | request | ending sr =>
    rw [Socket.act]
    split_ifs <;> exact .idle rfl rfl rfl rfl (.inl rfl)
  | connected start =>
    rw [Socket.act, if_neg fun hsr => ha ⟨hsr, start, rfl⟩]
    exact .refl x
  | transmit =>
    rw [Socket.act]
    split_ifs with hwaiting
    · exact .transmit hwaiting rfl rfl rfl rfl rfl
    · exact .refl x
  | acknowledge =>
    rw [Socket.act]
    split_ifs with hopen
    · exact .acknowledge hopen rfl rfl rfl rfl rfl
    · exact .refl x
  | receive bytes =>
    obtain ⟨rx, hstore⟩ := foldl_store bytes x
    rw [Socket.act, hstore]
    split_ifs <;> exact .idle rfl rfl rfl rfl (.inl rfl)
  | interrupt bits => exact .idle rfl rfl rfl rfl (.inl rfl)

theorem Settled.not_makes (h : Settled x) (a : Act) : ¬x.Makes a := fun ha => h.late (.inr ha.1)

theorem Settled.act_bytes (h : Settled x) (a : Act) : (x.act a).bytes = x.bytes :=
  act_txBytes h.command (h.not_makes a)

theorem Settled.txMove (h : Settled x) (a : Act) : TxMove x (x.act a) :=
  Socket.txMove h.command (h.not_makes a)

/-- A connection starts with the pointers of the transmit side wherever the chip puts them. -/
theorem act_connected (hsr : Connecting x.sr) (start : Nat) :
    x.act (.connected start) = { x with
      bytes := (x.setWord snTXWR (UInt16.ofNat start)).bytes, acked := start, sent := start,
      limit := start, wire := [], sr := sockEstablished, ir := x.ir ||| snIrCon } := by
  rw [Socket.act, if_pos hsr]
  rfl

/-- The socket is opened with all the pointers at the start of the buffers. -/
theorem accept_open (hmode : x.bytes snMR &&& 0x0F = snMrTcp) (hcr : x.cr = snCrOpen) :
    x.accept = { (x.restartTx 0).restartRx 0 with sr := sockInit, cr := 0 } := by
  have hopened : openedState (x.bytes snMR &&& 0x0F) = some sockInit := by
    rw [hmode]
    rfl
  rw [Socket.accept, Socket.command, if_pos hcr, hopened]

/-! ### The receive side -/

/-- What may become of the receive side. -/
inductive RxMove (x y : Socket) : Prop
  | idle (freed : y.freed = x.freed) (arrived : y.arrived = x.arrived) (rx : y.rx = x.rx)
    (heard : y.heard = x.heard) (cr : y.cr = x.cr ∨ y.cr = 0 ∧ x.cr ≠ snCrRecv)
  | order (ordered : x.cr = snCrRecv)
    (freed : y.freed = x.freed + (x.word snRXRD - UInt16.ofNat x.freed).toNat)
    (arrived : y.arrived = x.arrived) (rx : y.rx = x.rx) (heard : y.heard = x.heard) (cr : y.cr = 0)
  | receive (bytes : List UInt8) (room : x.arrived + bytes.length ≤ x.freed + x.rxSize)
    (stored : y = bytes.foldl store x)

theorem RxMove.refl (x : Socket) : RxMove x x := .idle rfl rfl rfl rfl (.inl rfl)

theorem rxMove (hcr : x.cr ≠ snCrOpen) (a : Act) : RxMove x (x.act a) := by
  cases a with
  | accept =>
    obtain ⟨sr, -, haccept⟩ := accept_eq hcr
    rw [Socket.act, haccept]
    by_cases hrecv : x.cr = snCrRecv
    · exact .order hrecv (if_pos hrecv) rfl rfl rfl rfl
    · exact .idle (if_neg hrecv) rfl rfl rfl (.inr ⟨rfl, hrecv⟩)
  | request | connected start | ending sr | transmit | acknowledge =>
    rw [Socket.act]
    split_ifs <;> exact .idle rfl rfl rfl rfl (.inl rfl)
  | receive bytes =>
    rw [Socket.act]
    split_ifs with hroom
    · exact .receive bytes hroom rfl
    · exact .refl x
  | interrupt bits => exact .idle rfl rfl rfl rfl (.inl rfl)

end Opened

/-! ## What the host does -/
section Host
variable {x : Socket} {sn : UInt8}

/-- A write to a register that is no pointer of the chip's: a command, an acknowledged interrupt or
a byte to be kept. -/
theorem write_cases (x : Socket) (reg : UInt16) (v : UInt8) :
    reg = snCR ∧ x.write reg v = { x with cr := v } ∨
      reg ≠ snCR ∧ (x.write reg v = x ∨ (∃ ir, x.write reg v = { x with ir }) ∨
        x.write reg v = { x with bytes := Function.update x.bytes reg v }) := by
  unfold write
  split_ifs with hcr hir hread
  · exact .inl ⟨hcr, rfl⟩
  · exact .inr ⟨hcr, .inr (.inl ⟨_, rfl⟩)⟩
  · exact .inr ⟨hcr, .inl rfl⟩
  · exact .inr ⟨hcr, .inr (.inr rfl)⟩

/-- The mode and the pointers of the host are kept as they are written. -/
theorem write_bytes {reg : UInt16} (hreg : reg ∈ [snMR, snTXWR, snTXWR + 1, snRXRD, snRXRD + 1])
    (x : Socket) (v : UInt8) :
    x.write reg v = { x with bytes := Function.update x.bytes reg v } := by
  simp only [List.mem_cons, List.not_mem_nil, or_false] at hreg
  rcases hreg with rfl | rfl | rfl | rfl | rfl <;> rfl

/-- The transmit side is as before, and no `SEND` has been ordered. -/
structure SameTx (x y : Socket) : Prop where
  tx : y.tx = x.tx
  acked : y.acked = x.acked
  sent : y.sent = x.sent
  limit : y.limit = x.limit
  wire : y.wire = x.wire
  size : y.bytes snTXBUFSIZE = x.bytes snTXBUFSIZE
  pointer : y.word snTXWR = x.word snTXWR
  cr : y.cr = x.cr ∨ y.cr ≠ snCrSend

structure SameRx (x y : Socket) : Prop where
  rx : y.rx = x.rx
  freed : y.freed = x.freed
  arrived : y.arrived = x.arrived
  heard : y.heard = x.heard
  size : y.bytes snRXBUFSIZE = x.bytes snRXBUFSIZE
  pointer : y.word snRXRD = x.word snRXRD
  cr : y.cr = x.cr ∨ y.cr ≠ snCrRecv

theorem SameTx.refl (x : Socket) : SameTx x x := ⟨rfl, rfl, rfl, rfl, rfl, rfl, rfl, .inl rfl⟩

theorem SameRx.refl (x : Socket) : SameRx x x := ⟨rfl, rfl, rfl, rfl, rfl, rfl, .inl rfl⟩

/-- A write that leaves the registers of the transmit side alone. -/
theorem write_sameTx {reg : UInt16} {v : UInt8}
    (hreg : reg ∉ [snTXBUFSIZE, snTXWR, snTXWR + 1]) (hcr : reg = snCR → v ≠ snCrSend) :
    SameTx x (x.write reg v) := by
  simp only [List.mem_cons, List.not_mem_nil, or_false, not_or] at hreg
  obtain ⟨hsize, hhigh, hlow⟩ := hreg
  rcases x.write_cases reg v with ⟨hreg, heq⟩ | ⟨-, heq | ⟨ir, heq⟩ | heq⟩
  · rw [heq]
    exact { SameTx.refl x with cr := .inr (hcr hreg) }
  · rw [heq]
    exact .refl x
  · rw [heq]
    exact { SameTx.refl x with }
  · rw [heq]
    exact { SameTx.refl x with
      size := Function.update_of_ne (Ne.symm hsize) v x.bytes
      pointer := congrArg₂ joinBytes (Function.update_of_ne (Ne.symm hhigh) v x.bytes)
        (Function.update_of_ne (Ne.symm hlow) v x.bytes) }

theorem write_sameRx {reg : UInt16} {v : UInt8}
    (hreg : reg ∉ [snRXBUFSIZE, snRXRD, snRXRD + 1]) (hcr : reg = snCR → v ≠ snCrRecv) :
    SameRx x (x.write reg v) := by
  simp only [List.mem_cons, List.not_mem_nil, or_false, not_or] at hreg
  obtain ⟨hsize, hhigh, hlow⟩ := hreg
  rcases x.write_cases reg v with ⟨hreg, heq⟩ | ⟨-, heq | ⟨ir, heq⟩ | heq⟩
  · rw [heq]
    exact { SameRx.refl x with cr := .inr (hcr hreg) }
  · rw [heq]
    exact .refl x
  · rw [heq]
    exact { SameRx.refl x with }
  · rw [heq]
    exact { SameRx.refl x with
      size := Function.update_of_ne (Ne.symm hsize) v x.bytes
      pointer := congrArg₂ joinBytes (Function.update_of_ne (Ne.symm hhigh) v x.bytes)
        (Function.update_of_ne (Ne.symm hlow) v x.bytes) }

/-- What the calls write to a socket, but for opening it. -/
def traffic : Set Access := housekeeping ∪ connecting ∪ transmission ∪ reception

theorem traffic_cases (sn : UInt8) {a : Access} (ha : a ∈ traffic) (x : Socket) :
    (∃ offset v, a.apply sn x = x.writeTx offset v) ∨
      ∃ reg v, a.apply sn x = x.write (reg + shiftOf sn) v ∧
        reg ∉ [snMR, snTXBUFSIZE, snRXBUFSIZE] ∧
        (reg = snCR → v ≠ snCrOpen) := by
  cases a with
  | buffer offset v => exact .inl ⟨offset, v, rfl⟩
  | register reg v =>
    refine .inr ⟨reg, v, rfl, ?_⟩
    rcases ha with ((⟨hreg, hcr⟩ | ⟨rfl, hcr⟩) | hsend) | hrecv
    · refine ⟨fun hmem => hreg ?_, fun heq => ?_⟩
      · simp only [List.mem_cons, List.not_mem_nil, or_false] at hmem ⊢
        tauto
      · have hv := hcr heq
        simp only [List.mem_cons, List.not_mem_nil, or_false] at hv
        rcases hv with rfl | rfl | rfl <;> decide
    · refine ⟨by decide, fun _ => ?_⟩
      simp only [List.mem_cons, List.not_mem_nil, or_false] at hcr
      rcases hcr with rfl | rfl <;> decide
    · rcases hsend with rfl | rfl | ⟨rfl, rfl⟩
      · exact ⟨by decide, fun heq => absurd heq (by decide)⟩
      · exact ⟨by decide, fun heq => absurd heq (by decide)⟩
      · exact ⟨by decide, fun _ => by decide⟩
    · rcases hrecv with rfl | rfl | ⟨rfl, rfl⟩
      · exact ⟨by decide, fun heq => absurd heq (by decide)⟩
      · exact ⟨by decide, fun heq => absurd heq (by decide)⟩
      · exact ⟨by decide, fun _ => by decide⟩

theorem write_bytes_of_ne {reg reg' : UInt16} (h : reg' ≠ reg) (x : Socket) (v : UInt8) :
    (x.write reg v).bytes reg' = x.bytes reg' := by
  rcases x.write_cases reg v with ⟨-, heq⟩ | ⟨-, heq | ⟨ir, heq⟩ | heq⟩
  · rw [heq]
  · rw [heq]
  · rw [heq]
  · rw [heq]
    exact Function.update_of_ne h v x.bytes

theorem Sized.write (h : Sized x) {reg : UInt16} {v : UInt8}
    (hreg : reg ∉ [snTXBUFSIZE, snRXBUFSIZE]) : Sized (x.write reg v) := by
  simp only [List.mem_cons, List.not_mem_nil, or_false, not_or] at hreg
  refine ⟨?_, ?_⟩
  · rw [write_bytes_of_ne (Ne.symm hreg.1)]
    exact h.txKilobytes
  · rw [write_bytes_of_ne (Ne.symm hreg.2)]
    exact h.rxKilobytes

theorem Opened.write (h : Opened x) {reg : UInt16} {v : UInt8}
    (hreg : reg ∉ [snMR, snTXBUFSIZE, snRXBUFSIZE]) (hcr : reg = snCR → v ≠ snCrOpen) :
    Opened (x.write reg v) := by
  simp only [List.mem_cons, List.not_mem_nil, or_false, not_or] at hreg
  refine ⟨h.toSized.write (by simp [hreg]), ?_, ?_⟩
  · rw [write_bytes_of_ne (Ne.symm hreg.1)]
    exact h.mode
  · rcases x.write_cases reg v with ⟨hreg, heq⟩ | ⟨-, heq | ⟨ir, heq⟩ | heq⟩
    · rw [heq]
      exact hcr hreg
    all_goals
      rw [heq]
      exact h.command

theorem write_sr (x : Socket) (reg : UInt16) (v : UInt8) : (x.write reg v).sr = x.sr := by
  rcases x.write_cases reg v with ⟨-, heq⟩ | ⟨-, heq | ⟨ir, heq⟩ | heq⟩ <;> rw [heq]

theorem Settled.write (h : Settled x) {reg : UInt16} {v : UInt8}
    (hreg : reg ∉ [snMR, snTXBUFSIZE, snRXBUFSIZE]) (hcr : reg = snCR → v ≠ snCrOpen) :
    Settled (x.write reg v) := by
  refine ⟨h.toOpened.write hreg hcr, ?_⟩
  rw [write_sr]
  exact h.late

theorem Sized.host (h : Sized x) {a : Access} (hshift : shiftOf sn = 0) (ha : a ∈ traffic) :
    Sized (a.apply sn x) := by
  rcases traffic_cases sn ha x with ⟨offset, v, heq⟩ | ⟨reg, v, heq, hreg, -⟩
  · rw [heq]
    exact { h with }
  · rw [heq, hshift, UInt16.add_zero]
    exact h.write fun hmem => hreg (List.mem_cons_of_mem _ hmem)

theorem Opened.host (h : Opened x) (hshift : shiftOf sn = 0) {a : Access} (ha : a ∈ traffic) :
    Opened (a.apply sn x) := by
  rcases traffic_cases sn ha x with ⟨offset, v, heq⟩ | ⟨reg, v, heq, hreg, hcr⟩
  · rw [heq]
    exact { h with }
  · rw [heq, hshift, UInt16.add_zero]
    exact h.write hreg hcr

theorem Settled.host (h : Settled x) (hshift : shiftOf sn = 0) {a : Access} (ha : a ∈ traffic) :
    Settled (a.apply sn x) := by
  refine ⟨h.toOpened.host hshift ha, ?_⟩
  have hsr : (a.apply sn x).sr = x.sr := by
    cases a with
    | buffer offset v => rfl
    | register reg v => exact x.write_sr _ v
  rw [hsr]
  exact h.late

theorem sameTx_host (hshift : shiftOf sn = 0) {a : Access}
    (ha : a ∈ housekeeping ∪ connecting ∪ reception) : SameTx x (a.apply sn x) := by
  cases a with
  | buffer offset v => exact absurd ha (by simp [housekeeping, connecting, reception])
  | register reg v =>
    rw [Access.apply, hshift, UInt16.add_zero]
    rcases ha with (⟨hreg, hcr⟩ | ⟨rfl, hv⟩) | hrecv
    · refine write_sameTx (fun hmem => hreg ?_) fun heq => ?_
      · simp only [List.mem_cons, List.not_mem_nil, or_false] at hmem ⊢
        tauto
      · have hv := hcr heq
        simp only [List.mem_cons, List.not_mem_nil, or_false] at hv
        rcases hv with rfl | rfl | rfl <;> decide
    · refine write_sameTx (by decide) fun _ => ?_
      simp only [List.mem_cons, List.not_mem_nil, or_false] at hv
      rcases hv with rfl | rfl <;> decide
    · rcases hrecv with rfl | rfl | ⟨rfl, rfl⟩
      · exact write_sameTx (by decide) fun heq => absurd heq (by decide)
      · exact write_sameTx (by decide) fun heq => absurd heq (by decide)
      · exact write_sameTx (by decide) fun _ => by decide

theorem sameRx_host (hshift : shiftOf sn = 0) {a : Access}
    (ha : a ∈ housekeeping ∪ connecting ∪ transmission) : SameRx x (a.apply sn x) := by
  cases a with
  | buffer offset v => exact { SameRx.refl x with }
  | register reg v =>
    rw [Access.apply, hshift, UInt16.add_zero]
    rcases ha with (⟨hreg, hcr⟩ | ⟨rfl, hv⟩) | hsend
    · refine write_sameRx (fun hmem => hreg ?_) fun heq => ?_
      · simp only [List.mem_cons, List.not_mem_nil, or_false] at hmem ⊢
        tauto
      · have hv := hcr heq
        simp only [List.mem_cons, List.not_mem_nil, or_false] at hv
        rcases hv with rfl | rfl | rfl <;> decide
    · refine write_sameRx (by decide) fun _ => ?_
      simp only [List.mem_cons, List.not_mem_nil, or_false] at hv
      rcases hv with rfl | rfl <;> decide
    · rcases hsend with rfl | rfl | ⟨rfl, rfl⟩
      · exact write_sameRx (by decide) fun heq => absurd heq (by decide)
      · exact write_sameRx (by decide) fun heq => absurd heq (by decide)
      · exact write_sameRx (by decide) fun _ => by decide

end Host

end Socket

end SmartBell.Ethernet.W5500
