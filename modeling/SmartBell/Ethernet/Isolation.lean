import SmartBell.Ethernet.Socket

/-!
# What a socket function touches

A function of the library is built of looks at its socket, writes to it and changes of the
variables that the library keeps for it. What holds of these elementary steps holds of the function.
A round of one of its loops uses up some of the schedule, so that no loop stops for want of fuel.
-/
namespace SmartBell.Ethernet.W5500
open Common Attempt

/-- A write to the registers of a socket or into its transmit buffer. -/
inductive Access where
  | register (reg : UInt16) (v : UInt8)
  | buffer (offset : UInt16) (v : UInt8)

def Access.apply (sn : UInt8) : Access → Socket → Socket
  | .register reg v, x => x.write (reg + shiftOf sn) v
  | .buffer offset v, x => x.writeTx offset v

/-- Nothing differs but the variables that the library keeps for the socket; it may be found that it
keeps none. -/
structure SameBut (sn : UInt8) (s t : Board) : Prop where
  chip : t.chip = s.chip
  schedule : t.schedule = s.schedule
  registered : t.registered = s.registered
  ioMode : ∀ b, snBit sn &&& b = 0 → t.sockIoMode &&& b = s.sockIoMode &&& b
  isSending : ∀ b, snBit sn &&& b = 0 → t.sockIsSending &&& b = s.sockIsSending &&& b
  remainedSize : ∀ i, i ≠ sn.toNat → t.sockRemainedSize[i]? = s.sockRemainedSize[i]?
  packInfo : ∀ i, i ≠ sn.toNat → t.sockPackInfo[i]? = s.sockPackInfo[i]?
  overrun : sn.toNat < wizchipSockNum → t.overrun = s.overrun

/-- The relation holds over every elementary step with one of these accesses. -/
structure Respects (sn : UInt8) (A : Set Access) (S : Board → Board → Prop) : Prop where
  preorder : IsPreorder Board S
  elapse : Moves S elapse
  access : ∀ a ∈ A, ∀ s, S s (s.update (slotOf sn) (a.apply sn))
  library : ∀ s t, SameBut sn s t → S s t

/-- Nothing more is to happen, or something was done that C leaves undefined. -/
def Over (s : Board) : Prop := s.schedule = [] ∨ s.registered = false ∨ s.overrun = true

/-- `x` makes no writes to the socket but these, and goes on until it is over. -/
structure Uses {α : Type} (sn : UInt8) (A : Set Access) (x : Attempt Board α) : Prop where
  moves : ∀ S, Respects sn A S → Moves S x
  ends : Triple (fun _ => True) x (fun _ _ => True) Over

namespace Uses
variable {α β : Type} {sn : UInt8} {A B : Set Access} {x y : Attempt Board α}

theorem mono (hx : Uses sn A x) (h : A ⊆ B) : Uses sn B x where
  moves S hS := hx.moves S { hS with access := fun a ha => hS.access a (h ha) }
  ends := hx.ends

protected theorem pure (a : α) : Uses sn A (Pure.pure a) where
  moves _ hS :=
    have := hS.preorder
    .pure a
  ends := .pure a fun _ _ => trivial

protected theorem overrun (h : wizchipSockNum ≤ sn.toNat) :
    Uses sn A (overrun : Attempt Board α) where
  moves _ hS s := hS.library s { s with overrun := true }
    { chip := rfl
      schedule := rfl
      registered := rfl
      ioMode := fun _ _ => rfl
      isSending := fun _ _ => rfl
      remainedSize := fun _ _ => rfl
      packInfo := fun _ _ => rfl
      overrun := fun hlt => absurd hlt (not_lt.mpr h) }
  ends := by
    intro s _
    refine ⟨fun _ _ _ => trivial, fun t he => ?_⟩
    obtain ⟨-, rfl⟩ := Prod.mk.inj he
    exact .inr (.inr rfl)

protected theorem read : Uses sn A (Attempt.read : Attempt Board Board) where
  moves _ hS :=
    have := hS.preorder
    .read
  ends := .read fun _ _ => trivial

protected theorem bind {f : α → Attempt Board β} (hx : Uses sn A x) (hf : ∀ a, Uses sn A (f a)) :
    Uses sn A (x >>= f) where
  moves S hS :=
    have := hS.preorder
    (hx.moves S hS).bind fun a => (hf a).moves S hS
  ends := hx.ends.bind fun a => (hf a).ends

protected theorem ite {c : Prop} [Decidable c] (hx : Uses sn A x) (hy : Uses sn A y) :
    Uses sn A (if c then x else y) where
  moves S hS := .ite (fun _ => hx.moves S hS) fun _ => hy.moves S hS
  ends := .ite (fun _ => hx.ends) fun _ => hy.ends

protected theorem modify {f : Board → Board} (h : ∀ s, SameBut sn s (f s)) :
    Uses sn A (Attempt.modify f) where
  moves _ hS s := hS.library s (f s) (h s)
  ends := .modify fun _ _ => trivial

protected theorem transfer : Uses sn A transfer where
  moves S hS s := by
    have := hS.preorder
    unfold transfer
    split_ifs
    · exact hS.elapse s
    · exact refl_of S s
  ends := by
    intro s _
    refine ⟨fun _ _ _ => trivial, fun t he => ?_⟩
    unfold transfer elapse at he
    split_ifs at he with hregistered
    · split at he
      · exact .inl ((Prod.mk.inj he).2 ▸ ‹s.schedule = []›)
      · simp at he
    · exact .inr (.inl ((Prod.mk.inj he).2 ▸ Bool.eq_false_iff.mpr hregistered))

protected theorem peek (n : Fin 8) (f : Socket → α) : Uses sn A (peek n f) :=
  .bind .transfer fun _ => .bind .read fun _ => .pure _

protected theorem poke {a : Access} {g : Socket → Socket} (ha : a ∈ A) (hg : g = a.apply sn) :
    Uses sn A (poke (slotOf sn) g) :=
  .bind .transfer fun _ => {
    moves := fun _ hS s => hg ▸ hS.access a ha s
    ends := .modify fun _ _ => trivial }

/-- The result is of no concern. -/
theorem ends_in (hx : Uses sn A x) {Q : α → Board → Prop} (hQ : ∀ a s, Q a s) :
    Triple (fun _ => True) x Q Over :=
  hx.ends.mono (fun _ hs => hs) (fun a s _ => hQ a s) fun _ hs => hs

/-- The schedule only gets shorter. -/
theorem ahead_le (hx : Uses sn A x) (s : Board) : (x s).2.ahead ≤ s.ahead := by
  refine hx.moves (fun s t => t.ahead ≤ s.ahead) ?_ s
  exact {
    preorder := { refl := fun _ => le_rfl, trans := fun _ _ _ h h' => h'.trans h }
    elapse := fun s => by
      unfold elapse Board.ahead
      split
      · exact le_rfl
      · simp [*]
    access := fun _ _ _ => le_rfl
    library := fun s t h => by rw [Board.ahead, Board.ahead, h.schedule] }

/-! A round of a loop starts with a read, which uses up some of the schedule. -/

section Loops
variable {f : α → Attempt Board β}

theorem spends_bind (sn : UInt8) (A : Set Access) (hx : Spends Board.ahead x)
    (hf : ∀ a, Uses sn A (f a)) : Spends Board.ahead (x >>= f) :=
  hx.bind fun a s => (hf a).ahead_le s

protected theorem loop {γ : Type} {f : γ → α → Attempt Board (γ ⊕ β)}
    (hspend : Spends Board.ahead x) (hx : Uses sn A x) (hf : ∀ c a, Uses sn A (f c a)) (c : γ) :
    Uses sn A (Attempt.loop Board.ahead (fun c => x >>= f c) c) where
  moves S hS :=
    have := hS.preorder
    .loop (fun c => (hx.bind (hf c)).moves S hS) c
  ends := .loop_of_consumes (P := fun _ _ => True)
    (fun c s _ t => spends_bind sn A hspend (hf c) s _ t)
    (fun c => (hx.bind (hf c)).ends_in fun r _ => by cases r <;> trivial) c

theorem spends_loop (sn : UInt8) (A : Set Access) {γ : Type} {f : γ → α → Attempt Board (γ ⊕ β)}
    (hspend : Spends Board.ahead x) (hx : Uses sn A x) (hf : ∀ c a, Uses sn A (f c a)) (c : γ) :
    Spends Board.ahead (Attempt.loop Board.ahead (fun c => x >>= f c) c) := by
  rw [loop_eq fun c s _ t => spends_bind sn A hspend (hf c) s _ t]
  refine (spends_bind sn A hspend (hf c)).bind fun r s => ?_
  cases r with
  | inl c => exact (Uses.loop hspend hx hf c).ahead_le s
  | inr a => exact le_rfl

protected theorem repeatUntil {f : α → Attempt Board (Option β)} (hspend : Spends Board.ahead x)
    (hx : Uses sn A x) (hf : ∀ a, Uses sn A (f a)) :
    Uses sn A (Attempt.repeatUntil Board.ahead (x >>= f)) where
  moves S hS :=
    have := hS.preorder
    .repeatUntil ((hx.bind hf).moves S hS)
  ends := .repeatUntil_of_spends (spends_bind sn A hspend hf)
    ((hx.bind hf).ends_in fun r _ => by cases r <;> trivial)

protected theorem spinWhile {f : α → Attempt Board Bool} (hspend : Spends Board.ahead x)
    (hx : Uses sn A x) (hf : ∀ a, Uses sn A (f a)) :
    Uses sn A (Attempt.spinWhile Board.ahead (x >>= f)) where
  moves S hS :=
    have := hS.preorder
    .spinWhile ((hx.bind hf).moves S hS)
  ends := .spinWhile_of_spends (spends_bind sn A hspend hf)
    ((hx.bind hf).ends_in fun r _ => by cases r <;> trivial)

end Loops

end Uses

/-! ## Registers -/

section Registers
variable {sn : UInt8} {A : Set Access}

theorem getByte_uses (reg : UInt16) (sn' : UInt8) : Uses sn A (getByte reg sn') := by
  rw [getByte_eq]
  exact .peek _ _

theorem setByte_uses {reg : UInt16} {v : UInt8} (h : .register reg v ∈ A) :
    Uses sn A (setByte reg sn v) := by
  rw [setByte_eq]
  exact .poke h rfl

theorem getWord_uses {reg : UInt16} (hreg : reg ≠ 0xFFFF) (sn' : UInt8) :
    Uses sn A (getWord reg sn') := by
  rw [getWord_eq reg sn' hreg]
  exact .bind (.peek _ _) fun _ => .bind (.peek _ _) fun _ => .pure _

theorem setWord_uses {reg : UInt16} (hreg : reg ≠ 0xFFFF) (h : ∀ v, .register reg v ∈ A)
    (h' : ∀ v, .register (reg + 1) v ∈ A) (w : UInt16) : Uses sn A (setWord reg sn w) := by
  rw [setWord_eq reg sn hreg]
  exact .bind (.poke (h _) rfl) fun _ => .poke (h' _) rfl

theorem wizchipReadBuf_uses (offset : UInt16) (block : UInt32) (len : UInt16) :
    Uses sn A (wizchipReadBuf board callbacks (addrSel offset block) len) := by
  rw [wizchipReadBuf_addrSel]
  generalize offset + (block / 32).toUInt16 = from_offset
  induction len.toNat generalizing from_offset with
  | zero => exact .pure _
  | succ k ih =>
    refine .bind (.bind .transfer fun _ => .bind .read fun _ => .pure _) fun _ => ?_
    exact .bind (ih _) fun _ => .pure _

theorem pokeEach_uses {g : UInt16 → UInt8 → Socket → Socket} {offset : UInt16} {vs : List UInt8}
    (h : ∀ (i : Nat) v, i < vs.length → ∃ a ∈ A, g (offset + UInt16.ofNat i) v = a.apply sn) :
    Uses sn A (pokeEach (slotOf sn) g offset vs) := by
  induction vs generalizing offset with
  | nil => exact .pure _
  | cons v vs ih =>
    obtain ⟨a, ha, hg⟩ := h 0 v (by simp)
    refine .bind (.poke ha (by simpa using hg)) fun _ => ih fun i w hi => ?_
    obtain ⟨b, hb, hg⟩ := h (i + 1) w (by simpa using hi)
    refine ⟨b, hb, ?_⟩
    rw [← hg, UInt16.add_assoc, UInt16.ofNat_add, UInt16.add_comm 1]
    rfl

theorem transfer_spends : Spends Board.ahead transfer := by
  intro s _ t he
  unfold transfer elapse at he
  split_ifs at he
  · split at he
    · simp at he
    · obtain ⟨-, rfl⟩ := Prod.mk.inj he
      simp [Board.ahead, *]
  · simp at he

theorem getByte_spends (reg : UInt16) (sn' : UInt8) : Spends Board.ahead (getByte reg sn') := by
  rw [getByte_eq]
  exact transfer_spends.bind fun _ _ => le_rfl

theorem getWord_spends {reg : UInt16} (hreg : reg ≠ 0xFFFF) (sn' : UInt8) :
    Spends Board.ahead (getWord reg sn') := by
  rw [getWord_eq reg sn' hreg]
  exact Uses.spends_bind sn' ∅ (transfer_spends.bind fun _ _ => le_rfl) fun _ =>
    .bind (.peek _ _) fun _ => .pure _

theorem readTwice_uses {reg : UInt16} (hreg : reg ≠ 0xFFFF) (sn' : UInt8) :
    Uses sn A (readTwice reg sn') :=
  .loop (getWord_spends hreg _) (getWord_uses hreg _)
    (fun _ _ => .ite (.bind (getWord_uses hreg _) fun _ => .pure _) (.pure _)) _

theorem readTwice_spends {reg : UInt16} (hreg : reg ≠ 0xFFFF) (sn' : UInt8) :
    Spends Board.ahead (readTwice reg sn') :=
  Uses.spends_loop sn' ∅ (getWord_spends hreg _) (getWord_uses hreg _)
    (fun _ _ => .ite (.bind (getWord_uses hreg _) fun _ => .pure _) (.pure _)) _

theorem getSnTxMAX_uses (sn' : UInt8) : Uses sn A (getSnTxMAX sn') :=
  .bind (getByte_uses _ _) fun _ => .pure _

theorem getSnRxMAX_uses (sn' : UInt8) : Uses sn A (getSnRxMAX sn') :=
  .bind (getByte_uses _ _) fun _ => .pure _

theorem getSnIR_uses (sn' : UInt8) : Uses sn A (getSnIR sn') :=
  .bind (getByte_uses _ _) fun _ => .pure _

theorem getSnIR_spends (sn' : UInt8) : Spends Board.ahead (getSnIR sn') :=
  (getByte_spends _ _).bind fun _ _ => le_rfl

theorem setSnDIPR_uses (h : ∀ (i : Nat) v, i < 4 → .register (snDIPR + UInt16.ofNat i) v ∈ A)
    (dipr : Vector UInt8 4) : Uses sn A (setSnDIPR sn dipr) := by
  rw [setSnDIPR, wizchipWriteBuf_snReg]
  refine pokeEach_uses fun i v hi => ⟨_, h i v (by simpa using hi), ?_⟩
  funext x
  rw [Access.apply, UInt16.add_assoc, UInt16.add_comm (shiftOf sn), ← UInt16.add_assoc]

theorem wizSendData_uses (h : ∀ offset v, .buffer offset v ∈ A)
    (hptr : ∀ v, .register snTXWR v ∈ A) (hptr' : ∀ v, .register (snTXWR + 1) v ∈ A)
    (wizdata : List UInt8) (len : UInt16) : Uses sn A (wizSendData sn wizdata len) := by
  refine .ite (.pure _) (.bind (getWord_uses (by decide) _) fun ptr => ?_)
  refine .bind ?_ fun _ => setWord_uses (by decide) hptr hptr' _
  rw [wizchipWriteBuf_txbuf]
  exact pokeEach_uses fun i v _ => ⟨_, h _ v, rfl⟩

theorem wizRecvData_uses (hptr : ∀ v, .register snRXRD v ∈ A)
    (hptr' : ∀ v, .register (snRXRD + 1) v ∈ A) (len : UInt16) :
    Uses sn A (wizRecvData sn len) := by
  refine .ite (.pure _) (.bind (getWord_uses (by decide) _) fun ptr => ?_)
  refine .bind (wizchipReadBuf_uses _ _ _) fun _ => ?_
  exact .bind (setWord_uses (by decide) hptr hptr' _) fun _ => .pure _

end Registers

/-! ## Variables of the library -/

section Library
variable {sn : UInt8} {A : Set Access}

theorem SameBut.refl (sn : UInt8) (s : Board) : SameBut sn s s :=
  ⟨rfl, rfl, rfl, fun _ _ => rfl, fun _ _ => rfl, fun _ _ => rfl, fun _ _ => rfl, fun _ => rfl⟩

theorem nonblocking_uses (sn' : UInt8) : Uses sn A (nonblocking sn') :=
  .bind .read fun _ => .pure _

theorem sending_uses (sn' : UInt8) : Uses sn A (sending sn') := .bind .read fun _ => .pure _

theorem addIoMode_uses {bits : UInt16} (h : ∀ b, snBit sn &&& b = 0 → bits &&& b = 0) :
    Uses sn A (addIoMode bits) :=
  .modify fun s => { SameBut.refl sn s with ioMode := fun b hb => or_and (h b hb) }

theorem clearIoMode_uses : Uses sn A (clearIoMode sn) :=
  .modify fun s => { SameBut.refl sn s with ioMode := fun _ h => and_not_and h }

theorem clearIsSending_uses : Uses sn A (clearIsSending sn) :=
  .modify fun s => { SameBut.refl sn s with isSending := fun _ h => and_not_and h }

theorem remainedSize_uses : Uses sn A (remainedSize sn) := by
  refine .bind .read fun s => ?_
  cases h : s.sockRemainedSize[sn.toNat]?
  · exact .overrun (Vector.getElem?_eq_none_iff.mp h)
  · exact .pure _

theorem setRemainedSize_uses (size : UInt16) : Uses sn A (setRemainedSize sn size) := by
  unfold setRemainedSize
  split_ifs with h
  · refine .modify fun s => { SameBut.refl sn s with remainedSize := ?_ }
    exact fun i hi => Vector.getElem?_set_ne h hi.symm
  · exact .overrun (not_lt.mp h)

theorem packInfo_uses : Uses sn A (packInfo sn) := by
  refine .bind .read fun s => ?_
  cases h : s.sockPackInfo[sn.toNat]?
  · exact .overrun (Vector.getElem?_eq_none_iff.mp h)
  · exact .pure _

theorem setPackInfo_uses (info : UInt8) : Uses sn A (setPackInfo sn info) := by
  unfold setPackInfo
  split_ifs with h
  · refine .modify fun s => { SameBut.refl sn s with packInfo := ?_ }
    exact fun i hi => Vector.getElem?_set_ne h hi.symm
  · exact .overrun (not_lt.mp h)

end Library

/-! ## Functions -/

/-- The writes that neither open a connection nor move the pointers of the buffers. -/
def housekeeping : Set Access := {a | match a with
  | .register reg v =>
    reg ∉ [snMR, snRXBUFSIZE, snTXBUFSIZE, snTXWR, snTXWR + 1, snRXRD, snRXRD + 1] ∧
      (reg = snCR → v ∈ [snCrDiscon, snCrClose, snCrSendKeep])
  | .buffer _ _ => False}

/-- The writes of `send` to the transmit buffer, its pointer and the command register. -/
def transmission : Set Access := {a | match a with
  | .register reg v => reg = snTXWR ∨ reg = snTXWR + 1 ∨ reg = snCR ∧ v = snCrSend
  | .buffer _ _ => True}

/-- The writes of `recv` to the pointer of the receive buffer and the command register. -/
def reception : Set Access := {a | match a with
  | .register reg v => reg = snRXRD ∨ reg = snRXRD + 1 ∨ reg = snCR ∧ v = snCrRecv
  | .buffer _ _ => False}

/-- The commands that make a connection. -/
def connecting : Set Access := {a | match a with
  | .register reg v => reg = snCR ∧ v ∈ [snCrListen, snCrConnect]
  | .buffer _ _ => False}

/-- The writes of `socket` to the mode and the command register. -/
def opening : Set Access := {a | match a with
  | .register reg v => reg = snMR ∨ reg = snCR ∧ v = snCrOpen
  | .buffer _ _ => False}

section Functions
variable {sn : UInt8} {A : Set Access}

theorem housekeeping_register {reg : UInt16} {v : UInt8}
    (h : reg ∉ [snMR, snRXBUFSIZE, snTXBUFSIZE, snTXWR, snTXWR + 1, snRXRD, snRXRD + 1, snCR]) :
    .register reg v ∈ housekeeping := by
  simp only [List.mem_cons, List.not_mem_nil, or_false, not_or] at h
  exact ⟨by simp [h], fun hcr => absurd hcr h.2.2.2.2.2.2.2⟩

theorem waitCommand_uses : Uses sn A (waitCommand sn) :=
  .spinWhile (getByte_spends _ _) (getByte_uses _ _) fun _ => .pure _

theorem order_uses {cr : UInt8} (h : .register snCR cr ∈ A) : Uses sn A (order sn cr) :=
  .bind (setByte_uses h) fun _ => waitCommand_uses

theorem checkSockNum_uses {k : Attempt Board Reply} (hk : Uses sn A k) :
    Uses sn A (checkSockNum sn k) := .ite (.pure _) hk

theorem checkSockMode_uses {k : Attempt Board Reply} (mode : UInt8) (hk : Uses sn A k) :
    Uses sn A (checkSockMode sn mode k) := .bind (getByte_uses _ _) fun _ => .ite (.pure _) hk

theorem checkSockInit_uses {k : Attempt Board Reply} (hk : Uses sn A k) :
    Uses sn A (checkSockInit sn k) := .bind (getByte_uses _ _) fun _ => .ite (.pure _) hk

theorem checkSockData_uses {k : Attempt Board Reply} (len : UInt16) (hk : Uses sn A k) :
    Uses sn A (checkSockData len k) := .ite (.pure _) hk

theorem setSnIR_uses (ir : UInt8) (h : housekeeping ⊆ A) : Uses sn A (setSnIR sn ir) :=
  setByte_uses (h (housekeeping_register (by decide)))

theorem close_uses : Uses sn housekeeping (close sn) := by
  refine checkSockNum_uses (.bind (order_uses ?_) fun _ => ?_)
  · exact ⟨by decide, fun _ => by decide⟩
  refine .bind (setSnIR_uses _ subset_rfl) fun _ => .bind clearIoMode_uses fun _ => ?_
  refine .bind clearIsSending_uses fun _ => .bind (setRemainedSize_uses _) fun _ => ?_
  refine .bind (setPackInfo_uses _) fun _ => .bind ?_ fun _ => .pure _
  exact .spinWhile (getByte_spends _ _) (getByte_uses _ _) fun _ => .pure _

theorem checkProtocol_uses {k : Attempt Board Reply} (protocol : UInt8) (hk : Uses sn A k) :
    Uses sn A (checkProtocol protocol k) := by
  refine .ite (.bind (wizchipReadBuf_uses _ _ _) fun _ => .ite (.pure _) hk) ?_
  exact .ite hk (.pure _)

theorem choosePort_uses (port : UInt16) : Uses sn A (choosePort port) :=
  .ite (.bind .read fun _ => .bind (.modify fun t => { SameBut.refl sn t with }) fun _ => .pure _)
    (.pure _)

theorem ioBit_disjoint {flag : UInt8} {b : UInt16} (h : snBit sn &&& b = 0) :
    ((flag &&& sfIoNonblock).toUInt16 <<< sn.toUInt16) &&& b = 0 := by
  have hbit : flag &&& sfIoNonblock = 0 ∨ flag &&& sfIoNonblock = 1 :=
    forall_byte (P := fun flag => flag &&& sfIoNonblock = 0 ∨ flag &&& sfIoNonblock = 1)
      (by decide +kernel) flag
  rcases hbit with hzero | hone
  · rw [hzero]
    simp
  · rw [hone]
    exact h

theorem setSnDIPR_housekeeping (h : housekeeping ⊆ A) (dipr : Vector UInt8 4) :
    Uses sn A (setSnDIPR sn dipr) := by
  refine setSnDIPR_uses (fun i v hi => h (housekeeping_register ?_)) dipr
  interval_cases i <;> decide

/-- A word among the registers that do no more than keep it. -/
theorem setWord_housekeeping {reg : UInt16} (hreg : reg ∈ [snPORT, snDPORT, snMSSR])
    (h : housekeeping ⊆ A)
    (w : UInt16) : Uses sn A (setWord reg sn w) := by
  simp only [List.mem_cons, List.not_mem_nil, or_false] at hreg
  rcases hreg with rfl | rfl | rfl
  all_goals
    exact setWord_uses (by decide) (fun _ => h (housekeeping_register (by decide)))
      (fun _ => h (housekeeping_register (by decide))) w

theorem socket_uses (protocol : UInt8) (port : UInt16) (flag : UInt8) :
    Uses sn (housekeeping ∪ opening) (socket sn protocol port flag) := by
  refine checkSockNum_uses (checkProtocol_uses _ (.ite (.pure _) ?_))
  refine .bind (close_uses.mono Set.subset_union_left) fun _ => ?_
  refine .bind (setByte_uses (.inr (.inl rfl))) fun _ => .bind (choosePort_uses _) fun _ => ?_
  refine .bind (setWord_housekeeping (by simp) Set.subset_union_left _) fun _ => ?_
  refine .bind (order_uses (.inr (.inr ⟨rfl, rfl⟩))) fun _ => .bind clearIoMode_uses fun _ => ?_
  refine .bind (addIoMode_uses fun _ => ioBit_disjoint) fun _ => ?_
  refine .bind clearIsSending_uses fun _ => .bind (setRemainedSize_uses _) fun _ => ?_
  refine .bind (setPackInfo_uses _) fun _ => .bind ?_ fun _ => .pure _
  exact .spinWhile (getByte_spends _ _) (getByte_uses _ _) fun _ => .pure _

theorem listen_uses : Uses sn (housekeeping ∪ connecting) (listen sn) := by
  refine checkSockNum_uses (checkSockMode_uses _ (checkSockInit_uses ?_))
  refine .bind (order_uses (.inr ⟨rfl, by decide⟩)) fun _ => .bind (getByte_uses _ _) fun _ => ?_
  exact .ite (.bind (close_uses.mono Set.subset_union_left) fun _ => .pure _) (.pure _)

theorem connect_uses (addr : Vector UInt8 4) (port : UInt16) :
    Uses sn (housekeeping ∪ connecting) (connect sn addr port) := by
  have hkeep : housekeeping ⊆ housekeeping ∪ connecting := Set.subset_union_left
  refine checkSockNum_uses (checkSockMode_uses _ (checkSockInit_uses (.ite (.pure _) ?_)))
  refine .ite (.pure _) (.bind (setSnDIPR_housekeeping hkeep _) fun _ => ?_)
  refine .bind (setWord_housekeeping (by simp) hkeep _) fun _ => ?_
  refine .bind (order_uses (.inr ⟨rfl, by decide⟩)) fun _ => .bind (nonblocking_uses _) fun _ => ?_
  refine .ite (.pure _) ?_
  refine .repeatUntil (getByte_spends _ _) (getByte_uses _ _) fun _ => .ite (.pure _) ?_
  refine .bind (getSnIR_uses _) fun _ => .ite ?_ (.bind (getByte_uses _ _) fun _ => ?_)
  · exact .bind (setSnIR_uses _ hkeep) fun _ => .pure _
  · exact .ite (.pure _) (.pure _)

theorem disconnect_uses : Uses sn housekeeping (disconnect sn) := by
  refine checkSockNum_uses (checkSockMode_uses _ (.bind (order_uses ?_) fun _ => ?_))
  · exact ⟨by decide, fun _ => by decide⟩
  refine .bind clearIsSending_uses fun _ => .bind (nonblocking_uses _) fun _ => .ite (.pure _) ?_
  refine .repeatUntil (getByte_spends _ _) (getByte_uses _ _) fun _ => .ite (.pure _) ?_
  refine .bind (getSnIR_uses _) fun _ => .ite ?_ (.pure _)
  exact .bind close_uses fun _ => .pure _

theorem checkSent_uses {k : Attempt Board Reply} (h : housekeeping ⊆ A) (hk : Uses sn A k) :
    Uses sn A (checkSent sn k) := by
  refine .bind (sending_uses _) fun _ => .ite (.bind (getSnIR_uses _) fun _ => ?_) hk
  refine .ite (.bind (setSnIR_uses _ h) fun _ => .bind clearIsSending_uses fun _ => hk) ?_
  exact .ite (.bind (close_uses.mono h) fun _ => .pure _) (.pure _)

theorem waitForRoom_uses (len : UInt16) : Uses sn housekeeping (waitForRoom sn len) := by
  refine .repeatUntil (readTwice_spends (by decide) _) (readTwice_uses (by decide) _) fun _ => ?_
  refine .bind (getByte_uses _ _) fun _ => .ite (.bind close_uses fun _ => .pure _) ?_
  exact .bind (nonblocking_uses _) fun _ => .ite (.pure _) (.ite (.pure _) (.pure _))

theorem buffer_mem_transmission (offset : UInt16) (v : UInt8) :
    .buffer offset v ∈ transmission := trivial

theorem wizSendData_transmission (wizdata : List UInt8) (len : UInt16) :
    Uses sn transmission (wizSendData sn wizdata len) :=
  wizSendData_uses buffer_mem_transmission (fun _ => .inl rfl) (fun _ => .inr (.inl rfl)) _ _

theorem send_uses (buf : List UInt8) : Uses sn (housekeeping ∪ transmission) (send sn buf) := by
  refine checkSockNum_uses (checkSockMode_uses _ (checkSockData_uses _ ?_))
  refine .bind (getByte_uses _ _) fun _ => .ite (.pure _) ?_
  refine checkSent_uses Set.subset_union_left (.bind (getSnTxMAX_uses _) fun _ => ?_)
  refine .bind ((waitForRoom_uses _).mono Set.subset_union_left) fun error => ?_
  cases error with
  | some error => exact .pure _
  | none =>
    refine .bind ((wizSendData_transmission _ _).mono Set.subset_union_right) fun _ => ?_
    refine .bind (order_uses (.inr (.inr (.inr ⟨rfl, rfl⟩)))) fun _ => ?_
    exact .bind (.modify fun s => { SameBut.refl sn s with isSending := fun _ h => or_and h })
      fun _ => .pure _

theorem waitForData_uses : Uses sn housekeeping (waitForData sn) := by
  refine .repeatUntil (readTwice_spends (by decide) _) (readTwice_uses (by decide) _) fun _ => ?_
  refine .bind (getByte_uses _ _) fun _ => .ite (.ite (.ite (.pure _) ?_) ?_) ?_
  · refine .bind (readTwice_uses (by decide) _) fun _ => .bind (getSnTxMAX_uses _) fun _ => ?_
    refine .ite (.bind close_uses fun _ => .pure _) (.bind (nonblocking_uses _) fun _ => ?_)
    exact .ite (.pure _) (.pure _)
  · exact .bind close_uses fun _ => .pure _
  · exact .bind (nonblocking_uses _) fun _ => .ite (.pure _) (.ite (.pure _) (.pure _))

theorem wizRecvData_reception (len : UInt16) : Uses sn reception (wizRecvData sn len) :=
  wizRecvData_uses (fun _ => .inl rfl) (fun _ => .inr (.inl rfl)) _

theorem orderRecv_uses : Uses sn reception (order sn snCrRecv) :=
  order_uses (.inr (.inr ⟨rfl, rfl⟩))

theorem recv_uses (len : UInt16) : Uses sn (housekeeping ∪ reception) (recv sn len) := by
  refine checkSockNum_uses (checkSockMode_uses _ (checkSockData_uses _ ?_))
  refine .bind (getSnRxMAX_uses _) fun _ => ?_
  refine .bind (waitForData_uses.mono Set.subset_union_left) fun ready => ?_
  cases ready with
  | inl error => exact .pure _
  | inr recvsize =>
    refine .bind ((wizRecvData_reception _).mono Set.subset_union_right) fun _ => ?_
    exact .bind (orderRecv_uses.mono Set.subset_union_right) fun _ => .pure _

theorem checkDatagram_uses {k : UInt8 → Attempt Board Reply} (hk : ∀ mr, Uses sn A (k mr)) :
    Uses sn A (checkDatagram sn k) := .bind (getByte_uses _ _) fun mr => .ite (hk mr) (.pure _)

theorem checkMacraw_uses {k : Attempt Board Reply} (zero : Bool) (error : Int)
    (hk : Uses sn A k) : Uses sn A (checkMacraw sn zero error k) :=
  .ite (.bind (getByte_uses _ _) fun _ => .ite (.pure _) hk) hk

theorem waitForDatagramRoom_uses (len : UInt16) : Uses sn A (waitForDatagramRoom sn len) := by
  refine .repeatUntil (readTwice_spends (by decide) _) (readTwice_uses (by decide) _) fun _ => ?_
  refine .bind (getByte_uses _ _) fun _ => .ite (.pure _) ?_
  exact .bind (nonblocking_uses _) fun _ => .ite (.pure _) (.ite (.pure _) (.pure _))

theorem waitForSendok_uses : Uses sn housekeeping (waitForSendok sn) := by
  refine .repeatUntil (getSnIR_spends _) (getSnIR_uses _) fun _ => .ite ?_ (.ite ?_ (.pure _))
  · exact .bind (setSnIR_uses _ subset_rfl) fun _ => .pure _
  · exact .bind (setSnIR_uses _ subset_rfl) fun _ => .pure _

theorem sendto_uses (buf : List UInt8) (addr : Vector UInt8 4) (port : UInt16) :
    Uses sn (housekeeping ∪ transmission) (sendto sn buf addr port) := by
  have hkeep : housekeeping ⊆ housekeeping ∪ transmission := Set.subset_union_left
  refine checkSockNum_uses (checkDatagram_uses fun _ => checkSockData_uses _ ?_)
  refine checkMacraw_uses _ _ (checkMacraw_uses _ _ (.bind (getByte_uses _ _) fun _ => ?_))
  refine .ite (.pure _) (.bind (setSnDIPR_housekeeping hkeep _) fun _ => ?_)
  refine .bind (setWord_housekeeping (by simp) hkeep _) fun _ =>
    .bind (getSnTxMAX_uses _) fun _ => ?_
  refine .bind (waitForDatagramRoom_uses _) fun error => ?_
  cases error with
  | some error => exact .pure _
  | none =>
    refine .bind ((wizSendData_transmission _ _).mono Set.subset_union_right) fun _ => ?_
    refine .bind (order_uses (.inr (.inr (.inr ⟨rfl, rfl⟩)))) fun _ => ?_
    exact .bind (waitForSendok_uses.mono hkeep) fun _ => .ite (.pure _) (.pure _)

theorem waitForDatagram_uses : Uses sn A (waitForDatagram sn) := by
  refine .repeatUntil (readTwice_spends (by decide) _) (readTwice_uses (by decide) _) fun _ => ?_
  refine .bind (getByte_uses _ _) fun _ => .ite (.pure _) ?_
  exact .bind (nonblocking_uses _) fun _ => .ite (.pure _) (.ite (.pure _) (.pure _))

theorem datagramReady_uses : Uses sn A (datagramReady sn) :=
  .bind remainedSize_uses fun _ => .ite waitForDatagram_uses (.pure _)

theorem recvHead_uses (len : UInt16) : Uses sn reception (recvHead sn len) :=
  .bind (wizRecvData_reception _) fun _ => .bind orderRecv_uses fun _ => .pure _

theorem recvRest_uses (packLen : UInt16) (buf : List UInt8)
    (peer : Option (List UInt8 × Option UInt16)) :
    Uses sn reception (recvRest sn packLen buf peer) := by
  refine .bind orderRecv_uses fun _ => .bind remainedSize_uses fun _ => ?_
  refine .bind (setRemainedSize_uses _) fun _ => .ite ?_ ?_
  · exact .bind packInfo_uses fun _ => .bind (setPackInfo_uses _) fun _ => .pure _
  · exact .bind (setPackInfo_uses _) fun _ => .pure _

theorem recvPart_uses (len : UInt16) (peer : Option (List UInt8 × Option UInt16)) :
    Uses sn reception (recvPart sn len peer) :=
  .bind remainedSize_uses fun _ => .bind (wizRecvData_reception _) fun _ => recvRest_uses _ _ _

theorem recvUdp_uses (len : UInt16) : Uses sn reception (recvUdp sn len) := by
  refine .bind remainedSize_uses fun _ => .ite ?_ (recvPart_uses _ _)
  refine .bind (recvHead_uses _) fun _ => .bind (setRemainedSize_uses _) fun _ => ?_
  exact .bind (setPackInfo_uses _) fun _ => recvPart_uses _ _

theorem recvIpraw_uses (len : UInt16) : Uses sn reception (recvIpraw sn len) := by
  refine .bind remainedSize_uses fun _ => .ite ?_ (recvPart_uses _ _)
  refine .bind (recvHead_uses _) fun _ => .bind (setRemainedSize_uses _) fun _ => ?_
  exact .bind (setPackInfo_uses _) fun _ => recvPart_uses _ _

theorem recvMacraw_uses (len : UInt16) :
    Uses sn (housekeeping ∪ reception) (recvMacraw sn len) := by
  have hrecv : reception ⊆ housekeeping ∪ reception := Set.subset_union_right
  refine .bind remainedSize_uses fun _ => .ite ?_ ((recvPart_uses _ _).mono hrecv)
  refine .bind ((recvHead_uses _).mono hrecv) fun _ => .bind (setRemainedSize_uses _) fun _ => ?_
  refine .ite (.bind (close_uses.mono Set.subset_union_left) fun _ => .pure _) ?_
  exact .bind (setPackInfo_uses _) fun _ => (recvPart_uses _ _).mono hrecv

theorem wizRecvIgnore_uses (len : UInt16) : Uses sn reception (wizRecvIgnore sn len) :=
  .bind (getWord_uses (by decide) _) fun _ =>
    setWord_uses (by decide) (fun _ => .inl rfl) (fun _ => .inr (.inl rfl)) _

theorem recvfrom_uses (len : UInt16) :
    Uses sn (housekeeping ∪ reception) (recvfrom sn len) := by
  have hrecv : reception ⊆ housekeeping ∪ reception := Set.subset_union_right
  refine checkSockNum_uses (checkDatagram_uses fun mr => checkSockData_uses _ ?_)
  refine .bind datagramReady_uses fun ready => ?_
  cases ready with
  | inl error => exact .pure _
  | inr packLen =>
    refine .ite ((recvUdp_uses _).mono hrecv) (.ite (recvMacraw_uses _) ?_)
    refine .ite ((recvIpraw_uses _).mono hrecv) ?_
    refine .bind ((wizRecvIgnore_uses _).mono hrecv) fun _ => ?_
    exact .bind (setRemainedSize_uses _) fun _ => (recvRest_uses _ _ _).mono hrecv

theorem ctlsocket_uses (cstype : CtlsockType) (arg : UInt8) :
    Uses sn housekeeping (ctlsocket sn cstype arg) := by
  refine checkSockNum_uses ?_
  cases cstype with
  | setIomode =>
    refine .ite (.bind (addIoMode_uses fun _ hb => hb) fun _ => .pure _) (.ite ?_ (.pure _))
    exact .bind clearIoMode_uses fun _ => .pure _
  | getIomode => exact .bind .read fun _ => .pure _
  | getMaxtxbuf => exact .bind (getSnTxMAX_uses _) fun _ => .pure _
  | getMaxrxbuf => exact .bind (getSnRxMAX_uses _) fun _ => .pure _
  | clrInterrupt => exact .ite (.pure _) (.bind (setSnIR_uses _ subset_rfl) fun _ => .pure _)
  | getInterrupt => exact .bind (getSnIR_uses _) fun _ => .pure _
  | setIntmask =>
    refine .ite (.pure _) (.bind (setByte_uses ?_) fun _ => .pure _)
    exact housekeeping_register (by decide)
  | getIntmask => exact .bind (.bind (getByte_uses _ _) fun _ => .pure _) fun _ => .pure _

theorem waitForKeepalive_uses : Uses sn housekeeping (waitForKeepalive sn) := by
  refine .repeatUntil (getByte_spends _ _) (getByte_uses _ _) fun _ => .ite ?_ (.pure _)
  refine .bind (getSnIR_uses _) fun _ => .ite ?_ (.pure _)
  exact .bind (setSnIR_uses _ subset_rfl) fun _ => .pure _

theorem setsockopt_uses (sotype : SockoptType) (arg : Argument) :
    Uses sn housekeeping (setsockopt sn sotype arg) := by
  refine checkSockNum_uses ?_
  cases sotype with
  | ttl | tos => exact .bind (setByte_uses (housekeeping_register (by decide))) fun _ => .pure _
  | mss | destport => exact .bind (setWord_housekeeping (by simp) subset_rfl _) fun _ => .pure _
  | destip => exact .bind (setSnDIPR_housekeeping subset_rfl _) fun _ => .pure _
  | keepalivesend =>
    refine checkSockMode_uses _ (.bind (getByte_uses _ _) fun _ => .ite (.pure _) ?_)
    refine .bind (setByte_uses ?_) fun _ => waitForKeepalive_uses
    exact ⟨by decide, fun _ => by decide⟩
  | keepaliveauto =>
    refine checkSockMode_uses _ (.bind (setByte_uses ?_) fun _ => .pure _)
    exact housekeeping_register (by decide)
  | _ => exact .pure _

theorem getsockopt_uses (sotype : SockoptType) :
    Uses sn housekeeping (getsockopt sn sotype) := by
  refine checkSockNum_uses ?_
  cases sotype with
  | flag | ttl | tos | status => exact .bind (getByte_uses _ _) fun _ => .pure _
  | mss | destport => exact .bind (getWord_uses (by decide) _) fun _ => .pure _
  | destip => exact .bind (wizchipReadBuf_uses _ _ _) fun _ => .pure _
  | keepaliveauto => exact checkSockMode_uses _ (.bind (getByte_uses _ _) fun _ => .pure _)
  | sendbuf | recvbuf => exact .bind (readTwice_uses (by decide) _) fun _ => .pure _
  | remainsize =>
    refine .bind (getByte_uses _ _) fun _ => .ite ?_ ?_
    · exact .bind (readTwice_uses (by decide) _) fun _ => .pure _
    · exact .bind remainedSize_uses fun _ => .pure _
  | packinfo =>
    refine .bind (getByte_uses _ _) fun _ => .ite (.pure _) ?_
    exact .bind packInfo_uses fun _ => .pure _
  | keepalivesend => exact .pure _

/-- The writes of a call to its socket. -/
def Call.accesses : Call → Set Access
  | .socket .. => housekeeping ∪ opening
  | .listen | .connect .. => housekeeping ∪ connecting
  | .send _ | .sendto .. => housekeeping ∪ transmission
  | .recv _ | .recvfrom _ => housekeeping ∪ reception
  | .close | .disconnect | .ctlsocket .. | .setsockopt .. | .getsockopt _ => housekeeping

theorem Call.perform_uses (call : Call) : Uses sn call.accesses (call.perform sn) := by
  cases call with
  | socket protocol port flag => exact socket_uses protocol port flag
  | close => exact close_uses
  | listen => exact listen_uses
  | connect addr port => exact connect_uses addr port
  | disconnect => exact disconnect_uses
  | send buf => exact send_uses buf
  | recv len => exact recv_uses len
  | sendto buf addr port => exact sendto_uses buf addr port
  | recvfrom len => exact recvfrom_uses len
  | ctlsocket cstype arg => exact ctlsocket_uses cstype arg
  | setsockopt sotype arg => exact setsockopt_uses sotype arg
  | getsockopt sotype => exact getsockopt_uses sotype

/-- The callbacks stay as they are, and no access goes past an array that has an element for the
socket. -/
theorem Uses.defined {α : Type} {A : Set Access} {x : Attempt Board α} (hx : Uses sn A x)
    (hsn : sn.toNat < wizchipSockNum) :
    Moves (fun s t => t.registered = s.registered ∧ t.overrun = s.overrun) x := by
  refine hx.moves _ ?_
  exact {
    preorder :=
      { refl := fun _ => ⟨rfl, rfl⟩
        trans := fun _ _ _ hst htu => ⟨htu.1.trans hst.1, htu.2.trans hst.2⟩ }
    elapse := fun s => by
      unfold elapse
      split <;> exact ⟨rfl, rfl⟩
    access := fun _ _ _ => ⟨rfl, rfl⟩
    library := fun _ _ hst => ⟨hst.registered, hst.overrun hsn⟩ }

/-- A call waits for the chip and for nothing else: where it has not ended, nothing more was to
happen. The number 2 is left out, which is not refused and has no element in the arrays. -/
theorem call_ends (hsn : sn.toNat ≠ wizchipSockNum) (call : Call) {s : Board}
    (hregistered : s.registered = true) (hdefined : s.overrun = false)
    (h : (call.perform sn s).1 = none) : (call.perform sn s).2.schedule = [] := by
  rcases Nat.lt_or_gt_of_ne hsn with hlow | hhigh
  · have hover : Over (call.perform sn s).2 :=
      (call.perform_uses.ends s trivial).2 _ (Prod.ext h rfl)
    obtain ⟨hkept, hclean⟩ := call.perform_uses.defined hlow s
    rcases hover with hschedule | hunregistered | hoverrun
    · exact hschedule
    · rw [hkept, hregistered] at hunregistered
      exact absurd hunregistered Bool.noConfusion
    · rw [hclean, hdefined] at hoverrun
      exact absurd hoverrun Bool.noConfusion
  · rw [call.perform_refused hhigh] at h
    exact absurd h (by simp [fail])

theorem call_ends_close :
    (Call.perform 0 .close { Board.powerUp [[], []] with registered := true }).2.schedule = [] :=
  call_ends (by decide) .close rfl rfl rfl

end Functions

/-! ## Isolation -/

/-- As far as socket `n` is concerned, only the chip has been at work. -/
structure Untouched (n : Fin 8) (s t : Board) : Prop where
  socket : ∃ acts, t.chip.sockets n = run Socket.act (s.chip.sockets n) acts
  ioMode : t.sockIoMode &&& snBit (UInt8.ofNat n) = s.sockIoMode &&& snBit (UInt8.ofNat n)
  isSending : t.sockIsSending &&& snBit (UInt8.ofNat n) = s.sockIsSending &&& snBit (UInt8.ofNat n)
  remainedSize : t.sockRemainedSize[(n : Nat)]? = s.sockRemainedSize[(n : Nat)]?
  packInfo : t.sockPackInfo[(n : Nat)]? = s.sockPackInfo[(n : Nat)]?
  overrun : t.overrun = s.overrun
  fresh : t.chip.fresh = s.chip.fresh

instance (n : Fin 8) : IsPreorder Board (Untouched n) where
  refl s := ⟨⟨[], rfl⟩, rfl, rfl, rfl, rfl, rfl, rfl⟩
  trans s t u := by
    rintro ⟨⟨acts, hst⟩, hmode, hsending, hsize, hinfo, hoverrun, hfresh⟩
      ⟨⟨acts', htu⟩, hmode', hsending', hsize', hinfo', hoverrun', hfresh'⟩
    refine ⟨⟨acts ++ acts', ?_⟩, hmode'.trans hmode, hsending'.trans hsending, hsize'.trans hsize,
      hinfo'.trans hinfo, hoverrun'.trans hoverrun, hfresh'.trans hfresh⟩
    rw [htu, hst, run_append]

/-- What happens at a socket is what the chip does there. -/
theorem run_happen_sockets (c : Chip) (es : List Chip.Event) (n : Fin 8) :
    ∃ acts, (run Chip.happen c es).sockets n = run Socket.act (c.sockets n) acts := by
  let view (c : Chip) : Socket := c.sockets n
  have hseen (c : Chip) (e : Chip.Event) : view (c.happen e) =
      run Socket.act (view c) (if e.socket = n then [e.act] else []) := by
    simp only [view]
    by_cases h : e.socket = n
    · subst h
      simp [Chip.happen, Chip.setSocket]
    · simp [Chip.happen, Chip.setSocket, h, Function.update_of_ne (Ne.symm h)]
  exact ⟨_, view_run hseen c es⟩

theorem run_happen_fresh (c : Chip) (es : List Chip.Event) :
    (run Chip.happen c es).fresh = c.fresh := by
  have hstep (d : Chip) (e : Chip.Event) (h : d.fresh = c.fresh) :
      (d.happen e).fresh = c.fresh := h
  exact run_invariant hstep rfl es

theorem elapse_untouched (n : Fin 8) : Moves (Untouched n) elapse := by
  intro s
  unfold elapse
  cases s.schedule with
  | nil => exact refl_of (Untouched n) s
  | cons es schedule =>
    exact ⟨run_happen_sockets s.chip es n, rfl, rfl, rfl, rfl, rfl, run_happen_fresh s.chip es⟩

theorem transfer_untouched (n : Fin 8) : Moves (Untouched n) transfer := by
  intro s
  unfold transfer
  split_ifs
  · exact elapse_untouched n s
  · exact refl_of (Untouched n) s

theorem snBit_disjoint {sn : UInt8} {n : Fin 8} (h : slotOf sn ≠ n) :
    snBit sn &&& snBit (UInt8.ofNat n) = 0 :=
  forall_byte (P := fun sn => ∀ n : Fin 8, slotOf sn ≠ n → snBit sn &&& snBit (UInt8.ofNat n) = 0)
    (by decide +kernel) sn n h

theorem respects_untouched {sn : UInt8} {n : Fin 8} (hsn : sn.toNat < wizchipSockNum)
    (h : slotOf sn ≠ n) : Respects sn Set.univ (Untouched n) where
  preorder := inferInstance
  elapse := elapse_untouched n
  access a _ s := by
    refine ⟨⟨[], ?_⟩, rfl, rfl, rfl, rfl, rfl, rfl⟩
    simp [Board.update, Chip.setSocket, Function.update_of_ne (Ne.symm h)]
  library s t hst := by
    have hne : (n : Nat) ≠ sn.toNat := by
      intro heq
      refine h (Fin.ext ?_)
      simp [slotOf, ← heq]
    exact ⟨⟨[], by rw [hst.chip]; rfl⟩, hst.ioMode _ (snBit_disjoint h),
      hst.isSending _ (snBit_disjoint h), hst.remainedSize n hne, hst.packInfo n hne,
      hst.overrun hsn, by rw [hst.chip]⟩

/-- A call never disturbs a socket other than the one that its number selects: there only the chip
is at work meanwhile, the library keeps what it knows of the socket, and no access goes past an
array. The number 2 is left out, which is not refused and has no element in the arrays. -/
theorem other_sockets_untouched (sn : UInt8) (call : Call) (n : Fin 8)
    (hsn : sn.toNat ≠ wizchipSockNum) (h : slotOf sn ≠ n) :
    Moves (Untouched n) (call.perform sn) := by
  rcases Nat.lt_or_gt_of_ne hsn with hlow | hhigh
  · exact (call.perform_uses.mono (Set.subset_univ _)).moves _ (respects_untouched hlow h)
  · rw [call.perform_refused hhigh]
    exact .pure _

theorem other_sockets_untouched_send : Moves (Untouched 1) (Call.perform 0 (.send [1, 2, 3])) :=
  other_sockets_untouched 0 (.send [1, 2, 3]) 1 (by decide) (by decide)

end SmartBell.Ethernet.W5500
