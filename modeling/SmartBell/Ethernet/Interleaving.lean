import SmartBell.Common.Counter
import SmartBell.Ethernet.Isolation

/-!
# What the host can rely on

The chip goes on between any two accesses. A fact about the board is of use to the host if time does
not undo it. With this in mind: what a look at a socket and a change of it give, and what
`getSn_TX_FSR` and `getSn_RX_RSR` make of a register whose bytes are read one after the other.
-/
namespace SmartBell.Ethernet.W5500
open Common Attempt

/-- The time between two bytes on the bus. -/
def Tick (s t : Board) : Prop := elapse s = (some (), t)

/-- Nothing but time has passed. -/
def Later : Board → Board → Prop := Relation.ReflTransGen Tick

/-- Time does not undo it. -/
def Patient (P : Board → Prop) : Prop := ∀ s t, P s → Tick s t → P t

theorem elapse_stopped {s t : Board} (h : elapse s = (none, t)) : t = s := by
  unfold elapse at h
  split at h
  · exact (Prod.mk.inj h).2.symm
  · simp at h

section Rules
variable {α : Type} {P Q : Board → Prop}

theorem Patient.elapse (h : Patient P) : Triple P elapse (fun _ => P) P := fun s hs =>
  ⟨fun _ t he => h s t hs he, fun _ he => elapse_stopped he ▸ hs⟩

theorem Patient.transfer (h : Patient P) : Triple P transfer (fun _ => P) P := by
  intro s hs
  unfold W5500.transfer
  split_ifs
  · exact h.elapse s hs
  · exact Triple.stop (fun _ hs => hs) s hs

theorem Patient.later (h : Patient P) {s t : Board} (hs : P s) (hst : Later s t) : P t := by
  induction hst with
  | refl => exact hs
  | tail _ htick ih => exact h _ _ ih htick

theorem patient_later (s : Board) : Patient (Later s) := fun _ _ hs htick => hs.tail htick

theorem Patient.and (hP : Patient P) (hQ : Patient Q) : Patient fun s => P s ∧ Q s :=
  fun s t hs htick => ⟨hP s t hs.1 htick, hQ s t hs.2 htick⟩

/-- A look shows what the socket is like now. -/
theorem Patient.peek (h : Patient P) (n : Fin 8) (f : Socket → α) :
    Triple P (peek n f) (fun v s => P s ∧ v = f (s.chip.sockets n)) P :=
  h.transfer.bind fun _ => (Triple.read (Q := fun a s => P s ∧ a = s) fun s hs => ⟨hs, rfl⟩).bind
    fun _ => .pure _ fun _ hs => ⟨hs.1, by rw [hs.2]⟩

theorem Patient.poke (h : Patient P) {n : Fin 8} {g : Socket → Socket}
    (hg : ∀ s, P s → Q (s.update n g)) : Triple P (poke n g) (fun _ => Q) P :=
  h.transfer.bind fun _ => .modify hg

end Rules

/-! ## Facts about one socket -/

/-- The fact holds of the socket. -/
def On (n : Fin 8) (I : Socket → Prop) (s : Board) : Prop := I (s.chip.sockets n)

/-- The chip does not undo it. -/
def Stable (I : Socket → Prop) : Prop := ∀ x a, I x → I (x.act a)

section Stable
variable {α : Type} {n : Fin 8} {I J : Socket → Prop}

theorem Stable.on (h : Stable I) {s t : Board} (hst : Untouched n s t) (hs : On n I s) :
    On n I t := by
  obtain ⟨acts, hacts⟩ := hst.socket
  unfold On
  rw [hacts]
  exact run_invariant h hs acts

theorem Stable.patient (h : Stable I) (n : Fin 8) : Patient (On n I) := by
  intro s t hs htick
  have huntouched := elapse_untouched n s
  rw [htick] at huntouched
  exact h.on huntouched hs

theorem Stable.and (hI : Stable I) (hJ : Stable J) : Stable fun x => I x ∧ J x := fun x a hx =>
  ⟨hI x a hx.1, hJ x a hx.2⟩

/-- What is done to the socket does not matter, if the fact tolerates the writes or is one about
another socket. -/
theorem Stable.respects (h : Stable I) {sn : UInt8} {A : Set Access}
    (hA : slotOf sn = n → ∀ a ∈ A, ∀ y, I y → I (a.apply sn y)) :
    Respects sn A fun s t => On n I s → On n I t where
  preorder := { refl := fun _ h => h, trans := fun _ _ _ h h' hs => h' (h hs) }
  elapse s := h.on (elapse_untouched _ s)
  access a ha s hs := by
    by_cases hslot : slotOf sn = n
    · subst hslot
      simpa [On, Board.update, Chip.setSocket] using hA rfl a ha _ hs
    · simpa [On, Board.update, Chip.setSocket, Function.update_of_ne (Ne.symm hslot)] using hs
  library s t hst hs := by rwa [On, hst.chip]

theorem Stable.elsewhere (h : Stable I) {sn : UInt8} {x : Attempt Board α} {A : Set Access}
    (hx : Uses sn A x) (hne : slotOf sn ≠ n) : Triple (On n I) x (fun _ => On n I) (On n I) :=
  (hx.moves _ (h.respects fun heq => absurd heq hne)).triple fun _ _ hs hst => hst hs

theorem Stable.tolerates (h : Stable I) {sn : UInt8} {x : Attempt Board α} {A : Set Access}
    (hx : Uses sn A x) (hA : ∀ a ∈ A, ∀ y, I y → I (a.apply sn y)) :
    Triple (On (slotOf sn) I) x (fun _ => On (slotOf sn) I) (On (slotOf sn) I) :=
  (hx.moves _ (h.respects fun _ => hA)).triple fun _ _ hs hst => hst hs

/-- A change of the socket by the host. -/
theorem Stable.poke (h : Stable I) {g : Socket → Socket} (hg : ∀ x, I x → J (g x)) :
    Triple (On n I) (poke n g) (fun _ => On n J) (On n I) :=
  (h.patient n).poke fun s hs => by simpa [On, Board.update, Chip.setSocket] using hg _ hs

end Stable

/-! ## A register read twice -/

section ReadTwice
variable {reg : UInt16} {sn : UInt8} {m : Socket → UInt16}

/-- The two bytes of the register show this value. -/
def Shows (reg : UInt16) (sn : UInt8) (m : Socket → UInt16) : Prop :=
  ∀ x : Socket, x.read (reg + shiftOf sn) = highByte (m x) ∧
    x.read (reg + 1 + shiftOf sn) = lowByte (m x)

/-- The value that the board shows for the socket. -/
def Board.shown (m : Socket → UInt16) (sn : UInt8) (s : Board) : UInt16 :=
  m (s.chip.sockets (slotOf sn))

/-- The high byte is from some time, and the low byte from a later one. -/
theorem getWord_torn (hreg : reg ≠ 0xFFFF) (hm : Shows reg sn m) {P : Board → Prop}
    (h : Patient P) :
    Triple P (getWord reg sn) (fun v t => ∃ s₁ s₂, P s₁ ∧ Later s₁ s₂ ∧ Later s₂ t ∧
      v = joinBytes (highByte (s₁.shown m sn)) (lowByte (s₂.shown m sn))) P := by
  rw [getWord_eq reg sn hreg]
  refine (h.peek _ _).mono (fun _ hs => hs) (fun _ _ hs => hs) (fun _ hs => hs)
    |>.bind fun high => ?_
  have hpatient : Patient fun t =>
      ∃ s₁, P s₁ ∧ high = highByte (s₁.shown m sn) ∧ Later s₁ t ∧ P t :=
    fun s t ⟨s₁, hs₁, hhigh, hlater, hs⟩ htick =>
      ⟨s₁, hs₁, hhigh, hlater.tail htick, h s t hs htick⟩
  refine Triple.mono ((hpatient.peek _ _).bind fun low => Triple.pure _ fun t ht => ?_)
    (fun s hs => ⟨s, hs.1, hs.2.trans (hm _).1, .refl, hs.1⟩) (fun _ _ hQ => hQ)
    fun t ⟨_, _, _, _, ht⟩ => ht
  obtain ⟨⟨s₁, hs₁, hhigh, hlater, _⟩, hlow⟩ := ht
  exact ⟨s₁, t, hs₁, hlater, .refl, by rw [hhigh, hlow, (hm _).2]; rfl⟩

/-- If the high byte has not changed between two readings, the low byte of a growing register that
was read between them belongs to it. -/
theorem joinBytes_of_le {a b c : UInt16} (hab : a ≤ b) (hbc : b ≤ c) (h : highByte a = highByte c) :
    joinBytes (highByte a) (lowByte b) = b := by
  have hhigh := congrArg UInt8.toNat h
  rw [highByte_toNat, highByte_toNat] at hhigh
  rw [UInt16.le_iff_toNat_le] at hab hbc
  apply UInt16.toNat_inj.mp
  rw [joinBytes_toNat, highByte_toNat, lowByte_toNat]
  omega

/-- What the two readings that agree have shown: the value is put together of a high and a later low
byte, and after that the register had the same high byte. -/
theorem readTwice_torn (hreg : reg ≠ 0xFFFF) (hm : Shows reg sn m) (s : Board) :
    Triple (Later s) (readTwice reg sn)
      (fun v t => ∃ s₁ s₂ s₃, Later s s₁ ∧ Later s₁ s₂ ∧ Later s₂ s₃ ∧ Later s₃ t ∧
        (v = 0 ∨ v = joinBytes (highByte (s₁.shown m sn)) (lowByte (s₂.shown m sn)) ∧
          highByte (s₁.shown m sn) = highByte (s₃.shown m sn))) (Later s) := by
  refine Triple.loop (P := fun _ => Later s) (fun _ _ h => h) (fun val => ?_) 0
  refine (getWord_torn hreg hm (patient_later s)).bind fun val1 => ?_
  have hpatient : Patient fun t => ∃ s₁ s₂, Later s s₁ ∧ Later s₁ s₂ ∧ Later s₂ t ∧
      val1 = joinBytes (highByte (s₁.shown m sn)) (lowByte (s₂.shown m sn)) :=
    fun t u ⟨s₁, s₂, hs₁, hs₂, ht, hval⟩ htick => ⟨s₁, s₂, hs₁, hs₂, ht.tail htick, hval⟩
  have hstop (t : Board) : (∃ s₁ s₂, Later s s₁ ∧ Later s₁ s₂ ∧ Later s₂ t ∧
      val1 = joinBytes (highByte (s₁.shown m sn)) (lowByte (s₂.shown m sn))) → Later s t :=
    fun ⟨_, _, hs₁, hs₂, ht, _⟩ => (hs₁.trans hs₂).trans ht
  refine .ite (fun _ => ?_) fun hzero => .pure _ fun t ht => ?_
  · refine ((getWord_torn hreg hm hpatient).bind fun val' => .pure _ fun t ht => ?_).mono
      (fun _ h => h) (fun _ _ h => h) hstop
    obtain ⟨s₃, s₄, ⟨s₁, s₂, hs₁, hs₂, hs₃, hval1⟩, hs₄, ht, hval'⟩ := ht
    split_ifs with hne
    · exact (((hs₁.trans hs₂).trans hs₃).trans hs₄).trans ht
    · have heq : val' = val1 := by simpa using hne
      have hhigh := congrArg highByte (hval1.symm.trans (heq.symm.trans hval'))
      rw [highByte_joinBytes, highByte_joinBytes] at hhigh
      exact ⟨s₁, s₂, s₃, hs₁, hs₂, hs₃, hs₄.trans ht, .inr ⟨heq.trans hval1, hhigh⟩⟩
  · split_ifs with hne
    · exact hstop t ht
    · obtain ⟨s₁, s₂, hs₁, hs₂, ht, _⟩ := ht
      have hval : val = 0 := by simp_all
      exact ⟨s₁, s₂, t, hs₁, hs₂, ht, .refl, .inl hval⟩

/-- A register that only grows is not torn: what `getSn_TX_FSR` and `getSn_RX_RSR` return is a value
that it had while they were at work, or zero. -/
theorem readTwice_not_torn (hreg : reg ≠ 0xFFFF) (hm : Shows reg sn m) {s t : Board} {v : UInt16}
    (hmono : ∀ s₁ s₂, Later s s₁ → Later s₁ s₂ → Later s₂ t → s₁.shown m sn ≤ s₂.shown m sn)
    (h : readTwice reg sn s = (some v, t)) :
    ∃ s₁, Later s s₁ ∧ Later s₁ t ∧ (v = 0 ∨ v = s₁.shown m sn) := by
  obtain ⟨s₁, s₂, s₃, hs₁, hs₂, hs₃, ht, hv⟩ := (readTwice_torn hreg hm s s .refl).1 v t h
  have hs : Later s s₂ := hs₁.trans hs₂
  refine ⟨s₂, hs, hs₃.trans ht, ?_⟩
  rcases hv with hzero | ⟨hv, hhigh⟩
  · exact .inl hzero
  · rw [hv]
    exact .inr (joinBytes_of_le (hmono s₁ s₂ hs₁ hs₂ (hs₃.trans ht)) (hmono s₂ s₃ hs hs₃ ht) hhigh)

/-- Some of what is to happen has happened. -/
theorem later_take {s t : Board} (h : Later s t) : ∃ k ≤ s.schedule.length,
    t.chip = run Chip.happen s.chip (s.schedule.take k).flatten ∧
      t.schedule = s.schedule.drop k := by
  induction h with
  | refl => exact ⟨0, Nat.zero_le _, rfl, rfl⟩
  | @tail u t _ htick ih =>
    obtain ⟨k, hk, hchip, hschedule⟩ := ih
    unfold Tick elapse at htick
    split at htick
    · simp at htick
    · rename_i es rest hcons
      obtain rfl := (Prod.mk.inj htick).2
      have hlt : k < s.schedule.length := by
        refine lt_of_le_of_ne hk fun heq => ?_
        rw [hschedule, heq, List.drop_length] at hcons
        exact absurd hcons (List.cons_ne_nil _ _).symm
      rw [hschedule, List.drop_eq_getElem_cons hlt] at hcons
      obtain ⟨rfl, rfl⟩ := List.cons.inj hcons
      refine ⟨k + 1, hlt, ?_, rfl⟩
      rw [← List.take_append_getElem hlt, List.flatten_append, run_append, ← hchip]
      simp

/-- 511 bytes are there, and one more arrives between the two bytes of the first reading. -/
def growingBoard : Board :=
  { Board.powerUp ([] :: [⟨slotOf 0, .receive [7]⟩] :: List.replicate 6 []) with
    registered := true
    chip := Chip.powerUp.setSocket (slotOf 0) { Chip.resetSocket with arrived := 511 } }

/-- The first reading gives 256, which the register never was. -/
theorem readTwice_not_torn_growing :
    (getWord snRXRSR 0 growingBoard).1 = some 256 ∧
      ∃ s₁, Later growingBoard s₁ ∧ Later s₁ (readTwice snRXRSR 0 growingBoard).2 ∧
        ((512 : UInt16) = 0 ∨ 512 = s₁.shown Socket.rxRsr 0) := by
  have hread : (readTwice snRXRSR 0 growingBoard).1 = some 512 := by decide +kernel
  have hshows : Shows snRXRSR 0 Socket.rxRsr := fun x => ⟨rfl, rfl⟩
  have hend : readTwice snRXRSR 0 growingBoard =
      (some 512, (readTwice snRXRSR 0 growingBoard).2) := by rw [← hread]
  have hgrows : ∀ k ≤ 8, ∀ j ≤ 8 - k,
      ((run Chip.happen growingBoard.chip (growingBoard.schedule.take k).flatten).sockets
        (slotOf 0)).rxRsr ≤
      ((run Chip.happen (run Chip.happen growingBoard.chip (growingBoard.schedule.take k).flatten)
        ((growingBoard.schedule.drop k).take j).flatten).sockets (slotOf 0)).rxRsr := by
    decide +kernel
  refine ⟨by decide +kernel, readTwice_not_torn (by decide) hshows (fun s₁ s₂ h₁ h₂ _ => ?_) hend⟩
  obtain ⟨k, hk, hchip, hschedule⟩ := later_take h₁
  obtain ⟨j, hj, hchip', -⟩ := later_take h₂
  rw [hschedule, List.length_drop] at hj
  rw [Board.shown, Board.shown, hchip', hschedule, hchip]
  exact hgrows k hk j hj

/-- Read while the socket is in such a state, it is no more than the register has now. -/
theorem readTwice_le {I : Socket → Prop} (h : Stable I) (hreg : reg ≠ 0xFFFF)
    (hm : Shows reg sn m) (hmono : ∀ x a, I x → m x ≤ m (x.act a)) :
    Triple (On (slotOf sn) I) (readTwice reg sn)
      (fun v s => On (slotOf sn) I s ∧ v ≤ m (s.chip.sockets (slotOf sn))) (On (slotOf sn) I) := by
  have hgrows {s t : Board} (hs : On (slotOf sn) I s) (hst : Later s t) :
      s.shown m sn ≤ t.shown m sn := by
    induction hst with
    | refl => exact UInt16.le_refl _
    | @tail t u hlater htick ih =>
      obtain ⟨acts, hacts⟩ := (elapse_untouched (slotOf sn) t).socket
      rw [htick] at hacts
      refine UInt16.le_trans ih ?_
      rw [Board.shown, Board.shown, hacts]
      have ht : I (t.chip.sockets (slotOf sn)) := (h.patient _).later hs hlater
      clear hacts
      induction acts using List.reverseRecOn with
      | nil => exact UInt16.le_refl _
      | append_singleton acts a ih =>
        rw [run_snoc]
        exact UInt16.le_trans ih (hmono _ a (run_invariant h ht acts))
  intro s hs
  refine ⟨fun v t hread => ?_, fun t hread =>
    (h.patient _).later hs ((readTwice_torn hreg hm s s .refl).2 t hread)⟩
  obtain ⟨s₁, hs₁, ht, hv⟩ := readTwice_not_torn hreg hm
    (fun s₁ s₂ hs₁ hs₂ _ => hgrows ((h.patient _).later hs hs₁) hs₂) hread
  have hmid : On (slotOf sn) I s₁ := (h.patient _).later hs hs₁
  refine ⟨(h.patient _).later hmid ht, ?_⟩
  rcases hv with rfl | rfl
  · exact UInt16.zero_le
  · exact hgrows hmid ht

/-- A register that is at rest is read as it is. -/
theorem getWord_rest {I : Socket → Prop} (h : Stable I) (hreg : reg ≠ 0xFFFF)
    (hm : Shows reg sn m) {w : UInt16} (hw : ∀ x, I x → m x = w) :
    Triple (On (slotOf sn) I) (getWord reg sn) (fun v s => On (slotOf sn) I s ∧ v = w)
      (On (slotOf sn) I) := by
  refine (getWord_torn hreg hm (h.patient (slotOf sn))).mono (fun _ hs => hs) ?_ fun _ hs => hs
  rintro v t ⟨s₁, s₂, hs₁, hs₂, ht, hv⟩
  have hmid : On (slotOf sn) I s₂ := (h.patient _).later hs₁ hs₂
  refine ⟨(h.patient _).later hmid ht, ?_⟩
  rw [hv, Board.shown, Board.shown, hw _ hs₁, hw _ hmid, joinBytes_highByte_lowByte]

end ReadTwice

/-! ## Commands -/

/-- Once a command is accepted the command register is clear. -/
theorem waitCommand_clear {I : Socket → Prop} (h : Stable I) {sn : UInt8}
    (hshift : shiftOf sn = 0) :
    Triple (On (slotOf sn) I) (waitCommand sn)
      (fun _ => On (slotOf sn) fun x => I x ∧ x.cr = 0) (On (slotOf sn) I) := by
  refine Triple.spinWhile (fun _ hs => hs) ?_
  rw [getSnCR, getByte_eq, hshift]
  refine ((h.patient _).peek _ _).bind fun cr => .pure _ fun s hs => ?_
  obtain ⟨hs, hcr⟩ := hs
  by_cases hzero : cr = 0
  · simpa [hzero] using ⟨hs, hcr.symm.trans hzero⟩
  · simpa [hzero] using hs

/-- An order is a write to the command register, and then a wait. -/
theorem order_clear {I J : Socket → Prop} (hI : Stable I) (hJ : Stable J) {sn : UInt8}
    (hshift : shiftOf sn = 0) {cr : UInt8} (hcr : ∀ x, I x → J { x with cr }) {R : Board → Prop}
    (hIR : ∀ s, On (slotOf sn) I s → R s) (hJR : ∀ s, On (slotOf sn) J s → R s) :
    Triple (On (slotOf sn) I) (order sn cr)
      (fun _ => On (slotOf sn) fun x => J x ∧ x.cr = 0) R := by
  rw [order, setSnCR, setByte_eq, hshift]
  refine ((hI.poke fun x hx => ?_).mono (fun _ hs => hs) (fun _ _ hs => hs) hIR).bind fun _ =>
    (waitCommand_clear hJ hshift).mono (fun _ hs => hs) (fun _ _ hs => hs) hJR
  simpa [Socket.write, snCR] using hcr x hx

end SmartBell.Ethernet.W5500
