import SmartBell.Ethernet.Session

/-!
# The bytes that are received

Over a connection `recv` gives what the network has brought: in order, each byte once, and none
that was overwritten in the buffer before it was read.
-/
namespace SmartBell.Ethernet.W5500
open Common Attempt

namespace Socket

/-- The host has read these bytes since the pointers were at `base`; what it has not told the chip
to be done with is still in the buffer. -/
structure RxHolds (base : Nat) (got : List UInt8) (x : Socket) : Prop where
  opened : Opened x
  start : base ≤ x.freed
  freed : x.freed ≤ base + got.length
  arrived : x.arrived = base + x.heard.length
  read : got <+: x.heard
  kept : Ring.Holds (Ring.window x.rx x.rxSize) x.freed (x.heard.drop (x.freed - base))
  ordered : x.cr = snCrRecv → x.word snRXRD = UInt16.ofNat (base + got.length)

/-- A byte that arrives goes behind the others if there is room. -/
theorem store_kept {x : Socket} {base : Nat} (v : UInt8) (hstart : base ≤ x.freed)
    (hfreed : x.freed ≤ x.arrived) (harrived : x.arrived = base + x.heard.length)
    (hkept : Ring.Holds (Ring.window x.rx x.rxSize) x.freed (x.heard.drop (x.freed - base)))
    (hroom : x.arrived < x.freed + x.rxSize) :
    Ring.Holds (Ring.window (x.store v).rx (x.store v).rxSize) (x.store v).freed
      ((x.store v).heard.drop ((x.store v).freed - base)) := by
  have hlength : (x.heard.drop (x.freed - base)).length = x.arrived - x.freed := by
    rw [List.length_drop]
    omega
  have hpush := hkept.push (by omega) v
  have hplace : x.freed + (x.heard.drop (x.freed - base)).length = x.arrived := by omega
  rwa [hplace, ← Ring.window_update, ← List.drop_append_of_le_length (by omega)] at hpush

theorem foldl_store_kept {base : Nat} (bytes : List UInt8) {x : Socket} (hstart : base ≤ x.freed)
    (hfreed : x.freed ≤ x.arrived) (harrived : x.arrived = base + x.heard.length)
    (hkept : Ring.Holds (Ring.window x.rx x.rxSize) x.freed (x.heard.drop (x.freed - base)))
    (hroom : x.arrived + bytes.length ≤ x.freed + x.rxSize) :
    Ring.Holds (Ring.window (bytes.foldl store x).rx x.rxSize) x.freed
      ((bytes.foldl store x).heard.drop (x.freed - base)) := by
  induction bytes generalizing x with
  | nil => exact hkept
  | cons v bytes ih =>
    rw [List.length_cons] at hroom
    refine ih (x := x.store v) hstart (Nat.le_succ_of_le hfreed) ?_ ?_ ?_
    · simp only [store, List.length_append, List.length_singleton, harrived, Nat.add_assoc]
    · exact store_kept v hstart hfreed harrived hkept (by omega)
    · simp only [store, rxSize] at hroom ⊢
      omega

namespace RxHolds
variable {base : Nat} {got : List UInt8} {x y : Socket}

theorem got_le (h : RxHolds base got x) : base + got.length ≤ x.arrived := by
  have hread := h.read.length_le
  have harrived := h.arrived
  omega

theorem length_le (h : RxHolds base got x) : x.arrived ≤ x.freed + x.rxSize := by
  have hfits := h.kept.fits
  have hstart := h.start
  have harrived := h.arrived
  rw [List.length_drop] at hfits
  omega

/-- A byte that has not been read yet. -/
theorem next (h : RxHolds base got x) {i : Nat} (hlow : x.freed ≤ base + i)
    (hi : i < x.heard.length) : x.rx ((base + i) % x.rxSize) = x.heard[i] := by
  have hstart := h.start
  have hcell := h.kept.get (i := base + i - x.freed) (by rw [List.length_drop]; omega)
  have hplace : x.freed + (base + i - x.freed) = base + i := by omega
  have hindex : x.freed - base + (base + i - x.freed) = i := by omega
  rw [hplace, List.getElem_drop] at hcell
  simpa only [hindex] using hcell

/-- The chip keeps it so, whatever it does. -/
theorem act (h : RxHolds base got x) (a : Act) : RxHolds base got (x.act a) := by
  have hsize := (x.act_size a).2
  have hword := act_rxWord h.opened.command a
  have hnone : (0 : UInt8) ≠ snCrRecv := by decide
  have hstart := h.start
  have hfreed := h.freed
  have harrived := h.arrived
  have hgot := h.got_le
  have hopened := h.opened.act a
  rcases rxMove h.opened.command a with ⟨efreed, earrived, erx, eheard, ecr⟩ |
    ⟨hordered, efreed, earrived, erx, eheard, ecr⟩ | ⟨bytes, hroom, hstored⟩
  · have hkept := h.kept
    rw [← hsize, ← erx, ← efreed, ← eheard] at hkept
    refine ⟨hopened, by omega, by omega, by rw [earrived, eheard, harrived], eheard ▸ h.read, hkept,
      fun hcr => ?_⟩
    rcases ecr with ecr | ecr
    · rw [hword, h.ordered (ecr ▸ hcr)]
    · exact absurd (ecr.1.symm.trans hcr) hnone
  · have hlength := h.length_le
    have hle := h.opened.rx_le
    rw [h.ordered hordered, ofNat_sub_ofNat_toNat (by omega) (by omega)] at efreed
    have hkept := h.kept.drop ((x.act a).freed - x.freed)
    have hfront : x.freed + ((x.act a).freed - x.freed) = (x.act a).freed := by omega
    have hdrop : x.freed - base + ((x.act a).freed - x.freed) = (x.act a).freed - base := by omega
    rw [List.drop_drop, hfront, hdrop, ← hsize, ← erx, ← eheard] at hkept
    refine ⟨hopened, by omega, by omega, by rw [earrived, eheard, harrived], eheard ▸ h.read, hkept,
      fun hcr => ?_⟩
    exact absurd (ecr.symm.trans hcr) hnone
  · have hkept := foldl_store_kept bytes hstart (by omega) harrived h.kept hroom
    obtain ⟨rx, hall⟩ := foldl_store bytes x
    rw [hstored, hall] at hopened ⊢
    rw [hall] at hkept
    refine ⟨hopened, hstart, hfreed, ?_, h.read.trans (List.prefix_append _ _), hkept, h.ordered⟩
    simp only [List.length_append]
    omega

/-- The host keeps it so with a write that is none to the receive side. -/
theorem host (h : RxHolds base got x) (hy : Opened y) (hsame : SameRx x y) :
    RxHolds base got y := by
  have hsize : y.rxSize = x.rxSize := by rw [rxSize, rxSize, hsame.size]
  refine ⟨hy, ?_, ?_, ?_, ?_, ?_, fun hcr => ?_⟩
  · exact hsame.freed ▸ h.start
  · exact hsame.freed ▸ h.freed
  · rw [hsame.arrived, hsame.heard]
    exact h.arrived
  · exact hsame.heard ▸ h.read
  · rw [hsize, hsame.rx, hsame.freed, hsame.heard]
    exact h.kept
  · rw [hsame.pointer]
    exact h.ordered (hsame.cr.resolve_right (absurd hcr) ▸ hcr)

end RxHolds

/-- A move without an order pending frees nothing, and leaves none pending. -/
theorem RxMove.freed_eq {x y : Socket} (h : RxMove x y) (hcr : x.cr ≠ snCrRecv) :
    y.freed = x.freed ∧ y.cr ≠ snCrRecv := by
  have hnone : (0 : UInt8) ≠ snCrRecv := by decide
  rcases h with ⟨efreed, _, _, _, ecr⟩ | ⟨hordered, _, _, _, _, _⟩ | ⟨bytes, _, hstored⟩
  · refine ⟨efreed, ?_⟩
    rcases ecr with ecr | ecr
    · rwa [ecr]
    · rwa [ecr.1]
  · exact absurd hordered hcr
  · obtain ⟨rx, hall⟩ := foldl_store bytes x
    rw [hstored, hall]
    exact ⟨rfl, hcr⟩

/-- Between two calls everything that was read is given back to the chip. -/
structure RxIdle (base : Nat) (got : List UInt8) (x : Socket) : Prop where
  holds : RxHolds base got x
  pointer : x.word snRXRD = UInt16.ofNat (base + got.length)
  full : x.freed = base + got.length
  quiet : x.cr ≠ snCrRecv

/-- The next bytes have been read, and there are so many more. -/
structure RxPart (base : Nat) (got part : List UInt8) (k : Nat) (x : Socket) : Prop where
  idle : RxIdle base got x
  read : got ++ part <+: x.heard
  more : base + got.length + part.length + k ≤ x.arrived

/-- The bytes are read; the high byte of the pointer is written. -/
structure RxHalfway (base : Nat) (got : List UInt8) (x : Socket) : Prop where
  holds : RxHolds base got x
  high : x.bytes snRXRD = highByte (UInt16.ofNat (base + got.length))
  quiet : x.cr ≠ snCrRecv

/-- The pointer is written. -/
structure RxReady (base : Nat) (got : List UInt8) (x : Socket) : Prop where
  holds : RxHolds base got x
  pointer : x.word snRXRD = UInt16.ofNat (base + got.length)
  quiet : x.cr ≠ snCrRecv

/-- The order is given, and perhaps taken. -/
structure RxOrdered (base : Nat) (got : List UInt8) (x : Socket) : Prop where
  holds : RxHolds base got x
  pointer : x.word snRXRD = UInt16.ofNat (base + got.length)
  taken : x.cr ≠ snCrRecv → x.freed = base + got.length

section Phases
variable {base : Nat} {got part : List UInt8} {k : Nat} {x y : Socket}

theorem RxHolds.word_act (h : RxHolds base got x) (a : Act) :
    (x.act a).word snRXRD = x.word snRXRD := act_rxWord h.opened.command a

theorem RxHolds.heard_act (h : RxHolds base got x) (a : Act) :
    x.heard <+: (x.act a).heard ∧ x.arrived ≤ (x.act a).arrived := by
  rcases rxMove h.opened.command a with ⟨_, earrived, _, eheard, _⟩ |
    ⟨_, _, earrived, _, eheard, _⟩ |
    ⟨bytes, _, hstored⟩
  · exact ⟨eheard ▸ List.prefix_rfl, earrived.ge⟩
  · exact ⟨eheard ▸ List.prefix_rfl, earrived.ge⟩
  · obtain ⟨rx, hall⟩ := foldl_store bytes x
    rw [hstored, hall]
    exact ⟨List.prefix_append _ _, Nat.le_add_right _ _⟩

theorem RxIdle.stable (base : Nat) (got : List UInt8) : Stable (RxIdle base got) := by
  intro x a h
  obtain ⟨hfreed, hquiet⟩ := (rxMove h.holds.opened.command a).freed_eq h.quiet
  exact ⟨h.holds.act a, (h.holds.word_act a).trans h.pointer, hfreed.trans h.full, hquiet⟩

theorem RxPart.stable (base : Nat) (got part : List UInt8) (k : Nat) :
    Stable (RxPart base got part k) := by
  intro x a h
  obtain ⟨hheard, harrived⟩ := h.idle.holds.heard_act a
  exact ⟨RxIdle.stable base got x a h.idle, h.read.trans hheard, h.more.trans harrived⟩

theorem RxHalfway.stable (base : Nat) (got : List UInt8) : Stable (RxHalfway base got) := by
  intro x a h
  refine ⟨h.holds.act a, ?_, ((rxMove h.holds.opened.command a).freed_eq h.quiet).2⟩
  rw [act_rxBytes h.holds.opened.command a (by decide), h.high]

theorem RxReady.stable (base : Nat) (got : List UInt8) : Stable (RxReady base got) := by
  intro x a h
  exact ⟨h.holds.act a, (h.holds.word_act a).trans h.pointer,
    ((rxMove h.holds.opened.command a).freed_eq h.quiet).2⟩

theorem RxOrdered.stable (base : Nat) (got : List UInt8) : Stable (RxOrdered base got) := by
  intro x a h
  refine ⟨h.holds.act a, (h.holds.word_act a).trans h.pointer, fun hcr => ?_⟩
  by_cases hrecv : x.cr = snCrRecv
  · have hgot := h.holds.got_le
    have hlength := h.holds.length_le
    have hfreed := h.holds.freed
    have hle := h.holds.opened.rx_le
    rcases rxMove h.holds.opened.command a with ⟨_, _, _, _, ecr⟩ | ⟨_, efreed, _, _, _, _⟩ |
      ⟨bytes, _, hstored⟩
    · rcases ecr with ecr | ecr
      · exact absurd (ecr.trans hrecv) hcr
      · exact absurd hrecv ecr.2
    · rw [efreed, h.pointer, ofNat_sub_ofNat_toNat (by omega) (by omega)]
      omega
    · obtain ⟨rx, hall⟩ := foldl_store bytes x
      rw [hstored, hall] at hcr
      exact absurd hrecv hcr
  · rw [((rxMove h.holds.opened.command a).freed_eq hrecv).1]
    exact h.taken hrecv

/-- `Sn_RX_RSR` shows how many bytes there are to be read. -/
theorem RxIdle.rxRsr (h : RxIdle base got x) :
    base + got.length + x.rxRsr.toNat = x.arrived := by
  have hgot := h.holds.got_le
  have hlength := h.holds.length_le
  have hfull := h.full
  have hle := h.holds.opened.rx_le
  rw [Socket.rxRsr, h.pointer, ofNat_sub_ofNat_toNat hgot (by omega)]
  omega

theorem RxIdle.rxRsr_le (h : RxIdle base got x) (a : Act) : x.rxRsr ≤ (x.act a).rxRsr := by
  have hbefore := h.rxRsr
  have hafter := (RxIdle.stable base got x a h).rxRsr
  have harrived := (h.holds.heard_act a).2
  rw [UInt16.le_iff_toNat_le]
  omega

/-- The next byte is read. -/
theorem RxPart.readRx (h : RxPart base got part (k + 1) x) :
    RxPart base got
      (part ++ [x.readRx (UInt16.ofNat (base + got.length + part.length))]) k x := by
  have hmore := h.more
  have harrived := h.idle.holds.arrived
  have hfull := h.idle.full
  have hlt : got.length + part.length < x.heard.length := by omega
  have hcell := h.idle.holds.next (i := got.length + part.length) (by omega) hlt
  have hread : x.readRx (UInt16.ofNat (base + got.length + part.length)) =
      x.heard[got.length + part.length] := by
    rw [Socket.readRx, ofNat_toNat_mod h.idle.holds.opened.rx_dvd, Nat.add_assoc, hcell]
  refine ⟨h.idle, ?_, ?_⟩
  · have htake := List.prefix_iff_eq_take.mp h.read
    rw [List.length_append] at htake
    rw [hread, ← List.append_assoc, htake, List.take_append_getElem hlt]
    exact List.take_prefix _ _
  · rw [List.length_append, List.length_singleton]
    omega

theorem RxPart.writeHigh (h : RxPart base got part 0 x) :
    RxHalfway base (got ++ part)
      (x.write snRXRD (highByte (UInt16.ofNat (base + (got ++ part).length)))) := by
  have hopened : Opened (x.write snRXRD (highByte (UInt16.ofNat (base + (got ++ part).length)))) :=
    h.idle.holds.opened.write (by decide) fun heq => absurd heq (by decide)
  have hfreed := h.idle.holds.freed
  rw [write_bytes (by simp)] at hopened ⊢
  refine ⟨⟨hopened, h.idle.holds.start, ?_, h.idle.holds.arrived, h.read, h.idle.holds.kept, ?_⟩,
    by simp, h.idle.quiet⟩
  · rw [List.length_append]
    exact hfreed.trans (by omega)
  · exact fun hcr => absurd hcr h.idle.quiet

theorem RxHalfway.writeLow (h : RxHalfway base got x) :
    RxReady base got (x.write (snRXRD + 1) (lowByte (UInt16.ofNat (base + got.length)))) := by
  have hopened : Opened (x.write (snRXRD + 1) (lowByte (UInt16.ofNat (base + got.length)))) :=
    h.holds.opened.write (by decide) fun heq => absurd heq (by decide)
  rw [write_bytes (by simp)] at hopened ⊢
  refine ⟨?_, ?_, h.quiet⟩
  · exact { h.holds with opened := hopened, ordered := fun hcr => absurd hcr h.quiet }
  · have hne : snRXRD ≠ snRXRD + 1 := by decide
    simp only [word, Function.update_self, Function.update_of_ne hne, h.high,
      joinBytes_highByte_lowByte]

theorem RxReady.order (h : RxReady base got x) : RxOrdered base got { x with cr := snCrRecv } := by
  have hcommand : snCrRecv ≠ snCrOpen := by decide
  refine ⟨?_, h.pointer, fun hcr => absurd rfl hcr⟩
  exact { h.holds with
    opened := { h.holds.opened with command := hcommand }, ordered := fun _ => h.pointer }

theorem RxOrdered.idle (h : RxOrdered base got x) (hcr : x.cr = 0) : RxIdle base got x := by
  have hnone : x.cr ≠ snCrRecv := by
    rw [hcr]
    decide
  exact ⟨h.holds, h.pointer, h.taken hnone, hnone⟩

theorem RxIdle.host (h : RxIdle base got x) (hy : Opened y) (hsame : SameRx x y) :
    RxIdle base got y := by
  refine ⟨h.holds.host hy hsame, hsame.pointer.trans h.pointer, hsame.freed.trans h.full, ?_⟩
  rcases hsame.cr with hcr | hcr
  · rw [hcr]
    exact h.quiet
  · exact hcr

/-- What was read and what is there does not change with registers that are not of the receive
side. -/
theorem RxPart.host (h : RxPart base got part k x) (hy : Opened y) (hsame : SameRx x y) :
    RxPart base got part k y :=
  ⟨h.idle.host hy hsame, hsame.heard ▸ h.read, hsame.arrived ▸ h.more⟩

end Phases

end Socket

open Socket

/-! ## The functions -/

section Functions
variable {sn : UInt8} {base : Nat} {got : List UInt8} {x : Socket} {α : Type}

/-- Everything but what receives. -/
theorem send_subset_traffic : housekeeping ∪ connecting ∪ transmission ⊆ traffic :=
  Set.subset_union_left

/-- Between two calls a computation may do anything but receive. -/
theorem RxIdle.uses (hshift : shiftOf sn = 0) {x : Attempt Board α}
    (hx : Uses sn (housekeeping ∪ connecting ∪ transmission) x) :
    Triple (On (slotOf sn) (RxIdle base got)) x (fun _ => On (slotOf sn) (RxIdle base got))
      (On (slotOf sn) (RxIdle base got)) :=
  (RxIdle.stable base got).tolerates hx fun _ ha _ hy =>
    hy.host (hy.holds.opened.host hshift (send_subset_traffic ha)) (sameRx_host hshift ha)

theorem RxPart.uses {k : Nat} (hshift : shiftOf sn = 0) {x : Attempt Board α}
    (hx : Uses sn (housekeeping ∪ connecting ∪ transmission) x) :
    Triple (On (slotOf sn) (RxPart base got [] k)) x
      (fun _ => On (slotOf sn) (RxPart base got [] k)) (On (slotOf sn) (RxIdle base got)) :=
  ((RxPart.stable base got [] k).tolerates hx fun _ ha _ hy =>
    hy.host (hy.idle.holds.opened.host hshift (send_subset_traffic ha))
      (sameRx_host hshift ha)).mono (fun _ hs => hs) (fun _ _ hs => hs) fun _ hs => RxPart.idle hs

theorem shows_rxRsr (hshift : shiftOf sn = 0) : Shows snRXRSR sn Socket.rxRsr := fun x => by
  rw [hshift]
  exact ⟨rfl, rfl⟩

theorem shows_rxRd (hshift : shiftOf sn = 0) : Shows snRXRD sn (·.word snRXRD) := fun x => by
  rw [hshift]
  exact ⟨(highByte_joinBytes _ _).symm, (lowByte_joinBytes _ _).symm⟩

/-- There are as many bytes as `getSn_RX_RSR` says. -/
theorem getSnRXRSR_part (hshift : shiftOf sn = 0) :
    Triple (On (slotOf sn) (RxIdle base got)) (getSnRXRSR sn)
      (fun v => On (slotOf sn) (RxPart base got [] v.toNat))
      (On (slotOf sn) (RxIdle base got)) := by
  refine (readTwice_le (RxIdle.stable base got) (by decide) (shows_rxRsr hshift)
    fun x a hx => hx.rxRsr_le a).mono (fun _ hs => hs) (fun v s hs => ?_) fun _ hs => hs
  obtain ⟨hs, hv⟩ := hs
  have hthere := RxIdle.rxRsr hs
  have hread := hs.holds.read
  rw [UInt16.le_iff_toNat_le] at hv
  refine ⟨hs, by rwa [List.append_nil], ?_⟩
  rw [List.length_nil]
  omega

theorem waitForData_part (hshift : shiftOf sn = 0) :
    Triple (On (slotOf sn) (RxIdle base got)) (waitForData sn)
      (fun ready s => Sum.elim (fun _ => On (slotOf sn) (RxIdle base got) s)
        (fun recvsize => On (slotOf sn) (RxPart base got [] recvsize.toNat) s) ready)
      (On (slotOf sn) (RxIdle base got)) := by
  have hkeep : housekeeping ⊆ housekeeping ∪ connecting ∪ transmission := fun _ ha => .inl (.inl ha)
  have hidle {k : Nat} (s : Board) (hs : On (slotOf sn) (RxPart base got [] k) s) :
      On (slotOf sn) (RxIdle base got) s := RxPart.idle hs
  refine .repeatUntil (fun _ hs => hs) ((getSnRXRSR_part hshift).bind fun recvsize => ?_)
  refine (RxPart.uses hshift (getByte_uses _ _)).bind fun tmp => .ite (fun _ => ?_) fun _ => ?_
  · refine .ite (fun _ => ?_) fun _ => ?_
    · refine .ite (fun _ => .pure _ fun _ hs => hs) fun _ => ?_
      refine (RxPart.uses hshift (readTwice_uses (by decide) _)).bind fun freesize => ?_
      refine (RxPart.uses hshift (getSnTxMAX_uses _)).bind fun max => .ite (fun _ => ?_) fun _ => ?_
      · exact (RxPart.uses hshift (close_uses.mono hkeep)).bind fun _ => .pure _ hidle
      · refine (RxPart.uses hshift (nonblocking_uses _)).bind fun _ => ?_
        exact .ite (fun _ => .pure _ hidle) fun _ => .pure _ hidle
    · exact (RxPart.uses hshift (close_uses.mono hkeep)).bind fun _ => .pure _ hidle
  · refine (RxPart.uses hshift (nonblocking_uses _)).bind fun _ => ?_
    refine .ite (fun _ => .pure _ hidle) fun _ => ?_
    exact .ite (fun _ => .pure _ fun _ hs => hs) fun _ => .pure _ hidle

/-- The bytes are read one after the other. -/
theorem peekEach_part {n : Fin 8} (k : Nat) (part : List UInt8) {R : Board → Prop}
    (hR : ∀ s, On n (RxIdle base got) s → R s) :
    Triple (On n (RxPart base got part k))
      (peekEach n (fun offset x => x.readRx offset)
        (UInt16.ofNat (base + got.length + part.length)) k)
      (fun vs s => On n (RxPart base got (part ++ vs) 0) s ∧ vs.length = k) R := by
  induction k generalizing part with
  | zero =>
    refine .pure _ fun _ hs => ⟨?_, rfl⟩
    rwa [List.append_nil]
  | succ k ih =>
    have hpeek (offset : UInt16)
        (hplace : offset = UInt16.ofNat (base + got.length + part.length)) :
        Triple (On n (RxPart base got part (k + 1))) (peek n fun x => x.readRx offset)
          (fun v => On n (RxPart base got (part ++ [v]) k)) R := by
      refine (((RxPart.stable base got part (k + 1)).patient n).peek n _).mono (fun _ hs => hs)
        (fun v s hs => ?_) fun s hs => hR s (RxPart.idle hs)
      rw [hs.2, hplace]
      exact RxPart.readRx hs.1
    refine (hpeek _ rfl).bind fun v => ?_
    have hrest := ih (part ++ [v])
    have hoffset : UInt16.ofNat (base + got.length + part.length) + 1 =
        UInt16.ofNat (base + got.length + (part ++ [v]).length) := by
      rw [ofNat_add_word]
      simp [Nat.add_assoc]
    rw [hoffset]
    refine hrest.bind fun vs => .pure _ fun s hs => ⟨?_, congrArg (· + 1) hs.2⟩
    have hparts := hs.1
    rwa [List.append_assoc, List.singleton_append] at hparts

/-- `wiz_recv_data` reads the next bytes and moves the pointer. -/
theorem wizRecvData_ready (hshift : shiftOf sn = 0) (len : UInt16) {R : Board → Prop}
    (hR : ∀ s more, On (slotOf sn) (RxHolds base (got ++ more)) s → R s) :
    Triple (On (slotOf sn) (RxPart base got [] len.toNat)) (wizRecvData sn len)
      (fun wizdata => On (slotOf sn) (RxReady base (got ++ wizdata))) R := by
  have hidle (s : Board) (hs : On (slotOf sn) (RxIdle base got) s) : R s := by
    refine hR s [] ?_
    rw [List.append_nil]
    exact RxIdle.holds hs
  refine .ite (fun hzero => .pure _ fun s hs => ?_) fun _ => ?_
  · rw [List.append_nil]
    exact ⟨hs.idle.holds, hs.idle.pointer, hs.idle.quiet⟩
  refine ((getWord_rest (RxPart.stable base got [] len.toNat) (by decide) (shows_rxRd hshift)
    fun x hx => hx.idle.pointer).mono (fun _ hs => hs) (fun _ _ hs => hs) fun s hs =>
      hidle s (RxPart.idle hs)).bind fun ptr => .assume fun hptr => ?_
  have hread : Triple (On (slotOf sn) (RxPart base got [] len.toNat))
      (wizchipReadBuf board callbacks (addrSel ptr (rxbufBlock sn)) len)
      (fun wizdata s => On (slotOf sn) (RxPart base got wizdata 0) s ∧ wizdata.length = len.toNat) R
      := by
    rw [wizchipReadBuf_rxbuf, hshift, UInt16.add_zero, hptr]
    exact peekEach_part len.toNat [] hidle
  refine hread.bind fun wizdata => .assume fun hlength => ?_
  have hadvance : ptr + len = UInt16.ofNat (base + (got ++ wizdata).length) := by
    rw [hptr, ofNat_add_word, List.length_append, hlength, Nat.add_assoc]
  rw [hadvance, setSnRXRD, setWord_eq _ _ (by decide), hshift, UInt16.add_zero, UInt16.add_zero]
  refine Triple.bind ?_ fun _ => .pure wizdata fun _ hs => hs
  refine (((RxPart.stable base got wizdata 0).poke fun x hx => hx.writeHigh).mono (fun _ hs => hs)
    (fun _ _ hs => hs) fun s hs => hidle s (RxPart.idle hs)).bind fun _ => ?_
  exact ((RxHalfway.stable base _).poke fun x hx => hx.writeLow).mono (fun _ hs => hs)
    (fun _ _ hs => hs) fun s hs => hR s _ (RxHalfway.holds hs)

/-- A call that reports an error has read nothing. -/
theorem fail_rxIdle (error : Int) {n : Fin 8} {R : Board → Prop} :
    Triple (On n (RxIdle base got)) (W5500.fail error)
      (fun r => On n (RxIdle base (got ++ r.stored))) R := by
  refine .pure _ fun s hs => ?_
  rwa [List.append_nil]

/-- What was read before is the start of what has come, also where a call is cut short. -/
def RxCut (got : List UInt8) (x : Socket) : Prop := got <+: x.heard

theorem RxHolds.cut {more : List UInt8} (h : RxHolds base (got ++ more) x) : RxCut got x :=
  (List.prefix_append _ _).trans h.read

theorem RxIdle.cut (h : RxIdle base got x) : RxCut got x := h.holds.read

theorem recvBytes_idle (hshift : shiftOf sn = 0) (len : UInt16) :
    Triple (On (slotOf sn) (RxPart base got [] len.toNat)) (recvBytes sn len)
      (fun r => On (slotOf sn) (RxIdle base (got ++ r.stored))) (On (slotOf sn) (RxCut got)) := by
  refine (wizRecvData_ready hshift len fun s more hs => RxHolds.cut hs).bind fun wizdata => ?_
  refine (order_clear (RxReady.stable _ _) (RxOrdered.stable _ _) hshift (fun x hx => hx.order)
    (fun s hs => RxHolds.cut (RxReady.holds hs)) fun s hs =>
      RxHolds.cut (RxOrdered.holds hs)).bind fun _ => ?_
  exact .pure _ fun s hs => hs.1.idle hs.2

theorem recv_idle (hshift : shiftOf sn = 0) (len : UInt16) :
    Triple (On (slotOf sn) (RxIdle base got)) (recv sn len)
      (fun r => On (slotOf sn) (RxIdle base (got ++ r.stored))) (On (slotOf sn) (RxCut got)) := by
  have huses {β : Type} {x : Attempt Board β}
      (hx : Uses sn (housekeeping ∪ connecting ∪ transmission) x) :
      Triple (On (slotOf sn) (RxIdle base got)) x (fun _ => On (slotOf sn) (RxIdle base got))
        (On (slotOf sn) (RxCut got)) :=
    (RxIdle.uses hshift hx).mono (fun _ hs => hs) (fun _ _ hs => hs) fun _ hs => RxIdle.cut hs
  refine .ite (fun _ => fail_rxIdle _) fun _ => ?_
  refine (huses (getByte_uses _ _)).bind fun _ => .ite (fun _ => fail_rxIdle _) fun _ => ?_
  refine .ite (fun _ => fail_rxIdle _) fun _ => (huses (getSnRxMAX_uses _)).bind fun max => ?_
  refine ((waitForData_part hshift).mono (fun _ hs => hs) (fun _ _ hs => hs) fun _ hs =>
    RxIdle.cut hs).bind fun ready => ?_
  cases ready with
  | inl error => exact fail_rxIdle _
  | inr recvsize =>
    refine (recvBytes_idle hshift _).mono (fun s hs => ?_) (fun _ _ hs => hs) fun _ hs => hs
    refine ⟨hs.idle, hs.read, (Nat.add_le_add_left ?_ _).trans hs.more⟩
    generalize (if max < len then max else len) = wanted
    split_ifs with hless
    · exact le_rfl
    · rw [UInt16.lt_iff_toNat_lt] at hless
      omega

/-- The bytes that a call has read, if it is for receiving. -/
def Call.delivered (call : Call) (reply : Reply) : List UInt8 :=
  match call with
  | .recv _ => reply.stored
  | _ => []

end Functions

/-! ## From where the socket is opened -/

section Sessions
variable {sn : UInt8} {got : List UInt8} {n : Fin 8}

/-- These bytes have been read since the socket was opened. -/
def RxLive (got : List UInt8) (x : Socket) : Prop := ∃ base, RxIdle base got x

theorem RxLive.stable (got : List UInt8) : Stable (RxLive got) := fun x a ⟨base, h⟩ =>
  ⟨base, RxIdle.stable base got x a h⟩

theorem RxLive.opened {x : Socket} (h : RxLive got x) : Opened x := by
  obtain ⟨base, h⟩ := h
  exact h.holds.opened

theorem RxLive.host {x : Socket} (h : RxLive got x) (hshift : shiftOf sn = 0) {a : Access}
    (ha : a ∈ housekeeping ∪ connecting ∪ transmission) : RxLive got (a.apply sn x) := by
  obtain ⟨base, h⟩ := h
  exact ⟨base, h.host (h.holds.opened.host hshift (send_subset_traffic ha))
    (sameRx_host hshift ha)⟩

theorem opened_rxLive {x : Socket} (hx : Moded snMrTcp x) (hcr : x.cr = snCrOpen) :
    RxLive [] x.accept := by
  have hsized : Sized x.accept := hx.1.act .accept
  have hmode : x.accept.bytes snMR &&& 0x0F = snMrTcp := by
    rw [← Socket.act, x.act_bytes .accept (by decide)]
    exact hx.2
  have hnone : (0 : UInt8) ≠ snCrOpen ∧ (0 : UInt8) ≠ snCrRecv := by decide
  rw [accept_open hx.2 hcr] at hsized hmode ⊢
  have hpointer : ((x.restartTx 0).restartRx 0).word snRXRD = UInt16.ofNat 0 :=
    (x.restartTx 0).word_setWord (by decide) _
  refine ⟨0, ⟨⟨hsized, hmode, hnone.1⟩, le_rfl, le_rfl, rfl, List.nil_prefix, ?_, ?_⟩, hpointer,
    rfl, hnone.2⟩
  · exact .nil _ _
  · exact fun _ => hpointer

theorem recv_kept : Kept Call.delivered RxLive fun got _ => RxCut got where
  stable := RxLive.stable
  sized _ _ hx := hx.opened.toSized
  host _ _ hshift _ ha _ hx := hx.host hshift (.inl (.inl ha))
  opened _ hx hcr := opened_rxLive hx hcr
  refused call := by cases call <;> rfl
  call got sn call hshift hopens := by
    have hstable : Stable (RxLive got) := RxLive.stable got
    have hcut (s : Board) (hs : On (slotOf sn) (RxLive got) s) : On (slotOf sn) (RxCut got) s := by
      obtain ⟨base, h⟩ := hs
      exact RxIdle.cut h
    -- A call that receives nothing reads nothing, whatever it returns.
    have hkept (hcall : ∀ r, call.delivered r = []) (hx : Triple (On (slotOf sn) (RxLive got))
        (call.perform sn) (fun _ => On (slotOf sn) (RxLive got)) (On (slotOf sn) (RxLive got))) :
        Triple (On (slotOf sn) (RxLive got)) (call.perform sn)
          (fun r => On (slotOf sn) (RxLive (got ++ call.delivered r)))
          (On (slotOf sn) (RxCut got)) := by
      refine hx.mono (fun _ hs => hs) (fun r s hs => ?_) hcut
      rwa [hcall, List.append_nil]
    have huses (hcall : ∀ r, call.delivered r = [])
        (hA : call.accesses ⊆ housekeeping ∪ connecting ∪ transmission) :=
      hkept hcall (hstable.tolerates (call.perform_uses.mono hA) fun a ha x hx => hx.host hshift ha)
    cases call with
    | socket => exact absurd hopens Bool.noConfusion
    | recv len =>
      refine Triple.mono (.exists fun base => (recv_idle hshift len).mono (fun _ hs => hs)
        (fun _ _ hs => ⟨base, hs⟩) fun _ hs => hs) (fun _ hs => hs) (fun _ _ hs => hs)
        fun _ hs => hs
    | recvfrom =>
      exact hkept (fun _ => rfl) (checkDatagram_refuses hstable (fun x hx => hx.opened) hshift _)
    | listen | connect => exact huses (fun _ => rfl) Set.subset_union_left
    | send | sendto => exact huses (fun _ => rfl) fun _ ha => ha.imp_left .inl
    | close | disconnect | ctlsocket | setsockopt | getsockopt =>
      exact huses (fun _ => rfl) fun _ ha => .inl (.inl ha)

/-- What has come and is not read yet. -/
def Socket.unread (x : Socket) : List UInt8 :=
  (List.range (x.arrived - x.freed)).map fun i => x.rx ((x.freed + i) % x.rxSize)

/-- What is not read yet is in the buffer. -/
theorem Socket.RxIdle.unread {base : Nat} {x : Socket} (h : RxIdle base got x) :
    x.heard = got ++ x.unread := by
  have hfull := h.full
  have harrived := h.holds.arrived
  have hgot := h.holds.got_le
  have hkept := h.holds.kept
  have hlength : (x.heard.drop (x.freed - base)).length = x.arrived - x.freed := by
    rw [List.length_drop]
    omega
  have hread : got = x.heard.take (x.freed - base) := by
    rw [hfull, Nat.add_sub_cancel_left]
    exact List.prefix_iff_eq_take.mp h.holds.read
  rw [Socket.unread, ← hlength, ← hkept.eq_map]
  conv_lhs => rw [← List.take_append_drop (x.freed - base) x.heard, ← hread]

/-- The bytes that `recv` has given since `socket` opened socket `n` for TCP. -/
def Session.delivered (n : Fin 8) : Session → Option (List UInt8) :=
  Session.stream n Call.delivered

/-- From where `socket` opens it for TCP, `recv` gives what the network has brought to the socket,
in order, each byte once, whatever else is called for this socket and for the others and whenever a
packet arrives; what it has not given yet is in the buffer. -/
theorem Session.heard_of_delivered (n : Fin 8) {b : Board} (hb : On n Sized b) {cs : List Request}
    {got : List UInt8} (hgot : (after b cs).delivered n = some got) :
    got <+: ((after b cs).socket n).heard ∧
      ((after b cs).cut = none →
        ((after b cs).socket n).heard = got ++ ((after b cs).socket n).unread) := by
  have hafter := recv_kept.after hb hgot
  rcases hcut : (after b cs).cut with _ | c
  · rw [hcut] at hafter
    obtain ⟨base, h⟩ := hafter
    exact ⟨⟨_, h.unread.symm⟩, fun _ => h.unread⟩
  · rw [hcut] at hafter
    refine ⟨?_, nofun⟩
    by_cases hslot : slotOf c.sn = n
    · simp only [if_pos hslot] at hafter
      exact hafter
    · simp only [if_neg hslot] at hafter
      obtain ⟨base, h⟩ := hafter
      exact h.holds.read

theorem Session.heard_of_delivered_greeting :
    let s := after greetingBoard greetingCalls
    [5, 6] <+: (s.socket 0).heard ∧
      (s.cut = none → (s.socket 0).heard = [5, 6] ++ (s.socket 0).unread) :=
  heard_of_delivered 0 ⟨by decide, by decide⟩ (by decide +kernel)

end Sessions

end SmartBell.Ethernet.W5500
