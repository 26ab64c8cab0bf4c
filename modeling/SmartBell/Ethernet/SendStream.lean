import SmartBell.Ethernet.Session

/-!
# The bytes that are sent

Over a connection the chip puts on the wire what `send` has accepted: in order, each byte once, and
none that was overwritten in the buffer before it was out.
-/
namespace SmartBell.Ethernet.W5500
open Common Attempt

namespace Socket

/-- These bytes were handed over since the pointers were at `base`: the first of them are on the
wire, and those that are not confirmed are in the buffer. -/
structure TxHolds (base : Nat) (out : List UInt8) (x : Socket) : Prop where
  settled : Settled x
  start : base ≤ x.acked
  acked : x.acked ≤ x.sent
  sent : x.sent ≤ x.limit
  limit : x.limit ≤ base + out.length
  wire : x.wire = out.take (x.sent - base)
  kept : Ring.Holds (Ring.window x.tx x.txSize) x.acked (out.drop (x.acked - base))
  ordered : x.cr = snCrSend → x.word snTXWR = UInt16.ofNat (base + out.length)

namespace TxHolds
variable {base : Nat} {out : List UInt8} {x y : Socket}

theorem length_le (h : TxHolds base out x) : base + out.length ≤ x.acked + x.txSize := by
  have hfits := h.kept.fits
  have hacked := h.acked
  have hsent := h.sent
  have hlimit := h.limit
  have hstart := h.start
  rw [List.length_drop] at hfits
  omega

/-- The next byte for the wire is the next one that was handed over. -/
theorem next (h : TxHolds base out x) (hwaiting : x.sent < x.limit) :
    x.wire ++ [x.tx (x.sent % x.txSize)] = out.take (x.sent + 1 - base) := by
  have hstart := h.start
  have hacked := h.acked
  have hlimit := h.limit
  have hlt : x.sent - base < out.length := by omega
  have hcell := h.kept.get (i := x.sent - x.acked) (by rw [List.length_drop]; omega)
  have hplace : x.acked + (x.sent - x.acked) = x.sent := by omega
  have hindex : x.acked - base + (x.sent - x.acked) = x.sent - base := by omega
  rw [hplace, List.getElem_drop] at hcell
  simp only [hindex] at hcell
  have hsucc : x.sent + 1 - base = x.sent - base + 1 := by omega
  rw [h.wire, hcell, hsucc, List.take_append_getElem hlt]

/-- The chip keeps it so, whatever it does. -/
theorem act (h : TxHolds base out x) (a : Act) : TxHolds base out (x.act a) := by
  have hbytes := h.settled.act_bytes a
  have htx := x.act_tx a
  have hsize : (x.act a).txSize = x.txSize := by rw [txSize, txSize, hbytes]
  have hword : (x.act a).word snTXWR = x.word snTXWR := by rw [word, word, hbytes]
  have hnone : (0 : UInt8) ≠ snCrSend := by decide
  have hkept := h.kept
  have hstart := h.start
  have hacked := h.acked
  have hsent := h.sent
  have hlimit := h.limit
  rw [← hsize, ← htx] at hkept
  rcases h.settled.txMove a with ⟨eacked, esent, elimit, ewire, ecr⟩ |
    ⟨hordered, eacked, esent, elimit, ewire, ecr⟩ | ⟨hwaiting, eacked, esent, elimit, ewire, ecr⟩ |
    ⟨hopen, eacked, esent, elimit, ewire, ecr⟩
  · refine ⟨h.settled.act a, by omega, by omega, by omega, by omega, ?_, ?_, fun hcr => ?_⟩
    · rw [ewire, esent, h.wire]
    · rwa [eacked]
    · rcases ecr with ecr | ecr
      · rw [hword, h.ordered (ecr ▸ hcr)]
      · exact absurd (ecr.1.symm.trans hcr) hnone
  · have hlength := h.length_le
    have hle := h.settled.tx_le
    rw [h.ordered hordered, ofNat_sub_ofNat_toNat (by omega) (by omega)] at elimit
    refine ⟨h.settled.act a, by omega, by omega, by omega, by omega, ?_, ?_, fun hcr => ?_⟩
    · rw [ewire, esent, h.wire]
    · rwa [eacked]
    · exact absurd (ecr.symm.trans hcr) hnone
  · refine ⟨h.settled.act a, by omega, by omega, by omega, by omega, ?_, ?_, fun hcr => ?_⟩
    · rw [ewire, esent, h.next hwaiting]
    · rwa [eacked]
    · rw [hword, h.ordered (ecr ▸ hcr)]
  · refine ⟨h.settled.act a, by omega, by omega, by omega, by omega, ?_, ?_, fun hcr => ?_⟩
    · rw [ewire, esent, h.wire]
    · have hrest := hkept.drop 1
      rw [List.drop_drop] at hrest
      rw [eacked, Nat.sub_add_comm hstart]
      exact hrest
    · rw [hword, h.ordered (ecr ▸ hcr)]

/-- The host keeps it so with a write that is none to the transmit side. -/
theorem host (h : TxHolds base out x) (hy : Settled y) (hsame : SameTx x y) :
    TxHolds base out y := by
  have hsize : y.txSize = x.txSize := by rw [txSize, txSize, hsame.size]
  refine ⟨hy, ?_, ?_, ?_, ?_, ?_, ?_, fun hcr => ?_⟩
  · exact hsame.acked ▸ h.start
  · rw [hsame.acked, hsame.sent]
    exact h.acked
  · rw [hsame.sent, hsame.limit]
    exact h.sent
  · exact hsame.limit ▸ h.limit
  · rw [hsame.wire, hsame.sent]
    exact h.wire
  · rw [hsize, hsame.tx, hsame.acked]
    exact h.kept
  · rw [hsame.pointer]
    exact h.ordered (hsame.cr.resolve_right (absurd hcr) ▸ hcr)

theorem stable (base : Nat) (out : List UInt8) : Stable (TxHolds base out) :=
  fun _ a h => h.act a

end TxHolds

/-- A move without an order pending moves no limit, and leaves none pending. -/
theorem TxMove.limit_eq {x y : Socket} (h : TxMove x y) (hcr : x.cr ≠ snCrSend) :
    y.limit = x.limit ∧ y.cr ≠ snCrSend := by
  have hnone : (0 : UInt8) ≠ snCrSend := by decide
  rcases h with ⟨_, _, elimit, _, ecr⟩ | ⟨hordered, _, _, _, _, _⟩ | ⟨_, _, _, elimit, _, ecr⟩ |
    ⟨_, _, _, elimit, _, ecr⟩
  · refine ⟨elimit, ?_⟩
    rcases ecr with ecr | ecr
    · rwa [ecr]
    · rwa [ecr.1]
  · exact absurd hordered hcr
  · exact ⟨elimit, ecr ▸ hcr⟩
  · exact ⟨elimit, ecr ▸ hcr⟩

/-- Between two calls everything that was handed over is ordered. -/
structure TxIdle (base : Nat) (out : List UInt8) (x : Socket) : Prop where
  holds : TxHolds base out x
  pointer : x.word snTXWR = UInt16.ofNat (base + out.length)
  full : x.limit = base + out.length
  quiet : x.cr ≠ snCrSend

/-- There is room for so many bytes more. -/
structure TxRoom (base : Nat) (out : List UInt8) (k : Nat) (x : Socket) : Prop where
  idle : TxIdle base out x
  room : base + out.length + k ≤ x.acked + x.txSize

/-- Behind what was handed over the buffer has these bytes, and room for so many more. -/
structure TxFilled (base : Nat) (out extra : List UInt8) (k : Nat) (x : Socket) : Prop where
  idle : TxIdle base out x
  filled : Ring.Holds (Ring.window x.tx x.txSize) x.acked ((out ++ extra).drop (x.acked - base))
  room : base + out.length + extra.length + k ≤ x.acked + x.txSize

/-- All of it is handed over, but for the order; the high byte of the pointer is written. -/
structure TxHalfway (base : Nat) (out : List UInt8) (x : Socket) : Prop where
  holds : TxHolds base out x
  high : x.bytes snTXWR = highByte (UInt16.ofNat (base + out.length))
  quiet : x.cr ≠ snCrSend

/-- The pointer is written. -/
structure TxReady (base : Nat) (out : List UInt8) (x : Socket) : Prop where
  holds : TxHolds base out x
  pointer : x.word snTXWR = UInt16.ofNat (base + out.length)
  quiet : x.cr ≠ snCrSend

/-- The order is given, and perhaps taken. -/
structure TxOrdered (base : Nat) (out : List UInt8) (x : Socket) : Prop where
  holds : TxHolds base out x
  pointer : x.word snTXWR = UInt16.ofNat (base + out.length)
  taken : x.cr ≠ snCrSend → x.limit = base + out.length

section Phases
variable {base : Nat} {out extra : List UInt8} {k : Nat} {x y : Socket}

theorem TxIdle.of_empty {start : Nat} (hsettled : Settled x) (hacked : x.acked = start)
    (hsent : x.sent = start) (hlimit : x.limit = start) (hwire : x.wire = [])
    (hpointer : x.word snTXWR = UInt16.ofNat start) (hquiet : x.cr ≠ snCrSend) :
    TxIdle start [] x := by
  refine ⟨⟨hsettled, hacked.ge, (hacked.trans hsent.symm).le, (hsent.trans hlimit.symm).le,
    hlimit.le, ?_, ?_, fun _ => hpointer⟩, hpointer, hlimit, hquiet⟩
  · rw [hwire, List.take_nil]
  · rw [List.drop_nil]
    exact .nil _ _

theorem TxHolds.word_act (h : TxHolds base out x) (a : Act) :
    (x.act a).word snTXWR = x.word snTXWR := by rw [word, word, h.settled.act_bytes a]

theorem TxHolds.acked_act (h : TxHolds base out x) (a : Act) :
    x.acked ≤ (x.act a).acked ∧ (x.act a).txSize = x.txSize := by
  refine ⟨?_, by rw [txSize, txSize, h.settled.act_bytes a]⟩
  rcases h.settled.txMove a with ⟨eacked, _, _, _, _⟩ | ⟨_, eacked, _, _, _, _⟩ |
    ⟨_, eacked, _, _, _, _⟩ | ⟨_, eacked, _, _, _, _⟩ <;> omega

theorem TxIdle.stable (base : Nat) (out : List UInt8) : Stable (TxIdle base out) := by
  intro x a h
  obtain ⟨hlimit, hquiet⟩ := (h.holds.settled.txMove a).limit_eq h.quiet
  exact ⟨h.holds.act a, (h.holds.word_act a).trans h.pointer, hlimit.trans h.full, hquiet⟩

theorem TxRoom.stable (base : Nat) (out : List UInt8) (k : Nat) : Stable (TxRoom base out k) := by
  intro x a h
  obtain ⟨hacked, hsize⟩ := h.idle.holds.acked_act a
  have hroom := h.room
  exact ⟨TxIdle.stable base out x a h.idle, by omega⟩

theorem TxFilled.stable (base : Nat) (out extra : List UInt8) (k : Nat) :
    Stable (TxFilled base out extra k) := by
  intro x a h
  obtain ⟨hacked, hsize⟩ := h.idle.holds.acked_act a
  have hstart := h.idle.holds.start
  have hroom := h.room
  have hfilled := h.filled.drop ((x.act a).acked - x.acked)
  have hfront : x.acked + ((x.act a).acked - x.acked) = (x.act a).acked := by omega
  have hdrop : x.acked - base + ((x.act a).acked - x.acked) = (x.act a).acked - base := by omega
  refine ⟨TxIdle.stable base out x a h.idle, ?_, by omega⟩
  rw [hsize, x.act_tx a]
  rwa [List.drop_drop, hfront, hdrop] at hfilled

theorem TxHalfway.stable (base : Nat) (out : List UInt8) : Stable (TxHalfway base out) := by
  intro x a h
  refine ⟨h.holds.act a, ?_, ((h.holds.settled.txMove a).limit_eq h.quiet).2⟩
  rw [h.holds.settled.act_bytes a, h.high]

theorem TxReady.stable (base : Nat) (out : List UInt8) : Stable (TxReady base out) := by
  intro x a h
  exact ⟨h.holds.act a, (h.holds.word_act a).trans h.pointer,
    ((h.holds.settled.txMove a).limit_eq h.quiet).2⟩

theorem TxOrdered.stable (base : Nat) (out : List UInt8) : Stable (TxOrdered base out) := by
  intro x a h
  refine ⟨h.holds.act a, (h.holds.word_act a).trans h.pointer, fun hcr => ?_⟩
  by_cases hsend : x.cr = snCrSend
  · have hlength := h.holds.length_le
    have hacked := h.holds.acked
    have hsent := h.holds.sent
    have hlimit := h.holds.limit
    have hle := h.holds.settled.tx_le
    rcases h.holds.settled.txMove a with ⟨_, _, _, _, ecr⟩ | ⟨_, _, _, elimit, _, _⟩ |
      ⟨_, _, _, _, _, ecr⟩ | ⟨_, _, _, _, _, ecr⟩
    · rcases ecr with ecr | ecr
      · exact absurd (ecr.trans hsend) hcr
      · exact absurd hsend ecr.2
    · rw [elimit, h.pointer, ofNat_sub_ofNat_toNat (by omega) (by omega)]
      omega
    · exact absurd (ecr.trans hsend) hcr
    · exact absurd (ecr.trans hsend) hcr
  · rw [((h.holds.settled.txMove a).limit_eq hsend).1]
    exact h.taken hsend

theorem TxIdle.room (h : TxIdle base out x) : TxRoom base out 0 x := ⟨h, h.holds.length_le⟩

theorem TxIdle.ready (h : TxIdle base out x) : TxReady base out x := ⟨h.holds, h.pointer, h.quiet⟩

theorem TxRoom.filled (h : TxRoom base out k x) : TxFilled base out [] k x := by
  refine ⟨h.idle, ?_, h.room⟩
  rw [List.append_nil]
  exact h.idle.holds.kept

/-- What `Sn_TX_FSR` shows is the room that there is. -/
theorem TxIdle.txFsr (h : TxIdle base out x) :
    base + out.length + x.txFsr.toNat = x.acked + x.txSize := by
  have hlength := h.holds.length_le
  have hacked := h.holds.acked
  have hsent := h.holds.sent
  have hlimit := h.holds.limit
  have hle := h.holds.settled.tx_le
  have hused : (UInt16.ofNat (base + out.length) - UInt16.ofNat x.acked).toNat =
      base + out.length - x.acked := ofNat_sub_ofNat_toNat (by omega) (by omega)
  have husedEq : UInt16.ofNat (base + out.length) - UInt16.ofNat x.acked =
      UInt16.ofNat (base + out.length - x.acked) := by
    rw [← hused, UInt16.ofNat_toNat]
  rw [Socket.txFsr, h.pointer, husedEq, ofNat_sub_ofNat_toNat (by omega) (by omega)]
  omega

theorem TxIdle.txFsr_le (h : TxIdle base out x) (a : Act) : x.txFsr ≤ (x.act a).txFsr := by
  obtain ⟨hacked, hsize⟩ := h.holds.acked_act a
  have hbefore := h.txFsr
  have hafter := (TxIdle.stable base out x a h).txFsr
  rw [UInt16.le_iff_toNat_le]
  omega

/-- A byte goes behind the others. -/
theorem TxFilled.writeTx (h : TxFilled base out extra (k + 1) x) (v : UInt8) :
    TxFilled base out (extra ++ [v]) k
      (x.writeTx (UInt16.ofNat (base + out.length + extra.length)) v) := by
  have hstart := h.idle.holds.start
  have hacked := h.idle.holds.acked
  have hsent := h.idle.holds.sent
  have hlimit := h.idle.holds.limit
  have hroom := h.room
  have hlength : ((out ++ extra).drop (x.acked - base)).length =
      base + out.length + extra.length - x.acked := by
    simp only [List.length_drop, List.length_append]
    omega
  have hplace : (UInt16.ofNat (base + out.length + extra.length)).toNat % x.txSize =
      (x.acked + ((out ++ extra).drop (x.acked - base)).length) % x.txSize := by
    rw [ofNat_toNat_mod h.idle.holds.settled.tx_dvd, hlength]
    congr 1
    omega
  have hpush := h.filled.push (by omega) v
  rw [← List.drop_append_of_le_length (by simp; omega), ← Ring.window_update, ← hplace,
    List.append_assoc] at hpush
  have hkept := hpush.take (out.length - (x.acked - base))
  rw [← List.drop_take, List.take_append_of_le_length (by omega), List.take_of_length_le (by omega)]
    at hkept
  refine ⟨⟨?_, h.idle.pointer, h.idle.full, h.idle.quiet⟩, hpush, ?_⟩
  · exact { h.idle.holds with settled := { h.idle.holds.settled with }, kept := hkept }
  · simp only [List.length_append, List.length_singleton]
    exact le_of_eq_of_le (by omega) hroom

theorem TxFilled.writeHigh (h : TxFilled base out extra 0 x) :
    TxHalfway base (out ++ extra)
      (x.write snTXWR (highByte (UInt16.ofNat (base + (out ++ extra).length)))) := by
  have hsettled : Settled
      (x.write snTXWR (highByte (UInt16.ofNat (base + (out ++ extra).length)))) :=
    h.idle.holds.settled.write (by decide) fun heq => absurd heq (by decide)
  have hsent := h.idle.holds.sent
  have hlimit := h.idle.holds.limit
  have hwire : x.wire = (out ++ extra).take (x.sent - base) := by
    rw [List.take_append_of_le_length (by omega)]
    exact h.idle.holds.wire
  rw [write_bytes (by simp)] at hsettled ⊢
  refine ⟨?_, by simp, h.idle.quiet⟩
  refine ⟨hsettled, h.idle.holds.start, h.idle.holds.acked, hsent, ?_, hwire, h.filled, ?_⟩
  · simp only [List.length_append]
    omega
  · exact fun hcr => absurd hcr h.idle.quiet

theorem TxHalfway.writeLow (h : TxHalfway base out x) :
    TxReady base out (x.write (snTXWR + 1) (lowByte (UInt16.ofNat (base + out.length)))) := by
  have hsettled : Settled (x.write (snTXWR + 1) (lowByte (UInt16.ofNat (base + out.length)))) :=
    h.holds.settled.write (by decide) fun heq => absurd heq (by decide)
  rw [write_bytes (by simp)] at hsettled ⊢
  refine ⟨?_, ?_, h.quiet⟩
  · exact { h.holds with settled := hsettled, ordered := fun hcr => absurd hcr h.quiet }
  · have hne : snTXWR ≠ snTXWR + 1 := by decide
    simp only [word, Function.update_self, Function.update_of_ne hne, h.high,
      joinBytes_highByte_lowByte]

theorem TxReady.order (h : TxReady base out x) : TxOrdered base out { x with cr := snCrSend } := by
  have hcommand : snCrSend ≠ snCrOpen := by decide
  refine ⟨?_, h.pointer, fun hcr => absurd rfl hcr⟩
  exact { h.holds with
    settled := { h.holds.settled with command := hcommand }, ordered := fun _ => h.pointer }

theorem TxOrdered.idle (h : TxOrdered base out x) (hcr : x.cr = 0) : TxIdle base out x := by
  have hnone : x.cr ≠ snCrSend := by
    rw [hcr]
    decide
  exact ⟨h.holds, h.pointer, h.taken hnone, hnone⟩

theorem TxIdle.host (h : TxIdle base out x) (hy : Settled y) (hsame : SameTx x y) :
    TxIdle base out y := by
  refine ⟨h.holds.host hy hsame, hsame.pointer.trans h.pointer, hsame.limit.trans h.full, ?_⟩
  rcases hsame.cr with hcr | hcr
  · rw [hcr]
    exact h.quiet
  · exact hcr

/-- Registers that are not of the transmit side can be written while there is room. -/
theorem TxRoom.host (h : TxRoom base out k x) (hy : Settled y)
    (hsame : SameTx x y) : TxRoom base out k y := by
  have hroom := h.room
  have hsize : y.txSize = x.txSize := by rw [txSize, txSize, hsame.size]
  refine ⟨h.idle.host hy hsame, ?_⟩
  rw [hsame.acked, hsize]
  exact hroom

end Phases

end Socket

open Socket

/-! ## The functions -/

section Functions
variable {sn : UInt8} {base : Nat} {out : List UInt8} {x : Socket} {α : Type}

/-- Everything but what sends. -/
theorem subset_traffic : housekeeping ∪ connecting ∪ reception ⊆ traffic :=
  Set.union_subset_union_left _ Set.subset_union_left

/-- Between two calls a computation may do anything but send. -/
theorem TxIdle.uses (hshift : shiftOf sn = 0) {x : Attempt Board α}
    (hx : Uses sn (housekeeping ∪ connecting ∪ reception) x) :
    Triple (On (slotOf sn) (TxIdle base out)) x (fun _ => On (slotOf sn) (TxIdle base out))
      (On (slotOf sn) (TxIdle base out)) :=
  (TxIdle.stable base out).tolerates hx fun _ ha _ hy =>
    hy.host (hy.holds.settled.host hshift (subset_traffic ha)) (sameTx_host hshift ha)

theorem TxRoom.uses {k : Nat} (hshift : shiftOf sn = 0) {x : Attempt Board α}
    (hx : Uses sn (housekeeping ∪ connecting ∪ reception) x) :
    Triple (On (slotOf sn) (TxRoom base out k)) x (fun _ => On (slotOf sn) (TxRoom base out k))
      (On (slotOf sn) (TxIdle base out)) :=
  ((TxRoom.stable base out k).tolerates hx fun _ ha _ hy =>
    hy.host (hy.idle.holds.settled.host hshift (subset_traffic ha)) (sameTx_host hshift ha)).mono
    (fun _ hs => hs) (fun _ _ hs => hs) fun _ hs => TxRoom.idle hs

theorem shows_txFsr (hshift : shiftOf sn = 0) : Shows snTXFSR sn Socket.txFsr := fun x => by
  rw [hshift]
  exact ⟨rfl, rfl⟩

theorem shows_txWr (hshift : shiftOf sn = 0) : Shows snTXWR sn (·.word snTXWR) := fun x => by
  rw [hshift]
  exact ⟨(highByte_joinBytes _ _).symm, (lowByte_joinBytes _ _).symm⟩

/-- There is as much room as `getSn_TX_FSR` says. -/
theorem getSnTXFSR_room (hshift : shiftOf sn = 0) :
    Triple (On (slotOf sn) (TxIdle base out)) (getSnTXFSR sn)
      (fun v => On (slotOf sn) (TxRoom base out v.toNat)) (On (slotOf sn) (TxIdle base out)) := by
  refine (readTwice_le (TxIdle.stable base out) (by decide) (shows_txFsr hshift)
    fun x a hx => hx.txFsr_le a).mono (fun _ hs => hs) (fun v s hs => ?_) fun _ hs => hs
  obtain ⟨hs, hv⟩ := hs
  have hroom := TxIdle.txFsr hs
  rw [UInt16.le_iff_toNat_le] at hv
  exact ⟨hs, by omega⟩

theorem waitForRoom_room (hshift : shiftOf sn = 0) (len : UInt16) :
    Triple (On (slotOf sn) (TxIdle base out)) (waitForRoom sn len)
      (fun error s => error.elim (On (slotOf sn) (TxRoom base out len.toNat) s)
        fun error => error ≤ 0 ∧ On (slotOf sn) (TxIdle base out) s)
      (On (slotOf sn) (TxIdle base out)) := by
  refine .repeatUntil (fun _ hs => hs) ((getSnTXFSR_room hshift).bind fun freesize => ?_)
  refine (TxRoom.uses hshift (getByte_uses _ _)).bind fun tmp => .ite (fun _ => ?_) fun _ => ?_
  · refine (TxRoom.uses hshift (close_uses.mono fun _ ha => .inl (.inl ha))).bind fun _ => ?_
    exact .pure _ fun s hs => ⟨by decide, TxRoom.idle hs⟩
  refine (TxRoom.uses hshift (nonblocking_uses _)).bind fun nonblock =>
    .ite (fun _ => ?_) fun _ => ?_
  · exact .pure _ fun s hs => ⟨by decide, TxRoom.idle hs⟩
  refine .ite (fun hle => .pure _ fun s hs => ?_) fun _ => .pure _ fun s hs => TxRoom.idle hs
  rw [UInt16.le_iff_toNat_le] at hle
  have hroom := TxRoom.room hs
  exact ⟨TxRoom.idle hs, by omega⟩

/-- The bytes go into the buffer one behind the other. -/
theorem pokeEach_filled (n : Fin 8) (base : Nat) (out vs extra : List UInt8) {R : Board → Prop}
    (hR : ∀ s, On n (TxIdle base out) s → R s) :
    Triple (On n (TxFilled base out extra vs.length))
      (pokeEach n (fun offset v x => x.writeTx offset v)
        (UInt16.ofNat (base + out.length + extra.length)) vs)
      (fun _ => On n (TxFilled base out (extra ++ vs) 0)) R := by
  induction vs generalizing extra with
  | nil =>
    rw [List.append_nil]
    exact .pure _ fun _ hs => hs
  | cons v vs ih =>
    refine (((TxFilled.stable base out extra (vs.length + 1)).poke fun x hx =>
      hx.writeTx v).mono (fun _ hs => hs) (fun _ _ hs => hs) fun s hs =>
        hR s (TxFilled.idle hs)).bind fun _ => ?_
    have hrest := ih (extra ++ [v])
    have hoffset : UInt16.ofNat (base + out.length + extra.length) + 1 =
        UInt16.ofNat (base + out.length + (extra ++ [v]).length) := by
      rw [ofNat_add_word]
      simp [Nat.add_assoc]
    rw [hoffset]
    rwa [List.append_assoc, List.singleton_append] at hrest

/-- `wiz_send_data` puts the bytes behind the others and moves the pointer. -/
theorem wizSendData_ready (hshift : shiftOf sn = 0) {wizdata : List UInt8} {len : UInt16}
    (hlen : len.toNat ≤ wizdata.length) {R : Board → Prop}
    (hR : ∀ s k, On (slotOf sn) (TxHolds base (out ++ wizdata.take k)) s → R s) :
    Triple (On (slotOf sn) (TxRoom base out len.toNat)) (wizSendData sn wizdata len)
      (fun _ => On (slotOf sn) (TxReady base (out ++ wizdata.take len.toNat))) R := by
  have hidle (s : Board) (hs : On (slotOf sn) (TxIdle base out) s) : R s := by
    refine hR s 0 ?_
    rw [List.take_zero, List.append_nil]
    exact TxIdle.holds hs
  refine .ite (fun hzero => .pure _ fun s hs => ?_) fun _ => ?_
  · rw [hzero, UInt16.toNat_zero, List.take_zero, List.append_nil]
    exact (TxRoom.idle hs).ready
  refine ((getWord_rest (TxRoom.stable base out len.toNat) (by decide) (shows_txWr hshift)
    fun x hx => hx.idle.pointer).mono (fun _ hs => hs) (fun _ _ hs => hs) fun s hs =>
      hidle s (TxRoom.idle hs)).bind fun ptr => .assume fun hptr => ?_
  have hlength : (wizdata.take len.toNat).length = len.toNat := by
    rw [List.length_take]
    omega
  have hadvance : ptr + len = UInt16.ofNat (base + (out ++ wizdata.take len.toNat).length) := by
    rw [hptr, ofNat_add_word, List.length_append, hlength, Nat.add_assoc]
  have hfill := pokeEach_filled (slotOf sn) base out (wizdata.take len.toNat) [] hidle
  rw [hlength, List.nil_append, List.length_nil, Nat.add_zero, ← hptr] at hfill
  rw [wizchipWriteBuf_txbuf, hshift, UInt16.add_zero, hadvance, setSnTXWR,
    setWord_eq _ _ (by decide), hshift, UInt16.add_zero, UInt16.add_zero]
  refine (hfill.mono (fun _ hs => TxRoom.filled hs) (fun _ _ hs => hs) fun _ hs => hs).bind
    fun _ => ?_
  refine (((TxFilled.stable base out _ 0).poke fun x hx => hx.writeHigh).mono (fun _ hs => hs)
    (fun _ _ hs => hs) fun s hs => hidle s (TxFilled.idle hs)).bind fun _ => ?_
  exact ((TxHalfway.stable base _).poke fun x hx => hx.writeLow).mono (fun _ hs => hs)
    (fun _ _ hs => hs) fun s hs => hR s _ (TxHalfway.holds hs)

/-- What a call that is cut short leaves behind: the first bytes may have been handed over. -/
def TxCut (base : Nat) (out buf : List UInt8) (x : Socket) : Prop :=
  ∃ k, TxHolds base (out ++ buf.take k) x

theorem TxIdle.cut (h : TxIdle base out x) (buf : List UInt8) : TxCut base out buf x := by
  refine ⟨0, ?_⟩
  rw [List.take_zero, List.append_nil]
  exact h.holds

theorem sendBytes_idle (hshift : shiftOf sn = 0) (buf : List UInt8) :
    Triple (On (slotOf sn) (TxIdle base out)) (sendBytes sn buf)
      (fun r => On (slotOf sn) (TxIdle base (out ++ buf.take r.result.toNat)))
      (On (slotOf sn) (TxCut base out buf)) := by
  have hcut (s : Board) (hs : On (slotOf sn) (TxIdle base out) s) :
      On (slotOf sn) (TxCut base out buf) s := TxIdle.cut hs buf
  refine ((TxIdle.uses hshift (getSnTxMAX_uses _)).mono (fun _ hs => hs) (fun _ _ hs => hs)
    hcut).bind fun freesize => ?_
  have hlength : (UInt16.ofNat buf.length).toNat ≤ buf.length := by
    rw [UInt16.toNat_ofNat']
    exact Nat.mod_le _ _
  generalize hsent : (if UInt16.ofNat buf.length > freesize then freesize
    else UInt16.ofNat buf.length) = len
  have hlen : len.toNat ≤ buf.length := by
    rw [← hsent]
    split_ifs with hmore
    · rw [gt_iff_lt, UInt16.lt_iff_toNat_lt] at hmore
      omega
    · exact hlength
  refine ((waitForRoom_room hshift len).mono (fun _ hs => hs) (fun _ _ hs => hs) hcut).bind
    fun error => ?_
  cases error with
  | some error =>
    refine .pure _ fun s hs => ?_
    rw [Int.toNat_of_nonpos hs.1, List.take_zero, List.append_nil]
    exact hs.2
  | none =>
    refine (wizSendData_ready hshift hlen fun s k hs => ⟨k, hs⟩).bind fun _ => ?_
    refine (order_clear (TxReady.stable _ _) (TxOrdered.stable _ _) hshift (fun x hx => hx.order)
      (fun s hs => ⟨_, TxReady.holds hs⟩) fun s hs => ⟨_, TxOrdered.holds hs⟩).bind fun _ => ?_
    refine (Triple.modify fun s hs => ?_).bind fun _ => .pure _ fun s hs => hs
    exact hs.1.idle hs.2

theorem checkSent_idle (hshift : shiftOf sn = 0) (buf : List UInt8) :
    Triple (On (slotOf sn) (TxIdle base out)) (checkSent sn (sendBytes sn buf))
      (fun r => On (slotOf sn) (TxIdle base (out ++ buf.take r.result.toNat)))
      (On (slotOf sn) (TxCut base out buf)) := by
  have huses {β : Type} {x : Attempt Board β}
      (hx : Uses sn (housekeeping ∪ connecting ∪ reception) x) :
      Triple (On (slotOf sn) (TxIdle base out)) x (fun _ => On (slotOf sn) (TxIdle base out))
        (On (slotOf sn) (TxCut base out buf)) :=
    (TxIdle.uses hshift hx).mono (fun _ hs => hs) (fun _ _ hs => hs) fun _ hs => TxIdle.cut hs buf
  have hkeep : housekeeping ⊆ housekeeping ∪ connecting ∪ reception := fun _ ha => .inl (.inl ha)
  have hbytes : Triple (On (slotOf sn) (TxIdle base out)) (sendBytes sn buf) _ _ :=
    sendBytes_idle hshift buf
  have hfail {error : Int} (herror : error ≤ 0) (s : Board)
      (hs : On (slotOf sn) (TxIdle base out) s) :
      On (slotOf sn) (TxIdle base (out ++ buf.take error.toNat)) s := by
    rwa [Int.toNat_of_nonpos herror, List.take_zero, List.append_nil]
  refine (huses (sending_uses _)).bind fun _ => .ite (fun _ => ?_) fun _ => hbytes
  refine (huses (getSnIR_uses _)).bind fun _ => .ite (fun _ => ?_) fun _ => ?_
  · refine (huses (setSnIR_uses _ hkeep)).bind fun _ => ?_
    exact (huses clearIsSending_uses).bind fun _ => hbytes
  · refine .ite (fun _ => ?_) fun _ => .pure _ (hfail (by decide))
    exact (huses (close_uses.mono hkeep)).bind fun _ => .pure _ (hfail (by decide))

end Functions

/-! ## From where the socket is opened -/

namespace Socket

/-- The socket is open, but there is no connection yet, and nothing to send. -/
structure TxFresh (x : Socket) : Prop where
  opened : Opened x
  early : Early x.sr
  acked : x.acked = x.sent
  limit : x.limit = x.sent
  wire : x.wire = []
  pointer : x.word snTXWR = UInt16.ofNat x.sent
  quiet : x.cr ≠ snCrSend

/-- These bytes were handed over since the socket was opened. -/
def TxLive (out : List UInt8) (x : Socket) : Prop :=
  (∃ base, TxIdle base out x) ∨ out = [] ∧ TxFresh x

section Live
variable {out : List UInt8} {x y : Socket}

/-- With nothing to send only the state may have changed. -/
theorem TxFresh.live (h : TxFresh x) (hy : Opened y) (hacked : y.acked = x.acked)
    (hsent : y.sent = x.sent) (hlimit : y.limit = x.limit) (hwire : y.wire = x.wire)
    (hpointer : y.word snTXWR = x.word snTXWR) (hquiet : y.cr ≠ snCrSend) : TxLive [] y := by
  have eacked : y.acked = y.sent := by rw [hacked, hsent, h.acked]
  have elimit : y.limit = y.sent := by rw [hlimit, hsent, h.limit]
  have epointer : y.word snTXWR = UInt16.ofNat y.sent := by rw [hpointer, hsent, h.pointer]
  have ewire : y.wire = [] := hwire.trans h.wire
  by_cases hearly : Early y.sr
  · exact .inr ⟨rfl, hy, hearly, eacked, elimit, ewire, epointer, hquiet⟩
  · exact .inl ⟨y.sent, .of_empty ⟨hy, hearly⟩ eacked rfl elimit ewire epointer hquiet⟩

theorem TxFresh.act (h : TxFresh x) (a : Act) : TxLive [] (x.act a) := by
  by_cases hmakes : x.Makes a
  · obtain ⟨hsr, start, rfl⟩ := hmakes
    have hopened := h.opened.act (.connected start)
    rw [act_connected hsr] at hopened ⊢
    have hlate : ¬Early sockEstablished := by decide
    exact .inl ⟨start, .of_empty ⟨hopened, hlate⟩ rfl rfl rfl rfl
      (x.word_setWord (by decide) _) h.quiet⟩
  · have hword : (x.act a).word snTXWR = x.word snTXWR := by
      rw [word, word, act_txBytes h.opened.command hmakes]
    have hopened := h.opened.act a
    rcases txMove h.opened.command hmakes with ⟨eacked, esent, elimit, ewire, ecr⟩ | ⟨hordered, _⟩ |
      ⟨hwaiting, _⟩ | ⟨hopen, _⟩
    · refine h.live hopened eacked esent elimit ewire hword ?_
      rcases ecr with ecr | ecr
      · rw [ecr]
        exact h.quiet
      · rw [ecr.1]
        decide
    · exact absurd hordered h.quiet
    · exact absurd hwaiting (by rw [h.limit]; exact Nat.lt_irrefl _)
    · exact absurd hopen (by rw [h.acked]; exact Nat.lt_irrefl _)

theorem TxLive.stable (out : List UInt8) : Stable (TxLive out) := by
  rintro x a (⟨base, h⟩ | ⟨rfl, h⟩)
  · exact .inl ⟨base, TxIdle.stable base out x a h⟩
  · exact h.act a

theorem TxLive.opened (h : TxLive out x) : Opened x := by
  rcases h with ⟨base, h⟩ | ⟨-, h⟩
  · exact h.holds.settled.toOpened
  · exact h.opened

/-- It can be seen from the state that the connection was made. -/
theorem TxLive.idle (h : TxLive out x) (hsr : Sends x.sr) : ∃ base, TxIdle base out x := by
  rcases h with h | ⟨-, h⟩
  · exact h
  · have hlate : ¬Early x.sr := by
      rcases hsr with hsr | hsr
      · rw [hsr]
        decide
      · rw [hsr]
        decide
    exact absurd h.early hlate

theorem TxLive.host (h : TxLive out x) {sn : UInt8} (hshift : shiftOf sn = 0) {a : Access}
    (ha : a ∈ housekeeping ∪ connecting ∪ reception) : TxLive out (a.apply sn x) := by
  have hsame : SameTx x (a.apply sn x) := sameTx_host hshift ha
  have hopened := h.opened.host hshift (subset_traffic ha)
  rcases h with ⟨base, h⟩ | ⟨rfl, h⟩
  · exact .inl ⟨base, h.host (h.holds.settled.host hshift (subset_traffic ha)) hsame⟩
  · refine h.live hopened hsame.acked hsame.sent hsame.limit hsame.wire hsame.pointer ?_
    rcases hsame.cr with hcr | hcr
    · rw [hcr]
      exact h.quiet
    · exact hcr

theorem opened_txLive (hx : Moded snMrTcp x) (hcr : x.cr = snCrOpen) : TxLive [] x.accept := by
  have hsized : Sized x.accept := hx.1.act .accept
  have hmode : x.accept.bytes snMR &&& 0x0F = snMrTcp := by
    rw [← Socket.act, x.act_bytes .accept (by decide)]
    exact hx.2
  have hnone : (0 : UInt8) ≠ snCrOpen ∧ (0 : UInt8) ≠ snCrSend := by decide
  have hhigh : snTXWR ≠ snRXRD + 1 ∧ snTXWR ≠ snRXRD := by decide
  have hlow : snTXWR + 1 ≠ snRXRD + 1 ∧ snTXWR + 1 ≠ snRXRD := by decide
  rw [accept_open hx.2 hcr] at hsized hmode ⊢
  refine .inr ⟨rfl, ⟨hsized, hmode, hnone.1⟩, .inl rfl, rfl, rfl, rfl, ?_, hnone.2⟩
  simp [word, restartRx, restartTx, setWord, hhigh, hlow]

end Live

end Socket

section Sessions
variable {sn : UInt8} {out : List UInt8} {n : Fin 8}

/-- After a `send` that came to a stop its first bytes may be on the wire. -/
def SendLeft (out buf : List UInt8) (x : Socket) : Prop := x.wire <+: out ++ buf

theorem Socket.TxIdle.unsent_prefix {base : Nat} {buf : List UInt8} {x : Socket}
    (h : TxCut base out buf x) : SendLeft out buf x := by
  obtain ⟨k, hholds⟩ := h
  rw [SendLeft, hholds.wire]
  exact (List.take_prefix _ _).trans ((List.prefix_append_right_inj _).mpr (List.take_prefix _ _))

theorem Socket.TxLive.left {x : Socket} (h : TxLive out x) (buf : List UInt8) :
    SendLeft out buf x := by
  rcases h with ⟨base, h⟩ | ⟨rfl, h⟩
  · exact TxIdle.unsent_prefix (TxIdle.cut h buf)
  · rw [SendLeft, h.wire]
    exact List.nil_prefix

theorem send_live (hshift : shiftOf sn = 0) (buf : List UInt8) :
    Triple (On (slotOf sn) (TxLive out)) (send sn buf)
      (fun r => On (slotOf sn) (TxLive (out ++ buf.take r.result.toNat)))
      (On (slotOf sn) (SendLeft out buf)) := by
  have hstop (s : Board) (hs : On (slotOf sn) (TxLive out) s) :
      On (slotOf sn) (SendLeft out buf) s := TxLive.left hs buf
  have hfail {error : Int} (herror : error ≤ 0) (s : Board) (hs : On (slotOf sn) (TxLive out) s) :
      On (slotOf sn) (TxLive (out ++ buf.take error.toNat)) s := by
    rwa [Int.toNat_of_nonpos herror, List.take_zero, List.append_nil]
  have hlook (reg : UInt16) := ((TxLive.stable out).look hshift reg).mono (fun _ hs => hs)
    (fun _ _ hs => hs) hstop
  refine .ite (fun _ => .pure _ (hfail (by decide))) fun _ => (hlook snMR).bind fun mr => ?_
  refine .ite (fun _ => .pure _ fun s hs => hfail (by decide) s hs.1) fun _ => ?_
  refine .ite (fun _ => .pure _ fun s hs => hfail (by decide) s hs.1) fun _ => ?_
  refine ((hlook snSR).mono (fun _ hs => hs.1) (fun _ _ hs => hs) fun _ hs => hs).bind fun sr => ?_
  refine .ite (fun _ => .pure _ fun s hs => hfail (by decide) s hs.1) fun hsends => ?_
  have hsent : Triple (fun s => ∃ base, On (slotOf sn) (TxIdle base out) s)
      (checkSent sn (sendBytes sn buf))
      (fun r => On (slotOf sn) (TxLive (out ++ buf.take r.result.toNat)))
      (On (slotOf sn) (SendLeft out buf)) :=
    .exists fun base => (checkSent_idle hshift buf).mono (fun _ hs => hs)
      (fun _ _ hs => .inl ⟨base, hs⟩) fun _ hs => TxIdle.unsent_prefix hs
  refine hsent.mono (fun s hs => ?_) (fun _ _ hs => hs) fun _ hs => hs
  have hsr : sr = (s.chip.sockets (slotOf sn)).sr := hs.2
  exact TxLive.idle hs.1 (hsr ▸ not_not.mp hsends)

/-- The bytes that a call hands over, if it is for sending. -/
def Call.offered : Call → List UInt8
  | .send buf => buf
  | _ => []

/-- The bytes that a call says it has taken over. -/
def Call.accepted (call : Call) (reply : Reply) : List UInt8 :=
  call.offered.take reply.result.toNat

/-- What has been told to the chip to be sent and is not on the wire yet. -/
def Socket.unsent (x : Socket) : List UInt8 :=
  (List.range (x.limit - x.sent)).map fun i => x.tx ((x.sent + i) % x.txSize)

/-- What is not on the wire yet is in the buffer. -/
theorem Socket.TxIdle.unsent {base : Nat} {x : Socket} (h : TxIdle base out x) :
    x.wire ++ x.unsent = out := by
  have hstart := h.holds.start
  have hacked := h.holds.acked
  have hsent := h.holds.sent
  have hfull := h.full
  have hkept := h.holds.kept.drop (x.sent - x.acked)
  have hfront : x.acked + (x.sent - x.acked) = x.sent := by omega
  have hdrop : x.acked - base + (x.sent - x.acked) = x.sent - base := by omega
  rw [List.drop_drop, hfront, hdrop] at hkept
  have hlength : (out.drop (x.sent - base)).length = x.limit - x.sent := by
    rw [List.length_drop]
    omega
  rw [Socket.unsent, ← hlength, ← hkept.eq_map, h.holds.wire, List.take_append_drop]

theorem Socket.TxLive.unsent {x : Socket} (h : TxLive out x) : x.wire ++ x.unsent = out := by
  rcases h with ⟨base, h⟩ | ⟨rfl, h⟩
  · exact h.unsent
  · rw [Socket.unsent, h.wire, h.limit, Nat.sub_self]
    rfl

theorem send_kept : Kept Call.accepted TxLive fun out call => SendLeft out call.offered where
  stable := TxLive.stable
  sized _ _ hx := hx.opened.toSized
  host _ _ hshift _ ha _ hx := hx.host hshift (.inl (.inl ha))
  opened _ hx hcr := opened_txLive hx hcr
  refused call := by
    have hnone : sockerrSocknum.toNat = 0 := by decide
    rw [Call.accepted, hnone, List.take_zero]
  call out sn call hshift hopens := by
    have hstable : Stable (TxLive out) := TxLive.stable out
    -- A call that sends nothing takes nothing over, whatever it returns.
    have hkept (hcall : call.offered = []) (hx : Triple (On (slotOf sn) (TxLive out))
        (call.perform sn) (fun _ => On (slotOf sn) (TxLive out)) (On (slotOf sn) (TxLive out))) :
        Triple (On (slotOf sn) (TxLive out)) (call.perform sn)
          (fun reply => On (slotOf sn) (TxLive (out ++ call.accepted reply)))
          (On (slotOf sn) (SendLeft out call.offered)) := by
      refine hx.mono (fun _ hs => hs) (fun r s hs => ?_) fun s hs => TxLive.left hs _
      rwa [Call.accepted, hcall, List.take_nil, List.append_nil]
    have huses (hcall : call.offered = [])
        (hA : call.accesses ⊆ housekeeping ∪ connecting ∪ reception) :=
      hkept hcall (hstable.tolerates (call.perform_uses.mono hA) fun a ha x hx =>
        hx.host hshift ha)
    cases call with
    | socket => exact absurd hopens Bool.noConfusion
    | send buf => exact send_live hshift buf
    | sendto =>
      exact hkept rfl (checkDatagram_refuses hstable (fun x hx => hx.opened) hshift _)
    | listen | connect => exact huses rfl Set.subset_union_left
    | recv | recvfrom => exact huses rfl fun _ ha => ha.imp_left .inl
    | close | disconnect | ctlsocket | setsockopt | getsockopt =>
      exact huses rfl fun _ ha => .inl (.inl ha)

/-- The bytes that `send` has accepted since `socket` opened socket `n` for TCP. -/
def Session.accepted (n : Fin 8) : Session → Option (List UInt8) := Session.stream n Call.accepted

/-- The bytes of a `send` that came to a stop. -/
def Session.pending (n : Fin 8) (s : Session) : List UInt8 :=
  s.cut.elim [] fun c => if slotOf c.sn = n then c.call.offered else []

/-- What is on the wire, where the bytes that were accepted are known. -/
theorem Session.wire_accounted {s : Session} (hafter : match s.cut with
      | none => TxLive out (s.socket n)
      | some c => if slotOf c.sn = n then SendLeft out c.call.offered (s.socket n)
        else TxLive out (s.socket n)) :
    (s.socket n).wire <+: out ++ s.pending n ∧
      (s.cut = none → (s.socket n).wire ++ (s.socket n).unsent = out) := by
  rw [pending]
  rcases hcut : s.cut with _ | c
  · rw [hcut] at hafter
    refine ⟨?_, fun _ => hafter.unsent⟩
    rw [Option.elim_none, List.append_nil]
    exact ⟨_, hafter.unsent⟩
  · rw [hcut] at hafter
    refine ⟨?_, nofun⟩
    rw [Option.elim_some]
    by_cases hslot : slotOf c.sn = n
    · simp only [if_pos hslot] at hafter ⊢
      exact hafter
    · simp only [if_neg hslot] at hafter ⊢
      exact hafter.left []

/-- From where `socket` opens it for TCP, the socket puts on the wire what `send` has accepted, in
order, each byte once, whatever else is called for this socket and for the others and whenever the
chip does its part; what it has not put there yet is in the buffer. A `send` that comes to a stop
may have handed over its first bytes. -/
theorem Session.wire_of_accepted (n : Fin 8) {b : Board} (hb : On n Sized b) {cs : List Request}
    {out : List UInt8} (hout : (after b cs).accepted n = some out) :
    ((after b cs).socket n).wire <+: out ++ (after b cs).pending n ∧
      ((after b cs).cut = none →
        ((after b cs).socket n).wire ++ ((after b cs).socket n).unsent = out) := by
  have hafter := send_kept.after hb hout
  exact wire_accounted hafter

theorem Session.wire_of_accepted_greeting :
    let s := after greetingBoard greetingCalls
    (s.socket 0).wire <+: [1, 2, 3] ++ s.pending 0 ∧
      (s.cut = none → (s.socket 0).wire ++ (s.socket 0).unsent = [1, 2, 3]) :=
  wire_of_accepted 0 ⟨by decide, by decide⟩ (by decide +kernel)

end Sessions

end SmartBell.Ethernet.W5500
