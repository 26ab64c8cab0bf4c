import SmartBell.Ethernet.Session

/-!
# Opening and closing

What the wrapper of the sockets takes for granted about `socket` and `close` holds on the board: a
socket that was opened is not closed, an argument that is rejected is rejected before anything is
touched, and a socket that was closed is closed. With the number that gets past the check and has no
element in the arrays, `socket` can only reject its arguments, and `close` does not return.
-/
namespace SmartBell.Ethernet.W5500
open Common Attempt Socket

section Laws
variable {sn : UInt8} {α : Type}

/-- Reading takes time, and no more. -/
theorem Patient.read {P : Board → Prop} (h : Patient P) (block : UInt8) (offset : UInt16) :
    Triple P (board.read block offset) (fun _ => P) P :=
  h.transfer.bind fun _ => (Triple.read fun _ hs => hs).bind fun _ => .pure _ fun _ hs => hs

theorem Patient.readBytes {P : Board → Prop} (h : Patient P) (block : UInt8) (offset : UInt16)
    (k : Nat) : Triple P (board.readBytes block offset k) (fun _ => P) P := by
  induction k generalizing offset with
  | zero => exact .pure _ fun _ hs => hs
  | succ k ih => exact (h.read _ _).bind fun _ => (ih _).bind fun _ => .pure _ fun _ hs => hs

theorem Patient.getSIPR {P : Board → Prop} (h : Patient P) :
    Triple P getSIPR (fun _ => P) P := by
  rw [W5500.getSIPR, wizchipReadBuf_addrSel]
  exact h.readBytes _ _ _

/-- Where the source goes past the array, nothing is returned. -/
theorem setRemainedSize_defined {P : Board → Prop} {size : UInt16}
    (h : Triple P (setRemainedSize sn size) (fun _ => P) fun _ => True) :
    Triple P (setRemainedSize sn size) (fun _ s => P s ∧ sn.toNat < wizchipSockNum)
      fun _ => True := by
  by_cases hlt : sn.toNat < wizchipSockNum
  · exact h.mono (fun _ hs => hs) (fun _ _ hs => ⟨hs, hlt⟩) fun _ hs => hs
  · rw [setRemainedSize, dif_neg hlt]
    exact fun s _ => ⟨fun a t he => by simp [overrun] at he, fun _ _ => trivial⟩

/-- `close` returns when the socket is closed. -/
theorem close_closes (hsn : ¬sn.toNat > wizchipSockNum) :
    Triple (On (slotOf sn) fun _ => True) (close sn)
      (fun r s => On (slotOf sn) (fun x => r.result = sockOk ∧ x.sr = sockClosed) s ∧
        sn.toNat < wizchipSockNum) fun _ => True := by
  have hshift := shiftOf_of_not_refused hsn
  have htrue : Stable fun _ : Socket => True := fun _ _ _ => trivial
  have hkeep {β : Type} {x : Attempt Board β} (hx : Uses sn housekeeping x) :
      Triple (On (slotOf sn) fun _ => True) x (fun _ => On (slotOf sn) fun _ => True)
        fun _ => True :=
    htrue.keeps hx fun _ _ _ _ => trivial
  rw [close, checkSockNum, if_neg hsn]
  refine (hkeep (order_uses ⟨by decide, fun _ => by decide⟩)).bind fun _ => ?_
  refine (hkeep (setSnIR_uses _ subset_rfl)).bind fun _ => (hkeep clearIoMode_uses).bind fun _ => ?_
  refine (hkeep clearIsSending_uses).bind fun _ => ?_
  refine (setRemainedSize_defined (hkeep (setRemainedSize_uses _))).bind fun _ =>
    .assume fun hdefined => ?_
  refine (hkeep (setPackInfo_uses _)).bind fun _ => ?_
  have hclosed : Triple (On (slotOf sn) fun _ => True) (spinWhile Board.ahead do
      let sr ← getSnSR sn
      pure (sr ≠ sockClosed : Bool)) (fun _ => On (slotOf sn) fun x => x.sr = sockClosed)
      fun _ => True := by
    refine .spinWhile (fun _ _ => trivial) ((htrue.look hshift snSR).forget.bind fun sr =>
      .pure _ fun s hs => ?_)
    have hread : sr = (s.chip.sockets (slotOf sn)).sr := hs.2
    by_cases hsr : sr = sockClosed
    · simpa [hsr, On] using hread.symm.trans hsr
    · simp [hsr, On]
  exact hclosed.bind fun _ => .pure _ fun s hs => ⟨⟨rfl, hs⟩, hdefined⟩

/-- A socket that is opened anew is closed before. -/
theorem reopen_defined (hsn : ¬sn.toNat > wizchipSockNum) (protocol : UInt8) (port : UInt16)
    (flag : UInt8) :
    Triple (fun _ => True) (reopen sn protocol port flag)
      (fun _ _ => sn.toNat < wizchipSockNum) fun _ => True :=
  ((close_closes hsn).mono (fun _ _ => trivial) (fun _ _ hs => hs) fun _ hs => hs).bind fun _ =>
    .assume fun hdefined =>
      Triple.trivial.mono (fun _ hs => hs) (fun _ _ _ => hdefined) fun _ hs => hs

/-- `socket` rejects its arguments before anything but time has passed, or it returns the number
of a socket that has the mode and is not closed. -/
theorem socket_rejects_or_opens {s : Board} (hsized : On (slotOf sn) Sized s)
    (protocol : UInt8) (port : UInt16) (flag : UInt8) :
    Triple (Later s) (W5500.socket sn protocol port flag)
      (fun r t => r.result < 0 ∧ Later s t ∨
        (r.result = sn.toNat ∧
          On (slotOf sn) (fun x => Moded protocol x ∧ x.sr ≠ sockClosed) t) ∧
          sn.toNat < wizchipSockNum)
      fun _ => True := by
  have hfail (error : Int) (herror : error < 0) (t : Board) (ht : Later s t) :
      (error < 0 ∧ Later s t ∨
        (error = sn.toNat ∧ On (slotOf sn) (fun x => Moded protocol x ∧ x.sr ≠ sockClosed) t) ∧
          sn.toNat < wizchipSockNum) := .inl ⟨herror, ht⟩
  refine .ite (fun _ => .pure _ (hfail _ (by decide))) fun hsn =>
    checkProtocol_mem (patient_later s).getSIPR.forget hfail fun hmem => .ite (fun _ => .pure _ (hfail _ (by decide))) fun _ => ?_
  have hshift := shiftOf_of_not_refused hsn
  have hhost (a : Access) (ha : a ∈ housekeeping) (x : Socket) (hx : Sized x) :
      Sized (a.apply sn x) := hx.host hshift (.inl (.inl (.inl ha)))
  have hopens := reopen_opens sized_stable (fun x hx => hx) hhost hshift (moded_stable protocol)
    (fun x hx _ => moded_stable protocol x .accept hx) hmem port flag
  refine (hopens.and (reopen_defined hsn protocol port flag)).mono (fun t ht => ⟨?_, trivial⟩)
    (fun _ _ hs => .inr hs) fun _ hs => hs.1
  exact (sized_stable.patient _).later hsized ht

/-- On the board `socket` and `close` keep the promises that the wrapper of the sockets relies on:
the socket of a number that `socket` returns is not closed, a call that it rejects has touched
nothing, `close` leaves the socket closed, and a number that it refuses it does not touch. With the
number that has no element in the arrays neither of them succeeds. -/
theorem socket_close_promises {s : Board} (hsized : On (slotOf sn) Sized s) :
    (∀ protocol port flag r t, W5500.socket sn protocol port flag s = (some r, t) →
      (0 ≤ r.result → (r.result = sn.toNat ∧ (t.chip.sockets (slotOf sn)).sr ≠ sockClosed) ∧
        sn.toNat < wizchipSockNum) ∧ (r.result < 0 → Later s t)) ∧
      ∀ r t, close sn s = (some r, t) →
        (r.result = sockOk ∧ (t.chip.sockets (slotOf sn)).sr = sockClosed) ∧
            sn.toNat < wizchipSockNum ∨
          (r.result = sockerrSocknum ∧ t = s) ∧ sn.toNat > wizchipSockNum := by
  refine ⟨fun protocol port flag r t h => ?_, fun r t h => ?_⟩
  · rcases (socket_rejects_or_opens hsized protocol port flag s .refl).1 r t h with
      ⟨hresult, hlater⟩ | ⟨⟨hresult, hopened⟩, hdefined⟩
    · exact ⟨fun hok => absurd hresult (not_lt.mpr hok), fun _ => hlater⟩
    · exact ⟨fun _ => ⟨⟨hresult, hopened.2⟩, hdefined⟩, fun hfail => by omega⟩
  · by_cases hsn : sn.toNat > wizchipSockNum
    · rw [close, checkSockNum, if_pos hsn] at h
      obtain ⟨hreply, hboard⟩ := Prod.mk.inj h
      obtain rfl := Option.some.inj hreply
      exact .inr ⟨⟨rfl, hboard.symm⟩, hsn⟩
    · exact .inl ((close_closes hsn s trivial).1 r t h)

theorem socket_close_promises_greeting :
    let opened := W5500.socket 0 snMrTcp 5000 0 greetingBoard
    let closed := close 0 greetingBoard
    (opened.2.chip.sockets 0).sr ≠ sockClosed ∧ (closed.2.chip.sockets 0).sr = sockClosed := by
  intro opened closed
  have hopened : opened.1 = some { result := 0 } := by decide +kernel
  have hclosed : closed.1 = some { result := sockOk } := by decide +kernel
  have hsized : On (slotOf 0) Sized greetingBoard := ⟨by decide, by decide⟩
  obtain ⟨hsocket, hclose⟩ := socket_close_promises hsized
  refine ⟨((hsocket snMrTcp 5000 0 _ opened.2 (Prod.ext hopened rfl)).1 le_rfl).1.2, ?_⟩
  rcases hclose _ closed.2 (Prod.ext hclosed rfl) with ⟨hpromise, -⟩ | ⟨-, hrefused⟩
  · exact hpromise.2
  · exact absurd hrefused (by decide)

end Laws

end SmartBell.Ethernet.W5500
