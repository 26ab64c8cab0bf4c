import SmartBell.Ethernet.Connection

/-!
# Sessions

A program calls the functions of the library one after the other, for all the sockets, while the
chip is at work. If a call comes to a stop the program does, too. What holds of the bytes of a TCP
socket between two calls is counted from where `socket` opened it.
-/
namespace SmartBell.Ethernet.W5500
open Common Attempt Socket

/-- A call with the number of the socket that it is for. -/
structure Request where
  sn : UInt8
  call : Call

/-- The calls that have returned, and the one that came to a stop. -/
structure Session where
  board : Board
  log : List (Request × Reply) := []
  cut : Option Request := none

namespace Session

def step (s : Session) (c : Request) : Session :=
  match s.cut with
  | some _ => s
  | none =>
    match c.call.perform c.sn s.board with
    | (some reply, board) => { board, log := s.log ++ [(c, reply)] }
    | (none, board) => { board, log := s.log, cut := some c }

def after (b : Board) (cs : List Request) : Session := run step { board := b } cs

def socket (n : Fin 8) (s : Session) : Socket := s.board.chip.sockets n

/-- Between two calls the one fact holds, and after a call that came to a stop the other. -/
def Keeps (P : List (Request × Reply) → Board → Prop)
    (R : List (Request × Reply) → Request → Board → Prop) (s : Session) : Prop :=
  s.cut.elim (P s.log s.board) fun c => R s.log c s.board

theorem after_keeps {P : List (Request × Reply) → Board → Prop}
    {R : List (Request × Reply) → Request → Board → Prop} {C : Request → Prop}
    (hcall : ∀ log c, C c →
      Triple (P log) (c.call.perform c.sn) (fun reply => P (log ++ [(c, reply)])) (R log c))
    {b : Board} (hb : P [] b) {cs : List Request} (hcs : ∀ c ∈ cs, C c) :
    (after b cs).Keeps P R := by
  refine run_of_along (C := fun _ c => C c) (fun s c hs hc => ?_) hb (along_of_forall hcs)
  rcases hcut : s.cut with _ | d
  · rw [Keeps, hcut] at hs
    obtain ⟨done, stopped⟩ := hcall s.log c hc s.board hs
    rw [step, hcut]
    rcases hperform : c.call.perform c.sn s.board with ⟨_ | reply, board⟩
    · exact stopped board hperform
    · exact done reply board hperform
  · rwa [step, hcut]

end Session

/-! ## The socket of a call -/

/-- A number is refused, or it is that of a socket. -/
theorem Request.cases (c : Request) (n : Fin 8) :
    c.call.perform c.sn = fail sockerrSocknum ∨ slotOf c.sn ≠ n ∨
      slotOf c.sn = n ∧ shiftOf c.sn = 0 := by
  by_cases hhigh : c.sn.toNat > wizchipSockNum
  · exact .inl (c.call.perform_refused hhigh)
  · by_cases hslot : slotOf c.sn = n
    · exact .inr (.inr ⟨hslot, shiftOf_of_not_refused hhigh⟩)
    · exact .inr (.inl hslot)

section Own
variable {α : Type} {sn : UInt8} {I : Socket → Prop}

theorem Stable.look (h : Stable I) (hshift : shiftOf sn = 0) (reg : UInt16) :
    Triple (On (slotOf sn) I) (getByte reg sn)
      (fun v => On (slotOf sn) fun x => I x ∧ v = x.read reg) (On (slotOf sn) I) := by
  rw [getByte_eq, hshift, UInt16.add_zero]
  exact (h.patient _).peek _ _

/-- What the writes do not undo holds after them; where they were cut short nothing is claimed. -/
theorem Stable.keeps (h : Stable I) {x : Attempt Board α} {A : Set Access} (hx : Uses sn A x)
    (hA : ∀ a ∈ A, ∀ y, I y → I (a.apply sn y)) :
    Triple (On (slotOf sn) I) x (fun _ => On (slotOf sn) I) fun _ => True :=
  (h.tolerates hx hA).forget

theorem Stable.keeps_unwritten (h : Stable I) {x : Attempt Board α} (hx : Uses sn ∅ x) :
    Triple (On (slotOf sn) I) x (fun _ => On (slotOf sn) I) fun _ => True :=
  h.keeps hx fun _ ha => absurd ha (Set.notMem_empty _)

theorem fail_on (error : Int) (n : Fin 8) :
    Triple (On n I) (fail error) (fun _ => On n I) (On n I) := .pure _ fun _ hs => hs

/-- A TCP socket takes no datagrams, and gives none. -/
theorem checkDatagram_refuses (h : Stable I) (hI : ∀ x, I x → Opened x) (hshift : shiftOf sn = 0)
    (k : UInt8 → Attempt Board Reply) :
    Triple (On (slotOf sn) I) (checkSockNum sn (checkDatagram sn k)) (fun _ => On (slotOf sn) I)
      (On (slotOf sn) I) := by
  have hmode : Triple (On (slotOf sn) I) (getSnMR sn)
      (fun mr s => On (slotOf sn) I s ∧ mr &&& 0x0F = snMrTcp) (On (slotOf sn) I) := by
    refine (h.look hshift snMR).mono (fun _ hs => hs) (fun mr s hs => ⟨hs.1, ?_⟩) fun _ hs => hs
    rw [hs.2]
    exact (hI _ hs.1).mode
  refine .ite (fun _ => fail_on _ _) fun _ => hmode.bind fun mr => .assume fun hmr => ?_
  have hdatagram : ¬Datagram mr := by
    rw [Datagram, hmr]
    decide
  rw [if_neg hdatagram]
  exact fail_on _ _

/-! ## Opening -/

/-- The mode register has the protocol and flags that belong to it. -/
theorem mode_of_flag {protocol : UInt8} (h : protocol ∈ [snMrTcp, snMrUdp, snMrMacraw, snMrIpraw])
    (flag : UInt8) : (protocol ||| (flag &&& 0xF0)) &&& 0x0F = protocol := by
  simp only [List.mem_cons, List.not_mem_nil, or_false] at h
  rcases h with rfl | rfl | rfl | rfl
  · exact forall_byte (P := fun flag => (snMrTcp ||| (flag &&& 0xF0)) &&& 0x0F = snMrTcp)
      (by decide +kernel) flag
  · exact forall_byte (P := fun flag => (snMrUdp ||| (flag &&& 0xF0)) &&& 0x0F = snMrUdp)
      (by decide +kernel) flag
  · exact forall_byte (P := fun flag => (snMrMacraw ||| (flag &&& 0xF0)) &&& 0x0F = snMrMacraw)
      (by decide +kernel) flag
  · exact forall_byte (P := fun flag => (snMrIpraw ||| (flag &&& 0xF0)) &&& 0x0F = snMrIpraw)
      (by decide +kernel) flag

/-- The buffers have their sizes, and this is the protocol that is set. -/
def Moded (protocol : UInt8) (x : Socket) : Prop :=
  Sized x ∧ x.bytes snMR &&& 0x0F = protocol

theorem moded_stable (protocol : UInt8) : Stable (Moded protocol) := fun x a h =>
  ⟨h.1.act a, by rw [x.act_bytes a (by decide)]; exact h.2⟩

theorem housekeeping_cases {a : Access} (ha : a ∈ housekeeping) (hshift : shiftOf sn = 0)
    (x : Socket) : ∃ reg v, a.apply sn x = x.write reg v ∧
      reg ∉ [snMR, snTXBUFSIZE, snRXBUFSIZE] := by
  cases a with
  | buffer offset v => exact absurd ha id
  | register reg v =>
    refine ⟨reg, v, by rw [Access.apply, hshift, UInt16.add_zero], fun hmem => ha.1 ?_⟩
    simp only [List.mem_cons, List.not_mem_nil, or_false] at hmem ⊢
    tauto

theorem Moded.host {protocol : UInt8} {x : Socket} (h : Moded protocol x) (hshift : shiftOf sn = 0)
    {a : Access} (ha : a ∈ housekeeping) : Moded protocol (a.apply sn x) := by
  obtain ⟨reg, v, heq, hreg⟩ := housekeeping_cases ha hshift x
  simp only [List.mem_cons, List.not_mem_nil, or_false, not_or] at hreg
  rw [heq]
  refine ⟨h.1.write (by simp [hreg]), ?_⟩
  rw [write_bytes_of_ne (Ne.symm hreg.1)]
  exact h.2

theorem checkProtocol_mem {protocol : UInt8} {k : Attempt Board Reply} {P : Board → Prop}
    {Q : Reply → Board → Prop} (hP : Triple P getSIPR (fun _ => P) fun _ => True)
    (hfail : ∀ error < 0, ∀ s, P s → Q { result := error } s)
    (hk : protocol ∈ [snMrTcp, snMrUdp, snMrMacraw, snMrIpraw] → Triple P k Q fun _ => True) :
    Triple P (checkProtocol protocol k) Q fun _ => True := by
  refine .ite (fun htcp => hP.bind fun _ => .ite (fun _ => ?_) fun _ => ?_) fun _ => ?_
  · exact .pure _ (hfail _ (by decide))
  · exact hk (by simp [htcp])
  · refine .ite (fun hother => hk ?_) fun _ => .pure _ (hfail _ (by decide))
    rcases hother with rfl | rfl | rfl <;> simp

/-- Once `OPEN` is accepted, the socket is as the chip opens it. -/
theorem orderOpen_opens {P : Socket → Prop} {protocol : UInt8} (hshift : shiftOf sn = 0)
    (hP : Stable P) (hopen : ∀ x, Moded protocol x → x.cr = snCrOpen → P x.accept) :
    Triple (On (slotOf sn) (Moded protocol)) (order sn snCrOpen) (fun _ => On (slotOf sn) P)
      fun _ => True := by
  have hpending : Stable fun x => x.cr = snCrOpen ∧ Moded protocol x ∨ P x := by
    rintro x a (⟨hcr, hmoded⟩ | hx)
    · rcases x.act_cr a with hsame | ⟨rfl, -⟩
      · exact .inl ⟨hsame.trans hcr, moded_stable protocol x a hmoded⟩
      · exact .inr (hopen x hmoded hcr)
    · exact .inr (hP x a hx)
  refine (order_clear (moded_stable protocol) hpending hshift (fun x hx => .inl ⟨rfl, ?_⟩)
    (fun _ _ => trivial) fun _ _ => trivial).mono (fun _ hs => hs) (fun _ s hs => ?_) fun _ hs => hs
  · exact ⟨{ hx.1 with }, hx.2⟩
  · rcases hs with ⟨⟨hcr, -⟩ | hs, hzero⟩
    · exact absurd (hcr.symm.trans hzero) (by decide)
    · exact hs

/-- The socket is as the chip opens it. -/
theorem reopen_opens {P : Socket → Prop} {protocol : UInt8} (hI : Stable I)
    (hsized : ∀ x, I x → Sized x) (hhost : ∀ a ∈ housekeeping, ∀ x, I x → I (a.apply sn x))
    (hshift : shiftOf sn = 0) (hP : Stable P)
    (hopen : ∀ x, Moded protocol x → x.cr = snCrOpen → P x.accept)
    (hmem : protocol ∈ [snMrTcp, snMrUdp, snMrMacraw, snMrIpraw]) (port : UInt16) (flag : UInt8) :
    Triple (On (slotOf sn) I) (reopen sn protocol port flag)
      (fun r s => r.result = sn.toNat ∧ On (slotOf sn) (fun x => P x ∧ x.sr ≠ sockClosed) s)
      fun _ => True := by
  have hmoded (a : Access) (ha : a ∈ housekeeping) (x : Socket) (hx : Moded protocol x) :
      Moded protocol (a.apply sn x) := hx.host hshift ha
  refine (hI.keeps close_uses hhost).bind fun _ => ?_
  have hmode : Triple (On (slotOf sn) I) (setSnMR sn (protocol ||| (flag &&& 0xF0)))
      (fun _ => On (slotOf sn) (Moded protocol)) fun _ => True := by
    rw [setSnMR, setByte_eq, hshift]
    refine (hI.poke fun x hx => ⟨(hsized x hx).write (by decide), ?_⟩).forget
    rw [UInt16.add_zero, write_bytes (by simp)]
    simpa only [Function.update_self] using mode_of_flag hmem flag
  refine hmode.bind fun _ => ((moded_stable protocol).keeps (choosePort_uses _) hmoded).bind
    fun _ => ?_
  refine ((moded_stable protocol).keeps (setWord_housekeeping (by simp) subset_rfl _) hmoded).bind
    fun _ => ?_
  refine (orderOpen_opens hshift hP hopen).bind fun _ => ?_
  refine (hP.keeps_unwritten clearIoMode_uses).bind fun _ => ?_
  refine (hP.keeps_unwritten (addIoMode_uses fun _ => ioBit_disjoint)).bind fun _ => ?_
  refine (hP.keeps_unwritten clearIsSending_uses).bind fun _ => ?_
  refine (hP.keeps_unwritten (setRemainedSize_uses _)).bind fun _ => ?_
  refine (hP.keeps_unwritten (setPackInfo_uses _)).bind fun _ => ?_
  have hopened : Triple (On (slotOf sn) P) (spinWhile Board.ahead do
      let sr ← getSnSR sn
      pure (sr = sockClosed : Bool)) (fun _ => On (slotOf sn) fun x => P x ∧ x.sr ≠ sockClosed)
      fun _ => True := by
    refine .spinWhile (fun _ _ => trivial) ((hP.look hshift snSR).forget.bind fun sr =>
      .pure _ fun s hs => ?_)
    have hopened : On (slotOf sn) P s := hs.1
    by_cases hclosed : sr = sockClosed
    · simpa [hclosed] using hopened
    · simpa [hclosed] using ⟨hopened, fun heq => hclosed (hs.2.trans heq)⟩
  exact hopened.bind fun _ => .pure _ fun s hs => ⟨rfl, hs⟩

/-- `socket` fails before it touches the socket, or the socket is as the chip opens it. -/
theorem socket_opens {P : Socket → Prop} {protocol : UInt8} (hI : Stable I)
    (hsized : ∀ x, I x → Sized x) (hhost : ∀ a ∈ housekeeping, ∀ x, I x → I (a.apply sn x))
    (hshift : shiftOf sn = 0) (hP : Stable P)
    (hopen : ∀ x, Moded protocol x → x.cr = snCrOpen → P x.accept) (port : UInt16) (flag : UInt8) :
    Triple (On (slotOf sn) I) (W5500.socket sn protocol port flag)
      (fun r s => r.result < 0 ∧ On (slotOf sn) I s ∨
        r.result = sn.toNat ∧ On (slotOf sn) (fun x => P x ∧ x.sr ≠ sockClosed) s)
      fun _ => True := by
  have hfail (error : Int) (herror : error < 0) (s : Board) (hs : On (slotOf sn) I s) :
      (error < 0 ∧ On (slotOf sn) I s ∨
        error = sn.toNat ∧ On (slotOf sn) (fun x => P x ∧ x.sr ≠ sockClosed) s) := .inl ⟨herror, hs⟩
  refine .ite (fun _ => .pure _ (hfail _ (by decide))) fun _ =>
    checkProtocol_mem (hI.keeps_unwritten (wizchipReadBuf_uses _ _ _)) hfail fun hmem => ?_
  refine .ite (fun _ => .pure _ (hfail _ (by decide))) fun _ => ?_
  exact (reopen_opens hI hsized hhost hshift hP hopen hmem port flag).mono (fun _ hs => hs)
    (fun _ _ hs => .inr hs) fun _ hs => hs

end Own

/-! ## The bytes since the socket was opened -/

/-- The call opens the socket anew. -/
def Call.opens : Call → Bool
  | .socket .. => true
  | _ => false

/-- The call opens socket `n` anew. -/
def Request.opens (n : Fin 8) (c : Request) : Bool := slotOf c.sn = n && c.call.opens

section Streams
variable (n : Fin 8) (bytes : Call → Reply → List UInt8)

/-- The bytes of socket `n` with one more call. -/
def streamStep (out : Option (List UInt8)) (entry : Request × Reply) : Option (List UInt8) :=
  if slotOf entry.1.sn = n then
    match entry.1.call with
    | .socket protocol _ _ =>
      if entry.2.result < 0 then out else if protocol = snMrTcp then some [] else none
    | call => out.map (· ++ bytes call entry.2)
  else out

/-- The bytes that the calls on socket `n` have to do with, by what they returned, since the socket
was opened for TCP; none if it was opened otherwise or not at all. -/
def streamOf (log : List (Request × Reply)) : Option (List UInt8) :=
  log.foldl (streamStep n bytes) none

/-- While the socket is opened anew there are no such bytes. -/
def Session.stream (s : Session) : Option (List UInt8) :=
  if s.cut.any (Request.opens n) then none else streamOf n bytes s.log

theorem streamOf_snoc (log : List (Request × Reply)) (entry : Request × Reply) :
    streamOf n bytes (log ++ [entry]) = streamStep n bytes (streamOf n bytes log) entry :=
  List.foldl_concat ..

variable {n bytes}

theorem streamStep_elsewhere {out : Option (List UInt8)} {c : Request} (h : slotOf c.sn ≠ n)
    (reply : Reply) : streamStep n bytes out (c, reply) = out := if_neg h

theorem streamStep_own {out : Option (List UInt8)} {c : Request} (h : slotOf c.sn = n)
    (hopens : c.call.opens = false) (reply : Reply) :
    streamStep n bytes out (c, reply) = out.map (· ++ bytes c.call reply) := by
  rw [streamStep, if_pos h]
  cases hcall : c.call with
  | socket => exact absurd hopens (by rw [hcall]; exact Bool.noConfusion)
  | _ => rfl

end Streams

/-- A fact about the bytes of a TCP socket that the calls keep. -/
structure Kept (bytes : Call → Reply → List UInt8) (live : List UInt8 → Socket → Prop)
    (left : List UInt8 → Call → Socket → Prop) : Prop where
  stable : ∀ out, Stable (live out)
  sized : ∀ out x, live out x → Sized x
  host : ∀ out sn, shiftOf sn = 0 → ∀ a ∈ housekeeping, ∀ x, live out x → live out (a.apply sn x)
  opened : ∀ x, Moded snMrTcp x → x.cr = snCrOpen → live [] x.accept
  call : ∀ out sn call, shiftOf sn = 0 → call.opens = false →
    Triple (On (slotOf sn) (live out)) (call.perform sn)
      (fun reply => On (slotOf sn) (live (out ++ bytes call reply)))
      (On (slotOf sn) (left out call))
  refused : ∀ call, bytes call { result := sockerrSocknum } = []

section Kept
variable {bytes : Call → Reply → List UInt8} {live : List UInt8 → Socket → Prop}
  {left : List UInt8 → Call → Socket → Prop} {n : Fin 8}

/-- What holds of the socket between two calls. -/
def Live (live : List UInt8 → Socket → Prop) : Option (List UInt8) → Socket → Prop
  | none => Sized
  | some out => live out

/-- What holds of it after a call that came to a stop. -/
def Left (n : Fin 8) (live : List UInt8 → Socket → Prop) (left : List UInt8 → Call → Socket → Prop)
    (out : Option (List UInt8)) (c : Request) (x : Socket) : Prop :=
  ∀ bs ∈ out, if slotOf c.sn = n then c.call.opens = false → left bs c.call x else live bs x

theorem sized_stable : Stable Sized := fun _ a h => h.act a

theorem Kept.live_stable (h : Kept bytes live left) (out : Option (List UInt8)) :
    Stable (Live live out) := by
  cases out with
  | none => exact sized_stable
  | some bs => exact h.stable bs

theorem Kept.live_sized (h : Kept bytes live left) (out : Option (List UInt8)) {x : Socket}
    (hx : Live live out x) : Sized x := by
  cases out with
  | none => exact hx
  | some bs => exact h.sized bs x hx

theorem Kept.live_host (h : Kept bytes live left) (out : Option (List UInt8)) {sn : UInt8}
    (hshift : shiftOf sn = 0) : ∀ a ∈ housekeeping, ∀ x, Live live out x →
      Live live out (a.apply sn x) := by
  cases out with
  | none =>
    intro a ha x hx
    obtain ⟨reg, v, heq, hreg⟩ := housekeeping_cases ha hshift x
    rw [heq]
    exact Sized.write hx fun hmem => hreg (List.mem_cons_of_mem _ hmem)
  | some bs => exact h.host bs sn hshift

theorem Call.accesses_subset {call : Call} (h : call.opens = false) : call.accesses ⊆ traffic := by
  intro a ha
  cases call with
  | socket => exact absurd h Bool.noConfusion
  | close | disconnect | ctlsocket | setsockopt | getsockopt => exact .inl (.inl (.inl ha))
  | listen | connect => exact .inl (.inl ha)
  | send | sendto => exact ha.elim (fun ha => .inl (.inl (.inl ha))) fun ha => .inl (.inr ha)
  | recv | recvfrom => exact ha.elim (fun ha => .inl (.inl (.inl ha))) fun ha => .inr ha

/-- A call on the socket that does not open it anew. -/
theorem Kept.goes_on (h : Kept bytes live left) {out : Option (List UInt8)} {c : Request}
    (hshift : shiftOf c.sn = 0) (hopens : c.call.opens = false) :
    Triple (On (slotOf c.sn) (Live live out)) (c.call.perform c.sn)
      (fun reply => On (slotOf c.sn) (Live live (streamStep (slotOf c.sn) bytes out (c, reply))))
      (On (slotOf c.sn) (Left (slotOf c.sn) live left out c)) := by
  simp only [streamStep_own rfl hopens]
  cases out with
  | none =>
    refine (sized_stable.tolerates c.call.perform_uses fun a ha x hx =>
      Sized.host hx hshift (Call.accesses_subset hopens ha)).mono (fun _ hs => hs)
        (fun _ _ hs => hs)
        fun s _ bs hbs => absurd hbs (Option.not_mem_none bs)
  | some bs =>
    refine (h.call bs c.sn c.call hshift hopens).mono (fun _ hs => hs) (fun _ _ hs => hs)
      fun s hs bs' hbs => ?_
    obtain rfl : bs = bs' := by simpa using hbs
    rw [if_pos rfl]
    exact fun _ => hs

/-- `socket` starts the bytes anew, or they are as before. -/
theorem Kept.opens (h : Kept bytes live left) {out : Option (List UInt8)} {c : Request}
    (hshift : shiftOf c.sn = 0) (hopens : c.call.opens = true) :
    Triple (On (slotOf c.sn) (Live live out)) (c.call.perform c.sn)
      (fun reply => On (slotOf c.sn) (Live live (streamStep (slotOf c.sn) bytes out (c, reply))))
      (On (slotOf c.sn) (Left (slotOf c.sn) live left out c)) := by
  obtain ⟨sn, call⟩ := c
  cases call with
  | socket protocol port flag =>
    have hopen (x : Socket) (hx : Moded protocol x) (hcr : x.cr = snCrOpen) :
        Live live (if protocol = snMrTcp then some [] else none) x.accept := by
      split_ifs with htcp
      · exact h.opened x (htcp ▸ hx) hcr
      · exact hx.1.act .accept
    refine (socket_opens (h.live_stable out) (fun x hx => h.live_sized out hx)
      (h.live_host out hshift) hshift (h.live_stable _) hopen port flag).mono (fun _ hs => hs)
      (fun reply s hs => ?_) fun s _ bs hbs => ?_
    · simp only [streamStep, if_true]
      rcases hs with ⟨hresult, hs⟩ | ⟨hresult, hs⟩
      · rwa [if_pos hresult]
      · rw [if_neg (by omega)]
        exact hs.1
    · rw [if_pos rfl]
      exact fun hfalse => absurd (hopens.symm.trans hfalse) Bool.noConfusion
  | _ => exact absurd hopens Bool.noConfusion

theorem Kept.request (h : Kept bytes live left) {out : Option (List UInt8)} {c : Request} :
    Triple (On n (Live live out)) (c.call.perform c.sn)
      (fun reply => On n (Live live (streamStep n bytes out (c, reply))))
      (On n (Left n live left out c)) := by
  rcases c.cases n with hrefused | hother | ⟨rfl, hshift⟩
  · have hsame : streamStep n bytes out (c, { result := sockerrSocknum }) = out := by
      have hnegative : sockerrSocknum < 0 := by decide
      unfold streamStep
      cases c.call <;> simp [hnegative, h.refused]
    rw [hrefused]
    refine .pure _ fun s hs => ?_
    rwa [hsame]
  · simp only [streamStep_elsewhere hother]
    refine ((h.live_stable out).elsewhere c.call.perform_uses hother).mono (fun _ hs => hs)
      (fun _ _ hs => hs) fun s hs bs hbs => ?_
    rw [if_neg hother]
    obtain rfl := Option.mem_def.mp hbs
    exact hs
  · cases hopens : c.call.opens
    · exact h.goes_on hshift hopens
    · exact h.opens hshift hopens

theorem Kept.session (h : Kept bytes live left) {b : Board} (hb : On n Sized b)
    (cs : List Request) :
    (Session.after b cs).Keeps (fun log => On n (Live live (streamOf n bytes log)))
      fun log c => On n (Left n live left (streamOf n bytes log) c) := by
  refine Session.after_keeps (C := fun _ => True) (fun log c _ => ?_) hb fun _ _ => trivial
  simp only [streamOf_snoc]
  exact h.request

theorem Kept.after (h : Kept bytes live left) {b : Board} (hb : On n Sized b) {cs : List Request}
    {out : List UInt8}
    (hout : (Session.after b cs).stream n bytes = some out) :
    match (Session.after b cs).cut with
    | none => live out ((Session.after b cs).socket n)
    | some c => if slotOf c.sn = n then left out c.call ((Session.after b cs).socket n)
        else live out ((Session.after b cs).socket n) := by
  have hkeeps := h.session hb cs
  rw [Session.Keeps] at hkeeps
  rw [Session.stream] at hout
  rcases hcut : (Session.after b cs).cut with _ | c
  · rw [hcut, if_neg (by simp)] at hout
    rwa [hcut, Option.elim_none, hout] at hkeeps
  · rw [hcut, Option.any_some] at hout
    rw [hcut, Option.elim_some] at hkeeps
    split_ifs at hout with hopens
    have hleft := hkeeps out hout
    by_cases hslot : slotOf c.sn = n
    · rw [if_pos hslot] at hleft
      simp only [if_pos hslot]
      exact hleft (by simpa [Request.opens, hslot] using hopens)
    · rw [if_neg hslot] at hleft
      simp only [if_neg hslot]
      exact hleft

end Kept

/-! ### A connection -/

/-- The chip is never behind, and a packet arrives once. -/
def greetingBoard : Board :=
  let prompt : List Chip.Event :=
    [.accept, .connected 7, .transmit, .acknowledge, .interrupt snIrSendok].map (⟨slotOf 0, ·⟩)
  let packet : List Chip.Event := [⟨slotOf 0, .receive [5, 6]⟩]
  { Board.powerUp (List.replicate 60 prompt ++ packet :: List.replicate 40 prompt) with
    registered := true
    chip := { Chip.powerUp with common := fun _ => 1 } }

def greetingCalls : List Request :=
  [⟨0, .socket snMrTcp 5000 0⟩, ⟨0, .connect #v[10, 0, 0, 1] 1883⟩, ⟨0, .send [1, 2, 3]⟩,
    ⟨0, .recv 4⟩]

end SmartBell.Ethernet.W5500
