import SmartBell.Ethernet.SendStream

/-!
# Whole packets

`send` cuts what it is given to the size of the transmit buffer, and to nothing else. So a program
whose packets fit into the smallest buffer has each of them taken over as a whole or not at all, as
the client's `socket_send` expects it, and on the wire no packet comes behind a torn one.
-/
namespace SmartBell.Ethernet.W5500
open Common Attempt Socket

section Functions
variable {sn : UInt8}

/-- The largest packet that every transmit buffer can hold. -/
def packetLimit : Nat := 1024

theorem waitForRoom_error (len : UInt16) : Triple (fun _ => True) (waitForRoom sn len)
    (fun error _ => ∀ e ∈ error, e ≤ 0) fun _ => True := by
  have hstatus : sockerrSockstatus ≤ 0 := by decide
  have hbusy : sockBusy ≤ 0 := by decide
  refine .repeatUntil (fun _ hs => hs) (Triple.trivial.bind fun freesize => ?_)
  refine Triple.trivial.bind fun sr => .ite (fun _ => ?_) fun _ => ?_
  · exact Triple.trivial.bind fun _ => .pure _ fun _ _ => by simpa using hstatus
  · refine Triple.trivial.bind fun nonblock => .ite (fun _ => .pure _ fun _ _ => ?_) fun _ => ?_
    · simpa using hbusy
    · exact .ite (fun _ => .pure _ fun _ _ => by simp) fun _ => .pure _ fun _ _ => trivial

theorem packetLimit_le {kilobytes : UInt8} (h : kilobytes ∈ bufferSizes) :
    packetLimit ≤ (kilobytes.toUInt16 <<< 10).toNat :=
  forall_byte (P := fun k => k ∈ bufferSizes → packetLimit ≤ (k.toUInt16 <<< 10).toNat)
    (by decide +kernel) kilobytes h

theorem getSnTxMAX_holds (hshift : shiftOf sn = 0) :
    Triple (On (slotOf sn) Sized) (getSnTxMAX sn)
      (fun size s => On (slotOf sn) Sized s ∧ packetLimit ≤ size.toNat) fun _ => True := by
  refine (sized_stable.look hshift snTXBUFSIZE).forget.bind fun size => .pure _ fun s hs => ?_
  have hsize : size ∈ bufferSizes := by
    rw [hs.2]
    exact hs.1.txKilobytes
  exact ⟨hs.1, packetLimit_le hsize⟩

theorem sendBytes_whole (hshift : shiftOf sn = 0) {buf : List UInt8}
    (hfits : buf.length ≤ packetLimit) : Triple (On (slotOf sn) Sized) (sendBytes sn buf)
      (fun r _ => r.result ≤ 0 ∨ r.result = buf.length) fun _ => True := by
  refine (getSnTxMAX_holds hshift).bind fun freesize => .assume fun hroom => ?_
  have hlength : (UInt16.ofNat buf.length).toNat = buf.length := by
    rw [UInt16.toNat_ofNat', Nat.mod_eq_of_lt (by simp only [packetLimit] at hfits; omega)]
  -- The size of the buffer never cuts the packet.
  have huncut : (if UInt16.ofNat buf.length > freesize then freesize
      else UInt16.ofNat buf.length) = UInt16.ofNat buf.length := by
    refine if_neg fun hmore => ?_
    rw [gt_iff_lt, UInt16.lt_iff_toNat_lt] at hmore
    omega
  simp only [huncut]
  refine ((waitForRoom_error _).mono (fun _ _ => trivial) (fun _ _ hs => hs) fun _ hs => hs).bind
    fun error => ?_
  cases error with
  | some error => exact .pure _ fun _ hs => .inl (hs error rfl)
  | none =>
    refine Triple.trivial.bind fun _ => Triple.trivial.bind fun _ => Triple.trivial.bind fun _ => ?_
    exact .pure _ fun _ _ => .inr (congrArg Int.ofNat hlength)

/-- A packet that fits into every buffer is taken over as a whole or not at all. -/
theorem send_whole (hshift : shiftOf sn = 0) {buf : List UInt8}
    (hfits : buf.length ≤ packetLimit) : Triple (On (slotOf sn) Sized) (send sn buf)
      (fun r _ => r.result ≤ 0 ∨ r.result = buf.length) fun _ => True := by
  have hfail {error : Int} (herror : error ≤ 0) : Triple (On (slotOf sn) Sized) (fail error)
      (fun r _ => r.result ≤ 0 ∨ r.result = buf.length) fun _ => True :=
    .pure _ fun _ _ => .inl herror
  have hbytes := sendBytes_whole hshift hfits
  have hhost (a : Access) (ha : a ∈ housekeeping) (x : Socket) (hx : Sized x) :
      Sized (a.apply sn x) := hx.host hshift (.inl (.inl (.inl ha)))
  refine .ite (fun _ => hfail (by decide)) fun _ => ?_
  refine (sized_stable.keeps_unwritten (getByte_uses _ _)).bind fun mr => ?_
  refine .ite (fun _ => hfail (by decide)) fun _ => .ite (fun _ => hfail (by decide)) fun _ => ?_
  refine (sized_stable.keeps_unwritten (getByte_uses _ _)).bind fun sr => ?_
  refine .ite (fun _ => hfail (by decide)) fun _ => ?_
  refine (sized_stable.keeps_unwritten (sending_uses _)).bind fun busy =>
    .ite (fun _ => ?_) fun _ => hbytes
  refine (sized_stable.keeps_unwritten (getSnIR_uses _)).bind fun ir =>
    .ite (fun _ => ?_) fun _ => ?_
  · refine (sized_stable.keeps (setSnIR_uses _ subset_rfl) hhost).bind fun _ => ?_
    exact (sized_stable.keeps_unwritten clearIsSending_uses).bind fun _ => hbytes
  · refine .ite (fun _ => ?_) fun _ => hfail (by decide)
    exact (sized_stable.keeps close_uses hhost).bind fun _ => hfail (by decide)

end Functions

/-! ## The packets since the socket was opened -/

/-- A `send` on socket `n` has taken over the whole packet or nothing of it. -/
def Request.Whole (n : Fin 8) (c : Request) (reply : Reply) : Prop :=
  slotOf c.sn = n → ∀ buf, c.call = .send buf → reply.result ≤ 0 ∨ reply.result = buf.length

section Packets
variable {n : Fin 8}

theorem Request.sized (c : Request) :
    Triple (On n Sized) (c.call.perform c.sn) (fun _ => On n Sized) fun _ => True := by
  have hlive : Triple (On n (Live TxLive none)) (c.call.perform c.sn) _ _ := send_kept.request
  exact hlive.mono (fun _ hs => hs) (fun _ s hs => send_kept.live_sized _ hs) fun _ _ => trivial

theorem Request.whole {c : Request}
    (hfits : slotOf c.sn = n → c.call.offered.length ≤ packetLimit) :
    Triple (On n Sized) (c.call.perform c.sn) (fun reply _ => c.Whole n reply) fun _ => True := by
  rcases c.cases n with hrefused | hother | ⟨hslot, hshift⟩
  · rw [hrefused]
    have hnegative : sockerrSocknum ≤ 0 := by decide
    exact .pure _ fun _ _ _ _ _ => .inl hnegative
  · exact Triple.trivial.mono (fun _ _ => trivial) (fun _ _ _ hslot => absurd hslot hother)
      fun _ _ => trivial
  · obtain ⟨sn, call⟩ := c
    obtain rfl : slotOf sn = n := hslot
    by_cases hsend : ∃ buf, call = .send buf
    · obtain ⟨buf, rfl⟩ := hsend
      refine (send_whole hshift (hfits rfl)).mono (fun _ hs => hs)
        (fun reply _ hs _ buf' hbuf => ?_)
        fun _ _ => trivial
      obtain rfl : buf = buf' := Call.send.inj hbuf
      exact hs
    · exact Triple.trivial.mono (fun _ _ => trivial)
        (fun _ _ _ _ buf hbuf => absurd ⟨buf, hbuf⟩ hsend) fun _ _ => trivial

/-- Every `send` of a session was whole, also where the session was cut short. -/
theorem Session.all_whole {b : Board} (hb : On n Sized b) {cs : List Request}
    (hfits : ∀ c ∈ cs, slotOf c.sn = n → c.call.offered.length ≤ packetLimit) :
    ∀ entry ∈ (after b cs).log, entry.1.Whole n entry.2 := by
  have hkeeps : (after b cs).Keeps
      (fun log s => On n Sized s ∧ ∀ entry ∈ log, entry.1.Whole n entry.2)
      fun log _ _ => ∀ entry ∈ log, entry.1.Whole n entry.2 := by
    refine after_keeps (C := fun c => slotOf c.sn = n → c.call.offered.length ≤ packetLimit)
      (fun log c hc => ?_) ⟨hb, by simp⟩ hfits
    intro s hs
    obtain ⟨hsized, hlog⟩ := hs
    refine ⟨fun reply t hrun => ⟨(c.sized s hsized).1 reply t hrun, ?_⟩, fun _ _ => hlog⟩
    intro entry hentry
    rcases List.mem_append.mp hentry with hentry | hentry
    · exact hlog entry hentry
    · obtain rfl := List.mem_singleton.mp hentry
      exact (Request.whole hc s hsized).1 reply t hrun
  rw [Keeps] at hkeeps
  rcases hcut : (after b cs).cut with _ | c
  · rw [hcut] at hkeeps
    exact hkeeps.2
  · rw [hcut] at hkeeps
    exact hkeeps

variable (n)

/-- The packets on socket `n` with one more call. -/
def packetStep (packets : Option (List (List UInt8))) (entry : Request × Reply) :
    Option (List (List UInt8)) :=
  if slotOf entry.1.sn = n then
    match entry.1.call with
    | .socket protocol _ _ =>
      if entry.2.result < 0 then packets else if protocol = snMrTcp then some [] else none
    | .send buf =>
      if entry.2.result = buf.length then packets.map (· ++ [buf]) else packets
    | _ => packets
  else packets

/-- The packets for which `send` has returned their length since `socket` opened socket `n` for TCP;
none if it was opened otherwise or not at all. -/
def packetsOf (log : List (Request × Reply)) : Option (List (List UInt8)) :=
  log.foldl (packetStep n) none

/-- While the socket is opened anew there are no such packets. -/
def Session.packets (s : Session) : Option (List (List UInt8)) :=
  if s.cut.any (Request.opens n) then none else packetsOf n s.log

variable {n}

/-- What is accepted of a whole packet is all of it. -/
theorem streamStep_flatten {entry : Request × Reply} (hwhole : entry.1.Whole n entry.2)
    (packets : Option (List (List UInt8))) :
    streamStep n Call.accepted (packets.map List.flatten) entry =
      (packetStep n packets entry).map List.flatten := by
  by_cases hslot : slotOf entry.1.sn = n
  swap
  · rw [streamStep, packetStep, if_neg hslot, if_neg hslot]
  have hnothing : (packets.map List.flatten).map (· ++ ([] : List UInt8)) =
      packets.map List.flatten := by
    cases packets with
    | none => rfl
    | some packets => exact congrArg some (List.append_nil _)
  rw [streamStep, packetStep, if_pos hslot, if_pos hslot]
  cases hcall : entry.1.call with
  | socket protocol port flag =>
    dsimp only
    split_ifs <;> rfl
  | send buf =>
    dsimp only
    rw [Call.accepted, Call.offered]
    split_ifs with hlength
    · rw [hlength, Int.toNat_natCast, List.take_length, Option.map_map, Option.map_map]
      simp [Function.comp_def]
    · rw [Int.toNat_of_nonpos ((hwhole hslot buf hcall).resolve_right hlength), List.take_zero]
      exact hnothing
  | _ =>
    simp only [Call.accepted, Call.offered, List.take_nil]
    exact hnothing

theorem streamOf_flatten {log : List (Request × Reply)}
    (hwhole : ∀ entry ∈ log, entry.1.Whole n entry.2) :
    streamOf n Call.accepted log = (packetsOf n log).map List.flatten := by
  suffices hfrom : ∀ packets : Option (List (List UInt8)),
      log.foldl (streamStep n Call.accepted) (packets.map List.flatten) =
        (log.foldl (packetStep n) packets).map List.flatten from hfrom none
  induction log with
  | nil => exact fun _ => rfl
  | cons entry log ih =>
    intro packets
    have hrest := ih fun entry hentry => hwhole entry (List.mem_cons_of_mem _ hentry)
    rw [List.foldl_cons, List.foldl_cons, streamStep_flatten (hwhole entry List.mem_cons_self),
      hrest]

/-- From where `socket` opens it for TCP, a `send` on a socket whose packets fit into every buffer
takes a packet over as a whole or refuses it as a whole. On the wire are the packets taken over, one
behind the other, of which the end may still be in the buffer; the first bytes of a `send` that came
to a stop may follow them. This holds whatever else is called for this socket and for the others
and whenever the chip does its part. -/
theorem Session.wire_of_packets (n : Fin 8) {b : Board} (hb : On n Sized b) {cs : List Request}
    (hfits : ∀ c ∈ cs, slotOf c.sn = n → c.call.offered.length ≤ packetLimit)
    {packets : List (List UInt8)} (hout : (after b cs).packets n = some packets) :
    (∀ entry ∈ (after b cs).log, entry.1.Whole n entry.2) ∧
      ((after b cs).socket n).wire <+: (packets ++ [(after b cs).pending n]).flatten ∧
      ((after b cs).cut = none →
        ((after b cs).socket n).wire ++ ((after b cs).socket n).unsent = packets.flatten) := by
  have hwhole := all_whole hb hfits
  have haccepted : (after b cs).stream n Call.accepted = some packets.flatten := by
    rw [Session.packets] at hout
    rw [stream]
    split_ifs at hout ⊢
    rw [streamOf_flatten hwhole, hout, Option.map_some]
  refine ⟨hwhole, ?_⟩
  rw [List.flatten_append, List.flatten_singleton]
  exact wire_accounted (send_kept.after hb haccepted)

theorem Session.wire_of_packets_greeting :
    let s := after greetingBoard greetingCalls
    (s.socket 0).wire <+: ([[1, 2, 3]] ++ [s.pending 0]).flatten :=
  (wire_of_packets 0 ⟨by decide, by decide⟩ (by decide) (by decide +kernel)).2.1

end Packets

end SmartBell.Ethernet.W5500
