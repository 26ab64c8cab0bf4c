import SmartBell.Common.Runs

/-!
# `Ethernet::EmbeddedSocketW5500`

A wrapper of the socket driver, which keeps the state of every socket in a cache of its own. The
chip does not wait for it: the other side of a connection and the rest of the program change the
status registers between two calls.
-/
namespace SmartBell.Ethernet
open Common

/-! ## Driver -/

def snMrTcp : UInt8 := 0x01
def snMrUdp : UInt8 := 0x02
def snMrIpraw : UInt8 := 0x03
def snMrMacraw : UInt8 := 0x04

/-- `_WIZCHIP_SOCK_NUM_`, as it is defined for this chip; `CHECK_SOCKNUM` refuses what is above. -/
def wizchipSockNum : Nat := 2

def sockOk : Int := 1
def sockerrSocknum : Int := -1
def sockerrSockmode : Int := -5
def sockClosed : UInt8 := 0x00
def sockInit : UInt8 := 0x13
def sockUdp : UInt8 := 0x22
def sockIpraw : UInt8 := 0x32
def sockMacraw : UInt8 := 0x42

/-- The state of a socket that was opened in the given mode. -/
def openedState (mode : UInt8) : Option UInt8 :=
  if mode = snMrTcp then some sockInit
  else if mode = snMrUdp then some sockUdp
  else if mode = snMrIpraw then some sockIpraw
  else if mode = snMrMacraw then some sockMacraw
  else none

inductive CtlsockType where
  | setIomode
  | getIomode
  | getMaxtxbuf
  | getMaxrxbuf
  | clrInterrupt
  | getInterrupt
  | setIntmask
  | getIntmask
  deriving DecidableEq, Repr

inductive SockoptType where
  | flag
  | ttl
  | tos
  | mss
  | destip
  | destport
  | keepalivesend
  | keepaliveauto
  | sendbuf
  | recvbuf
  | status
  | remainsize
  | packinfo
  deriving DecidableEq, Repr

/-- A pointer is passed on as it is; what is stored there belongs to the chip's side. -/
abbrev Pointer := UInt16

/-- The functions of the driver, called with their arguments. -/
inductive Request where
  | socket (sn protocol : UInt8) (port : UInt16) (flag : UInt8)
  | close (sn : UInt8)
  | disconnect (sn : UInt8)
  | listen (sn : UInt8)
  | connect (sn : UInt8) (addr : Pointer) (port : UInt16)
  | sendto (sn : UInt8) (buf : Pointer) (len : UInt16) (addr : Pointer) (port : UInt16)
  | recvfrom (sn : UInt8) (buf : Pointer) (len : UInt16) (addr port : Pointer)
  | ctlsocket (sn : UInt8) (cstype : CtlsockType) (arg : Pointer)
  | setsockopt (sn : UInt8) (sotype : SockoptType) (arg : Pointer)
  | getsockopt (sn : UInt8) (sotype : SockoptType) (arg : Pointer)
  deriving DecidableEq, Repr

/-- The driver and the chip, with what `socket` and `close` promise. -/
structure Driver (χ : Type) where
  answer : Request → χ → Int × χ
  getSnSR : UInt8 → χ → UInt8
  /-- `socket` waits until the socket is no longer closed, and returns its number. -/
  socket_opened (sn protocol : UInt8) (port : UInt16) (flag : UInt8) (x : χ) : sn < 8 →
    0 ≤ (answer (.socket sn protocol port flag) x).1 →
      (answer (.socket sn protocol port flag) x).1 = sn.toNat ∧
        getSnSR sn (answer (.socket sn protocol port flag) x).2 ≠ sockClosed
  /-- It rejects its arguments before it touches the socket. -/
  socket_rejected (sn protocol : UInt8) (port : UInt16) (flag : UInt8) (x : χ) : sn < 8 →
    (answer (.socket sn protocol port flag) x).1 < 0 →
      (answer (.socket sn protocol port flag) x).2 = x
  /-- `close` waits until the socket is closed. -/
  close_closed (sn : UInt8) (x : χ) : sn.toNat ≤ wizchipSockNum →
    (answer (.close sn) x).1 = sockOk ∧ getSnSR sn (answer (.close sn) x).2 = sockClosed
  /-- A number that it refuses it does not touch. -/
  close_refused (sn : UInt8) (x : χ) : wizchipSockNum < sn.toNat →
    answer (.close sn) x = (sockerrSocknum, x)

/-! ## Wrapper -/

abbrev W5500SocketNumber := Fin 8

/-- The enumeration has a fixed underlying type, so that it holds any value of it. -/
structure W5500SocketProtocol where
  value : UInt8
  deriving DecidableEq, Repr

namespace W5500SocketProtocol

def kTCP : W5500SocketProtocol := ⟨6⟩
def kUDP : W5500SocketProtocol := ⟨17⟩
def kIPRAW : W5500SocketProtocol := ⟨255⟩

/-- One of the enumerators. -/
def Named (p : W5500SocketProtocol) : Prop := p = kTCP ∨ p = kUDP ∨ p = kIPRAW

instance : DecidablePred Named := fun _ => inferInstanceAs (Decidable (_ ∨ _))

end W5500SocketProtocol

structure W5500SocketStatus where
  socketNumber : W5500SocketNumber
  protocolType : W5500SocketProtocol
  port : UInt16
  currentState : UInt16
  socketFlags : UInt16
  deriving DecidableEq, Repr

/-- The wrapper together with the chip, and with the functions of the driver that it has called,
the latest first. -/
structure EmbeddedSocketW5500 (χ : Type) where
  socketStatus : W5500SocketNumber → W5500SocketStatus
  chip : χ
  asked : List Request

def getSocketIndex (socketNum : W5500SocketNumber) : UInt8 := UInt8.ofNat socketNum

/-- The arguments of `socket`, apart from the protocol. -/
def W5500SocketStatus.socketRequest (status : W5500SocketStatus) (protocol : UInt8) : Request :=
  .socket (getSocketIndex status.socketNumber) protocol status.port status.socketFlags.toUInt8

/-- The public members, called with their arguments, for a socket that exists. -/
inductive Call where
  | openSocket (socketStatus : W5500SocketStatus)
  | closeSocket (sn : W5500SocketNumber)
  | disconnectSocket (sn : W5500SocketNumber)
  | listenSocket (sn : W5500SocketNumber)
  | connectSocket (sn : W5500SocketNumber) (addr : Pointer) (port : UInt16)
  | sendto (sn : W5500SocketNumber) (buf : Pointer) (len : UInt16) (addr : Pointer) (port : UInt16)
  | recvfrom (sn : W5500SocketNumber) (buf : Pointer) (len : UInt16) (addr port : Pointer)
  | ctlsocket (sn : W5500SocketNumber) (cstype : CtlsockType) (arg : Pointer)
  | setsockopt (sn : W5500SocketNumber) (sotype : SockoptType) (arg : Pointer)
  | getsockopt (sn : W5500SocketNumber) (sotype : SockoptType) (arg : Pointer)
  deriving DecidableEq, Repr

namespace EmbeddedSocketW5500
variable {χ : Type} (d : Driver χ)

/-- Call a function of the driver. -/
def ask (r : Request) (s : EmbeddedSocketW5500 χ) : Int × EmbeddedSocketW5500 χ :=
  ((d.answer r s.chip).1, { s with chip := (d.answer r s.chip).2, asked := r :: s.asked })

/-- Store the state of a socket, if there is one of that number. -/
def setState (sn : UInt8) (state : UInt8) (s : EmbeddedSocketW5500 χ) : EmbeddedSocketW5500 χ :=
  if h : sn.toNat < 8 then
    let status := { s.socketStatus ⟨sn.toNat, h⟩ with currentState := state.toUInt16 }
    { s with socketStatus := Function.update s.socketStatus ⟨sn.toNat, h⟩ status }
  else s

def updateSocketState (sn : UInt8) (s : EmbeddedSocketW5500 χ) : EmbeddedSocketW5500 χ :=
  s.setState sn (d.getSnSR sn s.chip)

/-- The status is passed by reference, and handed back beside the result. -/
def openSocket (status : W5500SocketStatus) (s : EmbeddedSocketW5500 χ) :
    (Int × W5500SocketStatus) × EmbeddedSocketW5500 χ :=
  let idx := getSocketIndex status.socketNumber
  let s := { s with socketStatus := Function.update s.socketStatus status.socketNumber status }
  let (ret, s) := s.ask d (status.socketRequest status.protocolType.value)
  let s := if ret = sockOk then s.updateSocketState d idx else s.setState idx sockClosed
  ((ret, s.socketStatus status.socketNumber), s)

def closeSocket (sn : UInt8) (s : EmbeddedSocketW5500 χ) : Int × EmbeddedSocketW5500 χ :=
  let (ret, s) := s.ask d (.close sn)
  (ret, if ret = sockOk then s.setState sn sockClosed else s)

def disconnectSocket (sn : UInt8) (s : EmbeddedSocketW5500 χ) : Int × EmbeddedSocketW5500 χ :=
  let (ret, s) := s.ask d (.disconnect sn)
  (ret, s.updateSocketState d sn)

def listenSocket (sn : UInt8) (s : EmbeddedSocketW5500 χ) : Int × EmbeddedSocketW5500 χ :=
  let (ret, s) := s.ask d (.listen sn)
  (ret, if ret = sockOk then s.updateSocketState d sn else s)

def connectSocket (sn : UInt8) (addr : Pointer) (port : UInt16) (s : EmbeddedSocketW5500 χ) :
    Int × EmbeddedSocketW5500 χ :=
  let (ret, s) := s.ask d (.connect sn addr port)
  (ret, s.updateSocketState d sn)

/-- A call, with the members nested `fuel` deep at most. A name in the body of a member is looked
up in the class first: `sendto` and the four below it find themselves there, and not the function
of the driver. -/
def perform : Nat → Call → EmbeddedSocketW5500 χ → Option (Int × EmbeddedSocketW5500 χ)
  | 0, _, _ => none
  | _ + 1, .openSocket status, s => some ((s.openSocket d status).1.1, (s.openSocket d status).2)
  | _ + 1, .closeSocket sn, s => some (s.closeSocket d (getSocketIndex sn))
  | _ + 1, .disconnectSocket sn, s => some (s.disconnectSocket d (getSocketIndex sn))
  | _ + 1, .listenSocket sn, s => some (s.listenSocket d (getSocketIndex sn))
  | _ + 1, .connectSocket sn addr port, s =>
    some (s.connectSocket d (getSocketIndex sn) addr port)
  | fuel + 1, .sendto sn buf len addr port, s => perform fuel (.sendto sn buf len addr port) s
  | fuel + 1, .recvfrom sn buf len addr port, s => perform fuel (.recvfrom sn buf len addr port) s
  | fuel + 1, .ctlsocket sn cstype arg, s => perform fuel (.ctlsocket sn cstype arg) s
  | fuel + 1, .setsockopt sn sotype arg, s => perform fuel (.setsockopt sn sotype arg) s
  | fuel + 1, .getsockopt sn sotype arg, s => perform fuel (.getsockopt sn sotype arg) s

/-- The calls of the user, and between them the chip as it has become by itself. -/
inductive Event (χ : Type) where
  | call (c : Call)
  | chip (x : χ)

/-- Behind a call that does not return, where nothing follows, the wrapper as it was stands in. -/
def step (s : EmbeddedSocketW5500 χ) : Event χ → EmbeddedSocketW5500 χ
  | .call c => ((perform d 1 c s).map Prod.snd).getD s
  | .chip x => { s with chip := x }

end EmbeddedSocketW5500

/-! ## Faithfulness -/

/-- The mode of the chip that serves the protocol. What is not named is passed on. -/
def W5500SocketProtocol.mode (p : W5500SocketProtocol) : UInt8 :=
  if p = kTCP then snMrTcp
  else if p = kUDP then snMrUdp
  else if p = kIPRAW then snMrIpraw
  else p.value

namespace Call

/-- The socket that is called on. -/
def sn : Call → W5500SocketNumber
  | .openSocket status => status.socketNumber
  | .closeSocket sn | .disconnectSocket sn | .listenSocket sn => sn
  | .connectSocket sn _ _ => sn
  | .sendto sn _ _ _ _ | .recvfrom sn _ _ _ _ => sn
  | .ctlsocket sn _ _ | .setsockopt sn _ _ | .getsockopt sn _ _ => sn

/-- What a faithful wrapper asks the driver for. -/
def request : Call → Request
  | .openSocket status => status.socketRequest status.protocolType.mode
  | .closeSocket sn => .close (getSocketIndex sn)
  | .disconnectSocket sn => .disconnect (getSocketIndex sn)
  | .listenSocket sn => .listen (getSocketIndex sn)
  | .connectSocket sn addr port => .connect (getSocketIndex sn) addr port
  | .sendto sn buf len addr port => .sendto (getSocketIndex sn) buf len addr port
  | .recvfrom sn buf len addr port => .recvfrom (getSocketIndex sn) buf len addr port
  | .ctlsocket sn cstype arg => .ctlsocket (getSocketIndex sn) cstype arg
  | .setsockopt sn sotype arg => .setsockopt (getSocketIndex sn) sotype arg
  | .getsockopt sn sotype arg => .getsockopt (getSocketIndex sn) sotype arg

/-- Whether the name that the body of the member calls is its own. -/
def CallsItself : Call → Prop
  | .sendto _ _ _ _ _ | .recvfrom _ _ _ _ _ => True
  | .ctlsocket _ _ _ | .setsockopt _ _ _ | .getsockopt _ _ _ => True
  | _ => False

end Call

namespace EmbeddedSocketW5500
variable {χ : Type} (d : Driver χ)

/-- The cache has the state of the socket that its status register has. -/
def Current (sn : W5500SocketNumber) (s : EmbeddedSocketW5500 χ) : Prop :=
  (s.socketStatus sn).currentState = (d.getSnSR (getSocketIndex sn) s.chip).toUInt16

/-- The call has asked the driver once, for what it stands for, and returned the driver's result;
the cache is up to date. -/
structure Relayed (c : Call) (s : EmbeddedSocketW5500 χ) (ret : Int)
    (s' : EmbeddedSocketW5500 χ) : Prop where
  asked : s'.asked = c.request :: s.asked
  result : ret = (d.answer c.request s.chip).1
  current : s'.Current d c.sn

/-- Every call of the run returns, and is relayed. -/
def Faithful : EmbeddedSocketW5500 χ → List (Event χ) → Prop
  | _, [] => True
  | s, .chip x :: es => Faithful { s with chip := x } es
  | s, .call c :: es =>
    ∃ fuel ret s', perform d fuel c s = some (ret, s') ∧ Relayed d c s ret s' ∧ Faithful s' es

/-- What the driver opens is socket 1, or what it rejects is a socket that is closed. -/
def OpenKept (status : W5500SocketStatus) (s : EmbeddedSocketW5500 χ) : Prop :=
  if 0 ≤ (d.answer (status.socketRequest status.protocolType.value) s.chip).1 then
    status.socketNumber = 1
  else d.getSnSR (getSocketIndex status.socketNumber) s.chip = sockClosed

/-- `open_socket` is called with a protocol that is not named, for socket 1 or in vain. A
`close_socket` that is refused finds the cache up to date. A `listen_socket` that fails leaves the
status register at the state in the cache. -/
def Kept (s : EmbeddedSocketW5500 χ) : Event χ → Prop
  | .call (.openSocket status) =>
    ¬status.protocolType.Named ∧ s.OpenKept d status
  | .call (.closeSocket sn) => wizchipSockNum < sn → s.Current d sn
  | .call (.listenSocket sn) =>
    let (ret, x) := d.answer (.listen (getSocketIndex sn)) s.chip
    ret = sockOk ∨
      (s.socketStatus sn).currentState = (d.getSnSR (getSocketIndex sn) x).toUInt16
  | .call (.disconnectSocket _) | .call (.connectSocket _ _ _) => True
  | .call _ => False
  | .chip _ => True

/-! ## Cache -/

variable {d} {s s' : EmbeddedSocketW5500 χ} {c : Call}

@[simp] theorem toNat_getSocketIndex (sn : W5500SocketNumber) : (getSocketIndex sn).toNat = sn := by
  have hlt := sn.isLt
  simp only [getSocketIndex, UInt8.toNat_ofNat']
  omega

theorem getSocketIndex_lt (sn : W5500SocketNumber) : getSocketIndex sn < 8 := by
  rw [UInt8.lt_iff_toNat_lt, toNat_getSocketIndex]
  exact sn.isLt

theorem setState_getSocketIndex (sn : W5500SocketNumber) (state : UInt8) :
    s.setState (getSocketIndex sn) state = { s with
      socketStatus := Function.update s.socketStatus sn
        { s.socketStatus sn with currentState := state.toUInt16 } } := by
  simp [setState]

theorem socketStatus_setState_of_ne {n sn : W5500SocketNumber} (h : n ≠ sn) (state : UInt8) :
    (s.setState (getSocketIndex sn) state).socketStatus n = s.socketStatus n := by
  rw [setState_getSocketIndex]
  exact Function.update_of_ne h _ _

/-- A stored state is the one that is read back. -/
theorem current_setState_iff {sn : W5500SocketNumber} {state : UInt8} :
    (s.setState (getSocketIndex sn) state).Current d sn ↔
      state = d.getSnSR (getSocketIndex sn) s.chip := by
  rw [setState_getSocketIndex]
  simp only [Current, Function.update_self]
  constructor
  · intro h
    simpa using congrArg UInt16.toUInt8 h
  · intro h
    rw [h]

theorem current_updateSocketState (sn : W5500SocketNumber) :
    (s.updateSocketState d (getSocketIndex sn)).Current d sn :=
  current_setState_iff.mpr rfl

@[simp] theorem asked_setState (sn state : UInt8) : (s.setState sn state).asked = s.asked := by
  unfold setState
  split_ifs <;> rfl

@[simp] theorem asked_updateSocketState (sn : UInt8) :
    (s.updateSocketState d sn).asked = s.asked := asked_setState _ _

@[simp] theorem chip_setState (sn state : UInt8) : (s.setState sn state).chip = s.chip := by
  unfold setState
  split_ifs <;> rfl

/-! ## Calls -/

/-- `disconnect_socket` and `connect_socket` look at the register, however the driver answers. -/
theorem relayed_disconnectSocket (sn : W5500SocketNumber) :
    Relayed d (.disconnectSocket sn) s (s.disconnectSocket d (getSocketIndex sn)).1
      (s.disconnectSocket d (getSocketIndex sn)).2 where
  asked := asked_updateSocketState _
  result := rfl
  current := current_updateSocketState sn

theorem relayed_connectSocket (sn : W5500SocketNumber) (addr : Pointer) (port : UInt16) :
    Relayed d (.connectSocket sn addr port) s
      (s.connectSocket d (getSocketIndex sn) addr port).1
      (s.connectSocket d (getSocketIndex sn) addr port).2 where
  asked := asked_updateSocketState _
  result := rfl
  current := current_updateSocketState sn

/-- `close_socket` knows what `close` waits for, but not what the state of a socket is that `close`
refuses. -/
theorem relayed_closeSocket_iff (sn : W5500SocketNumber) :
    Relayed d (.closeSocket sn) s (s.closeSocket d (getSocketIndex sn)).1
      (s.closeSocket d (getSocketIndex sn)).2 ↔ s.Kept d (.call (.closeSocket sn)) := by
  have hindex := toNat_getSocketIndex sn
  by_cases hhigh : wizchipSockNum < sn
  · have hrefused := d.close_refused (getSocketIndex sn) s.chip (by rwa [hindex])
    have hafter : (s.closeSocket d (getSocketIndex sn)).2 =
        { s with asked := .close (getSocketIndex sn) :: s.asked } := by
      have hfailed : sockerrSocknum ≠ sockOk := by decide
      simp [closeSocket, ask, hrefused, hfailed]
    constructor
    · intro h _
      have hcurrent := h.current
      rwa [hafter] at hcurrent
    · intro h
      refine ⟨?_, rfl, ?_⟩
      · rw [hafter]
        rfl
      · rw [hafter]
        exact h hhigh
  · obtain ⟨hok, hclosed⟩ := d.close_closed (getSocketIndex sn) s.chip
      (by rw [hindex]; exact not_lt.mp hhigh)
    have hafter : (s.closeSocket d (getSocketIndex sn)).2 =
        (s.ask d (.close (getSocketIndex sn))).2.setState (getSocketIndex sn) sockClosed :=
      if_pos hok
    refine iff_of_true ⟨?_, rfl, ?_⟩ fun h => absurd h hhigh
    · rw [hafter]
      exact asked_setState _ _
    · rw [hafter]
      exact current_setState_iff.mpr hclosed.symm

theorem relayed_listenSocket_iff (sn : W5500SocketNumber) :
    Relayed d (.listenSocket sn) s (s.listenSocket d (getSocketIndex sn)).1
      (s.listenSocket d (getSocketIndex sn)).2 ↔ s.Kept d (.call (.listenSocket sn)) := by
  by_cases hok : (d.answer (.listen (getSocketIndex sn)) s.chip).1 = sockOk
  · have hafter : (s.listenSocket d (getSocketIndex sn)).2 =
        (s.ask d (.listen (getSocketIndex sn))).2.updateSocketState d (getSocketIndex sn) :=
      if_pos hok
    refine iff_of_true ⟨?_, rfl, ?_⟩ (.inl hok)
    · rw [hafter]
      exact asked_updateSocketState _
    · rw [hafter]
      exact current_updateSocketState sn
  · have hafter : (s.listenSocket d (getSocketIndex sn)).2 =
        (s.ask d (.listen (getSocketIndex sn))).2 := if_neg hok
    constructor
    · intro h
      have hcurrent := h.current
      rw [hafter] at hcurrent
      exact .inr hcurrent
    · rintro (h | h)
      · exact absurd h hok
      · refine ⟨?_, rfl, ?_⟩
        · rw [hafter]
          rfl
        · rw [hafter]
          exact h

/-- `socket` returns the number of the socket that it opens. -/
theorem socket_opened (status : W5500SocketStatus) (protocol : UInt8) (x : χ)
    (h : 0 ≤ (d.answer (status.socketRequest protocol) x).1) :
    (d.answer (status.socketRequest protocol) x).1 = status.socketNumber.val ∧
      d.getSnSR (getSocketIndex status.socketNumber)
        (d.answer (status.socketRequest protocol) x).2 ≠ sockClosed := by
  have hopened := d.socket_opened _ protocol _ _ x (getSocketIndex_lt status.socketNumber) h
  rwa [toNat_getSocketIndex] at hopened

theorem socket_rejected (status : W5500SocketStatus) (protocol : UInt8) (x : χ)
    (h : ¬0 ≤ (d.answer (status.socketRequest protocol) x).1) :
    (d.answer (status.socketRequest protocol) x).2 = x :=
  d.socket_rejected _ protocol _ _ x (getSocketIndex_lt status.socketNumber) (not_le.mp h)

/-- `SOCK_OK`, as a result of `socket`, is the number of socket 1. Any other that it opens is
closed in the cache. -/
theorem current_openSocket_iff (status : W5500SocketStatus) :
    (s.openSocket d status).2.Current d status.socketNumber ↔ s.OpenKept d status := by
  unfold OpenKept openSocket ask
  dsimp only
  by_cases hsuccess : 0 ≤ (d.answer (status.socketRequest status.protocolType.value) s.chip).1
  · obtain ⟨hnumber, hopen⟩ := socket_opened status _ s.chip hsuccess
    rw [if_pos hsuccess, hnumber]
    split_ifs with hok
    · refine iff_of_true (current_updateSocketState _) ?_
      rw [sockOk] at hok
      exact Fin.ext (by exact_mod_cast hok)
    · refine iff_of_false (fun h => hopen (current_setState_iff.mp h).symm) ?_
      intro hone
      exact hok (by rw [hone]; rfl)
  · have hfailed :
        (d.answer (status.socketRequest status.protocolType.value) s.chip).1 ≠ sockOk := by
      intro h
      exact hsuccess (by rw [h]; decide)
    rw [if_neg hsuccess, if_neg hfailed, current_setState_iff]
    dsimp only
    rw [socket_rejected status _ s.chip hsuccess]
    exact eq_comm

/-- An enumerator is passed on with the number of the IP protocol, which is no mode of the chip. -/
theorem mode_eq_iff (p : W5500SocketProtocol) : p.mode = p.value ↔ ¬p.Named := by
  unfold W5500SocketProtocol.mode W5500SocketProtocol.Named
  split_ifs with htcp hudp hipraw
  · subst htcp
    decide
  · subst hudp
    decide
  · subst hipraw
    decide
  · simp [htcp, hudp, hipraw]

theorem asked_openSocket (status : W5500SocketStatus) :
    (s.openSocket d status).2.asked =
      status.socketRequest status.protocolType.value :: s.asked := by
  unfold openSocket
  dsimp only
  split_ifs
  · exact asked_updateSocketState _
  · exact asked_setState _ _

theorem relayed_openSocket_iff (status : W5500SocketStatus) :
    Relayed d (.openSocket status) s (s.openSocket d status).1.1 (s.openSocket d status).2 ↔
      s.Kept d (.call (.openSocket status)) := by
  constructor
  · intro h
    have hasked := h.asked
    rw [asked_openSocket] at hasked
    have hmode : status.protocolType.value = status.protocolType.mode := by
      injection hasked with hrequest _
      injection hrequest
    exact ⟨(mode_eq_iff _).mp hmode.symm, (current_openSocket_iff status).mp h.current⟩
  · rintro ⟨hother, hkept⟩
    have hrequest : (Call.openSocket status).request =
        status.socketRequest status.protocolType.value := by
      rw [Call.request, (mode_eq_iff _).mpr hother]
    refine ⟨?_, ?_, (current_openSocket_iff status).mpr hkept⟩
    · rw [hrequest]
      exact asked_openSocket status
    · rw [hrequest]
      rfl

/-- However deep the calls may nest, a member that calls itself does not return. -/
theorem perform_eq_none (h : c.CallsItself) (fuel : Nat) : perform d fuel c s = none := by
  induction fuel with
  | zero => rfl
  | succ fuel ih =>
    cases c with
    | sendto sn buf len addr port => exact ih
    | recvfrom sn buf len addr port => exact ih
    | ctlsocket sn cstype arg => exact ih
    | setsockopt sn sotype arg => exact ih
    | getsockopt sn sotype arg => exact ih
    | _ => cases h

/-- The others return at once, and `fuel` makes no difference to them. -/
theorem perform_succ (h : ¬c.CallsItself) (fuel : Nat) :
    perform d (fuel + 1) c s = perform d 1 c s := by
  cases c with
  | sendto sn buf len addr port => exact absurd trivial h
  | recvfrom sn buf len addr port => exact absurd trivial h
  | ctlsocket sn cstype arg => exact absurd trivial h
  | setsockopt sn sotype arg => exact absurd trivial h
  | getsockopt sn sotype arg => exact absurd trivial h
  | _ => rfl

theorem perform_one {fuel : Nat} {o : Int × EmbeddedSocketW5500 χ}
    (h : perform d fuel c s = some o) : perform d 1 c s = some o := by
  by_cases hself : c.CallsItself
  · rw [perform_eq_none hself] at h
    cases h
  · cases fuel with
    | zero => cases h
    | succ fuel => rwa [perform_succ hself] at h

/-- A call returns and is relayed exactly if it is kept. -/
theorem relayed_iff (c : Call) (s : EmbeddedSocketW5500 χ) :
    (∃ ret s', perform d 1 c s = some (ret, s') ∧ Relayed d c s ret s') ↔
      s.Kept d (.call c) := by
  have hdirect {o : Int × EmbeddedSocketW5500 χ} (ho : perform d 1 c s = some o) :
      (∃ ret s', perform d 1 c s = some (ret, s') ∧ Relayed d c s ret s') ↔
        Relayed d c s o.1 o.2 := by
    rw [ho]
    exact ⟨fun ⟨ret, s', heq, hrelayed⟩ => by cases heq; exact hrelayed, fun h => ⟨_, _, rfl, h⟩⟩
  have hself (hc : c.CallsItself) :
      ¬∃ ret s', perform d 1 c s = some (ret, s') ∧ Relayed d c s ret s' := by
    rintro ⟨ret, s', heq, _⟩
    rw [perform_eq_none hc] at heq
    cases heq
  cases c with
  | openSocket status => exact (hdirect rfl).trans (relayed_openSocket_iff status)
  | closeSocket sn => exact (hdirect rfl).trans (relayed_closeSocket_iff sn)
  | disconnectSocket sn =>
    exact (hdirect rfl).trans (iff_of_true (relayed_disconnectSocket sn) trivial)
  | listenSocket sn => exact (hdirect rfl).trans (relayed_listenSocket_iff sn)
  | connectSocket sn addr port =>
    exact (hdirect rfl).trans (iff_of_true (relayed_connectSocket sn addr port) trivial)
  | sendto sn buf len addr port => exact iff_of_false (hself trivial) id
  | recvfrom sn buf len addr port => exact iff_of_false (hself trivial) id
  | ctlsocket sn cstype arg => exact iff_of_false (hself trivial) id
  | setsockopt sn sotype arg => exact iff_of_false (hself trivial) id
  | getsockopt sn sotype arg => exact iff_of_false (hself trivial) id

/-- A driver that knows the modes of the chip only opens a socket for none of the enumerators; it
is closed in the cache, and as it was in the chip. -/
theorem openSocket_named
    (hmodes : ∀ sn protocol port flag x, sn.toNat ≤ wizchipSockNum → openedState protocol = none →
      d.answer (.socket sn protocol port flag) x = (sockerrSockmode, x))
    {status : W5500SocketStatus} (hsn : status.socketNumber ≤ wizchipSockNum)
    (h : status.protocolType.Named) :
    (s.openSocket d status).1.1 = sockerrSockmode ∧ (s.openSocket d status).2.chip = s.chip ∧
      ((s.openSocket d status).2.socketStatus status.socketNumber).currentState =
        sockClosed.toUInt16 := by
  have hmode : openedState status.protocolType.value = none := by
    rcases h with h | h | h
    all_goals
      rw [h]
      decide
  have hanswer : d.answer (status.socketRequest status.protocolType.value) s.chip =
      (sockerrSockmode, s.chip) :=
    hmodes _ _ _ _ _ (by rwa [toNat_getSocketIndex]) hmode
  have hfailed : sockerrSockmode ≠ sockOk := by decide
  simp [openSocket, ask, hanswer, hfailed, setState_getSocketIndex]

/-- A call changes no other socket's entry in the cache. -/
theorem socketStatus_step_of_ne {n : W5500SocketNumber} (h : n ≠ c.sn) :
    (step d s (.call c)).socketStatus n = s.socketStatus n := by
  cases c with
  | openSocket status =>
    have hstored := Function.update_of_ne h status s.socketStatus
    change (s.openSocket d status).2.socketStatus n = _
    unfold openSocket
    dsimp only
    split_ifs
    · exact (socketStatus_setState_of_ne h _).trans hstored
    · exact (socketStatus_setState_of_ne h _).trans hstored
  | closeSocket sn =>
    change (s.closeSocket d (getSocketIndex sn)).2.socketStatus n = _
    unfold closeSocket
    dsimp only
    split_ifs
    · exact socketStatus_setState_of_ne h _
    · rfl
  | disconnectSocket sn => exact socketStatus_setState_of_ne h _
  | listenSocket sn =>
    change (s.listenSocket d (getSocketIndex sn)).2.socketStatus n = _
    unfold listenSocket
    dsimp only
    split_ifs
    · exact socketStatus_setState_of_ne h _
    · rfl
  | connectSocket sn addr port => exact socketStatus_setState_of_ne h _
  | _ => rfl

/-! ## Runs -/

/-- The wrapper is faithful in a run exactly if each call in it is kept. -/
theorem faithful_iff (s : EmbeddedSocketW5500 χ) (es : List (Event χ)) :
    s.Faithful d es ↔ Along (step d) (Kept d) s es := by
  induction es generalizing s with
  | nil => exact Iff.rfl
  | cons e es ih =>
    cases e with
    | chip x =>
      constructor
      · intro h
        exact ⟨trivial, (ih _).mp h⟩
      · rintro ⟨_, h⟩
        exact (ih _).mpr h
    | call c =>
      constructor
      · rintro ⟨fuel, ret, s', hperform, hrelayed, hrest⟩
        have hone := perform_one hperform
        have hstep : step d s (.call c) = s' := by simp [step, hone]
        refine ⟨(relayed_iff c s).mp ⟨ret, s', hone, hrelayed⟩, ?_⟩
        rw [hstep]
        exact (ih s').mp hrest
      · rintro ⟨hkept, hrest⟩
        obtain ⟨ret, s', hone, hrelayed⟩ := (relayed_iff c s).mpr hkept
        have hstep : step d s (.call c) = s' := by simp [step, hone]
        rw [hstep] at hrest
        exact ⟨1, ret, s', hone, hrelayed, (ih s').mpr hrest⟩

theorem openedState_ne {mode state : UInt8} (h : openedState mode = some state) :
    state ≠ sockClosed := by
  unfold openedState at h
  split_ifs at h
  all_goals
    obtain rfl := Option.some.inj h
    decide

/-- The driver with a chip that shows its status registers: sockets with a number that is not
refused are opened and closed, and the rest of the functions fail, as they do for a socket that is
closed. -/
def idleDriver : Driver (UInt8 → UInt8) where
  answer
    | .socket sn protocol _ _, sr =>
      if wizchipSockNum < sn.toNat then (sockerrSocknum, sr)
      else match openedState protocol with
        | some state => (sn.toNat, Function.update sr sn state)
        | none => (sockerrSockmode, sr)
    | .close sn, sr =>
      if wizchipSockNum < sn.toNat then (sockerrSocknum, sr)
      else (sockOk, Function.update sr sn sockClosed)
    | _, sr => (sockerrSockmode, sr)
  getSnSR sn sr := sr sn
  socket_opened sn protocol port flag sr _ := by
    have hsocknum : ¬0 ≤ sockerrSocknum := by decide
    have hsockmode : ¬0 ≤ sockerrSockmode := by decide
    dsimp only
    split_ifs
    · exact fun hresult => absurd hresult hsocknum
    · cases hmode : openedState protocol with
      | none => exact fun hresult => absurd hresult hsockmode
      | some state => simp [openedState_ne hmode]
  socket_rejected sn protocol port flag sr _ := by
    dsimp only
    split_ifs
    · exact fun _ => rfl
    · cases openedState protocol with
      | none => exact fun _ => rfl
      | some state => exact fun hresult => absurd hresult (not_lt.mpr (Int.natCast_nonneg _))
  close_closed sn sr hsn := by simp [not_lt.mpr hsn]
  close_refused sn sr hsn := if_pos hsn

/-- A TCP socket, asked for with the protocol number 6, which the driver rejects. -/
theorem not_faithful_open_tcp :
    ¬(⟨fun sn => ⟨sn, ⟨0⟩, 0, 0, 0⟩, fun _ => sockClosed, []⟩ :
      EmbeddedSocketW5500 (UInt8 → UInt8)).Faithful idleDriver
      [.call (.openSocket ⟨2, .kTCP, 443, 0, 0x20⟩)] := by
  rintro ⟨fuel, ret, s', hperform, hrelayed, _⟩
  cases fuel with
  | zero => cases hperform
  | succ fuel =>
    cases hperform
    exact absurd hrelayed.asked (by decide)

end EmbeddedSocketW5500
end SmartBell.Ethernet
