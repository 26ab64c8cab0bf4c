import SmartBell.Ethernet.Registers

/-!
# `socket.c`

The socket functions of the library, for any number that a caller may pass. The library has two
sockets, and its arrays two elements, but the check lets the number 2 pass, too, which is the one
that the MQTT client uses.
-/
namespace SmartBell.Ethernet.W5500
open Common

def sockBusy : Int := 0
def sockerrSockopt : Int := -2
def sockerrSockinit : Int := -3
def sockerrSockclosed : Int := -4
def sockerrSockflag : Int := -6
def sockerrSockstatus : Int := -7
def sockerrArg : Int := -10
def sockerrPortzero : Int := -11
def sockerrIpinvalid : Int := -12
def sockerrTimeout : Int := -13
def sockerrDatalen : Int := -14
def sockfatalPacklen : Int := -1001

def sfTcpNodelay : UInt8 := 0x20
def sfIgmpVer2 : UInt8 := 0x20
def sfMultiEnable : UInt8 := 0x80
def sfUniBlock : UInt8 := 0x10
def sfIoNonblock : UInt8 := 0x01

def packFirst : UInt8 := 0x80
def packRemained : UInt8 := 0x01
def packCompleted : UInt8 := 0x00

def sockIoBlock : UInt8 := 0
def sockIoNonblock : UInt8 := 1
def sikAll : UInt8 := 0x1F

def sockAnyPortNum : UInt16 := 0xC000

/-- The value that is returned, the bytes that are stored at the caller's pointer, and for
`recvfrom` the address and the port of the peer where they are stored. -/
structure Reply where
  result : Int
  stored : List UInt8 := []
  peer : Option (List UInt8 × Option UInt16) := none
  deriving DecidableEq, Repr

def fail (error : Int) : Attempt Board Reply := pure { result := error }

/-- A word at a pointer. -/
def wordBytes (w : UInt16) : List UInt8 := [lowByte w, highByte w]

variable (sn : UInt8)

/-! ## Variables of the library -/

/-- `1 << sn` -/
def snBit : UInt16 := 1 <<< sn.toUInt16

def nonblocking : Attempt Board Bool := do
  let s ← .read
  pure (s.sockIoMode &&& snBit sn ≠ 0)

def sending : Attempt Board Bool := do
  let s ← .read
  pure (s.sockIsSending &&& snBit sn ≠ 0)

def addIoMode (bits : UInt16) : Attempt Board Unit :=
  .modify fun s => { s with sockIoMode := s.sockIoMode ||| bits }

def clearIoMode : Attempt Board Unit :=
  .modify fun s => { s with sockIoMode := s.sockIoMode &&& ~~~(snBit sn) }

def clearIsSending : Attempt Board Unit :=
  .modify fun s => { s with sockIsSending := s.sockIsSending &&& ~~~(snBit sn) }

def remainedSize : Attempt Board UInt16 := do
  let s ← .read
  match s.sockRemainedSize[sn.toNat]? with
  | some size => pure size
  | none => overrun

def setRemainedSize (size : UInt16) : Attempt Board Unit :=
  if h : sn.toNat < wizchipSockNum then
    .modify fun s => { s with sockRemainedSize := s.sockRemainedSize.set sn.toNat size h }
  else overrun

def packInfo : Attempt Board UInt8 := do
  let s ← .read
  match s.sockPackInfo[sn.toNat]? with
  | some info => pure info
  | none => overrun

def setPackInfo (info : UInt8) : Attempt Board Unit :=
  if h : sn.toNat < wizchipSockNum then
    .modify fun s => { s with sockPackInfo := s.sockPackInfo.set sn.toNat info h }
  else overrun

/-! ## Checks and waits -/

def checkSockNum (k : Attempt Board Reply) : Attempt Board Reply :=
  if sn.toNat > wizchipSockNum then fail sockerrSocknum else k

def checkSockMode (mode : UInt8) (k : Attempt Board Reply) : Attempt Board Reply := do
  let mr ← getSnMR sn
  if mr &&& 0x0F ≠ mode then fail sockerrSockmode else k

def checkSockInit (k : Attempt Board Reply) : Attempt Board Reply := do
  let sr ← getSnSR sn
  if sr ≠ sockInit then fail sockerrSockinit else k

def checkSockData (len : UInt16) (k : Attempt Board Reply) : Attempt Board Reply :=
  if len = 0 then fail sockerrDatalen else k

/-- `while(getSn_CR(sn));` -/
def waitCommand : Attempt Board Unit := .spinWhile Board.ahead do
  let cr ← getSnCR sn
  pure (cr ≠ 0)

/-- A command that is waited for. -/
def order (cr : UInt8) : Attempt Board Unit := do
  setSnCR sn cr
  waitCommand sn

/-! ## Functions -/

def close : Attempt Board Reply := checkSockNum sn do
  order sn snCrClose
  setSnIR sn 0xFF
  clearIoMode sn
  clearIsSending sn
  setRemainedSize sn 0
  setPackInfo sn 0
  .spinWhile Board.ahead do
    let sr ← getSnSR sn
    pure (sr ≠ sockClosed)
  pure { result := sockOk }

def getSIPR : Attempt Board (List UInt8) := wizchipReadBuf board callbacks (addrSel regSIPR 0) 4

/-- A TCP socket needs an address of its own. -/
def checkProtocol (protocol : UInt8) (k : Attempt Board Reply) : Attempt Board Reply :=
  if protocol = snMrTcp then do
    let taddr ← getSIPR
    if taddr.all (· = 0) then fail sockerrSockinit else k
  else if protocol = snMrUdp ∨ protocol = snMrMacraw ∨ protocol = snMrIpraw then k
  else fail sockerrSockmode

def flagRejected (protocol flag : UInt8) : Bool :=
  flag &&& 0x04 ≠ 0 ||
    flag ≠ 0 &&
      (protocol = snMrTcp && flag &&& (sfTcpNodelay ||| sfIoNonblock) = 0 ||
        protocol = snMrUdp &&
          (flag &&& sfIgmpVer2 ≠ 0 && flag &&& sfMultiEnable = 0 ||
            flag &&& sfUniBlock ≠ 0 && flag &&& sfMultiEnable = 0))

/-- The port, or the next one of the library's own. -/
def choosePort (port : UInt16) : Attempt Board UInt16 :=
  if port = 0 then do
    let s ← .read
    let next := s.sockAnyPort + 1
    .modify fun s => { s with sockAnyPort := if next = 0xFFF0 then sockAnyPortNum else next }
    pure s.sockAnyPort
  else pure port

/-- The socket is closed and opened anew. -/
def reopen (protocol : UInt8) (port : UInt16) (flag : UInt8) : Attempt Board Reply := do
  let _ ← close sn
  setSnMR sn (protocol ||| (flag &&& 0xF0))
  let port ← choosePort port
  setSnPORT sn port
  order sn snCrOpen
  clearIoMode sn
  addIoMode ((flag &&& sfIoNonblock).toUInt16 <<< sn.toUInt16)
  clearIsSending sn
  setRemainedSize sn 0
  setPackInfo sn packCompleted
  .spinWhile Board.ahead do
    let sr ← getSnSR sn
    pure (sr = sockClosed)
  pure { result := sn.toNat }

def socket (protocol : UInt8) (port : UInt16) (flag : UInt8) : Attempt Board Reply :=
  checkSockNum sn <| checkProtocol protocol <|
    if flagRejected protocol flag then fail sockerrSockflag else reopen sn protocol port flag

def listen : Attempt Board Reply :=
  checkSockNum sn <| checkSockMode sn snMrTcp <| checkSockInit sn do
    order sn snCrListen
    let sr ← getSnSR sn
    if sr ≠ sockListen then do
      let _ ← close sn
      fail sockerrSockclosed
    else pure { result := sockOk }

/-- The address as a number, the first byte the highest. -/
def taddrOf (addr : Vector UInt8 4) : UInt32 :=
  addr.toList.foldl (fun taddr octet => (taddr <<< 8) + octet.toUInt32) 0

def connect (addr : Vector UInt8 4) (port : UInt16) : Attempt Board Reply :=
  checkSockNum sn <| checkSockMode sn snMrTcp <| checkSockInit sn <|
    if taddrOf addr = 0xFFFFFFFF ∨ taddrOf addr = 0 then fail sockerrIpinvalid
    else if port = 0 then fail sockerrPortzero
    else do
      setSnDIPR sn addr
      setSnDPORT sn port
      order sn snCrConnect
      let busy ← nonblocking sn
      if busy then fail sockBusy
      else .repeatUntil Board.ahead do
        let sr ← getSnSR sn
        if sr = sockEstablished then pure (some { result := sockOk })
        else do
          let ir ← getSnIR sn
          if ir &&& snIrTimeout ≠ 0 then do
            setSnIR sn snIrTimeout
            pure (some { result := sockerrTimeout })
          else do
            let sr ← getSnSR sn
            if sr = sockClosed then pure (some { result := sockerrSockclosed }) else pure none

def disconnect : Attempt Board Reply :=
  checkSockNum sn <| checkSockMode sn snMrTcp do
    order sn snCrDiscon
    clearIsSending sn
    let busy ← nonblocking sn
    if busy then fail sockBusy
    else .repeatUntil Board.ahead do
      let sr ← getSnSR sn
      if sr = sockClosed then pure (some { result := sockOk })
      else do
        let ir ← getSnIR sn
        if ir &&& snIrTimeout ≠ 0 then do
          let _ ← close sn
          pure (some { result := sockerrTimeout })
        else pure none

/-- The states in which a connection takes data. -/
def Sends (sr : UInt8) : Prop := sr = sockEstablished ∨ sr = sockCloseWait

instance : DecidablePred Sends := fun _ => inferInstanceAs (Decidable (_ ∨ _))

/-- The data sent before has to be confirmed; if that failed the socket is closed. -/
def checkSent (k : Attempt Board Reply) : Attempt Board Reply := do
  let busy ← sending sn
  if busy then do
    let ir ← getSnIR sn
    if ir &&& snIrSendok ≠ 0 then do
      setSnIR sn snIrSendok
      clearIsSending sn
      k
    else if ir &&& snIrTimeout ≠ 0 then do
      let _ ← close sn
      fail sockerrTimeout
    else fail sockBusy
  else k

/-- Waits for room in the transmit buffer, and gives the error instead if there will be none. -/
def waitForRoom (len : UInt16) : Attempt Board (Option Int) := .repeatUntil Board.ahead do
  let freesize ← getSnTXFSR sn
  let tmp ← getSnSR sn
  if ¬Sends tmp then do
    let _ ← close sn
    pure (some (some sockerrSockstatus))
  else do
    let nonblock ← nonblocking sn
    if nonblock ∧ len > freesize then pure (some (some sockBusy))
    else if len ≤ freesize then pure (some none)
    else pure none

/-- As many bytes as the buffer can take are sent. -/
def sendBytes (buf : List UInt8) : Attempt Board Reply := do
  let len := UInt16.ofNat buf.length
  let freesize ← getSnTxMAX sn
  let len := if len > freesize then freesize else len
  let error ← waitForRoom sn len
  match error with
  | some error => fail error
  | none => do
    wizSendData sn buf len
    order sn snCrSend
    .modify fun s => { s with sockIsSending := s.sockIsSending ||| snBit sn }
    pure { result := len.toNat }

def send (buf : List UInt8) : Attempt Board Reply :=
  checkSockNum sn <| checkSockMode sn snMrTcp <| checkSockData (UInt16.ofNat buf.length) do
    let tmp ← getSnSR sn
    if ¬Sends tmp then fail sockerrSockstatus
    else checkSent sn (sendBytes sn buf)

/-- Waits for data, and gives the error instead if there will be none. -/
def waitForData : Attempt Board (Int ⊕ UInt16) := .repeatUntil Board.ahead do
  let recvsize ← getSnRXRSR sn
  let tmp ← getSnSR sn
  if tmp ≠ sockEstablished then
    if tmp = sockCloseWait then
      if recvsize ≠ 0 then pure (some (.inr recvsize))
      else do
        let freesize ← getSnTXFSR sn
        let max ← getSnTxMAX sn
        if freesize = max then do
          let _ ← close sn
          pure (some (.inl sockerrSockstatus))
        else do
          let nonblock ← nonblocking sn
          if nonblock then pure (some (.inl sockBusy)) else pure none
    else do
      let _ ← close sn
      pure (some (.inl sockerrSockstatus))
  else do
    let nonblock ← nonblocking sn
    if nonblock ∧ recvsize = 0 then pure (some (.inl sockBusy))
    else if recvsize ≠ 0 then pure (some (.inr recvsize))
    else pure none

/-- The bytes are taken out of the buffer. -/
def recvBytes (len : UInt16) : Attempt Board Reply := do
  let buf ← wizRecvData sn len
  order sn snCrRecv
  pure { result := len.toNat, stored := buf }

def recv (len : UInt16) : Attempt Board Reply :=
  checkSockNum sn <| checkSockMode sn snMrTcp <| checkSockData len do
    let recvsize ← getSnRxMAX sn
    let len := if recvsize < len then recvsize else len
    let ready ← waitForData sn
    match ready with
    | .inl error => fail error
    | .inr recvsize => recvBytes sn (if recvsize < len then recvsize else len)

/-! ## Datagrams -/

/-- The modes without a connection. -/
def Datagram (mr : UInt8) : Prop :=
  mr &&& 0x0F = snMrUdp ∨ mr &&& 0x0F = snMrMacraw ∨ mr &&& 0x0F = snMrIpraw

instance : DecidablePred Datagram := fun _ => inferInstanceAs (Decidable (_ ∨ _))

def checkDatagram (k : UInt8 → Attempt Board Reply) : Attempt Board Reply := do
  let mr ← getSnMR sn
  if Datagram mr then k mr else fail sockerrSockmode

/-- An address or a port of zero only goes with raw frames. -/
def checkMacraw (zero : Bool) (error : Int) (k : Attempt Board Reply) : Attempt Board Reply :=
  if zero then do
    let mr ← getSnMR sn
    if mr &&& snMrMacraw ≠ snMrMacraw then fail error else k
  else k

/-- Waits for room for a datagram. -/
def waitForDatagramRoom (len : UInt16) : Attempt Board (Option Int) := .repeatUntil Board.ahead do
  let freesize ← getSnTXFSR sn
  let sr ← getSnSR sn
  if sr = sockClosed then pure (some (some sockerrSockclosed))
  else do
    let nonblock ← nonblocking sn
    if nonblock ∧ len > freesize then pure (some (some sockBusy))
    else if len ≤ freesize then pure (some none)
    else pure none

/-- Waits until the datagram is out. -/
def waitForSendok : Attempt Board Bool := .repeatUntil Board.ahead do
  let tmp ← getSnIR sn
  if tmp &&& snIrSendok ≠ 0 then do
    setSnIR sn snIrSendok
    pure (some true)
  else if tmp &&& snIrTimeout ≠ 0 then do
    setSnIR sn snIrTimeout
    pure (some false)
  else pure none

def sendto (buf : List UInt8) (addr : Vector UInt8 4) (port : UInt16) : Attempt Board Reply :=
  let len := UInt16.ofNat buf.length
  checkSockNum sn <| checkDatagram sn fun _ => checkSockData len <|
    checkMacraw sn (taddrOf addr = 0) sockerrIpinvalid <|
    checkMacraw sn (port = 0) sockerrPortzero do
      let tmp ← getSnSR sn
      if tmp ≠ sockMacraw ∧ tmp ≠ sockUdp ∧ tmp ≠ sockIpraw then fail sockerrSockstatus
      else do
        setSnDIPR sn addr
        setSnDPORT sn port
        let freesize ← getSnTxMAX sn
        let len := if len > freesize then freesize else len
        let error ← waitForDatagramRoom sn len
        match error with
        | some error => fail error
        | none => do
          wizSendData sn buf len
          order sn snCrSend
          let done ← waitForSendok sn
          if done then pure { result := len.toNat } else fail sockerrTimeout

def waitForDatagram : Attempt Board (Int ⊕ UInt16) := .repeatUntil Board.ahead do
  let packLen ← getSnRXRSR sn
  let sr ← getSnSR sn
  if sr = sockClosed then pure (some (.inl sockerrSockclosed))
  else do
    let nonblock ← nonblocking sn
    if nonblock ∧ packLen = 0 then pure (some (.inl sockBusy))
    else if packLen ≠ 0 then pure (some (.inr packLen))
    else pure none

/-- What is left of the datagram before is not waited for. -/
def datagramReady : Attempt Board (Int ⊕ UInt16) := do
  let remained ← remainedSize sn
  if remained = 0 then waitForDatagram sn else pure (.inr 0)

/-- The bytes in front of a datagram. -/
def recvHead (len : UInt16) : Attempt Board (List UInt8) := do
  let head ← wizRecvData sn len
  order sn snCrRecv
  pure head

/-- What `recvfrom` does behind the data: the socket is told, and the rest is counted. -/
def recvRest (packLen : UInt16) (buf : List UInt8) (peer : Option (List UInt8 × Option UInt16)) :
    Attempt Board Reply := do
  order sn snCrRecv
  let remained ← remainedSize sn
  setRemainedSize sn (remained - packLen)
  if remained - packLen ≠ 0 then do
    let info ← packInfo sn
    setPackInfo sn (info ||| packRemained)
  else setPackInfo sn packCompleted
  pure { result := packLen.toNat, stored := buf, peer }

/-- The next bytes of a datagram of which so many remain. -/
def recvPart (len : UInt16) (peer : Option (List UInt8 × Option UInt16)) : Attempt Board Reply := do
  let remained ← remainedSize sn
  let packLen := if len < remained then len else remained
  let buf ← wizRecvData sn packLen
  recvRest sn packLen buf peer

/-- A new datagram starts with the address and the port of the peer and the length. -/
def recvUdp (len : UInt16) : Attempt Board Reply := do
  let remained ← remainedSize sn
  if remained = 0 then do
    let head ← recvHead sn 8
    setRemainedSize sn (joinBytes head[6]! head[7]!)
    setPackInfo sn packFirst
    recvPart sn len (some (head.take 4, some (joinBytes head[4]! head[5]!)))
  else recvPart sn len none

def recvMacraw (len : UInt16) : Attempt Board Reply := do
  let remained ← remainedSize sn
  if remained = 0 then do
    let head ← recvHead sn 2
    let size := joinBytes head[0]! head[1]! - 2
    setRemainedSize sn size
    if size > 1514 then do
      let _ ← close sn
      fail sockfatalPacklen
    else do
      setPackInfo sn packFirst
      recvPart sn len none
  else recvPart sn len none

def recvIpraw (len : UInt16) : Attempt Board Reply := do
  let remained ← remainedSize sn
  if remained = 0 then do
    let head ← recvHead sn 6
    setRemainedSize sn (joinBytes head[4]! head[5]!)
    setPackInfo sn packFirst
    recvPart sn len (some (head.take 4, none))
  else recvPart sn len none

def recvfrom (len : UInt16) : Attempt Board Reply :=
  checkSockNum sn <| checkDatagram sn fun mr => checkSockData len do
    let ready ← datagramReady sn
    match ready with
    | .inl error => fail error
    | .inr packLen =>
      if mr &&& 0x07 = snMrUdp then recvUdp sn len
      else if mr &&& 0x07 = snMrMacraw then recvMacraw sn len
      else if mr &&& 0x07 = snMrIpraw then recvIpraw sn len
      else do
        wizRecvIgnore sn packLen
        setRemainedSize sn packLen
        recvRest sn packLen [] none

/-! ## Options -/

/-- What the pointer of an option points to, by its type. -/
structure Argument where
  byte : UInt8
  word : UInt16
  ip : Vector UInt8 4

def ctlsocket (cstype : CtlsockType) (arg : UInt8) : Attempt Board Reply :=
  checkSockNum sn <| match cstype with
  | .setIomode =>
    if arg = sockIoNonblock then do
      addIoMode (snBit sn)
      pure { result := sockOk }
    else if arg = sockIoBlock then do
      clearIoMode sn
      pure { result := sockOk }
    else fail sockerrArg
  | .getIomode => do
    let s ← .read
    pure { result := sockOk, stored := [((s.sockIoMode >>> sn.toUInt16) &&& 0x0001).toUInt8] }
  | .getMaxtxbuf => do
    let max ← getSnTxMAX sn
    pure { result := sockOk, stored := wordBytes max }
  | .getMaxrxbuf => do
    let max ← getSnRxMAX sn
    pure { result := sockOk, stored := wordBytes max }
  | .clrInterrupt =>
    if arg > sikAll then fail sockerrArg
    else do
      setSnIR sn arg
      pure { result := sockOk }
  | .getInterrupt => do
    let ir ← getSnIR sn
    pure { result := sockOk, stored := [ir] }
  | .setIntmask =>
    if arg > sikAll then fail sockerrArg
    else do
      setSnIMR sn arg
      pure { result := sockOk }
  | .getIntmask => do
    let imr ← getSnIMR sn
    pure { result := sockOk, stored := [imr] }

/-- Waits for the keep-alive to be sent. -/
def waitForKeepalive : Attempt Board Reply := .repeatUntil Board.ahead do
  let cr ← getSnCR sn
  if cr ≠ 0 then do
    let ir ← getSnIR sn
    if ir &&& snIrTimeout ≠ 0 then do
      setSnIR sn snIrTimeout
      pure (some { result := sockerrTimeout })
    else pure none
  else pure (some { result := sockOk })

def setsockopt (sotype : SockoptType) (arg : Argument) : Attempt Board Reply :=
  checkSockNum sn <| match sotype with
  | .ttl => do
    setSnTTL sn arg.byte
    pure { result := sockOk }
  | .tos => do
    setSnTOS sn arg.byte
    pure { result := sockOk }
  | .mss => do
    setSnMSSR sn arg.word
    pure { result := sockOk }
  | .destip => do
    setSnDIPR sn arg.ip
    pure { result := sockOk }
  | .destport => do
    setSnDPORT sn arg.word
    pure { result := sockOk }
  | .keepalivesend => checkSockMode sn snMrTcp do
    let interval ← getSnKPALVTR sn
    if interval ≠ 0 then fail sockerrSockopt
    else do
      setSnCR sn snCrSendKeep
      waitForKeepalive sn
  | .keepaliveauto => checkSockMode sn snMrTcp do
    setSnKPALVTR sn arg.byte
    pure { result := sockOk }
  | _ => fail sockerrArg

def getsockopt (sotype : SockoptType) : Attempt Board Reply :=
  checkSockNum sn <| match sotype with
  | .flag => do
    let mr ← getSnMR sn
    pure { result := sockOk, stored := [mr &&& 0xF0] }
  | .ttl => do
    let ttl ← getSnTTL sn
    pure { result := sockOk, stored := [ttl] }
  | .tos => do
    let tos ← getSnTOS sn
    pure { result := sockOk, stored := [tos] }
  | .mss => do
    let mss ← getSnMSSR sn
    pure { result := sockOk, stored := wordBytes mss }
  | .destip => do
    let ip ← getSnDIPR sn
    pure { result := sockOk, stored := ip }
  | .destport => do
    let port ← getSnDPORT sn
    pure { result := sockOk, stored := wordBytes port }
  | .keepaliveauto => checkSockMode sn snMrTcp do
    let interval ← getSnKPALVTR sn
    pure { result := sockOk, stored := wordBytes interval.toUInt16 }
  | .sendbuf => do
    let size ← getSnTXFSR sn
    pure { result := sockOk, stored := wordBytes size }
  | .recvbuf => do
    let size ← getSnRXRSR sn
    pure { result := sockOk, stored := wordBytes size }
  | .status => do
    let sr ← getSnSR sn
    pure { result := sockOk, stored := [sr] }
  | .remainsize => do
    let mr ← getSnMR sn
    if mr &&& snMrTcp ≠ 0 then do
      let size ← getSnRXRSR sn
      pure { result := sockOk, stored := wordBytes size }
    else do
      let size ← remainedSize sn
      pure { result := sockOk, stored := wordBytes size }
  | .packinfo => do
    let mr ← getSnMR sn
    if mr = snMrTcp then fail sockerrSockmode
    else do
      let info ← packInfo sn
      pure { result := sockOk, stored := [info] }
  | .keepalivesend => fail sockerrSockopt

/-! ## Calls -/

/-- A function of the library with its arguments. -/
inductive Call where
  | socket (protocol : UInt8) (port : UInt16) (flag : UInt8)
  | close
  | listen
  | connect (addr : Vector UInt8 4) (port : UInt16)
  | disconnect
  | send (buf : List UInt8)
  | recv (len : UInt16)
  | sendto (buf : List UInt8) (addr : Vector UInt8 4) (port : UInt16)
  | recvfrom (len : UInt16)
  | ctlsocket (cstype : CtlsockType) (arg : UInt8)
  | setsockopt (sotype : SockoptType) (arg : Argument)
  | getsockopt (sotype : SockoptType)

def Call.perform : Call → Attempt Board Reply
  | .socket protocol port flag => W5500.socket sn protocol port flag
  | .close => W5500.close sn
  | .listen => W5500.listen sn
  | .connect addr port => W5500.connect sn addr port
  | .disconnect => W5500.disconnect sn
  | .send buf => W5500.send sn buf
  | .recv len => W5500.recv sn len
  | .sendto buf addr port => W5500.sendto sn buf addr port
  | .recvfrom len => W5500.recvfrom sn len
  | .ctlsocket cstype arg => W5500.ctlsocket sn cstype arg
  | .setsockopt sotype arg => W5500.setsockopt sn sotype arg
  | .getsockopt sotype => W5500.getsockopt sn sotype

/-- A number above that of the sockets is refused. -/
theorem Call.perform_refused {sn : UInt8} (h : sn.toNat > wizchipSockNum) (call : Call) :
    call.perform sn = fail sockerrSocknum := by
  cases call <;> exact if_pos h

/-- One that is not refused is that of a socket of the chip. -/
theorem shiftOf_of_not_refused {sn : UInt8} (h : ¬sn.toNat > wizchipSockNum) : shiftOf sn = 0 :=
  shiftOf_eq_zero (lt_of_le_of_lt (not_lt.mp h) (by decide))

end SmartBell.Ethernet.W5500
