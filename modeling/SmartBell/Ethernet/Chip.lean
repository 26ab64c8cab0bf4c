import SmartBell.Common.Ring
import SmartBell.Common.Bytes
import SmartBell.Ethernet.EmbeddedSocket

/-!
# The sockets of the W5500

The registers of `w5500.h` as they are documented there. The chip is the other party of the driver:
it takes the command that was written, moves the bytes of the transmit buffer onto the wire and
those of the network into the receive buffer, and follows the connection, all of it at any time
between two accesses.
-/
namespace SmartBell.Ethernet.W5500
open Common

/-! ## Registers -/

def snMR : UInt16 := 0x0000
def snCR : UInt16 := 0x0001
def snIR : UInt16 := 0x0002
def snSR : UInt16 := 0x0003
def snPORT : UInt16 := 0x0004
def snDIPR : UInt16 := 0x000C
def snDPORT : UInt16 := 0x0010
def snMSSR : UInt16 := 0x0012
def snTOS : UInt16 := 0x0015
def snTTL : UInt16 := 0x0016
def snRXBUFSIZE : UInt16 := 0x001E
def snTXBUFSIZE : UInt16 := 0x001F
def snTXFSR : UInt16 := 0x0020
def snTXRD : UInt16 := 0x0022
def snTXWR : UInt16 := 0x0024
def snRXRSR : UInt16 := 0x0026
def snRXRD : UInt16 := 0x0028
def snRXWR : UInt16 := 0x002A
def snIMR : UInt16 := 0x002C
def snKPALVTR : UInt16 := 0x002F

def snCrOpen : UInt8 := 0x01
def snCrListen : UInt8 := 0x02
def snCrConnect : UInt8 := 0x04
def snCrDiscon : UInt8 := 0x08
def snCrClose : UInt8 := 0x10
def snCrSend : UInt8 := 0x20
def snCrSendKeep : UInt8 := 0x22
def snCrRecv : UInt8 := 0x40

def snIrSendok : UInt8 := 0x10
def snIrTimeout : UInt8 := 0x08
def snIrCon : UInt8 := 0x01

def sockListen : UInt8 := 0x14
def sockSynsent : UInt8 := 0x15
def sockSynrecv : UInt8 := 0x16
def sockEstablished : UInt8 := 0x17
def sockFinWait : UInt8 := 0x18
def sockClosing : UInt8 := 0x1A
def sockTimeWait : UInt8 := 0x1B
def sockCloseWait : UInt8 := 0x1C
def sockLastAck : UInt8 := 0x1D

/-- One socket: the registers that keep what is written to them, the others, and the two buffers.
The positions in the streams count on where the pointers of 16 bits wrap; `wire` and `heard` record
what went out and what came in since the connection was made. -/
structure Socket where
  bytes : UInt16 → UInt8
  cr : UInt8
  ir : UInt8
  sr : UInt8
  tx : Nat → UInt8
  rx : Nat → UInt8
  acked : Nat
  sent : Nat
  limit : Nat
  freed : Nat
  arrived : Nat
  wire : List UInt8
  heard : List UInt8

namespace Socket

/-- A register of two bytes. -/
def word (x : Socket) (offset : UInt16) : UInt16 :=
  joinBytes (x.bytes offset) (x.bytes (offset + 1))

def setWord (x : Socket) (offset w : UInt16) : Socket :=
  { x with
    bytes :=
      Function.update (Function.update x.bytes offset (highByte w)) (offset + 1) (lowByte w) }

def txSize (x : Socket) : Nat := (x.bytes snTXBUFSIZE).toNat * 1024
def rxSize (x : Socket) : Nat := (x.bytes snRXBUFSIZE).toNat * 1024

/-- What is not taken up by bytes that the peer has not confirmed. -/
def txFsr (x : Socket) : UInt16 := UInt16.ofNat x.txSize - (x.word snTXWR - UInt16.ofNat x.acked)

/-- The difference of `Sn_RX_WR` and `Sn_RX_RD`. -/
def rxRsr (x : Socket) : UInt16 := UInt16.ofNat x.arrived - x.word snRXRD

/-- The registers that the host can only read. -/
def readOnly (offset : UInt16) : Bool :=
  offset ∈ [snSR, snTXFSR, snTXFSR + 1, snTXRD, snTXRD + 1, snRXRSR, snRXRSR + 1,
    snRXWR, snRXWR + 1]

def read (x : Socket) (offset : UInt16) : UInt8 :=
  if offset = snCR then x.cr
  else if offset = snIR then x.ir
  else if offset = snSR then x.sr
  else if offset = snTXFSR then highByte x.txFsr
  else if offset = snTXFSR + 1 then lowByte x.txFsr
  else if offset = snTXRD then highByte (UInt16.ofNat x.sent)
  else if offset = snTXRD + 1 then lowByte (UInt16.ofNat x.sent)
  else if offset = snRXRSR then highByte x.rxRsr
  else if offset = snRXRSR + 1 then lowByte x.rxRsr
  else if offset = snRXWR then highByte (UInt16.ofNat x.arrived)
  else if offset = snRXWR + 1 then lowByte (UInt16.ofNat x.arrived)
  else x.bytes offset

/-- The bits of `Sn_IR` are cleared by writing them. -/
def write (x : Socket) (offset : UInt16) (v : UInt8) : Socket :=
  if offset = snCR then { x with cr := v }
  else if offset = snIR then { x with ir := x.ir &&& ~~~v }
  else if readOnly offset then x
  else { x with bytes := Function.update x.bytes offset v }

/-! ## What the chip does -/

/-- The transmit pointers at the start of a connection. -/
def restartTx (x : Socket) (start : Nat) : Socket :=
  { (x.setWord snTXWR (UInt16.ofNat start)) with
    acked := start, sent := start, limit := start, wire := [] }

def restartRx (x : Socket) (start : Nat) : Socket :=
  { (x.setWord snRXRD (UInt16.ofNat start)) with
    freed := start, arrived := start, heard := [] }

/-- A command on the socket. `SEND` and `RECV` take the pointer over that the host has written. -/
def command (x : Socket) (c : UInt8) : Socket :=
  if c = snCrOpen then
    match openedState (x.bytes snMR &&& 0x0F) with
    | some sr => { (x.restartTx 0).restartRx 0 with sr }
    | none => x
  else if c = snCrListen then if x.sr = sockInit then { x with sr := sockListen } else x
  else if c = snCrConnect then if x.sr = sockInit then { x with sr := sockSynsent } else x
  else if c = snCrDiscon then
    if x.sr = sockEstablished then { x with sr := sockFinWait }
    else if x.sr = sockCloseWait then { x with sr := sockLastAck }
    else x
  else if c = snCrClose then { x with sr := sockClosed }
  else if c = snCrSend then
    { x with limit := x.sent + (x.word snTXWR - UInt16.ofNat x.sent).toNat }
  else if c = snCrRecv then
    { x with freed := x.freed + (x.word snRXRD - UInt16.ofNat x.freed).toNat }
  else x

/-- The command register is cleared once the command is accepted. -/
def accept (x : Socket) : Socket := { (x.command x.cr) with cr := 0 }

/-- The states that a connection may come to of itself. -/
def Ending (sr : UInt8) : Prop :=
  sr ∈ [sockClosed, sockFinWait, sockClosing, sockTimeWait, sockCloseWait, sockLastAck]

instance : DecidablePred Ending := fun _ => inferInstanceAs (Decidable (_ ∈ _))

/-- The states before a connection is made. -/
def Connecting (sr : UInt8) : Prop := sr ∈ [sockListen, sockSynsent, sockSynrecv]

instance : DecidablePred Connecting := fun _ => inferInstanceAs (Decidable (_ ∈ _))

/-- What happens on the chip's side, one thing after the other. -/
inductive Act where
  | accept
  | request
  | connected (start : Nat)
  | ending (sr : UInt8)
  | transmit
  | acknowledge
  | receive (bytes : List UInt8)
  | interrupt (bits : UInt8)

/-- The next byte of a packet into the receive buffer. -/
def store (x : Socket) (v : UInt8) : Socket :=
  { x with
    rx := Function.update x.rx (x.arrived % x.rxSize) v
    arrived := x.arrived + 1
    heard := x.heard ++ [v] }

def act (x : Socket) : Act → Socket
  | .accept => x.accept
  | .request => if x.sr = sockListen then { x with sr := sockSynrecv } else x
  | .connected start =>
    if Connecting x.sr then
      { (x.restartTx start) with sr := sockEstablished, ir := x.ir ||| snIrCon }
    else x
  | .ending sr => if Ending sr then { x with sr } else x
  | .transmit =>
    if x.sent < x.limit then
      { x with sent := x.sent + 1, wire := x.wire ++ [x.tx (x.sent % x.txSize)] }
    else x
  | .acknowledge => if x.acked < x.sent then { x with acked := x.acked + 1 } else x
  | .receive bytes =>
    if x.arrived + bytes.length ≤ x.freed + x.rxSize then bytes.foldl store x else x
  | .interrupt bits => { x with ir := x.ir ||| bits }

end Socket

/-! ## The chip -/

def regMR : UInt16 := 0x0000
def regSIPR : UInt16 := 0x000F
def mrRst : UInt8 := 0x80

/-- The common registers and the sockets, with the values that a reset gives to them. -/
structure Chip where
  common : UInt16 → UInt8
  sockets : Fin 8 → Socket
  defaults : UInt16 → UInt8
  fresh : Socket

namespace Chip

/-- The socket that a block belongs to. -/
def slot (block : UInt8) : Fin 8 := ⟨block.toNat / 4 % 8, Nat.mod_lt _ (by decide)⟩

def setSocket (c : Chip) (n : Fin 8) (x : Socket) : Chip :=
  { c with sockets := Function.update c.sockets n x }

/-- A reset over the mode register. -/
def reset (c : Chip) : Chip := { c with common := c.defaults, sockets := fun _ => c.fresh }

/-- Blocks of a socket are its registers and its buffers, whose addresses wrap at their size. -/
def read (c : Chip) (block : UInt8) (offset : UInt16) : UInt8 :=
  let x := c.sockets (slot block)
  if block = 0 then c.common offset
  else if block % 4 = 1 then x.read offset
  else if block % 4 = 2 then x.tx (offset.toNat % x.txSize)
  else if block % 4 = 3 then x.rx (offset.toNat % x.rxSize)
  else 0

def write (c : Chip) (block : UInt8) (offset : UInt16) (v : UInt8) : Chip :=
  let x := c.sockets (slot block)
  if block = 0 then
    if offset = regMR ∧ v &&& mrRst ≠ 0 then c.reset
    else { c with common := Function.update c.common offset v }
  else if block % 4 = 1 then c.setSocket (slot block) (x.write offset v)
  else if block % 4 = 2 then
    c.setSocket (slot block) { x with tx := Function.update x.tx (offset.toNat % x.txSize) v }
  else if block % 4 = 3 then
    c.setSocket (slot block) { x with rx := Function.update x.rx (offset.toNat % x.rxSize) v }
  else c

/-- Something that happens at one of the sockets. -/
structure Event where
  socket : Fin 8
  act : Socket.Act

def happen (c : Chip) (e : Event) : Chip :=
  c.setSocket e.socket ((c.sockets e.socket).act e.act)

/-- A socket after a reset: closed, with two kilobytes for each direction. -/
def resetSocket : Socket where
  bytes reg := if reg = snRXBUFSIZE ∨ reg = snTXBUFSIZE then 2 else 0
  cr := 0
  ir := 0
  sr := sockClosed
  tx _ := 0
  rx _ := 0
  acked := 0
  sent := 0
  limit := 0
  freed := 0
  arrived := 0
  wire := []
  heard := []

def powerUp : Chip where
  common _ := 0
  sockets _ := resetSocket
  defaults _ := 0
  fresh := resetSocket

end Chip

end SmartBell.Ethernet.W5500
