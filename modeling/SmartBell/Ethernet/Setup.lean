import SmartBell.Ethernet.OpenClose

/-!
# Setting the chip up

`wizchip_conf.c` as far as the class `W5500Interface` uses it, and the class: its `init` and the
functions that set and get the addresses. The common registers are written by the host alone.
-/
namespace SmartBell.Ethernet.W5500
open Common Attempt

def regGAR : UInt16 := 0x0001
def regSUBR : UInt16 := 0x0005
def regSHAR : UInt16 := 0x0009

/-! ## Common registers -/

def getMR : Attempt Board UInt8 := wizchipRead board callbacks (addrSel regMR 0)

def setMR (mr : UInt8) : Attempt Board Unit := wizchipWrite board callbacks (addrSel regMR 0) mr

/-- So many bytes that were read. -/
def vectorOf (n : Nat) (bs : List UInt8) : Vector UInt8 n := Vector.ofFn fun i => bs[i]?.getD 0

/-- An address in consecutive registers. -/
def getAddress (reg : UInt16) (n : Nat) : Attempt Board (Vector UInt8 n) := do
  let bs ← wizchipReadBuf board callbacks (addrSel reg 0) (UInt16.ofNat n)
  pure (vectorOf n bs)

def setAddress (reg : UInt16) {n : Nat} (bs : Vector UInt8 n) : Attempt Board Unit :=
  wizchipWriteBuf board callbacks (addrSel reg 0) bs.toList (UInt16.ofNat n)

def getSHAR : Attempt Board (Vector UInt8 6) := getAddress regSHAR 6
def setSHAR (shar : Vector UInt8 6) : Attempt Board Unit := setAddress regSHAR shar
def getGAR : Attempt Board (Vector UInt8 4) := getAddress regGAR 4
def setGAR (gar : Vector UInt8 4) : Attempt Board Unit := setAddress regGAR gar
def getSUBR : Attempt Board (Vector UInt8 4) := getAddress regSUBR 4
def setSUBR (subr : Vector UInt8 4) : Attempt Board Unit := setAddress regSUBR subr
def getSourceIP : Attempt Board (Vector UInt8 4) := getAddress regSIPR 4
def setSIPR (sipr : Vector UInt8 4) : Attempt Board Unit := setAddress regSIPR sipr

/-! ## `wizchip_conf.c` -/

/-- The addresses outlast the reset. -/
def wizchipSwReset : Attempt Board Unit := do
  let mac ← getSHAR
  let gw ← getGAR
  let sn ← getSUBR
  let sip ← getSourceIP
  setMR mrRst
  let _ ← getMR
  setSHAR mac
  setGAR gw
  setSUBR sn
  setSIPR sip

/-- The sum of the sizes as a signed byte, unless it passes 16 on the way. -/
def checkSizes : Int8 → List UInt8 → Option Int8
  | tmp, [] => some tmp
  | tmp, size :: sizes =>
    if tmp + size.toInt8 > 16 then none else checkSizes (tmp + size.toInt8) sizes

/-- The sizes of the sockets from this one on. -/
def setSizes (reg : UInt16) : UInt8 → List UInt8 → Attempt Board Unit
  | _, [] => pure ()
  | sn, size :: sizes => do
    setByte reg sn size
    setSizes reg (sn + 1) sizes

/-- One half of `wizchip_init`; nothing is to be done without sizes. -/
def initSizes (reg : UInt16) (sizes : Option (Vector UInt8 wizchipSockNum)) : Attempt Board Bool :=
  match sizes with
  | none => pure true
  | some sizes =>
    if checkSizes 0 sizes.toList = none then pure false
    else do
      setSizes reg 0 sizes.toList
      pure true

def wizchipInit (txsize rxsize : Option (Vector UInt8 wizchipSockNum)) : Attempt Board Int := do
  wizchipSwReset
  let txOk ← initSizes snTXBUFSIZE txsize
  if !txOk then pure (-1)
  else do
    let rxOk ← initSizes snRXBUFSIZE rxsize
    if !rxOk then pure (-1) else pure 0

/-- `CW_INIT_WIZCHIP` of `ctlwizchip`. The sizes for receiving are taken from behind as many sizes
for sending as the driver has sockets. -/
def ctlwizchipInit (arg : Option (List UInt8)) : Attempt Board Int :=
  wizchipInit (arg.map (vectorOf wizchipSockNum))
    (arg.map fun sizes => vectorOf wizchipSockNum (sizes.drop wizchipSockNum))

/-- `wiz_NetInfo` -/
structure NetInfo where
  mac : Vector UInt8 6
  ip : Vector UInt8 4
  sn : Vector UInt8 4
  gw : Vector UInt8 4
  dns : Vector UInt8 4
  dhcp : UInt8

/-- The class with its static `netInfo_`, the board, and `_DNS_` and `_DHCP_` of the library. The
callback for the reset line may be missing; those for the chip select are there. -/
structure Interface where
  board : Board
  cbHardReset : Bool
  dns : Vector UInt8 4
  dhcp : UInt8
  netInfo : NetInfo
  initialized : Bool

namespace Interface

def onBoard {α : Type} (x : Attempt Board α) : Attempt Interface α :=
  .zoom Interface.board (fun s board => { s with board }) x

def wizchipSetnetinfo (info : NetInfo) : Attempt Interface Unit := do
  onBoard (setSHAR info.mac)
  onBoard (setGAR info.gw)
  onBoard (setSUBR info.sn)
  onBoard (setSIPR info.ip)
  .modify fun s => { s with dns := info.dns, dhcp := info.dhcp }

def wizchipGetnetinfo : Attempt Interface NetInfo := do
  let mac ← onBoard getSHAR
  let gw ← onBoard getGAR
  let sn ← onBoard getSUBR
  let ip ← onBoard getSourceIP
  let s ← .read
  pure { mac, ip, sn, gw, dns := s.dns, dhcp := s.dhcp }

/-! ## `W5500Interface` -/

def softReset : Attempt Interface Unit := onBoard wizchipSwReset

/-- The callback of `smart_bell.cpp` pulls the reset line of the chip. -/
def pullReset : Attempt Board Unit := do
  elapse
  .modify fun s => { s with chip := s.chip.reset }

/-- Without a callback nothing is pulled. -/
def callHardReset : Attempt Interface Unit := do
  let s ← .read
  if s.cbHardReset then onBoard pullReset else pure ()

def hardReset : Attempt Interface Unit := do
  callHardReset
  .modify fun s => { s with initialized := false }

/-- The two rows of the table, as they lie in memory. -/
def memsize : List UInt8 := [4, 1, 1, 1, 1, 1, 1, 1] ++ [4, 1, 1, 1, 1, 1, 1, 1]

/-- The callbacks for the chip select, for bytes and for bursts. -/
def registerCallbacks : Attempt Board Unit := .modify fun s => { s with registered := true }

def init : Attempt Interface Unit := do
  let s ← .read
  if s.initialized then pure ()
  else do
    onBoard registerCallbacks
    softReset
    let result ← onBoard (ctlwizchipInit (some memsize))
    if result = -1 then pure () else .modify fun s => { s with initialized := true }

/-- `wizchip_getnetinfo(&netInfo_)` -/
def fetchNetInfo : Attempt Interface NetInfo := do
  let info ← wizchipGetnetinfo
  .modify fun s => { s with netInfo := info }
  pure info

/-- One of the addresses is changed and all of them are written. -/
def updateNetInfo (f : NetInfo → NetInfo) : Attempt Interface Unit := do
  let info ← fetchNetInfo
  .modify fun s => { s with netInfo := f info }
  wizchipSetnetinfo (f info)

def setMAC (mac : Vector UInt8 6) := updateNetInfo fun info => { info with mac }
def setIP (ip : Vector UInt8 4) := updateNetInfo fun info => { info with ip }
def setSubnet (sn : Vector UInt8 4) := updateNetInfo fun info => { info with sn }
def setGateway (gw : Vector UInt8 4) := updateNetInfo fun info => { info with gw }

def setNetworkConfig (mac : Vector UInt8 6) (ip subnet gateway : Vector UInt8 4) :
    Attempt Interface Unit := do
  setMAC mac
  setIP ip
  setSubnet subnet
  setGateway gateway

def getMAC : Attempt Interface (Vector UInt8 6) := do
  let info ← fetchNetInfo
  pure info.mac

def getIP : Attempt Interface (Vector UInt8 4) := do
  let info ← fetchNetInfo
  pure info.ip

def getSubnet : Attempt Interface (Vector UInt8 4) := do
  let info ← fetchNetInfo
  pure info.sn

def getGateway : Attempt Interface (Vector UInt8 4) := do
  let info ← fetchNetInfo
  pure info.gw

/-- The class as it is constructed, and so many moments in which the chip does nothing. -/
def constructed (moments : Nat) : Interface where
  board := .powerUp (List.replicate moments [])
  cbHardReset := true
  dns := .replicate 4 0
  dhcp := 0
  netInfo :=
    { mac := .replicate 6 0, ip := .replicate 4 0, sn := .replicate 4 0, gw := .replicate 4 0
      dns := .replicate 4 0, dhcp := 0 }
  initialized := false

/-! ## Operations -/

/-- What the interface is asked to do, or the program of the sockets beside it. -/
inductive Op where
  | init
  | softReset
  | hardReset
  | setMAC (mac : Vector UInt8 6)
  | setIP (ip : Vector UInt8 4)
  | setSubnet (subnet : Vector UInt8 4)
  | setGateway (gateway : Vector UInt8 4)
  | setNetworkConfig (mac : Vector UInt8 6) (ip subnet gateway : Vector UInt8 4)
  | getMAC
  | getIP
  | getSubnet
  | getGateway
  | socketCall (sn : UInt8) (call : Call)

/-- The bytes that are stored for the caller. -/
def perform : Op → Attempt Interface (List UInt8)
  | .init => do
    init
    pure []
  | .softReset => do
    softReset
    pure []
  | .hardReset => do
    hardReset
    pure []
  | .setMAC mac => do
    setMAC mac
    pure []
  | .setIP ip => do
    setIP ip
    pure []
  | .setSubnet subnet => do
    setSubnet subnet
    pure []
  | .setGateway gateway => do
    setGateway gateway
    pure []
  | .setNetworkConfig mac ip subnet gateway => do
    setNetworkConfig mac ip subnet gateway
    pure []
  | .getMAC => do
    let mac ← getMAC
    pure mac.toList
  | .getIP => do
    let ip ← getIP
    pure ip.toList
  | .getSubnet => do
    let subnet ← getSubnet
    pure subnet.toList
  | .getGateway => do
    let gateway ← getGateway
    pure gateway.toList
  | .socketCall sn call => do
    let _ ← onBoard (call.perform sn)
    pure []

def performAll : List Op → Attempt Interface (List (List UInt8))
  | [] => pure []
  | op :: ops => do
    let out ← perform op
    let outs ← performAll ops
    pure (out :: outs)

end Interface

end SmartBell.Ethernet.W5500
