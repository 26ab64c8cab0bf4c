import SmartBell.Ethernet.Setup

/-!
# The addresses of the chip

What the functions of the class do to the addresses, seen from outside: one is set or one is read,
and the others stay as they are. A soft reset keeps all of them, a hard reset none.
-/
namespace SmartBell.Ethernet.W5500
open Common Attempt

/-! ## What the common registers hold -/

/-- Bytes stored from an address on. -/
def storeFrom (f : UInt16 → UInt8) (offset : UInt16) (vs : List UInt8) (reg : UInt16) : UInt8 :=
  vs[(reg - offset).toNat]?.getD (f reg)

theorem storeFrom_cons (f : UInt16 → UInt8) (offset : UInt16) (v : UInt8) (vs : List UInt8)
    (h : vs.length < 65536) :
    storeFrom (Function.update f offset v) (offset + 1) vs = storeFrom f offset (v :: vs) := by
  funext reg
  have hreg := reg.toNat_lt
  have hoffset := offset.toNat_lt
  by_cases heq : reg = offset
  · have hlast : (reg - (offset + 1)).toNat = 65535 := by
      rw [heq, UInt16.toNat_sub, UInt16.toNat_add, UInt16.toNat_one]
      omega
    rw [storeFrom, storeFrom, hlast, heq, UInt16.sub_self, List.getElem?_eq_none (by omega)]
    simp
  · have hne : reg.toNat ≠ offset.toNat := fun hnat => heq (UInt16.toNat_inj.mp hnat)
    have hnext : (reg - offset).toNat = (reg - (offset + 1)).toNat + 1 := by
      rw [UInt16.toNat_sub, UInt16.toNat_sub, UInt16.toNat_add, UInt16.toNat_one]
      omega
    rw [storeFrom, storeFrom, hnext, List.getElem?_cons_succ, Function.update_of_ne heq]

/-- An address that is held in consecutive registers. -/
def addressAt (f : UInt16 → UInt8) (reg : UInt16) (n : Nat) : Vector UInt8 n :=
  Vector.ofFn fun i => f (reg + UInt16.ofNat i)

theorem addressAt_storeFrom (f : UInt16 → UInt8) (reg : UInt16) {n : Nat} (h : n ≤ 65536)
    (v : Vector UInt8 n) : addressAt (storeFrom f reg v.toList) reg n = v := by
  refine Vector.ext fun i hi => ?_
  have hindex : (reg + UInt16.ofNat i - reg).toNat = i := by
    rw [UInt16.add_comm, UInt16.add_sub_cancel, UInt16.toNat_ofNat']
    exact Nat.mod_eq_of_lt (by omega)
  simp only [addressAt, Vector.getElem_ofFn, storeFrom]
  rw [hindex, List.getElem?_eq_getElem (by simpa using hi), Option.getD_some, Vector.getElem_toList]

/-- Registers that lie apart keep their address. -/
theorem addressAt_storeFrom_of_le (f : UInt16 → UInt8) {reg reg' : UInt16} {m n : Nat}
    (h : ∀ i : Fin m, n ≤ (reg' + UInt16.ofNat i - reg).toNat) (v : Vector UInt8 n) :
    addressAt (storeFrom f reg v.toList) reg' m = addressAt f reg' m := by
  refine Vector.ext fun i hi => ?_
  have hout : v.toList[(reg' + UInt16.ofNat i - reg).toNat]? = none :=
    List.getElem?_eq_none (by simpa using h ⟨i, hi⟩)
  simp only [addressAt, Vector.getElem_ofFn, storeFrom, hout, Option.getD_none]

section CommonRegisters
variable {f d : UInt16 → UInt8} {α : Type}

/-- The common registers hold these bytes, and a reset gives them those. -/
def Holding (f d : UInt16 → UInt8) (s : Board) : Prop := s.chip.common = f ∧ s.chip.defaults = d

theorem holding_patient (f d : UInt16 → UInt8) : Patient (Holding f d) := by
  intro s t hs htick
  have hkeep (c : Chip) (e : Chip.Event) (hc : c.common = f ∧ c.defaults = d) :
      (c.happen e).common = f ∧ (c.happen e).defaults = d := hc
  unfold Tick elapse at htick
  split at htick
  · simp at htick
  · obtain rfl := (Prod.mk.inj htick).2
    exact run_invariant hkeep hs _

theorem readBytes_holding (offset : UInt16) (k : Nat) :
    Triple (Holding f d) (board.readBytes 0 offset k)
      (fun bs s => Holding f d s ∧ bs = (List.range k).map fun i => f (offset + UInt16.ofNat i))
      (Holding f d) := by
  induction k generalizing offset with
  | zero => exact .pure _ fun _ hs => ⟨hs, rfl⟩
  | succ k ih =>
    have hread : Triple (Holding f d) (board.read 0 offset)
        (fun v s => Holding f d s ∧ v = f offset)
        (Holding f d) := by
      refine (holding_patient f d).transfer.bind fun _ => ?_
      refine (Triple.read (Q := fun a s => Holding f d s ∧ a = s) fun s hs => ⟨hs, rfl⟩).bind
        fun a => ?_
      refine .pure _ fun s hs => ⟨hs.1, ?_⟩
      rw [hs.2, Chip.read, if_pos rfl, hs.1.1]
    refine hread.bind fun v => .assume fun hv => (ih (offset + 1)).bind fun vs => ?_
    refine .pure _ fun s hs => ⟨hs.1, ?_⟩
    rw [hs.2, hv, List.range_succ_eq_map, List.map_cons, List.map_map]
    refine congrArg₂ List.cons (by simp) (List.map_congr_left fun i _ => ?_)
    rw [Function.comp, UInt16.add_assoc, ← UInt16.ofNat_one, ← UInt16.ofNat_add, Nat.add_comm 1]

theorem writeBytes_holding {offset : UInt16} {vs : List UInt8}
    (hoffset : ∀ i < vs.length, offset + UInt16.ofNat i ≠ regMR) (hlength : vs.length < 65536) :
    Triple (Holding f d) (board.writeBytes 0 offset vs) (fun _ => Holding (storeFrom f offset vs) d)
      fun _ => True := by
  induction vs generalizing offset f with
  | nil => exact .pure _ fun _ hs => hs
  | cons v vs ih =>
    have hne : offset ≠ regMR := by simpa using hoffset 0 (by simp)
    have hwrite : Triple (Holding f d) (board.write 0 offset v)
        (fun _ => Holding (Function.update f offset v) d) fun _ => True := by
      refine (holding_patient f d).transfer.forget.bind fun _ => .modify fun s hs => ?_
      rw [Holding, Chip.write, if_pos rfl, if_neg fun h => hne h.1, hs.1]
      exact ⟨rfl, hs.2⟩
    rw [List.length_cons] at hlength
    rw [← storeFrom_cons f offset v vs (by omega)]
    refine hwrite.bind fun _ => ih (fun i hi => ?_) (by omega)
    have hnext := hoffset (i + 1) (by simpa using hi)
    rwa [UInt16.add_assoc, ← UInt16.ofNat_one, ← UInt16.ofNat_add, Nat.add_comm 1]

theorem wizchipReadBuf_common (reg : UInt16) (len : UInt16) :
    wizchipReadBuf board callbacks (addrSel reg 0) len = board.readBytes 0 reg len.toNat := by
  have hoffset : reg + ((0 : UInt32) / 32).toUInt16 = reg := reg.add_zero
  rw [wizchipReadBuf_addrSel, hoffset]
  rfl

theorem wizchipWriteBuf_common (reg : UInt16) (bs : List UInt8) (len : UInt16) :
    wizchipWriteBuf board callbacks (addrSel reg 0) bs len =
      board.writeBytes 0 reg (bs.take len.toNat) := by
  have hoffset : reg + ((0 : UInt32) / 32).toUInt16 = reg := reg.add_zero
  rw [wizchipWriteBuf_addrSel, hoffset]
  rfl

/-- An address is read as it is. -/
theorem getAddress_holding (reg : UInt16) {n : Nat} (hn : n < 65536) :
    Triple (Holding f d) (getAddress reg n) (fun v s => Holding f d s ∧ v = addressAt f reg n)
      (Holding f d) := by
  have hlen : (UInt16.ofNat n).toNat = n := by
    rw [UInt16.toNat_ofNat']
    exact Nat.mod_eq_of_lt hn
  rw [getAddress, wizchipReadBuf_common, hlen]
  refine (readBytes_holding reg n).bind fun bs => .assume fun hbs => .pure _ fun s hs => ⟨hs, ?_⟩
  refine Vector.ext fun i hi => ?_
  simp [vectorOf, addressAt, hbs]

theorem setAddress_holding {reg : UInt16} {n : Nat} (v : Vector UInt8 n) (hn : n < 65536)
    (hreg : ∀ i < n, reg + UInt16.ofNat i ≠ regMR) :
    Triple (Holding f d) (setAddress reg v) (fun _ => Holding (storeFrom f reg v.toList) d)
      fun _ => True := by
  have hlen : (UInt16.ofNat n).toNat = n := by
    rw [UInt16.toNat_ofNat']
    exact Nat.mod_eq_of_lt hn
  rw [setAddress, wizchipWriteBuf_common, hlen, List.take_of_length_le (by simp)]
  exact writeBytes_holding (fun i hi => hreg i (by simpa using hi)) (by simpa using hn)

end CommonRegisters

/-! ## Settings -/

/-- The addresses of the chip. -/
structure Settings where
  mac : Vector UInt8 6
  ip : Vector UInt8 4
  subnet : Vector UInt8 4
  gateway : Vector UInt8 4

/-- The addresses that the registers hold. -/
def settingsOf (f : UInt16 → UInt8) : Settings where
  mac := addressAt f regSHAR 6
  ip := addressAt f regSIPR 4
  subnet := addressAt f regSUBR 4
  gateway := addressAt f regGAR 4

/-- These addresses are set, and those will be after a reset. -/
def SetTo (c d : Settings) (s : Board) : Prop :=
  settingsOf s.chip.common = c ∧ settingsOf s.chip.defaults = d

theorem settingsOf_setSHAR (f : UInt16 → UInt8) (mac : Vector UInt8 6) :
    settingsOf (storeFrom f regSHAR mac.toList) = { settingsOf f with mac } := by
  rw [settingsOf, settingsOf, addressAt_storeFrom f regSHAR (by decide) mac,
    addressAt_storeFrom_of_le f (by decide), addressAt_storeFrom_of_le f (by decide),
    addressAt_storeFrom_of_le f (by decide)]

theorem settingsOf_setSIPR (f : UInt16 → UInt8) (ip : Vector UInt8 4) :
    settingsOf (storeFrom f regSIPR ip.toList) = { settingsOf f with ip } := by
  rw [settingsOf, settingsOf, addressAt_storeFrom f regSIPR (by decide) ip,
    addressAt_storeFrom_of_le f (by decide), addressAt_storeFrom_of_le f (by decide),
    addressAt_storeFrom_of_le f (by decide)]

theorem settingsOf_setSUBR (f : UInt16 → UInt8) (subnet : Vector UInt8 4) :
    settingsOf (storeFrom f regSUBR subnet.toList) = { settingsOf f with subnet } := by
  rw [settingsOf, settingsOf, addressAt_storeFrom f regSUBR (by decide) subnet,
    addressAt_storeFrom_of_le f (by decide), addressAt_storeFrom_of_le f (by decide),
    addressAt_storeFrom_of_le f (by decide)]

theorem settingsOf_setGAR (f : UInt16 → UInt8) (gateway : Vector UInt8 4) :
    settingsOf (storeFrom f regGAR gateway.toList) = { settingsOf f with gateway } := by
  rw [settingsOf, settingsOf, addressAt_storeFrom f regGAR (by decide) gateway,
    addressAt_storeFrom_of_le f (by decide), addressAt_storeFrom_of_le f (by decide),
    addressAt_storeFrom_of_le f (by decide)]

section SetTo
variable {c d : Settings} {α : Type}

/-- Whatever else the registers hold. -/
theorem setTo_of_holding {x : Attempt Board α} {Q : α → Board → Prop} {R : Board → Prop}
    (h : ∀ f g, settingsOf f = c → settingsOf g = d → Triple (Holding f g) x Q R) :
    Triple (SetTo c d) x Q R :=
  fun s hs => h s.chip.common s.chip.defaults hs.1 hs.2 s ⟨rfl, rfl⟩

theorem getAddress_setTo {reg : UInt16} {n : Nat} {v : Vector UInt8 n} (hn : n < 65536)
    (hv : ∀ f, settingsOf f = c → addressAt f reg n = v) :
    Triple (SetTo c d) (getAddress reg n) (fun w s => SetTo c d s ∧ w = v) fun _ => True :=
  setTo_of_holding fun f _ hf hg => (getAddress_holding reg hn).mono (fun _ hs => hs)
    (fun _ _ hs => ⟨⟨hs.1.1 ▸ hf, hs.1.2 ▸ hg⟩, hs.2.trans (hv f hf)⟩) fun _ _ => trivial

theorem getSHAR_setTo :
    Triple (SetTo c d) getSHAR (fun v s => SetTo c d s ∧ v = c.mac) fun _ => True :=
  getAddress_setTo (by decide) fun _ hf => hf ▸ rfl

theorem getGAR_setTo : Triple (SetTo c d) getGAR (fun v s => SetTo c d s ∧ v = c.gateway)
    fun _ => True := getAddress_setTo (by decide) fun _ hf => hf ▸ rfl

theorem getSUBR_setTo : Triple (SetTo c d) getSUBR (fun v s => SetTo c d s ∧ v = c.subnet)
    fun _ => True := getAddress_setTo (by decide) fun _ hf => hf ▸ rfl

theorem getSourceIP_setTo : Triple (SetTo c d) getSourceIP (fun v s => SetTo c d s ∧ v = c.ip)
    fun _ => True := getAddress_setTo (by decide) fun _ hf => hf ▸ rfl

theorem setAddress_setTo {reg : UInt16} {n : Nat} {v : Vector UInt8 n} {c' : Settings}
    (hn : n < 65536) (hreg : ∀ i < n, reg + UInt16.ofNat i ≠ regMR)
    (hc : ∀ f, settingsOf f = c → settingsOf (storeFrom f reg v.toList) = c') :
    Triple (SetTo c d) (setAddress reg v) (fun _ => SetTo c' d) fun _ => True :=
  setTo_of_holding fun f _ hf hg => (setAddress_holding v hn hreg).mono (fun _ hs => hs)
    (fun _ _ hs => ⟨(congrArg settingsOf hs.1).trans (hc f hf), hs.2 ▸ hg⟩) fun _ _ => trivial

theorem setSHAR_setTo (mac : Vector UInt8 6) :
    Triple (SetTo c d) (setSHAR mac) (fun _ => SetTo { c with mac } d) fun _ => True :=
  setAddress_setTo (by decide) (by decide) fun f hf => hf ▸ settingsOf_setSHAR f mac

theorem setGAR_setTo (gateway : Vector UInt8 4) :
    Triple (SetTo c d) (setGAR gateway) (fun _ => SetTo { c with gateway } d) fun _ => True :=
  setAddress_setTo (by decide) (by decide) fun f hf => hf ▸ settingsOf_setGAR f gateway

theorem setSUBR_setTo (subnet : Vector UInt8 4) :
    Triple (SetTo c d) (setSUBR subnet) (fun _ => SetTo { c with subnet } d) fun _ => True :=
  setAddress_setTo (by decide) (by decide) fun f hf => hf ▸ settingsOf_setSUBR f subnet

theorem setSIPR_setTo (ip : Vector UInt8 4) :
    Triple (SetTo c d) (setSIPR ip) (fun _ => SetTo { c with ip } d) fun _ => True :=
  setAddress_setTo (by decide) (by decide) fun f hf => hf ▸ settingsOf_setSIPR f ip

theorem setMR_eq : setMR mrRst = (do
    transfer
    .modify fun s => { s with chip := s.chip.reset }) := by
  have hoffset : regMR + ((0 : UInt32) / 32).toUInt16 = regMR := rfl
  rw [setMR, wizchipWrite_addrSel, hoffset]
  rfl

/-- A reset over the mode register takes the addresses away. -/
theorem setMR_setTo : Triple (SetTo c d) (setMR mrRst) (fun _ => SetTo d d) fun _ => True :=
  setTo_of_holding fun f g _ hg => by
    rw [setMR_eq]
    refine (holding_patient f g).transfer.forget.bind fun _ => .modify fun s hs => ?_
    rw [SetTo, Chip.reset, hs.2]
    exact ⟨hg, hg⟩

theorem getMR_setTo : Triple (SetTo c d) getMR (fun _ => SetTo c d) fun _ => True :=
  setTo_of_holding fun f g hf hg => by
    rw [getMR, wizchipRead_addrSel]
    refine ((holding_patient f g).read _ _).mono (fun _ hs => hs) (fun _ _ hs => ?_)
      fun _ _ => trivial
    exact ⟨hs.1 ▸ hf, hs.2 ▸ hg⟩

/-- The reset clears the addresses, and they are written again. -/
theorem wizchipSwReset_setTo :
    Triple (SetTo c d) wizchipSwReset (fun _ => SetTo c d) fun _ => True := by
  refine getSHAR_setTo.bind fun mac => .assume fun hmac => ?_
  refine getGAR_setTo.bind fun gw => .assume fun hgw => ?_
  refine getSUBR_setTo.bind fun sn => .assume fun hsn => ?_
  refine getSourceIP_setTo.bind fun sip => .assume fun hsip => ?_
  refine setMR_setTo.bind fun _ => getMR_setTo.bind fun _ => ?_
  rw [hmac, hgw, hsn, hsip]
  refine (setSHAR_setTo _).bind fun _ => (setGAR_setTo _).bind fun _ => ?_
  exact (setSUBR_setTo _).bind fun _ => setSIPR_setTo _

/-- The common registers are the same, and so is what a reset makes of them. -/
def SameCommon (s t : Board) : Prop :=
  t.chip.common = s.chip.common ∧ t.chip.defaults = s.chip.defaults

instance : IsPreorder Board SameCommon where
  refl _ := ⟨rfl, rfl⟩
  trans _ _ _ hst htu := ⟨htu.1.trans hst.1, htu.2.trans hst.2⟩

/-- What is done to the sockets leaves the common registers alone. -/
theorem Uses.common {sn : UInt8} {A : Set Access} {x : Attempt Board α} (hx : Uses sn A x) :
    Moves SameCommon x := by
  refine hx.moves SameCommon ⟨inferInstance, fun s => ?_, fun _ _ _ => ⟨rfl, rfl⟩, fun _ _ h => ?_⟩
  · rcases he : elapse s with ⟨_ | _, t⟩
    · rw [elapse_stopped he]
      exact refl_of SameCommon s
    · exact holding_patient s.chip.common s.chip.defaults s t ⟨rfl, rfl⟩ he
  · rw [SameCommon, h.chip]
    exact ⟨rfl, rfl⟩

theorem Uses.setTo {sn : UInt8} {A : Set Access} {x : Attempt Board α} (hx : Uses sn A x) :
    Triple (SetTo c d) x (fun _ => SetTo c d) fun _ => True :=
  (hx.common.triple fun _ _ hs hst => ⟨hst.1 ▸ hs.1, hst.2 ▸ hs.2⟩).forget

theorem setSizes_setTo (reg : UInt16) (sn : UInt8) (sizes : List UInt8) :
    Triple (SetTo c d) (setSizes reg sn sizes) (fun _ => SetTo c d) fun _ => True := by
  induction sizes generalizing sn with
  | nil => exact .pure _ fun _ hs => hs
  | cons size sizes ih =>
    exact (Uses.setTo (setByte_uses (Set.mem_univ _))).bind fun _ => ih (sn + 1)

theorem initSizes_setTo (reg : UInt16) (sizes : Option (Vector UInt8 wizchipSockNum)) :
    Triple (SetTo c d) (initSizes reg sizes) (fun _ => SetTo c d) fun _ => True := by
  cases sizes with
  | none => exact .pure _ fun _ hs => hs
  | some sizes =>
    refine .ite (fun _ => .pure _ fun _ hs => hs) fun _ => ?_
    exact (setSizes_setTo _ _ _).bind fun _ => .pure _ fun _ hs => hs

theorem wizchipInit_setTo (txsize rxsize : Option (Vector UInt8 wizchipSockNum)) :
    Triple (SetTo c d) (wizchipInit txsize rxsize) (fun _ => SetTo c d) fun _ => True := by
  refine wizchipSwReset_setTo.bind fun _ => (initSizes_setTo _ _).bind fun _ => ?_
  refine .ite (fun _ => .pure _ fun _ hs => hs) fun _ => (initSizes_setTo _ _).bind fun _ => ?_
  exact .ite (fun _ => .pure _ fun _ hs => hs) fun _ => .pure _ fun _ hs => hs

end SetTo

/-! ## Operations -/

namespace Settings
open Interface

/-- What the operation means for the addresses. A hard reset leaves those of the chip, `d`, if there
is a callback for it. -/
def step (hard : Bool) (d c : Settings) : Op → Settings
  | .hardReset => if hard then d else c
  | .setMAC mac => { c with mac }
  | .setIP ip => { c with ip }
  | .setSubnet subnet => { c with subnet }
  | .setGateway gateway => { c with gateway }
  | .setNetworkConfig mac ip subnet gateway => { mac, ip, subnet, gateway }
  | _ => c

/-- What it is to store for the caller. -/
def answer (c : Settings) : Op → List UInt8
  | .getMAC => c.mac.toList
  | .getIP => c.ip.toList
  | .getSubnet => c.subnet.toList
  | .getGateway => c.gateway.toList
  | _ => []

def answers (hard : Bool) (d : Settings) : Settings → List Op → List (List UInt8)
  | _, [] => []
  | c, op :: ops => c.answer op :: answers hard d (step hard d c op) ops

end Settings

/-- The addresses that the library passes on. -/
def NetInfo.settings (info : NetInfo) : Settings where
  mac := info.mac
  ip := info.ip
  subnet := info.sn
  gateway := info.gw

namespace Interface
variable {hard : Bool} {c d : Settings} {α β : Type}

/-- The addresses that the chip has. -/
def settings (s : Interface) : Settings := settingsOf s.board.chip.common

/-- The addresses that a reset of the chip leaves. -/
def defaults (s : Interface) : Settings := settingsOf s.board.chip.defaults

/-- The chip has these addresses, and a reset, if there is a callback for it, leaves those. -/
def Has (hard : Bool) (c d : Settings) (s : Interface) : Prop :=
  SetTo c d s.board ∧ s.cbHardReset = hard

/-- The board changes, and what does not depend on it stays. -/
theorem onBoard_triple {F : Interface → Prop} (hF : ∀ s b, F s → F { s with board := b })
    {P R : Board → Prop} {Q : α → Board → Prop} {x : Attempt Board α} (h : Triple P x Q R) :
    Triple (fun s => P s.board ∧ F s) (onBoard x) (fun a s => Q a s.board ∧ F s)
      fun s => R s.board ∧ F s := by
  refine Triple.zoom ?_ ?_ h
  · exact fun _ _ => rfl
  · exact hF

theorem onBoard_has {x : Attempt Board α} {c' : Settings}
    (h : Triple (SetTo c d) x (fun _ => SetTo c' d) fun _ => True) :
    Triple (Has hard c d) (onBoard x) (fun _ => Has hard c' d) fun _ => True :=
  (onBoard_triple (fun _ _ hs => hs) h).forget

theorem onBoard_gets {x : Attempt Board α} {v : α}
    (h : Triple (SetTo c d) x (fun w s => SetTo c d s ∧ w = v) fun _ => True) :
    Triple (Has hard c d) (onBoard x) (fun w s => Has hard c d s ∧ w = v) fun _ => True :=
  (onBoard_triple (fun _ _ hs => hs) h).mono (fun _ hs => hs)
    (fun _ _ hs => ⟨⟨hs.1.1, hs.2⟩, hs.1.2⟩)
    fun _ _ => trivial

/-- The other variables do not matter. -/
theorem modify_has {f : Interface → Interface} (hboard : ∀ s, (f s).board = s.board)
    (hreset : ∀ s, (f s).cbHardReset = s.cbHardReset) :
    Triple (Has hard c d) (.modify f) (fun _ => Has hard c d) fun _ => True := by
  refine .modify fun s hs => ?_
  rw [Has, hboard, hreset]
  exact hs

theorem wizchipGetnetinfo_has : Triple (Has hard c d) wizchipGetnetinfo
    (fun info s => Has hard c d s ∧ info.settings = c) fun _ => True := by
  refine (onBoard_gets getSHAR_setTo).bind fun mac => .assume fun hmac => ?_
  refine (onBoard_gets getGAR_setTo).bind fun gw => .assume fun hgw => ?_
  refine (onBoard_gets getSUBR_setTo).bind fun sn => .assume fun hsn => ?_
  refine (onBoard_gets getSourceIP_setTo).bind fun ip => .assume fun hip => ?_
  refine (Triple.read fun s hs => hs).bind fun a => .pure _ fun s hs => ⟨hs, ?_⟩
  rw [NetInfo.settings, hmac, hgw, hsn, hip]

theorem fetchNetInfo_has : Triple (Has hard c d) fetchNetInfo
    (fun info s => Has hard c d s ∧ info.settings = c) fun _ => True := by
  refine wizchipGetnetinfo_has.bind fun info => .assume fun hinfo => ?_
  have hstore : Triple (Has hard c d) (.modify fun s => { s with netInfo := info })
      (fun _ => Has hard c d) fun _ => True := modify_has (fun _ => rfl) fun _ => rfl
  exact hstore.bind fun _ => .pure _ fun _ hs => ⟨hs, hinfo⟩

/-- A part of what was fetched. -/
theorem getOf_has {f : NetInfo → β} (g : Settings → β) (h : ∀ info, f info = g info.settings) :
    Triple (Has hard c d) (fetchNetInfo >>= fun info => pure (f info))
      (fun v s => Has hard c d s ∧ v = g c) fun _ => True :=
  fetchNetInfo_has.bind fun info => .pure _ fun _ hs => ⟨hs.1, (h info).trans (congrArg g hs.2)⟩

theorem wizchipSetnetinfo_has (info : NetInfo) : Triple (Has hard c d) (wizchipSetnetinfo info)
    (fun _ => Has hard info.settings d) fun _ => True := by
  refine (onBoard_has (setSHAR_setTo _)).bind fun _ =>
    (onBoard_has (setGAR_setTo _)).bind fun _ => ?_
  refine (onBoard_has (setSUBR_setTo _)).bind fun _ =>
    (onBoard_has (setSIPR_setTo _)).bind fun _ => ?_
  exact modify_has (fun _ => rfl) fun _ => rfl

/-- The addresses that are not changed are written as they were. -/
theorem updateNetInfo_has {f : NetInfo → NetInfo} (g : Settings → Settings)
    (h : ∀ info, (f info).settings = g info.settings) :
    Triple (Has hard c d) (updateNetInfo f) (fun _ => Has hard (g c) d) fun _ => True := by
  refine fetchNetInfo_has.bind fun info => .assume fun hinfo => ?_
  have hstore : Triple (Has hard c d) (.modify fun s => { s with netInfo := f info })
      (fun _ => Has hard c d) fun _ => True := modify_has (fun _ => rfl) fun _ => rfl
  rw [← hinfo, ← h, hinfo]
  exact hstore.bind fun _ => wizchipSetnetinfo_has (f info)

theorem setMAC_has (mac : Vector UInt8 6) :
    Triple (Has hard c d) (setMAC mac) (fun _ => Has hard { c with mac } d) fun _ => True :=
  updateNetInfo_has (fun c => { c with mac }) fun _ => rfl

theorem setIP_has (ip : Vector UInt8 4) :
    Triple (Has hard c d) (setIP ip) (fun _ => Has hard { c with ip } d) fun _ => True :=
  updateNetInfo_has (fun c => { c with ip }) fun _ => rfl

theorem setSubnet_has (subnet : Vector UInt8 4) :
    Triple (Has hard c d) (setSubnet subnet) (fun _ => Has hard { c with subnet } d)
      fun _ => True :=
  updateNetInfo_has (fun c => { c with subnet }) fun _ => rfl

theorem setGateway_has (gateway : Vector UInt8 4) :
    Triple (Has hard c d) (setGateway gateway) (fun _ => Has hard { c with gateway } d)
      fun _ => True :=
  updateNetInfo_has (fun c => { c with gateway }) fun _ => rfl

theorem init_has : Triple (Has hard c d) init (fun _ => Has hard c d) fun _ => True := by
  refine (Triple.read (Q := fun _ => Has hard c d) fun _ hs => hs).bind fun s => ?_
  refine .ite (fun _ => .pure _ fun _ hs => hs) fun _ => ?_
  have hregister : Triple (SetTo c d) registerCallbacks (fun _ => SetTo c d) fun _ => True :=
    .modify fun _ hs => hs
  refine (onBoard_has hregister).bind fun _ => ?_
  refine (onBoard_has wizchipSwReset_setTo).bind fun _ => ?_
  refine (onBoard_has (wizchipInit_setTo _ _)).bind fun _ => ?_
  exact .ite (fun _ => .pure _ fun _ hs => hs) fun _ => modify_has (fun _ => rfl) fun _ => rfl

theorem hardReset_has : Triple (Has hard c d) hardReset
    (fun _ => Has hard (if hard then d else c) d) fun _ => True := by
  have hread : Triple (Has hard c d) Attempt.read
      (fun s t => Has hard c d t ∧ s.cbHardReset = hard) fun _ => True :=
    .read fun _ hs => ⟨hs, hs.2⟩
  have hpull : Triple (SetTo c d) pullReset (fun _ => SetTo d d) fun _ => True :=
    setTo_of_holding fun f g _ hg =>
      (holding_patient f g).elapse.forget.bind fun _ => .modify fun s hs => by
        rw [SetTo, Chip.reset, hs.2]
        exact ⟨hg, hg⟩
  have hend {c : Settings} : Triple (Has hard c d)
      (.modify fun s => { s with initialized := false })
      (fun _ => Has hard c d) fun _ => True := modify_has (fun _ => rfl) fun _ => rfl
  refine Triple.bind (hread.bind fun s => .assume fun hs => ?_) fun _ => hend
  rw [hs]
  cases hard with
  | false => exact .pure _ fun _ hs => hs
  | true => exact onBoard_has hpull

/-- One operation does to the addresses what it means, and stores what it is to store. -/
theorem perform_has (op : Op) : Triple (Has hard c d) (perform op)
    (fun out s => Has hard (Settings.step hard d c op) d s ∧ out = c.answer op) fun _ => True := by
  cases op with
  | init => exact init_has.bind fun _ => .pure _ fun _ hs => ⟨hs, rfl⟩
  | softReset =>
    exact (onBoard_has wizchipSwReset_setTo).bind fun _ => .pure _ fun _ hs => ⟨hs, rfl⟩
  | hardReset => exact hardReset_has.bind fun _ => .pure _ fun _ hs => ⟨hs, rfl⟩
  | setMAC mac => exact (setMAC_has mac).bind fun _ => .pure _ fun _ hs => ⟨hs, rfl⟩
  | setIP ip => exact (setIP_has ip).bind fun _ => .pure _ fun _ hs => ⟨hs, rfl⟩
  | setSubnet subnet => exact (setSubnet_has subnet).bind fun _ => .pure _ fun _ hs => ⟨hs, rfl⟩
  | setGateway gateway => exact (setGateway_has gateway).bind fun _ => .pure _ fun _ hs => ⟨hs, rfl⟩
  | setNetworkConfig mac ip subnet gateway =>
    refine Triple.bind ?_ fun _ => .pure _ fun _ hs => ⟨hs, rfl⟩
    refine (setMAC_has mac).bind fun _ => (setIP_has ip).bind fun _ => ?_
    exact (setSubnet_has subnet).bind fun _ => setGateway_has gateway
  | getMAC =>
    refine (getOf_has Settings.mac fun _ => rfl).bind fun v => ?_
    exact .pure _ fun _ hs => ⟨hs.1, congrArg Vector.toList hs.2⟩
  | getIP =>
    refine (getOf_has Settings.ip fun _ => rfl).bind fun v => ?_
    exact .pure _ fun _ hs => ⟨hs.1, congrArg Vector.toList hs.2⟩
  | getSubnet =>
    refine (getOf_has Settings.subnet fun _ => rfl).bind fun v => ?_
    exact .pure _ fun _ hs => ⟨hs.1, congrArg Vector.toList hs.2⟩
  | getGateway =>
    refine (getOf_has Settings.gateway fun _ => rfl).bind fun v => ?_
    exact .pure _ fun _ hs => ⟨hs.1, congrArg Vector.toList hs.2⟩
  | socketCall sn call =>
    exact (onBoard_has call.perform_uses.setTo).bind fun _ => .pure _ fun _ hs => ⟨hs, rfl⟩

theorem performAll_has (ops : List Op) : Triple (Has hard c d) (performAll ops)
    (fun outs s => Has hard (run (Settings.step hard d) c ops) d s ∧
      outs = Settings.answers hard d c ops)
      fun _ => True := by
  induction ops generalizing c with
  | nil => exact .pure _ fun _ hs => ⟨hs, rfl⟩
  | cons op ops ih =>
    refine (perform_has op).bind fun out => .assume fun hout => ih.bind fun outs => ?_
    exact .pure _ fun _ hs => ⟨hs.1, by rw [hout, hs.2]; rfl⟩

/-- However the functions of the class are called, with any calls of the sockets in between and
whatever the chip does meanwhile: if all of them return, each address that is read is the one that
was set last, a soft reset changes none of them, and a hard reset leaves those that the chip starts
with. -/
theorem performAll_settings (ops : List Op) {s t : Interface} {outs : List (List UInt8)}
    (h : performAll ops s = (some outs, t)) :
    outs = Settings.answers s.cbHardReset s.defaults s.settings ops ∧
      t.settings = run (Settings.step s.cbHardReset s.defaults) s.settings ops := by
  obtain ⟨ht, houts⟩ := (performAll_has ops s ⟨⟨rfl, rfl⟩, rfl⟩).1 outs t h
  exact ⟨houts, ht.1.1⟩

theorem performAll_settings_setIP :
    let ops : List Op := [.init, .setIP #v[192, 168, 1, 20], .softReset, .getIP, .getMAC]
    let s : Interface := .constructed 400
    (performAll ops s).2.settings =
      run (Settings.step s.cbHardReset s.defaults) s.settings ops := by
  intro ops s
  have houts : (performAll ops s).1 = some [[], [], [], [192, 168, 1, 20], [0, 0, 0, 0, 0, 0]] := by
    decide +kernel
  have hend : performAll ops s =
      (some [[], [], [], [192, 168, 1, 20], [0, 0, 0, 0, 0, 0]], (performAll ops s).2) := by
    rw [← houts]
  exact (performAll_settings ops hend).2

end Interface

end SmartBell.Ethernet.W5500
