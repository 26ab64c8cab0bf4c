import SmartBell.Ethernet.Settings

/-!
# The memory of the sockets

`wizchip_init` gives the sockets of the driver their share of the buffers of the chip, if there is
enough of them; the chip has more sockets, and these keep what a reset gives to them. The size
registers are written nowhere else, so the shares stay as long as the chip is not reset.
-/
namespace SmartBell.Ethernet.W5500
open Common Attempt Socket

/-! ## The other functions of the class -/

/-- Common registers other than the mode are no business of the sockets. -/
theorem writeBytes_untouched {offset : UInt16} {vs : List UInt8}
    (hoffset : ∀ i < vs.length, offset + UInt16.ofNat i ≠ regMR) (n : Fin 8) :
    Moves (Untouched n) (board.writeBytes 0 offset vs) := by
  induction vs generalizing offset with
  | nil => exact .pure ()
  | cons v vs ih =>
    have hne : offset ≠ regMR := by simpa using hoffset 0 (by simp)
    have hwrite : Moves (Untouched n) (board.write 0 offset v) := by
      have hplain (c : Chip) : c.write 0 offset v =
          { c with common := Function.update c.common offset v } := by
        rw [Chip.write, if_pos rfl, if_neg fun h => hne h.1]
      refine (transfer_untouched n).bind fun _ s => ?_
      rw [modify_apply, hplain]
      exact ⟨⟨[], rfl⟩, rfl, rfl, rfl, rfl, rfl, rfl⟩
    refine hwrite.bind fun _ => ih fun i hi => ?_
    have hnext := hoffset (i + 1) (by simpa using hi)
    rwa [UInt16.add_assoc, ← UInt16.ofNat_one, ← UInt16.ofNat_add, Nat.add_comm 1]

theorem readBytes_untouched (block : UInt8) (offset : UInt16) (k : Nat) (n : Fin 8) :
    Moves (Untouched n) (board.readBytes block offset k) := by
  induction k generalizing offset with
  | zero => exact .pure _
  | succ k ih =>
    have hread : Moves (Untouched n) (board.read block offset) :=
      (transfer_untouched n).bind fun _ => .bind .read fun _ => .pure _
    exact hread.bind fun _ => (ih _).bind fun _ => .pure _

theorem getAddress_untouched (reg : UInt16) (k : Nat) (n : Fin 8) :
    Moves (Untouched n) (getAddress reg k) := by
  rw [getAddress, wizchipReadBuf_common]
  exact (readBytes_untouched _ _ _ n).bind fun _ => .pure _

theorem setAddress_untouched {reg : UInt16} {k : Nat}
    (hreg : ∀ i < k, reg + UInt16.ofNat i ≠ regMR) (v : Vector UInt8 k) (n : Fin 8) :
    Moves (Untouched n) (setAddress reg v) := by
  rw [setAddress, wizchipWriteBuf_common]
  refine writeBytes_untouched (fun i hi => hreg i ?_) n
  rw [List.length_take, Vector.length_toList] at hi
  omega

namespace Interface
variable {α : Type}

/-- As far as the sockets are concerned, only the chip has been at work. -/
structure Spares (s t : Interface) : Prop where
  untouched : ∀ n, Untouched n s.board t.board
  initialized : t.initialized = s.initialized

instance : IsPreorder Interface Spares where
  refl s := ⟨fun n => refl_of (Untouched n) s.board, rfl⟩
  trans _ _ _ hst htu := ⟨fun n => trans_of (Untouched n) (hst.untouched n) (htu.untouched n),
    htu.initialized.trans hst.initialized⟩

theorem onBoard_spares {x : Attempt Board α} (h : ∀ n, Moves (Untouched n) x) :
    Moves Spares (onBoard x) := fun s => ⟨fun n => h n s.board, rfl⟩

theorem modify_spares {f : Interface → Interface} (hboard : ∀ s, (f s).board = s.board)
    (hinit : ∀ s, (f s).initialized = s.initialized) : Moves Spares (.modify f) := fun s =>
  ⟨fun n => by
    rw [modify_apply, hboard]
    exact refl_of (Untouched n) s.board, hinit s⟩

theorem fetchNetInfo_spares : Moves Spares fetchNetInfo := by
  have hfetch : Moves Spares wizchipGetnetinfo := by
    refine .bind (onBoard_spares (getAddress_untouched regSHAR 6)) fun _ => ?_
    refine .bind (onBoard_spares (getAddress_untouched regGAR 4)) fun _ => ?_
    refine .bind (onBoard_spares (getAddress_untouched regSUBR 4)) fun _ => ?_
    refine .bind (onBoard_spares (getAddress_untouched regSIPR 4)) fun _ => ?_
    exact .bind .read fun _ => .pure _
  exact hfetch.bind fun _ => .bind (modify_spares (fun _ => rfl) fun _ => rfl) fun _ => .pure _

/-- Setting an address disturbs no socket. -/
theorem updateNetInfo_spares (f : NetInfo → NetInfo) : Moves Spares (updateNetInfo f) := by
  have hset (info : NetInfo) : Moves Spares (wizchipSetnetinfo info) := by
    refine .bind (onBoard_spares (setAddress_untouched (by decide) info.mac)) fun _ => ?_
    refine .bind (onBoard_spares (setAddress_untouched (by decide) info.gw)) fun _ => ?_
    refine .bind (onBoard_spares (setAddress_untouched (by decide) info.sn)) fun _ => ?_
    refine .bind (onBoard_spares (setAddress_untouched (by decide) info.ip)) fun _ => ?_
    exact modify_spares (fun _ => rfl) fun _ => rfl
  exact fetchNetInfo_spares.bind fun info =>
    .bind (modify_spares (fun _ => rfl) fun _ => rfl) fun _ => hset (f info)

end Interface

/-! ## The sizes -/

theorem Call.accesses_known {call : Call} : call.accesses ⊆ traffic ∪ opening := by
  intro a ha
  cases hopens : call.opens
  · exact .inl (call.accesses_subset hopens ha)
  · cases call with
    | socket => exact ha.imp (fun ha => .inl (.inl (.inl ha))) id
    | _ => exact absurd hopens Bool.noConfusion

/-- So many kilobytes for sending, and so many for receiving. -/
def Share (tx rx : UInt8) (x : Socket) : Prop :=
  x.bytes snTXBUFSIZE = tx ∧ x.bytes snRXBUFSIZE = rx

theorem byte_stable {reg : UInt16} (hreg : reg ∉ [snTXWR, snTXWR + 1, snRXRD, snRXRD + 1])
    (v : UInt8) : Stable fun x => x.bytes reg = v := fun x a hx => (x.act_bytes a hreg).trans hx

theorem share_stable (tx rx : UInt8) : Stable (Share tx rx) :=
  (byte_stable (by decide) tx).and (byte_stable (by decide) rx)

theorem write_size {reg : UInt16} (hreg : reg ∈ [snTXBUFSIZE, snRXBUFSIZE]) (x : Socket)
    (v : UInt8) :
    (x.write reg v).bytes = Function.update x.bytes reg v := by
  simp only [List.mem_cons, List.not_mem_nil, or_false] at hreg
  rcases hreg with rfl | rfl <;> rfl

theorem slotOf_eq_iff {sn : UInt8} (hsn : sn.toNat < 8) (n : Fin 8) :
    slotOf sn = n ↔ sn.toNat = n := by
  have hval : (slotOf sn : Nat) = sn.toNat := Nat.mod_eq_of_lt hsn
  rw [Fin.ext_iff, hval]

theorem toNat_succ {sn : UInt8} (hsn : sn.toNat < 8) : (sn + 1).toNat = sn.toNat + 1 := by
  rw [UInt8.toNat_add, UInt8.toNat_one]
  omega

/-- No call writes the size registers. -/
theorem Share.host {tx rx sn : UInt8} {x : Socket} (h : Share tx rx x) (hshift : shiftOf sn = 0)
    {a : Access} (ha : a ∈ traffic ∪ opening) : Share tx rx (a.apply sn x) := by
  have hwrite {reg : UInt16} (v : UInt8) (hreg : reg ∉ [snTXBUFSIZE, snRXBUFSIZE]) :
      Share tx rx (x.write reg v) := by
    simp only [List.mem_cons, List.not_mem_nil, or_false, not_or] at hreg
    exact ⟨(write_bytes_of_ne (Ne.symm hreg.1) x v).trans h.1,
      (write_bytes_of_ne (Ne.symm hreg.2) x v).trans h.2⟩
  rcases ha with ha | ha
  · rcases traffic_cases sn ha x with ⟨offset, v, heq⟩ | ⟨reg, v, heq, hreg, -⟩
    · rw [heq]
      exact h
    · rw [heq, hshift, UInt16.add_zero]
      exact hwrite v fun hmem => hreg (List.mem_cons_of_mem _ hmem)
  · cases a with
    | buffer offset v => exact absurd ha id
    | register reg v =>
      rw [Access.apply, hshift, UInt16.add_zero]
      rcases ha with rfl | ⟨rfl, -⟩
      · exact hwrite v (by decide)
      · exact hwrite v (by decide)

section Sizes
variable {reg : UInt16} {n : Fin 8} {I : Socket → Prop}

/-- A size register of one socket is set. -/
theorem setByte_sets (hreg : reg ∈ [snTXBUFSIZE, snRXBUFSIZE]) (hI : Stable I)
    (hkeep : ∀ x v, I x → I (x.write reg v)) {sn : UInt8} (hsn : sn.toNat < 8) (size d : UInt8) :
    Triple (On n fun x => I x ∧ x.bytes reg = d) (setByte reg sn size)
      (fun _ => On n fun x => I x ∧ x.bytes reg = if sn.toNat = n then size else d)
      fun _ => True := by
  have hstable : Stable fun x => I x ∧ x.bytes reg = d := by
    refine hI.and (byte_stable ?_ d)
    simp only [List.mem_cons, List.not_mem_nil, or_false] at hreg
    rcases hreg with rfl | rfl <;> decide
  by_cases hslot : sn.toNat = n
  · rw [setByte_eq, (slotOf_eq_iff hsn n).mpr hslot, shiftOf_eq_zero hsn, UInt16.add_zero]
    refine (hstable.poke (n := n) fun x hx => ?_).forget
    rw [if_pos hslot, write_size hreg, Function.update_self]
    exact ⟨hkeep x size hx.1, rfl⟩
  · rw [if_neg hslot]
    exact (hstable.elsewhere (setByte_uses (Set.mem_univ _))
      fun h => hslot ((slotOf_eq_iff hsn n).mp h)).forget

/-- Each socket that there is a size for gets it, and the others keep theirs. -/
theorem setSizes_sets (hreg : reg ∈ [snTXBUFSIZE, snRXBUFSIZE]) (hI : Stable I)
    (hkeep : ∀ x v, I x → I (x.write reg v)) {sizes : List UInt8} {sn : UInt8}
    (hlength : sn.toNat + sizes.length ≤ 8) (d : UInt8) :
    Triple (On n fun x => I x ∧ x.bytes reg = d) (setSizes reg sn sizes)
      (fun _ => On n fun x => I x ∧
        x.bytes reg = if n < sn.toNat then d else sizes[n - sn.toNat]?.getD d)
      fun _ => True := by
  induction sizes generalizing sn d with
  | nil => exact .pure _ fun _ hs => ⟨hs.1, by simpa using hs.2⟩
  | cons size sizes ih =>
    rw [List.length_cons] at hlength
    have hsn : sn.toNat < 8 := by omega
    have hnext := toNat_succ hsn
    refine (setByte_sets hreg hI hkeep hsn size d).bind fun _ => ?_
    -- What is left to do for the sockets from the next one on.
    have hsize : (if (n : Nat) < (sn + 1).toNat then if sn.toNat = n then size else d
        else sizes[(n : Nat) - (sn + 1).toNat]?.getD (if sn.toNat = n then size else d)) =
        if (n : Nat) < sn.toNat then d else (size :: sizes)[(n : Nat) - sn.toNat]?.getD d := by
      rcases Nat.lt_trichotomy n sn.toNat with hlt | heq | hgt
      · rw [if_pos (by omega), if_neg (by omega), if_pos hlt]
      · rw [if_pos (by omega), if_pos heq.symm, if_neg (by omega), heq, Nat.sub_self]
        rfl
      · have hindex : (n : Nat) - sn.toNat = n - (sn + 1).toNat + 1 := by omega
        rw [if_neg (by omega), if_neg (by omega), if_neg (by omega), hindex,
          List.getElem?_cons_succ]
    rw [← hsize]
    exact ih (by omega) _

end Sizes

/-! ## Resets -/

/-- A reset would make the same of the sockets. -/
def SameFresh (s t : Board) : Prop := t.chip.fresh = s.chip.fresh

instance : IsPreorder Board SameFresh where
  refl _ := rfl
  trans _ _ _ hst htu := htu.trans hst

section Fresh
variable {α : Type} {x : Attempt Board α} {f : Socket}

theorem fresh_of_untouched (h : Moves (Untouched 0) x) : Moves SameFresh x := fun s => (h s).fresh

theorem Uses.fresh {sn : UInt8} {A : Set Access} (hx : Uses sn A x) : Moves SameFresh x := by
  refine hx.moves SameFresh ⟨inferInstance, ?_, fun _ _ _ => rfl, fun s t h => ?_⟩
  · exact fresh_of_untouched (elapse_untouched 0)
  · rw [SameFresh, h.chip]

theorem setMR_fresh : Moves SameFresh (setMR mrRst) := by
  rw [setMR_eq]
  exact (fresh_of_untouched (transfer_untouched 0)).bind fun _ _ => rfl

theorem getMR_untouched (n : Fin 8) : Moves (Untouched n) getMR := by
  rw [getMR, wizchipRead_addrSel]
  exact (transfer_untouched n).bind fun _ => .bind .read fun _ => .pure _

theorem setSizes_fresh (reg : UInt16) (sn : UInt8) (sizes : List UInt8) :
    Moves SameFresh (setSizes reg sn sizes) := by
  induction sizes generalizing sn with
  | nil => exact .pure _
  | cons size sizes ih =>
    exact (setByte_uses (A := Set.univ) (Set.mem_univ _)).fresh.bind fun _ => ih (sn + 1)

theorem initSizes_fresh (reg : UInt16) (sizes : Option (Vector UInt8 wizchipSockNum)) :
    Moves SameFresh (initSizes reg sizes) := by
  cases sizes with
  | none => exact .pure _
  | some sizes =>
    exact .ite (fun _ => .pure _) fun _ => (setSizes_fresh _ _ _).bind fun _ => .pure _

theorem wizchipSwReset_fresh : Moves SameFresh wizchipSwReset := by
  have hget (reg : UInt16) (k : Nat) : Moves SameFresh (getAddress reg k) :=
    fresh_of_untouched (getAddress_untouched reg k 0)
  have hset {reg : UInt16} {k : Nat} (hreg : ∀ i < k, reg + UInt16.ofNat i ≠ regMR)
      (v : Vector UInt8 k) : Moves SameFresh (setAddress reg v) :=
    fresh_of_untouched (setAddress_untouched hreg v 0)
  refine (hget regSHAR 6).bind fun mac => (hget regGAR 4).bind fun gw => ?_
  refine (hget regSUBR 4).bind fun sn => (hget regSIPR 4).bind fun sip => ?_
  refine setMR_fresh.bind fun _ => (fresh_of_untouched (getMR_untouched 0)).bind fun _ => ?_
  refine (hset (by decide) mac).bind fun _ => (hset (by decide) gw).bind fun _ => ?_
  exact (hset (by decide) sn).bind fun _ => hset (by decide) sip

theorem wizchipInit_fresh (txsize rxsize : Option (Vector UInt8 wizchipSockNum)) :
    Moves SameFresh (wizchipInit txsize rxsize) := by
  refine wizchipSwReset_fresh.bind fun _ => (initSizes_fresh _ _).bind fun _ => ?_
  refine .ite (fun _ => .pure _) fun _ => (initSizes_fresh _ _).bind fun _ => ?_
  exact .ite (fun _ => .pure _) fun _ => .pure _

/-- Every socket has the sizes of this one. -/
def Unallotted (f : Socket) (s : Board) : Prop :=
  ∀ n : Fin 8, On n (Share (f.bytes snTXBUFSIZE) (f.bytes snRXBUFSIZE)) s

/-- The reset takes the sizes away, and writing the addresses again gives none. -/
theorem wizchipSwReset_unallots : Triple (fun s => s.chip.fresh = f) wizchipSwReset
    (fun _ => Unallotted f) fun _ => True := by
  have hfresh {β : Type} {x : Attempt Board β} (hx : Moves SameFresh x) :
      Triple (fun s => s.chip.fresh = f) x (fun _ s => s.chip.fresh = f) fun _ => True :=
    (hx.triple fun _ _ hs hst => hst.trans hs).forget
  have hget (reg : UInt16) (k : Nat) : Triple (fun s => s.chip.fresh = f) (getAddress reg k)
      (fun _ s => s.chip.fresh = f) fun _ => True :=
    hfresh (fresh_of_untouched (getAddress_untouched reg k 0))
  have hkept {β : Type} {x : Attempt Board β} (hx : ∀ n, Moves (Untouched n) x) :
      Triple (Unallotted f) x (fun _ => Unallotted f) fun _ => True :=
    (Triple.forall fun n => (hx n).triple fun _ _ hs hst => (share_stable _ _).on hst (hs n)).mono
      (fun _ hs => hs) (fun _ _ hs => hs) fun _ _ => trivial
  have hset {reg : UInt16} {k : Nat} (hreg : ∀ i < k, reg + UInt16.ofNat i ≠ regMR)
      (v : Vector UInt8 k) :
      Triple (Unallotted f) (setAddress reg v) (fun _ => Unallotted f) fun _ => True :=
    hkept (setAddress_untouched hreg v)
  have hreset : Triple (fun s => s.chip.fresh = f) (setMR mrRst) (fun _ => Unallotted f)
      fun _ => True := by
    rw [setMR_eq]
    refine (hfresh (fresh_of_untouched (transfer_untouched 0))).bind fun _ => ?_
    refine .modify fun s hs n => ?_
    rw [← hs]
    exact ⟨rfl, rfl⟩
  refine (hget regSHAR 6).bind fun mac => (hget regGAR 4).bind fun gw => ?_
  refine (hget regSUBR 4).bind fun sn => (hget regSIPR 4).bind fun sip => ?_
  refine hreset.bind fun _ => (hkept getMR_untouched).bind fun _ => ?_
  refine (hset (by decide) mac).bind fun _ => (hset (by decide) gw).bind fun _ => ?_
  exact (hset (by decide) sn).bind fun _ => hset (by decide) sip

end Fresh

/-! ## `wizchip_init` -/

/-- The largest entry that cannot make the signed sum of the check wrap. -/
def largestSize : UInt8 := 111

theorem toInt8_toInt {size : UInt8} (h : size ≤ largestSize) : size.toInt8.toInt = size.toNat :=
  forall_byte (P := fun k => k ≤ largestSize → k.toInt8.toInt = k.toNat) (by decide +kernel) size h

/-- The check looks at the sum before each entry is added to it, which is at most 16. -/
theorem checkSizes_iff {sizes : List UInt8} (hsizes : ∀ size ∈ sizes, size ≤ largestSize)
    {tmp : Int8} (hlow : 0 ≤ tmp.toInt) (hhigh : tmp.toInt ≤ 16) :
    checkSizes tmp sizes ≠ none ↔ tmp.toInt + (sizes.map UInt8.toNat).sum ≤ 16 := by
  induction sizes generalizing tmp with
  | nil => simpa [checkSizes] using hhigh
  | cons size sizes ih =>
    have hsize := hsizes size List.mem_cons_self
    have hvalue : size.toNat ≤ 111 := UInt8.le_iff_toNat_le.mp hsize
    have hsum : (tmp + size.toInt8).toInt = tmp.toInt + size.toNat := by
      rw [Int8.toInt_add, toInt8_toInt hsize]
      exact Int.bmod_eq_of_le (by omega) (by omega)
    have hgreater : tmp + size.toInt8 > 16 ↔ 16 < tmp.toInt + size.toNat := by
      rw [gt_iff_lt, Int8.lt_iff_toInt_lt, hsum]
      rfl
    rw [List.map_cons, List.sum_cons, Nat.cast_add, checkSizes]
    by_cases hmore : 16 < tmp.toInt + size.toNat
    · rw [if_pos (hgreater.mpr hmore)]
      exact iff_of_false (fun h => h rfl) (by omega)
    · rw [if_neg fun h => hmore (hgreater.mp h),
        ih (fun size hmem => hsizes size (List.mem_cons_of_mem _ hmem)) (by omega) (by omega), hsum,
        Int.add_assoc]

/-- The sizes pass the check. -/
def Fits (sizes : Vector UInt8 wizchipSockNum) : Prop := checkSizes 0 sizes.toList ≠ none

instance : DecidablePred Fits := fun _ => inferInstanceAs (Decidable (_ ≠ _))

def kilobytes (sizes : Vector UInt8 wizchipSockNum) : Nat := (sizes.toList.map UInt8.toNat).sum

theorem fits_iff {sizes : Vector UInt8 wizchipSockNum}
    (hsizes : ∀ size ∈ sizes.toList, size ≤ largestSize) : Fits sizes ↔ kilobytes sizes ≤ 16 := by
  rw [Fits, checkSizes_iff hsizes (by decide) (by decide), kilobytes]
  simp only [Int8.toInt_zero, Int.zero_add]
  omega

/-- The size of a socket that there is an entry for, or else that of a socket after a reset. -/
def sizeFrom (sizes : Vector UInt8 wizchipSockNum) (reg : UInt16) (fresh : Socket) (n : Fin 8) :
    UInt8 := sizes[(n : Nat)]?.getD (fresh.bytes reg)

theorem sizeFrom_of_le {n : Fin 8} (h : wizchipSockNum ≤ n) (sizes : Vector UInt8 wizchipSockNum)
    (reg : UInt16) (fresh : Socket) : sizeFrom sizes reg fresh n = fresh.bytes reg := by
  rw [sizeFrom, Vector.getElem?_eq_none h, Option.getD_none]

/-- The sockets of the driver have the sizes that were asked for, and the other ones of the chip
those of a socket after a reset. -/
def Granted (txsize rxsize : Vector UInt8 wizchipSockNum) (fresh : Socket) (s : Board) : Prop :=
  ∀ n : Fin 8, On n (Share (sizeFrom txsize snTXBUFSIZE fresh n)
    (sizeFrom rxsize snRXBUFSIZE fresh n)) s

section Init
variable {reg : UInt16} {sizes txsize rxsize : Vector UInt8 wizchipSockNum} {f : Socket}

theorem initSizes_of_fits (h : Fits sizes) :
    initSizes reg (some sizes) = setSizes reg 0 sizes.toList >>= fun _ => pure true := by
  rw [initSizes]
  simp only [if_neg h]

theorem initSizes_of_not_fits (h : ¬Fits sizes) : initSizes reg (some sizes) = pure false := by
  rw [initSizes]
  simp only [if_pos (not_not.mp h)]

/-- One half sets its own registers, and leaves those of the other half as they are. -/
theorem initSizes_sets (hreg : reg ∈ [snTXBUFSIZE, snRXBUFSIZE]) (h : Fits sizes)
    {P : Fin 8 → Socket → Prop} (hP : ∀ n, Stable (P n))
    (hkeep : ∀ n x v, P n x → P n (x.write reg v)) :
    Triple (fun s => ∀ n, On n (fun x => P n x ∧ x.bytes reg = f.bytes reg) s)
      (initSizes reg (some sizes))
      (fun ok s => (∀ n, On n (fun x => P n x ∧ x.bytes reg = sizeFrom sizes reg f n) s) ∧
        ok = true)
      fun _ => True := by
  have hlength : (0 : UInt8).toNat + sizes.toList.length ≤ 8 := by
    rw [UInt8.toNat_zero, Vector.length_toList]
    decide
  have hcell (n : Fin 8) : (if (n : Nat) < (0 : UInt8).toNat then f.bytes reg
      else sizes.toList[(n : Nat) - (0 : UInt8).toNat]?.getD (f.bytes reg)) =
      sizeFrom sizes reg f n := by
    rw [UInt8.toNat_zero, if_neg (Nat.not_lt_zero _), Nat.sub_zero, Vector.getElem?_toList]
    rfl
  have hset (n : Fin 8) := setSizes_sets (n := n) hreg (hP n) (hkeep n) hlength (f.bytes reg)
  have hall : Triple (fun s => ∀ n, On n (fun x => P n x ∧ x.bytes reg = f.bytes reg) s)
      (setSizes reg 0 sizes.toList)
      (fun _ s => ∀ n, On n (fun x => P n x ∧ x.bytes reg = sizeFrom sizes reg f n) s)
      fun _ => True :=
    (Triple.forall fun n => (hset n).mono (fun s hs => hs n) (fun _ _ hs => hcell n ▸ hs)
      fun _ hs => hs).forget
  rw [initSizes_of_fits h]
  exact hall.bind fun _ => .pure _ fun _ hs => ⟨hs, rfl⟩

theorem wizchipInit_grants : Triple (fun s => s.chip.fresh = f)
    (wizchipInit (some txsize) (some rxsize))
    (fun r s => r = 0 ∧ (Fits txsize ∧ Fits rxsize) ∧ Granted txsize rxsize f s ∨
      r = -1 ∧ ¬(Fits txsize ∧ Fits rxsize)) fun _ => True := by
  refine wizchipSwReset_unallots.bind fun _ => ?_
  by_cases htx : Fits txsize
  swap
  · rw [initSizes_of_not_fits htx]
    exact .pure _ fun _ _ => .inr ⟨rfl, fun h => htx h.1⟩
  have hkept (n : Fin 8) (x : Socket) (v : UInt8) (hx : x.bytes snRXBUFSIZE = f.bytes snRXBUFSIZE) :
      (x.write snTXBUFSIZE v).bytes snRXBUFSIZE = f.bytes snRXBUFSIZE :=
    (write_bytes_of_ne (by decide) x v).trans hx
  refine ((initSizes_sets (by simp) htx (fun _ => byte_stable (by decide) _) hkept).mono
    (fun _ hs n => (hs n).symm) (fun _ _ hs => hs) fun _ hs => hs).bind fun txOk =>
    .assume fun htxOk => ?_
  rw [htxOk]
  by_cases hrx : Fits rxsize
  swap
  · rw [initSizes_of_not_fits hrx]
    exact .pure _ fun _ _ => .inr ⟨rfl, fun h => hrx h.2⟩
  have hkept' (n : Fin 8) (x : Socket) (v : UInt8)
      (hx : x.bytes snTXBUFSIZE = sizeFrom txsize snTXBUFSIZE f n) :
      (x.write snRXBUFSIZE v).bytes snTXBUFSIZE = sizeFrom txsize snTXBUFSIZE f n :=
    (write_bytes_of_ne (by decide) x v).trans hx
  refine ((initSizes_sets (by simp) hrx (fun _ => byte_stable (by decide) _) hkept').mono
    (fun _ hs n => (hs n).symm) (fun _ _ hs => hs) fun _ hs => hs).bind fun rxOk =>
    .assume fun hrxOk => ?_
  rw [hrxOk]
  exact .pure _ fun s hs => .inl ⟨rfl, ⟨htx, hrx⟩, hs⟩

/-- With entries that cannot make its check wrap, `wizchip_init` grants what the chip has, 16
kilobytes for each direction, and refuses what is more. -/
theorem wizchip_init_exact (htx : ∀ size ∈ txsize.toList, size ≤ largestSize)
    (hrx : ∀ size ∈ rxsize.toList, size ≤ largestSize) {s t : Board} {result : Int}
    (h : wizchipInit (some txsize) (some rxsize) s = (some result, t)) :
    result = 0 ∧ (kilobytes txsize ≤ 16 ∧ kilobytes rxsize ≤ 16) ∧
        Granted txsize rxsize s.chip.fresh t ∨
      result = -1 ∧ ¬(kilobytes txsize ≤ 16 ∧ kilobytes rxsize ≤ 16) := by
  have hgrants := (wizchipInit_grants s rfl).1 result t h
  rwa [fits_iff htx, fits_iff hrx] at hgrants

/-- A board whose callbacks are registered. -/
def readyBoard : Board := { Board.powerUp (List.replicate 60 []) with registered := true }

theorem wizchip_init_exact_ready : Granted #v[4, 1] #v[1, 1] Chip.resetSocket
    (wizchipInit (some #v[4, 1]) (some #v[1, 1]) readyBoard).2 := by
  have htx : ∀ size ∈ (#v[4, 1] : Vector UInt8 2).toList, size ≤ largestSize := by decide +kernel
  have hrx : ∀ size ∈ (#v[1, 1] : Vector UInt8 2).toList, size ≤ largestSize := by decide +kernel
  have hresult : (wizchipInit (some #v[4, 1]) (some #v[1, 1]) readyBoard).1 = some 0 := by
    decide +kernel
  generalize hend : (wizchipInit (some #v[4, 1]) (some #v[1, 1]) readyBoard).2 = t
  rcases wizchip_init_exact htx hrx (Prod.ext hresult hend) with hgranted | hrefused
  · exact hgranted.2.2
  · exact absurd hrefused.1 (by decide)

/-- An entry that is too large wraps the sum, and 256 kilobytes pass. -/
example : checkSizes 0 [200, 56] ≠ none := by decide +kernel

end Init

namespace Interface
variable {f : Socket}

/-- The two tables that are made of the one. -/
def txsizes : Vector UInt8 wizchipSockNum := vectorOf wizchipSockNum memsize

def rxsizes : Vector UInt8 wizchipSockNum := vectorOf wizchipSockNum (memsize.drop wizchipSockNum)

theorem txsizes_zero : sizeFrom txsizes snTXBUFSIZE f 0 = 4 := rfl

theorem txsizes_one : sizeFrom txsizes snTXBUFSIZE f 1 = 1 := rfl

theorem rxsizes_zero : sizeFrom rxsizes snRXBUFSIZE f 0 = 1 := rfl

theorem rxsizes_one : sizeFrom rxsizes snRXBUFSIZE f 1 = 1 := rfl

theorem ctlwizchipInit_allots : Triple (fun s => s.chip.fresh = f) (ctlwizchipInit (some memsize))
    (fun _ => Granted txsizes rxsizes f) fun _ => True := by
  have hfits : Fits txsizes ∧ Fits rxsizes := by decide +kernel
  refine wizchipInit_grants.mono (fun _ hs => hs) (fun r s hs => ?_) fun _ hs => hs
  exact (hs.resolve_right fun hrefused => hrefused.2 hfits).2.2

/-- A reset makes this of the sockets, and the class is initialized only while they have the sizes
of `init`. -/
structure Consistent (f : Socket) (s : Interface) : Prop where
  fresh : s.board.chip.fresh = f
  granted : s.initialized = true → Granted txsizes rxsizes f s.board

/-- The class is not initialized, and a reset makes this of the sockets. -/
structure Waiting (f : Socket) (s : Interface) : Prop where
  fresh : s.board.chip.fresh = f
  initialized : s.initialized = false

theorem Waiting.consistent {s : Interface} (h : Waiting f s) : Consistent f s :=
  ⟨h.fresh, fun hinit => absurd hinit (by simp [h.initialized])⟩

theorem onBoard_waiting {α : Type} {x : Attempt Board α} {Q : α → Board → Prop}
    (hfresh : Moves SameFresh x) (h : Triple (fun s => s.chip.fresh = f) x Q fun _ => True) :
    Triple (Waiting f) (onBoard x) (fun a s => Q a s.board ∧ Waiting f s) (Waiting f) := by
  have hboth := h.and (hfresh.triple fun _ _ (hs : _ = f) hst => hst.trans hs)
  refine (onBoard_triple (F := fun s => s.initialized = false) (fun _ _ hs => hs) hboth).mono
    (fun _ hs => ⟨⟨hs.fresh, hs.fresh⟩, hs.initialized⟩) (fun _ _ hs => ?_) fun _ hs => ?_
  · exact ⟨hs.1.1, hs.1.2, hs.2⟩
  · exact ⟨hs.1.2, hs.2⟩

theorem init_consistent : Triple (Consistent f) init (fun _ => Consistent f) (Consistent f) := by
  refine (Triple.read (Q := fun a s => Consistent f s ∧ a = s) fun _ hs => ⟨hs, rfl⟩).bind
    fun a => .ite (fun _ => .pure _ fun _ hs => hs.1) fun hnot => ?_
  have hwaiting {β : Type} {x : Attempt Board β} (hfresh : Moves SameFresh x) :
      Triple (Waiting f) (onBoard x) (fun _ => Waiting f) (Waiting f) :=
    (onBoard_waiting hfresh Triple.trivial).mono (fun _ hs => hs) (fun _ _ hs => hs.2)
      fun _ hs => hs
  have hregister : Triple (Waiting f) (onBoard registerCallbacks) (fun _ => Waiting f)
      (Waiting f) := hwaiting fun _ => rfl
  have hsizes := onBoard_waiting (f := f) (x := ctlwizchipInit (some memsize))
    (wizchipInit_fresh _ _) ctlwizchipInit_allots
  refine (hregister.bind fun _ => (hwaiting wizchipSwReset_fresh).bind fun _ => hsizes.bind
    fun result => ?_).mono (fun s hs => ?_) (fun _ _ hs => hs) fun _ hs => hs.consistent
  · refine .ite (fun _ => .pure _ fun _ hs => hs.2.consistent) fun _ => ?_
    exact .modify fun s hs => ⟨hs.2.fresh, fun _ => hs.1⟩
  · exact ⟨hs.1.fresh, by simpa [hs.2] using hnot⟩

/-- All but a soft reset, which takes the sizes away. -/
def Op.Regular (op : Op) : Prop := op ≠ .softReset

theorem Spares.consistent {s t : Interface} (h : Spares s t) (hs : Consistent f s) :
    Consistent f t where
  fresh := (h.untouched 0).fresh.trans hs.fresh
  granted hinit n := (share_stable _ _).on (h.untouched n) (hs.granted (h.initialized ▸ hinit) n)

theorem onBoard_consistent {α : Type} {x : Attempt Board α} {Q : Board → Prop}
    (hfresh : Moves SameFresh x)
    (h : Triple (Granted txsizes rxsizes f) x (fun _ => Q) (Granted txsizes rxsizes f)) :
    Triple (Consistent f) (onBoard x)
      (fun _ s => s.board.chip.fresh = f ∧ (s.initialized = true → Q s.board)) (Consistent f) := by
  intro s hs
  cases hinit : s.initialized with
  | false =>
    have hwaiting := onBoard_waiting hfresh Triple.trivial s ⟨hs.fresh, hinit⟩
    refine ⟨fun a t he => ?_, fun t he => (hwaiting.2 t he).consistent⟩
    obtain ⟨-, hwait⟩ := hwaiting.1 a t he
    exact ⟨hwait.fresh, fun htrue => absurd htrue (by simp [hwait.initialized])⟩
  | true =>
    have hboth := h.and (hfresh.triple fun _ _ (hs : _ = f) hst => hst.trans hs)
    have hdone := onBoard_triple (F := fun _ => True) (fun _ _ hs => hs) hboth s
      ⟨⟨hs.granted hinit, hs.fresh⟩, trivial⟩
    refine ⟨fun a t he => ?_, fun t he => ?_⟩
    · exact ⟨(hdone.1 a t he).1.2, fun _ => (hdone.1 a t he).1.1⟩
    · exact ⟨(hdone.2 t he).1.2, fun _ => (hdone.2 t he).1.1⟩

theorem call_granted (sn : UInt8) (call : Call) : Triple (Granted txsizes rxsizes f)
    (call.perform sn) (fun _ => Granted txsizes rxsizes f) (Granted txsizes rxsizes f) := by
  refine Triple.forall fun n => ?_
  refine Triple.mono (P := On n (Share (sizeFrom txsizes snTXBUFSIZE f n)
    (sizeFrom rxsizes snRXBUFSIZE f n))) ?_ (fun s hs => hs n) (fun _ _ hs => hs) fun _ hs => hs
  rcases Request.cases ⟨sn, call⟩ n with hrefused | hother | ⟨hslot, hshift⟩
  · rw [hrefused]
    exact .pure _ fun _ hs => hs
  · exact (share_stable _ _).elsewhere call.perform_uses hother
  · rw [← hslot]
    exact (share_stable _ _).tolerates call.perform_uses fun a ha x hx =>
      hx.host hshift (call.accesses_known ha)

theorem hardReset_consistent :
    Triple (Consistent f) hardReset (fun _ => Consistent f) (Consistent f) := by
  have hgranted : Patient (Granted txsizes rxsizes f) := fun s t hs htick n =>
    (share_stable _ _).patient n s t (hs n) htick
  have hpull : Triple (Granted txsizes rxsizes f) pullReset (fun _ _ => True)
      (Granted txsizes rxsizes f) :=
    hgranted.elapse.bind fun _ => .modify fun _ _ => trivial
  have hfresh : Moves SameFresh pullReset :=
    (fresh_of_untouched (elapse_untouched 0)).bind fun _ _ => rfl
  have hcall : Triple (Consistent f) callHardReset (fun _ s => s.board.chip.fresh = f)
      (Consistent f) := by
    refine (Triple.read (Q := fun _ => Consistent f) fun _ hs => hs).bind fun a => ?_
    refine .ite (fun _ => ?_) fun _ => .pure _ fun _ hs => hs.fresh
    exact (onBoard_consistent hfresh hpull).mono (fun _ hs => hs) (fun _ _ hs => hs.1)
      fun _ hs => hs
  exact hcall.bind fun _ => .modify fun _ hs => ⟨hs, fun hinit => absurd hinit Bool.noConfusion⟩

theorem perform_consistent {op : Op} (hop : op.Regular) :
    Triple (Consistent f) (perform op) (fun _ => Consistent f) (Consistent f) := by
  have hspared {α : Type} {x : Attempt Interface α} (hx : Moves Spares x) :
      Triple (Consistent f) x (fun _ => Consistent f) (Consistent f) :=
    hx.triple fun _ _ hs hst => hst.consistent hs
  have hdone {α : Type} {x : Attempt Interface α} {g : α → List UInt8}
      (hx : Triple (Consistent f) x (fun _ => Consistent f) (Consistent f)) :
      Triple (Consistent f) (x >>= fun a => pure (g a)) (fun _ => Consistent f) (Consistent f) :=
    hx.bind fun _ => .pure _ fun _ hs => hs
  cases op with
  | init => exact hdone init_consistent
  | softReset => exact absurd rfl hop
  | hardReset => exact hdone hardReset_consistent
  | setMAC mac => exact hdone (hspared (updateNetInfo_spares _))
  | setIP ip => exact hdone (hspared (updateNetInfo_spares _))
  | setSubnet subnet => exact hdone (hspared (updateNetInfo_spares _))
  | setGateway gateway => exact hdone (hspared (updateNetInfo_spares _))
  | setNetworkConfig mac ip subnet gateway =>
    exact hdone (hspared ((updateNetInfo_spares _).bind fun _ => (updateNetInfo_spares _).bind
      fun _ => (updateNetInfo_spares _).bind fun _ => updateNetInfo_spares _))
  | getMAC => exact hdone (hspared (fetchNetInfo_spares.bind fun _ => .pure _))
  | getIP => exact hdone (hspared (fetchNetInfo_spares.bind fun _ => .pure _))
  | getSubnet => exact hdone (hspared (fetchNetInfo_spares.bind fun _ => .pure _))
  | getGateway => exact hdone (hspared (fetchNetInfo_spares.bind fun _ => .pure _))
  | socketCall sn call =>
    refine hdone ((onBoard_consistent call.perform_uses.fresh (call_granted sn call)).mono
      (fun _ hs => hs) (fun _ _ hs => ⟨hs.1, hs.2⟩) fun _ hs => hs)

theorem performAll_consistent {ops : List Op} (hops : ∀ op ∈ ops, op.Regular) :
    Triple (Consistent f) (performAll ops) (fun _ => Consistent f) (Consistent f) := by
  induction ops with
  | nil => exact .pure _ fun _ hs => hs
  | cons op ops ih =>
    refine (perform_consistent (hops op List.mem_cons_self)).bind fun _ => ?_
    exact (ih fun op hop => hops op (List.mem_cons_of_mem _ hop)).bind fun _ =>
      .pure _ fun _ hs => hs

/-- From before `init` on, whatever the class and the sockets are asked to do short of a soft reset,
and wherever the program comes to a stop: as long as the class is initialized, socket 0 has four
kilobytes for sending and socket 1 has one, both have one for receiving, and the sockets that the
driver does not use have what a reset gives to them. -/
theorem sizes_of_initialized {ops : List Op} (hops : ∀ op ∈ ops, op.Regular) {s t : Interface}
    {outs : Option (List (List UInt8))} (hs : s.initialized = false)
    (h : performAll ops s = (outs, t)) (ht : t.initialized = true) (n : Fin 8) :
    (t.board.chip.sockets n).txSize =
        (if n = 0 then 4096 else if n = 1 then 1024 else s.board.chip.fresh.txSize) ∧
      (t.board.chip.sockets n).rxSize =
        (if n = 0 ∨ n = 1 then 1024 else s.board.chip.fresh.rxSize) := by
  have hstart : Consistent s.board.chip.fresh s := (Waiting.mk rfl hs).consistent
  have hend : Consistent s.board.chip.fresh t := by
    obtain ⟨done, stopped⟩ := performAll_consistent hops s hstart
    cases outs with
    | none => exact stopped t h
    | some outs => exact done outs t h
  obtain ⟨htx, hrx⟩ := hend.granted ht n
  rw [txSize, rxSize, htx, hrx]
  by_cases hzero : n = 0
  · rw [hzero, txsizes_zero, rxsizes_zero, if_pos rfl, if_pos (.inl rfl)]
    decide
  by_cases hone : n = 1
  · rw [hone, txsizes_one, rxsizes_one, if_neg (by decide), if_pos rfl, if_pos (.inr rfl)]
    decide
  · have hother : wizchipSockNum ≤ n := by
      rw [wizchipSockNum]
      omega
    rw [sizeFrom_of_le hother, sizeFrom_of_le hother, if_neg hzero, if_neg hone,
      if_neg (not_or.mpr ⟨hzero, hone⟩)]
    exact ⟨rfl, rfl⟩

theorem sizes_of_initialized_init :
    ((performAll [.init, .setIP #v[192, 168, 1, 20]] (.constructed 200)).2.board.chip.sockets
      0).rxSize = 1024 := by
  have hregular : ∀ op ∈ [Op.init, .setIP #v[192, 168, 1, 20]], op.Regular := by simp [Op.Regular]
  have hinit : (performAll [.init, .setIP #v[192, 168, 1, 20]]
      (.constructed 200)).2.initialized = true := by decide +kernel
  have hsizes := sizes_of_initialized hregular (s := .constructed 200) rfl Prod.mk.eta.symm hinit 0
  exact hsizes.2

end Interface

end SmartBell.Ethernet.W5500
