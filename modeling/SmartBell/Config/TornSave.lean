import SmartBell.Common.Runs
import SmartBell.Config.LightweightConfig

/-!
# A save that is cut short

`save` rewrites the one primary slot in place, under a magic word that is the same in
the old and the new record, and `load` looks at nothing else but the port. After a power
failure the slot holds the new record as far as it was written and the old one behind
that. The order in which `eeprom_update_block` takes its bytes is a parameter.
-/
namespace SmartBell.Config
open Common SmartBellConfig

/-- The EEPROM if the power fails after `n` bytes of a `save`. -/
def tornSave (order : List Nat) (n : Nat) (s : ConfigStore) : Memory :=
  s.eeprom.writeBytes eepromAddr { s.config with magic := magicWord }.image (order.take n)

/-- The configuration the firmware runs with after a power-up. -/
def loadedAtBoot (eeprom : Memory) : SmartBellConfig := (load (.boot eeprom)).1.config

/-- The record with the bytes of `written` from `new` and the others from `old`. -/
def splice (written : List Nat) (new old : SmartBellConfig) : SmartBellConfig :=
  .ofImage fun i => if i ∈ written then new.image i else old.image i

/-- What `load` falls back to when the primary slot is refused. -/
def fallback (eeprom : Memory) : SmartBellConfig :=
  let legacy := eepromReadCfg eeprom eepromAddrLegacy
  if isValidConfig legacy then legacy else staticConfig

/-! ## Splicing -/

variable {written : List Nat} {new old : SmartBellConfig}

theorem splice_eq_old (h : ∀ i ∈ written, new.image i = old.image i) :
    splice written new old = old := by
  have hbytes : splice written new old = .ofImage old.image := by
    refine ofImage_congr fun i _ => ?_
    by_cases hi : i ∈ written
    · simp [hi, h i hi]
    · simp [hi]
  rw [hbytes, ofImage_image]

theorem splice_eq_new (h : ∀ i < size, i ∉ written → new.image i = old.image i) :
    splice written new old = new := by
  have hbytes : splice written new old = .ofImage new.image := by
    refine ofImage_congr fun i hi => ?_
    by_cases hw : i ∈ written
    · simp [hw]
    · simp [hw, h i hi hw]
  rw [hbytes, ofImage_image]

/-- The last four bytes of a record are its magic word. -/
theorem ofImage_magic_of_image {m : Nat → UInt8} {c : SmartBellConfig}
    (h : ∀ i, 115 ≤ i → i < size → m i = c.image i) : (ofImage m).magic = c.magic := by
  have hmagic : (ofImage m).magic = (ofImage c.image).magic := by
    simp only [ofImage]
    rw [h 115 (by decide) (by decide), h 116 (by decide) (by decide),
      h 117 (by decide) (by decide), h 118 (by decide) (by decide)]
  rw [hmagic, ofImage_image]

/-- A splice of two records with the same magic word has that magic word, so the one check of
`load` that looks at more than the port never sees the cut. -/
theorem splice_magic (written : List Nat) {new old : SmartBellConfig}
    (h : new.magic = old.magic) : (splice written new old).magic = old.magic := by
  refine ofImage_magic_of_image fun i hlow hi => ?_
  have hsame : new.image i = old.image i := by
    unfold size at hi
    simp (disch := omega) only [image, ↓if_neg, h]
  by_cases hw : i ∈ written
  · simp [hw, hsame]
  · simp [hw]

/-! ## The slots -/

theorem eepromReadCfg_writeBytes (m : Memory) (new : SmartBellConfig) (order : List Nat) :
    eepromReadCfg (m.writeBytes eepromAddr new.image order) eepromAddr =
      splice order new (eepromReadCfg m eepromAddr) := by
  refine ofImage_congr fun i hi => ?_
  rw [Memory.block_writeBytes]
  split_ifs
  · rfl
  · exact (image_ofImage (m.block eepromAddr) hi).symm

/-- The legacy slot lies below the primary one and is out of reach of a `save`. -/
theorem eepromReadCfg_legacy_writeBytes (m : Memory) (new : Nat → UInt8) (order : List Nat) :
    eepromReadCfg (m.writeBytes eepromAddr new order) eepromAddrLegacy =
      eepromReadCfg m eepromAddrLegacy := by
  refine ofImage_congr fun i hi => ?_
  rw [Memory.block_apply, Memory.writeBytes_apply, if_neg]
  · rfl
  · rintro ⟨j, _, hj⟩
    unfold eepromAddrLegacy eepromAddr size at *
    omega

theorem mem_order_iff {order : List Nat} (h : order.Perm (List.range size)) (i : Nat) :
    i ∈ order ↔ i < size := by
  rw [h.mem_iff, List.mem_range]

theorem save_eeprom (s : ConfigStore) : (save s).1.eeprom =
    s.eeprom.writeBytes eepromAddr (save s).1.config.image (List.range size) := by
  simp only [save, eepromWriteCfg]

/-- A `save` whose writes all took place is a `save`. -/
theorem tornSave_complete {order : List Nat} (h : order.Perm (List.range size)) {n : Nat}
    (hn : size ≤ n) (s : ConfigStore) : tornSave order n s = (save s).1.eeprom := by
  have hlen : order.length ≤ n := by simpa [h.length_eq] using hn
  funext a
  have hall : tornSave order n s =
      s.eeprom.writeBytes eepromAddr (save s).1.config.image (order.take n) := rfl
  rw [hall, save_eeprom, List.take_of_length_le hlen, Memory.writeBytes_apply,
    Memory.writeBytes_apply]
  simp only [mem_order_iff h, List.mem_range]

/-- A saved record is read back. -/
theorem eepromReadCfg_save (s : ConfigStore) :
    eepromReadCfg (save s).1.eeprom eepromAddr = (save s).1.config := by
  rw [save_eeprom, eepromReadCfg_writeBytes]
  exact splice_eq_new fun i hi hnot => absurd (List.mem_range.mpr hi) hnot

/-- `load` on a slot with the magic word takes the record over if its port is not zero. -/
theorem loadedAtBoot_of_magic {m : Memory} (h : (eepromReadCfg m eepromAddr).magic = magicWord) :
    loadedAtBoot m = if (eepromReadCfg m eepromAddr).brokerPort ≠ 0 then eepromReadCfg m eepromAddr
      else fallback m := by
  unfold loadedAtBoot load fallback ConfigStore.boot
  by_cases hport : (eepromReadCfg m eepromAddr).brokerPort = 0
  · simp only [isValidConfig, h, hport]
    simp only [ne_eq, not_true_eq_false, if_false, if_true, Bool.false_eq_true]
    split_ifs <;> rfl
  · simp [isValidConfig, h, hport]

/-! ## Power failure during a save -/

/-- Configuration `A` was saved and the live one is `b` when the next `save` is cut after `n`
bytes. The next boot comes up with exactly the splice at the cut: `A` if nothing that differs
was written, `B` if everything that differs was. Only a splice with port zero is refused. -/
theorem loadedAtBoot_tornSave (order : List Nat) (horder : order.Perm (List.range size)) (n : Nat)
    (a : ConfigStore) (b : SmartBellConfig) :
    let s := (save a).1.withConfig b
    let A := (save a).1.config
    let B := (save s).1.config
    let cut := splice (order.take n) B A
    (loadedAtBoot (tornSave order n s) =
      if cut.brokerPort ≠ 0 then cut else fallback s.eeprom) ∧
    ((∀ i ∈ order.take n, B.image i = A.image i) → cut = A) ∧
    ((∀ i ∈ order.drop n, B.image i = A.image i) → cut = B) := by
  intro s A B cut
  have hslot : eepromReadCfg (tornSave order n s) eepromAddr = cut := by
    rw [tornSave, eepromReadCfg_writeBytes]
    exact congrArg (splice (order.take n) B) (eepromReadCfg_save a)
  have hlegacy : fallback (tornSave order n s) = fallback s.eeprom := by
    unfold fallback tornSave
    rw [eepromReadCfg_legacy_writeBytes]
  have hsame : B.magic = A.magic := rfl
  have hmagic : cut.magic = magicWord := splice_magic (order.take n) hsame
  refine ⟨?_, splice_eq_old, fun hrest => splice_eq_new fun i hi hnot => hrest i ?_⟩
  · rw [loadedAtBoot_of_magic (by rw [hslot, hmagic]), hslot, hlegacy]
  · have hmem : i ∈ order.take n ++ order.drop n := by
      rw [List.take_append_drop]
      exact (mem_order_iff horder i).mpr hi
    exact (List.mem_append.mp hmem).resolve_left hnot

/-- A new device address whose last octets did not make it into the slot. -/
theorem loadedAtBoot_tornSave_address :
    let a := ConfigStore.boot fun _ => 0xFF
    let b := (processCommand (ascii "ip 10.0.0.2") (save a).1).store.config
    loadedAtBoot (tornSave (List.range size) 99 ((save a).1.withConfig b)) =
      { staticConfig with deviceIp := #v[10, 0, 1, 100] } := by
  intro a b
  refine ((loadedAtBoot_tornSave _ (List.Perm.refl _) 99 a b).1).trans ?_
  decide +kernel

/-- What an atomic save would guarantee after a power failure. -/
def AllOrNothing (order : List Nat) (n : Nat) (a : ConfigStore) (texts : List (List UInt8)) :
    Prop :=
  let s := run (fun s text => (processCommand text s).store) (save a).1 texts
  loadedAtBoot (tornSave order n s) ∈ [(save a).1.config, (save s).1.config, staticConfig]

instance (order : List Nat) (n : Nat) (a : ConfigStore) (texts : List (List UInt8)) :
    Decidable (AllOrNothing order n a texts) := inferInstanceAs (Decidable (_ ∈ _))

/-- The device address is new and the gateway is still the old one. -/
theorem not_allOrNothing :
    ¬AllOrNothing (List.range size) 103 (.boot fun _ => 0xFF)
      [ascii "ip 10.0.0.2", ascii "gw 10.0.0.1"] := by
  decide +kernel

end SmartBell.Config
