import SmartBell.Common.Bytes

/-!
# Decimal numbers in text

The value of a run of digits, and how a text falls into such runs. A scanner that reads a
number from its first digit on carries the value of what it has read: `decimalFrom v ds`
is where it gets from `v` over the digits `ds`.
-/
namespace SmartBell.Common

/-- The number that `v`, with these digits written behind it, is. -/
def decimalFrom (v : Nat) (ds : List UInt8) : Nat := ds.foldl (fun v c => v * 10 + digit c) v

def decimalValue (ds : List UInt8) : Nat := decimalFrom 0 ds

/-- Nothing but digits. -/
def Digits (ds : List UInt8) : Prop := ∀ c ∈ ds, isDigit c = true

/-- Nothing but spaces. -/
def Spaces (s : List UInt8) : Prop := ∀ c ∈ s, c = chr ' '

@[simp] theorem decimalFrom_nil (v : Nat) : decimalFrom v [] = v := rfl

@[simp] theorem decimalFrom_cons (v : Nat) (c : UInt8) (ds : List UInt8) :
    decimalFrom v (c :: ds) = decimalFrom (v * 10 + digit c) ds := by
  simp only [decimalFrom, List.foldl_cons]

theorem decimalFrom_append (v : Nat) (ds es : List UInt8) :
    decimalFrom v (ds ++ es) = decimalFrom (decimalFrom v ds) es := List.foldl_append

/-- A number gets no smaller with more digits. -/
theorem le_decimalFrom (v : Nat) (ds : List UInt8) : v ≤ decimalFrom v ds := by
  induction ds generalizing v with
  | nil => exact le_rfl
  | cons c ds ih =>
    have hrest := ih (v * 10 + digit c)
    rw [decimalFrom_cons]
    omega

theorem decimalFrom_le_of_prefix (v : Nat) {ds es : List UInt8} (h : ds <+: es) :
    decimalFrom v ds ≤ decimalFrom v es := by
  obtain ⟨rest, rfl⟩ := h
  rw [decimalFrom_append]
  exact le_decimalFrom _ rest

theorem digit_le {c : UInt8} (h : isDigit c = true) : digit c ≤ 9 := by
  simp only [isDigit, Bool.and_eq_true, decide_eq_true_eq, UInt8.le_iff_toNat_le] at h
  have hnine : (chr '9').toNat = 57 := rfl
  have hzero : (chr '0').toNat = 48 := rfl
  rw [digit]
  omega

@[simp] theorem digits_nil : Digits [] := by simp [Digits]

@[simp] theorem digits_cons {c : UInt8} {ds : List UInt8} :
    Digits (c :: ds) ↔ isDigit c = true ∧ Digits ds := by
  simp [Digits]

theorem digits_takeWhile (s : List UInt8) : Digits (s.takeWhile isDigit) := fun _ h =>
  List.mem_takeWhile_imp h

/-- The digits at the head of a text are its first run, if something else follows them. -/
theorem takeWhile_digits {ds rest : List UInt8} (hds : Digits ds)
    (hrest : ∀ c ∈ rest.head?, isDigit c = false) :
    (ds ++ rest).takeWhile isDigit = ds ∧ (ds ++ rest).dropWhile isDigit = rest := by
  induction ds with
  | nil =>
    cases rest with
    | nil => simp
    | cons c rest =>
      have hc := hrest c rfl
      simp [hc]
  | cons c ds ih =>
    obtain ⟨hc, hds⟩ := digits_cons.mp hds
    obtain ⟨htake, hdrop⟩ := ih hds
    simp [hc, htake, hdrop]

theorem skipSpaces_append {sp : List UInt8} (hsp : Spaces sp) {rest : List UInt8}
    (hrest : ∀ c ∈ rest.head?, c ≠ chr ' ') : skipSpaces (sp ++ rest) = rest := by
  induction sp with
  | nil =>
    cases rest with
    | nil => rfl
    | cons c rest =>
      have hc := hrest c rfl
      simp [skipSpaces, hc]
  | cons c sp ih =>
    have hc : c = chr ' ' := hsp c List.mem_cons_self
    have hlater := ih fun d hd => hsp d (List.mem_cons_of_mem c hd)
    simpa [skipSpaces, hc] using hlater

theorem skipSpaces_eq_nil_iff {s : List UInt8} : skipSpaces s = [] ↔ Spaces s := by
  simp [skipSpaces, Spaces, List.dropWhile_eq_nil_iff]

/-- Every text is some spaces and what is left behind them. -/
theorem exists_spaces_append (s : List UInt8) : ∃ sp, Spaces sp ∧ s = sp ++ skipSpaces s := by
  refine ⟨s.takeWhile (· == chr ' '), fun c hc => ?_, List.takeWhile_append_dropWhile.symm⟩
  simpa using List.mem_takeWhile_imp hc

theorem not_isDigit_of_space {c : UInt8} (h : c = chr ' ') : isDigit c = false := by
  subst h
  decide

end SmartBell.Common
