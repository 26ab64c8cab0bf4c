import SmartBell.Common.Bytes

/-!
# Stores to memory, one after the other

What a loop writes, as the list of its stores. An update of an array as a value says nothing
about an index past its end; the stores name every address, so that they can be compared
with the place of the array in memory, and with its neighbours.
-/
namespace SmartBell.Common

/-- A byte and the address it is stored to. -/
structure Store where
  addr : Nat
  val : UInt8
  deriving DecidableEq, Repr

/-- The store as seen from outside of an array that starts at `base`. -/
def Store.from (base : Nat) (st : Store) : Store := ⟨base + st.addr, st.val⟩

def Memory.perform (m : Memory) (stores : List Store) : Memory :=
  stores.foldl (fun m st => Function.update m st.addr st.val) m

/-- The same stores on an array as a value. -/
def storeCells {n : Nat} (v : Vector UInt8 n) (stores : List Store) : Vector UInt8 n :=
  stores.foldl (fun v st => v.setIfInBounds st.addr st.val) v

/-- Bytes to one address after the other. -/
def storesAt : Nat → List UInt8 → List Store
  | _, [] => []
  | addr, b :: bs => ⟨addr, b⟩ :: storesAt (addr + 1) bs

/-- The array is at `base` in memory. -/
def Memory.HasArray (m : Memory) (base : Nat) {n : Nat} (v : Vector UInt8 n) : Prop :=
  ∀ (i : Nat) (h : i < n), m (base + i) = v[i]

@[simp] theorem Memory.perform_nil (m : Memory) : m.perform [] = m := rfl

theorem Memory.perform_append (m : Memory) (stores stores' : List Store) :
    m.perform (stores ++ stores') = (m.perform stores).perform stores' := List.foldl_append

/-- An address that is not stored to keeps its byte. -/
theorem Memory.perform_of_forall_ne {m : Memory} {stores : List Store} {a : Nat}
    (h : ∀ st ∈ stores, st.addr ≠ a) : m.perform stores a = m a := by
  induction stores generalizing m with
  | nil => rfl
  | cons st stores ih =>
    have hrest := ih (m := Function.update m st.addr st.val) fun st' hst' =>
      h st' (List.mem_cons_of_mem st hst')
    exact hrest.trans (Function.update_of_ne (h st List.mem_cons_self).symm _ _)

/-- Stores to the cells of an array in memory do to it what they do to its value. -/
theorem Memory.HasArray.perform {m : Memory} {base n : Nat} {v : Vector UInt8 n}
    (h : m.HasArray base v) {stores : List Store} (hinside : ∀ st ∈ stores, st.addr < n) :
    (m.perform (stores.map (Store.from base))).HasArray base (storeCells v stores) := by
  induction stores generalizing m v with
  | nil => exact h
  | cons st stores ih =>
    have hst := hinside st List.mem_cons_self
    refine ih ?_ fun st' hst' => hinside st' (List.mem_cons_of_mem st hst')
    intro i hi
    by_cases hcell : i = st.addr
    · subst hcell
      simp [Store.from]
    · have hother : Function.update m (base + st.addr) st.val (base + i) = m (base + i) :=
        Function.update_of_ne (by omega) _ _
      rw [Vector.getElem_setIfInBounds_ne hi (Ne.symm hcell), ← h i hi]
      exact hother

theorem mem_storesAt {addr : Nat} {bs : List UInt8} {st : Store} (h : st ∈ storesAt addr bs) :
    addr ≤ st.addr ∧ st.addr < addr + bs.length := by
  induction bs generalizing addr with
  | nil => cases h
  | cons b bs ih =>
    rw [List.length_cons]
    rcases List.mem_cons.mp h with rfl | hlater
    · constructor <;> simp
    · obtain ⟨hlow, hhigh⟩ := ih hlater
      omega

theorem storeCells_storesAt {n : Nat} (v : Vector UInt8 n) (k : Nat) (bs : List UInt8) :
    storeCells v (storesAt k bs) = overwriteAt v k bs := by
  induction bs generalizing k v with
  | nil => exact (overwriteAt_nil v k).symm
  | cons b bs ih =>
    rw [← overwriteAt_cons]
    exact ih (v.setIfInBounds k b) (k + 1)

end SmartBell.Common
