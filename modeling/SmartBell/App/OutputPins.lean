import SmartBell.App.Chime

/-!
# The output register

`PORTB` carries both gongs and the chip select of the W5500. A call of `process_chime`
reads, modifies and writes the register for its own pin; what else happens to it are the
transfers to the W5500, each of which pulls the chip select low and lets it go again.
-/
namespace SmartBell.App
open Common

/-- `kSPI_CS_W5500`. -/
def chipSelectPin : UInt8 := 1 <<< (2 : UInt8)

/-- One transfer, between the `chip_select` and the `chip_deselect` of `main`. -/
def transfer (portB : UInt8) : UInt8 := (portB &&& ~~~chipSelectPin) ||| chipSelectPin

/-- An event and the number of transfers its publish, or the packet behind it, takes. -/
def Bell.portStep (b : Bell) (e : Event × Nat) : Bell :=
  let b := b.step e.1
  b.withPort (transfer^[e.2] b.portB)

/-- The W5500 is not selected. -/
def Bell.Deselected (b : Bell) : Prop := b.portB &&& chipSelectPin ≠ 0

/-! ## The register -/

theorem transfer_of_deselected {p : UInt8} (h : p &&& chipSelectPin ≠ 0) : transfer p = p :=
  forall_byte (P := fun p => p &&& chipSelectPin ≠ 0 → transfer p = p) (by decide +kernel) p h

/-- Driving an output changes no other bit. -/
theorem other_bits (p : UInt8) (i : ChimeId) :
    (p ||| i.outPin) &&& ~~~i.outPin = p &&& ~~~i.outPin ∧
      (p &&& ~~~i.outPin) &&& ~~~i.outPin = p &&& ~~~i.outPin := by
  cases i <;>
    exact forall_byte
      (P := fun p => (p ||| _) &&& ~~~_ = p &&& ~~~_ ∧ (p &&& ~~~_) &&& ~~~_ = p &&& ~~~_)
      (by decide +kernel) p

/-- Whoever keeps the bits beside an output keeps the chip select. -/
theorem chipSelect_of_other_bits {p q : UInt8} {i : ChimeId}
    (h : q &&& ~~~i.outPin = p &&& ~~~i.outPin) :
    q &&& chipSelectPin = p &&& chipSelectPin := by
  have hmask : ~~~i.outPin &&& chipSelectPin = chipSelectPin := by cases i <;> rfl
  calc q &&& chipSelectPin = (q &&& ~~~i.outPin) &&& chipSelectPin := by
        rw [UInt8.and_assoc, hmask]
    _ = (p &&& ~~~i.outPin) &&& chipSelectPin := by rw [h]
    _ = p &&& chipSelectPin := by rw [UInt8.and_assoc, hmask]

section Steps
variable {b : Bell} {i : ChimeId} {e : Event}

/-- A call moves no other bit than the one of its own output. -/
theorem step_other_bits {t : Nat} (htime : e.timeOf i = some t) :
    (b.step e).portB &&& ~~~i.outPin = b.portB &&& ~~~i.outPin := by
  obtain ⟨pind, connected, published, rfl⟩ := Event.call_of_timeOf htime
  obtain ⟨hset, hcleared⟩ := other_bits b.portB i
  cases hlock : (b.startLoop (counter t)).isLocked (counter t) with
  | true =>
    rw [step_of_locked hlock]
    simp
  | false =>
    obtain ⟨sent, hstep⟩ := step_of_unlocked hlock i pind connected published
    rw [hstep]
    simp only
    split_ifs <;> simp [hset, hcleared]

theorem step_deselected (h : b.Deselected) (e : Event) : (b.step e).Deselected := by
  cases e with
  | message topic payload =>
    rw [Bell.Deselected, (step_message (b := b) topic payload .chime1).1]
    exact h
  | call i t pind connected published =>
    have htime := Event.timeOf_call i t pind connected published
    rw [Bell.Deselected, chipSelect_of_other_bits (step_other_bits htime)]
    exact h

theorem boot_deselected (portB pind : UInt8) (now : UInt32) :
    (Bell.boot portB pind now).Deselected :=
  forall_byte (P := fun p => setupGpio p &&& chipSelectPin ≠ 0) (by decide +kernel) portB

/-- Transfers leave no trace. -/
theorem Bell.Deselected.portStep (h : b.Deselected) (e : Event × Nat) :
    b.portStep e = b.step e.1 := by
  have hfixed : transfer^[e.2] (b.step e.1).portB = (b.step e.1).portB :=
    Function.iterate_fixed (transfer_of_deselected (step_deselected h e.1)) e.2
  rw [Bell.portStep, hfixed]
  rfl

theorem run_portStep (portB pind : UInt8) (now : UInt32) (es : List (Event × Nat)) :
    run Bell.portStep (.boot portB pind now) es =
        run Bell.step (.boot portB pind now) (es.map Prod.fst) ∧
      (run Bell.portStep (.boot portB pind now) es).Deselected := by
  induction es using List.reverseRecOn with
  | nil => exact ⟨rfl, boot_deselected portB pind now⟩
  | append_singleton es e ih =>
    obtain ⟨hsame, hdeselected⟩ := ih
    rw [run_snoc, List.map_append, List.map_singleton, run_snoc, hdeselected.portStep, ← hsame]
    exact ⟨rfl, step_deselected hdeselected e.1⟩

/-- After every event of every run each gong's pin is high exactly while the gong rings, and the
W5500 is not selected. A call moves no other bit of the register than its own, and a message
none. -/
theorem outputs_mirror (portB pind : UInt8) (now : UInt32) (es : List (Event × Nat)) :
    let b := run Bell.portStep (.boot portB pind now) es
    (∀ i, b.portB &&& i.outPin ≠ 0 ↔ (b.chime i).isRinging = true) ∧
    b.portB &&& chipSelectPin ≠ 0 ∧
    (∀ i t pind connected published transfers,
      (b.portStep (.call i t pind connected published, transfers)).portB &&& ~~~i.outPin =
        b.portB &&& ~~~i.outPin) ∧
    ∀ topic payload transfers,
      (b.portStep (.message topic payload, transfers)).portB = b.portB := by
  intro b
  obtain ⟨hsame, hdeselected⟩ := run_portStep portB pind now es
  refine ⟨fun i => ?_, hdeselected, fun i t pind connected published transfers => ?_,
    fun topic payload transfers => ?_⟩
  · have hmirrors : b.Mirrors := by
      have hrun : b = run Bell.step (.boot portB pind now) (es.map Prod.fst) := hsame
      rw [hrun]
      exact run_mirrors portB pind now _
    exact hmirrors i
  · rw [hdeselected.portStep]
    exact step_other_bits (Event.timeOf_call i t pind connected published)
  · rw [hdeselected.portStep]
    exact (step_message topic payload .chime1).1

end Steps
end SmartBell.App
