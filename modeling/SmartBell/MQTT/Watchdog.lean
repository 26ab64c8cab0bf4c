import SmartBell.MQTT.MinimalMQTT

/-!
# The watchdog during a connection attempt

`socket_connect` resets the watchdog in its waiting loops, `wait_for_connack` polls for
up to 5 s without doing so. An attempt keeps the 4 s limit exactly if it is entered in
time for its first reset, and if the decisive CONNACK, where it comes to waiting for one,
arrives in time after the last.
-/
namespace SmartBell.MQTT
open Common MinimalMQTT

/-- `WDTO_4S` in milliseconds. -/
def watchdogLimit : Nat := 4000

/-- The newer of two resets is in time. -/
def InTime (newer older : Nat) : Prop := newer < older + watchdogLimit

/-- Between any two successive `wdt_reset` calls, and since the last one, less than the limit has
passed. -/
def Chip.WatchdogFed (c : Chip) : Prop := (c.clock :: c.wdtResets).IsChain InTime

instance : DecidableRel InTime := fun _ _ => inferInstanceAs (Decidable (_ < _))

instance (c : Chip) : Decidable c.WatchdogFed := inferInstanceAs (Decidable (List.IsChain _ _))

/-- In the `n`-th call and the `k - 1` calls after it that much time passes. -/
def Driver.elapsed (d : Driver) : Nat → Nat → Nat
  | _, 0 => 0
  | n, k + 1 => d.tick n + d.elapsed (n + 1) k

/-- At most a millisecond passes in front of an ioLibrary call, and one behind it. -/
def Driver.Prompt (d : Driver) : Prop := ∀ n, d.tick n ≤ 2

section Clock
variable {d : Driver}

theorem Driver.elapsed_add (n j k : Nat) :
    d.elapsed n (j + k) = d.elapsed n j + d.elapsed (n + j) k := by
  induction j generalizing n with
  | zero => simp [elapsed]
  | succ j ih =>
    rw [show j + 1 + k = (j + k) + 1 by omega, elapsed, elapsed, ih,
      show n + 1 + j = n + (j + 1) by omega]
    omega

theorem Driver.Prompt.elapsed_le (hd : d.Prompt) (n k : Nat) : d.elapsed n k ≤ 2 * k := by
  induction k generalizing n with
  | zero => simp [elapsed]
  | succ k ih =>
    have htick := hd n
    have hrest := ih (n + 1)
    simp only [elapsed]
    omega

@[simp] theorem Chip.calledTimes_clock (c : Chip) (k : Nat) :
    (c.calledTimes d k).clock = c.clock + d.elapsed c.calls k := by
  induction k generalizing c with
  | zero => rfl
  | succ k ih =>
    rw [calledTimes, ih, Driver.elapsed, called_clock, called_calls]
    omega

@[simp] theorem Chip.calledTimes_calls (c : Chip) (k : Nat) :
    (c.calledTimes d k).calls = c.calls + k := by
  induction k generalizing c with
  | zero => rfl
  | succ k ih =>
    rw [calledTimes, ih, called_calls]
    omega

@[simp] theorem Chip.calledTimes_wdtResets (c : Chip) (k : Nat) :
    (c.calledTimes d k).wdtResets = c.wdtResets := by
  induction k generalizing c with
  | zero => rfl
  | succ k ih => rw [calledTimes, ih, called_wdtResets]

/-! ## Feeding -/

/-- The watchdog was fed all along, and no more than `k` ms ago. -/
def Chip.FedWithin (k : Nat) (c : Chip) : Prop :=
  ∃ last earlier, c.wdtResets = last :: earlier ∧ (last :: earlier).IsChain InTime ∧
    last ≤ c.clock ∧ c.clock ≤ last + k

theorem Chip.FedWithin.fed {k : Nat} {c : Chip} (h : c.FedWithin k) (hk : k < watchdogLimit) :
    c.WatchdogFed := by
  obtain ⟨last, earlier, hresets, hchain, _, hclock⟩ := h
  rw [WatchdogFed, hresets]
  refine List.IsChain.cons_cons ?_ hchain
  unfold InTime
  omega

theorem Chip.FedWithin.mono {j k : Nat} {c : Chip} (h : c.FedWithin j) (hjk : j ≤ k) :
    c.FedWithin k := by
  obtain ⟨last, earlier, hresets, hchain, hlast, hclock⟩ := h
  exact ⟨last, earlier, hresets, hchain, hlast, by omega⟩

theorem Chip.FedWithin.called (hd : d.Prompt) {k : Nat} {c : Chip} (h : c.FedWithin k) :
    (c.called d).FedWithin (k + 2) := by
  obtain ⟨last, earlier, hresets, hchain, hlast, hclock⟩ := h
  have htick := hd c.calls
  refine ⟨last, earlier, hresets, hchain, ?_, ?_⟩ <;> rw [called_clock] <;> omega

theorem Chip.WatchdogFed.lt {c : Chip} {last : Nat} {earlier : List Nat} (h : c.WatchdogFed)
    (hresets : c.wdtResets = last :: earlier) : c.clock < last + watchdogLimit := by
  rw [WatchdogFed, hresets] at h
  exact (List.isChain_cons_cons.mp h).1

theorem Chip.WatchdogFed.reset {c : Chip} (h : c.WatchdogFed) : c.fed.FedWithin 0 :=
  ⟨c.clock, c.wdtResets, rfl, h, le_rfl, le_rfl⟩

/-- A chip that is fed later on was fed before. -/
theorem Chip.WatchdogFed.of_later {c c' : Chip} (h : c'.WatchdogFed)
    (hresets : c'.wdtResets = c.wdtResets) (hclock : c.clock ≤ c'.clock) : c.WatchdogFed := by
  unfold WatchdogFed at *
  rw [hresets] at h
  cases hold : c.wdtResets with
  | nil => exact List.IsChain.singleton _
  | cons last earlier =>
    rw [hold] at h
    obtain ⟨hlast, hchain⟩ := List.isChain_cons_cons.mp h
    refine List.IsChain.cons_cons ?_ hchain
    unfold InTime at *
    omega

theorem Chip.WatchdogFed.of_called {c : Chip} (h : (c.called d).WatchdogFed) : c.WatchdogFed :=
  h.of_later rfl (Nat.le_add_right _ _)

theorem Chip.WatchdogFed.of_fed {c : Chip} (h : c.fed.WatchdogFed) : c.WatchdogFed :=
  (List.isChain_cons_cons.mp h).2

/-! ## The waiting loops of `socket_connect` -/

theorem waitForLink_fedWithin (hd : d.Prompt) (i : Nat) {c : Chip} (h : c.FedWithin 0) :
    (waitForLink d i c).2.FedWithin 2 := by
  induction i generalizing c with
  | zero => exact h.mono (by omega)
  | succ i ih =>
    have hcalled := h.called hd
    rw [waitForLink_succ]
    split_ifs
    · exact hcalled
    · exact ih (hcalled.fed (by decide)).reset

theorem waitForLink_fed_before (i : Nat) {c : Chip} (h : (waitForLink d i c).2.WatchdogFed) :
    c.WatchdogFed := by
  induction i generalizing c with
  | zero => exact h
  | succ i ih =>
    rw [waitForLink_succ] at h
    split_ifs at h
    · exact h.of_called
    · exact (ih h).of_fed.of_called

theorem waitForEstablished_fedWithin (hd : d.Prompt) (i : Nat) {c : Chip} (h : c.WatchdogFed) :
    (waitForEstablished d (i + 1) c).2.FedWithin 2 := by
  induction i generalizing c with
  | zero =>
    have hcalled := h.reset.called hd
    rw [waitForEstablished_succ]
    split_ifs <;> exact hcalled
  | succ i ih =>
    have hcalled := h.reset.called hd
    rw [waitForEstablished_succ]
    split_ifs
    · exact hcalled
    · exact hcalled
    · exact ih (hcalled.fed (by decide))

theorem waitForEstablished_fed_before (i : Nat) {c : Chip}
    (h : (waitForEstablished d i c).2.WatchdogFed) : c.WatchdogFed := by
  induction i generalizing c with
  | zero => exact h
  | succ i ih =>
    rw [waitForEstablished_succ] at h
    split_ifs at h
    · exact h.of_called.of_fed
    · exact h.of_called.of_fed
    · exact (ih h).of_called.of_fed

theorem openSocket_fedWithin (hd : d.Prompt) (ip : Vector UInt8 4) (port : UInt16) {c : Chip}
    (h : c.FedWithin 2) : (openSocket d ip port c).2.FedWithin 8 := by
  have hsocket := h.called hd
  have hconnect := hsocket.called hd
  rw [openSocket_eq]
  split_ifs
  · exact hsocket.mono (by omega)
  · exact hconnect.called hd
  · exact (waitForEstablished_fedWithin hd 49 (hconnect.fed (by decide))).mono (by omega)

theorem openSocket_fed_before (ip : Vector UInt8 4) (port : UInt16) {c : Chip}
    (h : (openSocket d ip port c).2.WatchdogFed) : c.WatchdogFed := by
  rw [openSocket_eq] at h
  split_ifs at h
  · exact h.of_called
  · exact h.of_called.of_called.of_called
  · exact (waitForEstablished_fed_before 50 h).of_called.of_called

/-- The ioLibrary calls of `socket_connect` before its first `wdt_reset`, or all of them if it makes
none. -/
def Driver.callsToReset (d : Driver) (n : Nat) (ip : Vector UInt8 4) (port : UInt16) : Nat :=
  if d.getPHYCFGR (n + 1) &&& phycfgrLnkOn = 0 then 2
  else if d.socket (n + 2) ≠ kMQTTSocketNumber then 3
  else if d.connect (n + 3) ip port ≠ sockOk then 5
  else 4

/-- `socket_connect` keeps the limit exactly if its first reset is in time. -/
theorem socketConnect_fed_iff (hd : d.Prompt) (ip : Vector UInt8 4) (port : UInt16) (c : Chip) :
    (socketConnect d ip port c).2.WatchdogFed ↔
      (c.calledTimes d (d.callsToReset c.calls ip port)).WatchdogFed := by
  unfold Driver.callsToReset
  by_cases hnow : d.getPHYCFGR (c.calls + 1) &&& phycfgrLnkOn = 0
  · -- the first reset comes while waiting for the link
    have hwait : waitForLink d 50 (c.called d) =
        waitForLink d 49 ((c.called d).called d).fed := by
      rw [waitForLink_succ, if_neg (fun h => h hnow)]
    rw [if_pos hnow]
    rcases hrun : waitForLink d 50 (c.called d) with ⟨result, c'⟩
    obtain ⟨linked, c₁, hsome, _⟩ := waitForLink_traffic (d := d) 50 (c.called d)
    rw [hrun] at hsome
    obtain ⟨rfl, rfl⟩ := Prod.mk.inj hsome
    rw [socketConnect_eq ip port hrun]
    have hback : c'.WatchdogFed → ((c.called d).called d).WatchdogFed := by
      intro h
      have hfinal : (waitForLink d 49 ((c.called d).called d).fed).2.WatchdogFed := by
        rwa [← hwait, hrun]
      exact (waitForLink_fed_before 49 hfinal).of_fed
    have hforth : ((c.called d).called d).WatchdogFed → c'.FedWithin 2 := by
      intro h
      have hfinal := waitForLink_fedWithin hd 49 h.reset
      rwa [← hwait, hrun] at hfinal
    cases linked with
    | false => exact ⟨hback, fun h => (hforth h).fed (by decide)⟩
    | true =>
      exact ⟨fun h => hback (openSocket_fed_before ip port h), fun h =>
        (openSocket_fedWithin hd ip port (hforth h)).fed (by decide)⟩
  · -- the link is up, and the first reset comes while waiting for the connection
    have hlink : waitForLink d 50 (c.called d) = (some true, (c.called d).called d) := by
      rw [waitForLink_succ, if_pos (show d.getPHYCFGR (c.called d).calls &&& _ ≠ 0 from hnow)]
    rw [if_neg hnow, socketConnect_eq ip port hlink, if_pos rfl, openSocket_eq]
    by_cases hsocket : d.socket ((c.called d).called d).calls ≠ kMQTTSocketNumber
    · rw [if_pos hsocket, if_pos (show d.socket (c.calls + 2) ≠ _ from hsocket)]
      rfl
    by_cases hconnect : d.connect (((c.called d).called d).calls + 1) ip port ≠ sockOk
    · rw [if_neg hsocket, if_neg (show ¬d.socket (c.calls + 2) ≠ _ from hsocket), if_pos hconnect,
        if_pos (show d.connect (c.calls + 3) ip port ≠ _ from hconnect)]
      rfl
    · rw [if_neg hsocket, if_neg (show ¬d.socket (c.calls + 2) ≠ _ from hsocket), if_neg hconnect,
        if_neg (show ¬d.connect (c.calls + 3) ip port ≠ _ from hconnect)]
      exact ⟨waitForEstablished_fed_before 50, fun h =>
        (waitForEstablished_fedWithin hd 49 h).fed (by decide)⟩

/-! ## Waiting for the CONNACK -/

/-- The ioLibrary calls of `wait_for_connack`, and of giving up after a refusal, up to the first
read that looks like a CONNACK; all of them if there is none. -/
def callsToSettle : List Poll → Nat
  | [] => 0
  | poll :: rx =>
    poll.cost + if isConnack poll.data then if bufferOf poll.data 3 = 0 then 0 else 2
      else callsToSettle rx

variable {κ : Type}

/-- The polling loop makes no reset. It makes the calls it needs to settle the matter, or it times
out before. -/
theorem connackLoop_calls (hd : d.Prompt) (start n : Nat) (s : Session κ)
    (hn : s.chip.rx.length < n) (hstart : start ≤ s.chip.clock)
    (hclock : s.chip.clock < start + 5004) :
    ∃ result s', connackLoop d (counter start) n s = (result, s') ∧
      s'.chip.wdtResets = s.chip.wdtResets ∧
      ((result = some false ∧ start + 5000 ≤ s'.chip.clock ∧
          s'.chip.clock ≤ s.chip.clock + d.elapsed s.chip.calls (callsToSettle s.chip.rx)) ∨
        ∃ k, s'.chip.clock = s.chip.clock + d.elapsed s.chip.calls k ∧
          s'.chip.calls = s.chip.calls + k ∧
          callsToSettle s.chip.rx = k + if result = some false then 2 else 0) := by
  induction n generalizing s with
  | zero => omega
  | succ n ih =>
    have hreading : (s.chip.millis - counter start < 5000) ↔ s.chip.clock < start + 5000 := by
      rw [Chip.millis, counter_sub_lt_iff hstart]
      have hmod : (s.chip.clock - start) % period = s.chip.clock - start :=
        Nat.mod_eq_of_lt (by unfold period; omega)
      rw [hmod, show (5000 : UInt32).toNat = 5000 from rfl]
      omega
    by_cases htime : s.chip.millis - counter start < 5000
    swap
    · rw [connackLoop_timeout n htime]
      rw [hreading] at htime
      exact ⟨some false, s, rfl, rfl, Or.inl ⟨rfl, by omega, by omega⟩⟩
    cases hrx : s.chip.rx with
    | nil =>
      rw [connackLoop_nil n htime hrx]
      exact ⟨none, s, rfl, rfl,
        Or.inr ⟨0, by simp [Driver.elapsed], by simp, by simp [callsToSettle]⟩⟩
    | cons poll rx =>
      rw [connackLoop_cons n htime hrx]
      have hspent := hd.elapsed_le s.chip.calls poll.cost
      have hcost : poll.cost ≤ 2 := by
        unfold Poll.cost
        split_ifs <;> omega
      by_cases hconnack : isConnack poll.data
      · rw [if_pos hconnack]
        refine ⟨_, _, rfl, by simp [Chip.polled], Or.inr ⟨poll.cost, by simp [Chip.polled],
          by simp [Chip.polled], ?_⟩⟩
        simp [callsToSettle, hconnack]
      · rw [if_neg hconnack]
        rw [hreading] at htime
        obtain ⟨result, s', hrun, hresets, hcalls⟩ :=
          ih ⟨s.mqtt.filled poll.data, s.chip.polled d poll rx⟩ (by simpa [hrx] using hn)
            (by simp [Chip.polled]; omega) (by simp [Chip.polled]; omega)
        have hsettle : callsToSettle (poll :: rx) = poll.cost + callsToSettle rx := by
          simp [callsToSettle, hconnack]
        refine ⟨result, s', hrun, by rw [hresets]; simp [Chip.polled], ?_⟩
        simp only [Chip.polled, Chip.calledTimes_clock, Chip.calledTimes_calls] at hcalls
        rw [hsettle, Driver.elapsed_add]
        rcases hcalls with ⟨hfalse, hlate, hend⟩ | ⟨k, hend, hnumber, htotal⟩
        · exact Or.inl ⟨hfalse, hlate, by omega⟩
        · refine Or.inr ⟨poll.cost + k, ?_, by omega, by omega⟩
          rw [Driver.elapsed_add]
          omega

/-- Waiting for the CONNACK keeps the limit exactly if the calls that settle it do. -/
theorem finishConnect_fed_iff (hd : d.Prompt) {s : Session κ} {k : Nat}
    (h : s.chip.FedWithin k) :
    (finishConnect d s).2.chip.WatchdogFed ↔
      (s.chip.calledTimes d (callsToSettle s.chip.rx)).WatchdogFed := by
  obtain ⟨last, earlier, hreset, hchain, hlast, _⟩ := h
  obtain ⟨result, s', hrun, hresets, hcalls⟩ := connackLoop_calls hd s.chip.clock
    (s.chip.rx.length + 1) s (by omega) le_rfl (by omega)
  have hwait : waitForConnack d s = (result, s') := hrun
  have hlimit (c : Chip) (hc : c.wdtResets = s.chip.wdtResets) :
      c.WatchdogFed ↔ c.clock < last + watchdogLimit := by
    rw [Chip.WatchdogFed, hc, hreset, List.isChain_cons_cons]
    exact ⟨fun h => h.1, fun h => ⟨h, hchain⟩⟩
  rw [hlimit (s.chip.calledTimes d _) (Chip.calledTimes_wdtResets _ _), Chip.calledTimes_clock]
  unfold watchdogLimit at *
  rcases hcalls with ⟨rfl, hlate, hend⟩ | ⟨k, hend, hnumber, htotal⟩
  · rw [finishConnect_of_refused hwait, hlimit ((s'.chip.called d).called d) hresets]
    simp only [Chip.called_clock]
    omega
  · cases result with
    | none =>
      rw [finishConnect_of_stopped hwait, hlimit _ hresets, hend]
      simp at htotal
      rw [htotal]
    | some accepted =>
      cases accepted with
      | true =>
        rw [finishConnect_of_accepted hwait, hlimit _ hresets, hend]
        simp at htotal
        rw [htotal]
      | false =>
        rw [finishConnect_of_refused hwait, hlimit ((s'.chip.called d).called d) hresets]
        simp at htotal
        rw [htotal, Driver.elapsed_add]
        simp only [Chip.called_clock, Chip.called_calls, hend, hnumber, Driver.elapsed]
        omega

theorem finishConnect_fed_before (hd : d.Prompt) {s : Session κ}
    (h : (finishConnect d s).2.chip.WatchdogFed) : s.chip.WatchdogFed := by
  obtain ⟨result, s', hrun, hresets, hcalls⟩ := connackLoop_calls hd s.chip.clock
    (s.chip.rx.length + 1) s (by omega) le_rfl (by omega)
  have hwait : waitForConnack d s = (result, s') := hrun
  have hclock : s.chip.clock ≤ s'.chip.clock := by
    rcases hcalls with ⟨_, hlate, _⟩ | ⟨k, hend, _, _⟩ <;> omega
  cases result with
  | none =>
    rw [finishConnect_of_stopped hwait] at h
    exact h.of_later hresets hclock
  | some accepted =>
    cases accepted with
    | true =>
      rw [finishConnect_of_accepted hwait] at h
      exact Chip.WatchdogFed.of_later h hresets hclock
    | false =>
      rw [finishConnect_of_refused hwait] at h
      exact h.of_called.of_called.of_later hresets hclock

/-! ## A whole attempt -/

theorem Chip.FedWithin.sending (hd : d.Prompt) {k : Nat} {c : Chip} (h : c.FedWithin k)
    (data : List UInt8) : (c.sending d data).FedWithin (k + 2) := h.called hd

theorem Chip.WatchdogFed.of_sending {c : Chip} {data : List UInt8}
    (h : (c.sending d data).WatchdogFed) : c.WatchdogFed :=
  h.of_later rfl (Nat.le_add_right _ _)

/-- The call, of the next `i` from the `n`-th on, that sees the link. -/
def Driver.linkAt (d : Driver) : Nat → Nat → Option Nat
  | 0, _ => none
  | i + 1, n => if d.getPHYCFGR n &&& phycfgrLnkOn ≠ 0 then some n else d.linkAt i (n + 1)

/-- The call, of the next `i` from the `n`-th on, that sees the connection established before one
sees it closed. -/
def Driver.establishedAt (d : Driver) : Nat → Nat → Option Nat
  | 0, _ => none
  | i + 1, n =>
    if d.getSnSR n = sockEstablished then some n
    else if d.getSnSR n = sockClosed ∨ d.getSnSR n = sockCloseWait then none
    else d.establishedAt i (n + 1)

/-- The call that sees the connection established in an attempt that starts with the `n`-th. -/
def Driver.connectedAt (d : Driver) (n : Nat) (ip : Vector UInt8 4) (port : UInt16) : Option Nat :=
  match d.linkAt 50 (n + 1) with
  | none => none
  | some m =>
    if d.socket (m + 1) = kMQTTSocketNumber ∧ d.connect (m + 2) ip port = sockOk then
      d.establishedAt 50 (m + 3)
    else none

theorem waitForLink_at (i : Nat) (c : Chip) :
    ∃ c', waitForLink d i c = (some (d.linkAt i c.calls).isSome, c') ∧
      ∀ m, d.linkAt i c.calls = some m → c'.calls = m + 1 := by
  induction i generalizing c with
  | zero => exact ⟨c, rfl, nofun⟩
  | succ i ih =>
    rw [waitForLink_succ, Driver.linkAt]
    split_ifs
    · refine ⟨_, rfl, fun m hm => ?_⟩
      obtain rfl := Option.some.inj hm
      rfl
    · exact ih (c.called d).fed

/-- The wait ends with the call that sees the connection, right behind a reset. -/
theorem waitForEstablished_at (i : Nat) (c : Chip) :
    ∃ c', waitForEstablished d i c = (some (d.establishedAt i c.calls).isSome, c') ∧
      ∀ m, d.establishedAt i c.calls = some m →
        ∃ c₀ : Chip, c₀.calls = m ∧ c' = c₀.fed.called d := by
  induction i generalizing c with
  | zero => exact ⟨c, rfl, nofun⟩
  | succ i ih =>
    rw [waitForEstablished_succ, Driver.establishedAt]
    split_ifs
    · refine ⟨_, rfl, fun m hm => ?_⟩
      obtain rfl := Option.some.inj hm
      exact ⟨c, rfl, rfl⟩
    · exact ⟨_, rfl, nofun⟩
    · exact ih (c.fed.called d)

/-- `socket_connect` by the call that sees the connection. -/
theorem socketConnect_at (ip : Vector UInt8 4) (port : UInt16) (c : Chip) :
    ∃ c', socketConnect d ip port c = (some (d.connectedAt c.calls ip port).isSome, c') ∧
      ∀ m, d.connectedAt c.calls ip port = some m →
        ∃ c₀ : Chip, c₀.calls = m ∧ c' = c₀.fed.called d := by
  obtain ⟨c₁, hlink, hcalls⟩ := waitForLink_at (d := d) 50 (c.called d)
  rw [socketConnect_eq ip port hlink, Driver.connectedAt]
  cases hm : d.linkAt 50 (c.calls + 1) with
  | none =>
    rw [Chip.called_calls, hm]
    exact ⟨c₁, rfl, nofun⟩
  | some m =>
    have hcall : c₁.calls = m + 1 := hcalls m hm
    rw [Chip.called_calls, hm, Option.isSome_some, if_pos rfl, openSocket_eq, hcall]
    by_cases hsocket : d.socket (m + 1) = kMQTTSocketNumber
    · by_cases hconnect : d.connect (m + 2) ip port = sockOk
      · obtain ⟨c₂, hrun, hat⟩ := waitForEstablished_at (d := d) 50 ((c₁.called d).called d)
        simp only [Chip.called_calls, hcall] at hrun hat
        simp only [hsocket, hconnect, ne_eq, not_true_eq_false, if_false, and_self, if_true]
        exact ⟨c₂, hrun, hat⟩
      · simp only [hsocket, hconnect, ne_eq, not_true_eq_false, not_false_eq_true, if_false,
          if_true, and_false]
        exact ⟨_, rfl, nofun⟩
    · simp only [hsocket, ne_eq, not_false_eq_true, if_true, false_and, if_false]
      exact ⟨_, rfl, nofun⟩

/-- Behind a reset, the calls that are due keep the limit if they take less than it. -/
theorem fed_calledTimes_iff {c : Chip} (h : c.WatchdogFed) (k : Nat) :
    (c.fed.calledTimes d k).WatchdogFed ↔ d.elapsed c.calls k < watchdogLimit := by
  rw [Chip.WatchdogFed, Chip.calledTimes_wdtResets, Chip.calledTimes_clock, Chip.fed_wdtResets,
    Chip.fed_clock, Chip.fed_calls, List.isChain_cons_cons]
  unfold InTime
  exact ⟨fun hfed => by have := hfed.1; omega, fun hfed => ⟨by omega, h⟩⟩

/-- The same if the first two of the calls are the one that sees the connection and a `send`. -/
theorem fed_settled_iff {c : Chip} (h : c.WatchdogFed) (data : List UInt8) (k : Nat) :
    (((c.fed.called d).sending d data).calledTimes d k).WatchdogFed ↔
      d.elapsed c.calls (2 + k) < watchdogLimit := by
  have hclock : c.clock + d.tick c.calls + d.tick (c.calls + 1) + d.elapsed (c.calls + 1 + 1) k =
      c.clock + d.elapsed c.calls (k + 2) := by
    rw [Driver.elapsed, Driver.elapsed]
    omega
  rw [← fed_calledTimes_iff h, Nat.add_comm, Chip.WatchdogFed, Chip.WatchdogFed,
    Chip.calledTimes_clock, Chip.calledTimes_clock, Chip.fed_clock, Chip.fed_calls, ← hclock,
    Chip.calledTimes_wdtResets, Chip.calledTimes_wdtResets]
  rfl

/-- A connection attempt keeps the watchdog fed exactly if it gets to its first reset in time, and
if the connection comes to stand and the CONNECT is taken, from the call that sees it, behind the
last reset, to the settling read. -/
theorem connect_fed_iff (d : Driver) (hd : d.Prompt) (config : Config) (s : Session κ) :
    (connect d config s).2.chip.WatchdogFed ↔
      (s.chip.calledTimes d
        (d.callsToReset s.chip.calls config.brokerIp config.brokerPort)).WatchdogFed ∧
      ∀ m, d.connectedAt s.chip.calls config.brokerIp config.brokerPort = some m →
        d.send (m + 1) (connectPacket config) = (connectPacket config).length →
        d.elapsed m (2 + callsToSettle s.chip.rx) < watchdogLimit := by
  obtain ⟨c, hsocket, hat⟩ := socketConnect_at (d := d) config.brokerIp config.brokerPort s.chip
  obtain ⟨_, c', hsame, hrx, _⟩ :=
    socketConnect_traffic (d := d) config.brokerIp config.brokerPort s.chip
  obtain rfl : c = c' := (Prod.mk.inj (hsocket.symm.trans hsame)).2
  have hfirst := socketConnect_fed_iff hd config.brokerIp config.brokerPort s.chip
  rw [hsocket] at hfirst
  rw [← hfirst, connect_eq d config s hsocket]
  cases hcall : d.connectedAt s.chip.calls config.brokerIp config.brokerPort with
  | none => exact ⟨fun h => ⟨h, nofun⟩, fun h => h.1⟩
  | some m =>
    obtain ⟨c₀, rfl, rfl⟩ := hat m hcall
    have hback (h : (c₀.fed.called d).WatchdogFed) : c₀.WatchdogFed := h.of_called.of_fed
    have hwithin (h : (c₀.fed.called d).WatchdogFed) : (c₀.fed.called d).FedWithin 2 :=
      (hback h).reset.called hd
    simp only [Option.isSome_some, Bool.not_true, Bool.false_eq_true, if_false]
    by_cases hsent : d.send (c₀.calls + 1) (connectPacket config) = (connectPacket config).length
    · rw [if_pos (show d.send (c₀.fed.called d).calls _ = _ from hsent)]
      have hrx' : ((c₀.fed.called d).sending d (connectPacket config)).rx = s.chip.rx := hrx
      constructor
      · intro h
        have hfed := (finishConnect_fed_before hd h).of_sending
        refine ⟨hfed, fun m hm _ => ?_⟩
        obtain rfl := Option.some.inj hm
        rw [finishConnect_fed_iff hd ((hwithin hfed).sending hd _), hrx',
          fed_settled_iff (hback hfed)] at h
        exact h
      · rintro ⟨hfed, htime⟩
        rw [finishConnect_fed_iff hd ((hwithin hfed).sending hd _), hrx',
          fed_settled_iff (hback hfed)]
        exact htime c₀.calls rfl hsent
    · rw [if_neg (show ¬d.send (c₀.fed.called d).calls _ = _ from hsent)]
      constructor
      · intro h
        have hcalls : ((((c₀.fed.called d).sending d (connectPacket config)).called d).called
          d).WatchdogFed := h
        refine ⟨hcalls.of_called.of_called.of_sending, fun m hm htaken => ?_⟩
        obtain rfl := Option.some.inj hm
        exact absurd htaken hsent
      · intro h
        exact ((((hwithin h.1).sending hd (connectPacket config)).called hd).called hd).fed
          (by decide)

end Clock

/-! ### Two brokers -/

/-- A client whose watchdog was just fed when it connects to a broker that sends this. -/
def fedSession (rx : List Poll) : Session Unit := ⟨.start, ⟨0, 0, rx, [0], []⟩⟩

theorem socketConnect_workingDriver (rx : List Poll) :
    socketConnect (workingDriver 1) brokerConfig.brokerIp brokerConfig.brokerPort
        ⟨0, 0, rx, [0], []⟩ =
      (some true, ⟨5, 5, rx, [4, 0], []⟩) := by
  have hphy (n : Nat) : (workingDriver 1).getPHYCFGR n &&& phycfgrLnkOn ≠ 0 :=
    show phycfgrLnkOn &&& phycfgrLnkOn ≠ 0 by decide
  have hlink :
      waitForLink (workingDriver 1) 50 (Chip.called (workingDriver 1) ⟨0, 0, rx, [0], []⟩) =
      (some true, ⟨2, 2, rx, [0], []⟩) := by
    rw [waitForLink_succ, if_pos (hphy _)]
    rfl
  rw [socketConnect_eq _ _ hlink, if_pos rfl, openSocket_eq,
    if_neg (show ¬(workingDriver 1).socket _ ≠ kMQTTSocketNumber from not_not.mpr rfl),
    if_neg (show ¬(workingDriver 1).connect _ _ _ ≠ sockOk from not_not.mpr rfl),
    waitForEstablished_succ, if_pos (show (workingDriver 1).getSnSR _ = sockEstablished from rfl)]
  rfl

/-- A broker that accepts at once. -/
theorem connect_fed_accepted :
    (workingDriver 1).Prompt ∧
      (connect (workingDriver 1) brokerConfig
        (fedSession [⟨4, [0x20, 2, 0, 0]⟩])).2.chip.WatchdogFed := by
  have hprompt : (workingDriver 1).Prompt := fun _ => show 1 ≤ 2 by decide
  refine ⟨hprompt, (connect_fed_iff (workingDriver 1) hprompt brokerConfig _).mpr ⟨by decide, ?_⟩⟩
  intro m hm _
  obtain rfl : 4 = m := Option.some.inj hm
  decide

theorem callsToSettle_silent (n : Nat) : callsToSettle (List.replicate n ⟨0, []⟩) = n := by
  induction n with
  | zero => rfl
  | succ n ih =>
    have hsilent : ¬isConnack (⟨0, []⟩ : Poll).data := by decide
    rw [List.replicate_succ, callsToSettle, ih, if_neg hsilent]
    exact Nat.add_comm 1 n

theorem elapsed_workingDriver (n k : Nat) : (workingDriver 1).elapsed n k = k := by
  induction k generalizing n with
  | zero => rfl
  | succ k ih =>
    rw [Driver.elapsed, ih]
    exact Nat.add_comm 1 k

/-- A broker that accepts the connection and then says nothing. -/
theorem not_connect_fed_silent :
    (workingDriver 1).Prompt ∧ ¬(connect (workingDriver 1) brokerConfig
      (fedSession (List.replicate 5000 ⟨0, []⟩))).2.chip.WatchdogFed := by
  have hprompt : (workingDriver 1).Prompt := fun _ => show 1 ≤ 2 by decide
  refine ⟨hprompt, ?_⟩
  set rx := List.replicate 5000 (⟨0, []⟩ : Poll)
  have hconnected := socketConnect_workingDriver rx
  rw [connect_eq (workingDriver 1) brokerConfig (fedSession rx) hconnected, Bool.not_true,
    if_neg Bool.false_ne_true,
    if_pos (show (workingDriver 1).send _ _ = ((connectPacket brokerConfig).length : Int) from rfl)]
  have hfed : (Chip.sending (workingDriver 1) ⟨5, 5, rx, [4, 0], []⟩
      (connectPacket brokerConfig)).FedWithin 2 := ⟨4, [0], rfl, by decide, by decide, by decide⟩
  rw [finishConnect_fed_iff hprompt hfed]
  rw [show (Chip.sending (workingDriver 1) ⟨5, 5, rx, [4, 0], []⟩ (connectPacket brokerConfig)).rx =
    List.replicate 5000 ⟨0, []⟩ from rfl, callsToSettle_silent]
  generalize hsent : Chip.sending (workingDriver 1) ⟨5, 5, rx, [4, 0], []⟩ _ = c
  obtain ⟨hclock, hresets⟩ : c.clock = 6 ∧ c.wdtResets = [4, 0] := by
    subst hsent
    exact ⟨rfl, rfl⟩
  intro hlate
  have hin := hlate.lt (by rw [Chip.calledTimes_wdtResets, hresets])
  rw [Chip.calledTimes_clock, elapsed_workingDriver, hclock, watchdogLimit] at hin
  omega

end SmartBell.MQTT
