import IotcRa8p1.Lib.Machine
import Mathlib.Logic.Function.Basic

/-!
# Console output (`console_output.c`)

Every task prints through `console_output_write`: it makes the mutex on the first call, takes it, clears
the completion flag, starts the UART driver on the caller's string and waits until the transmit-complete
callback sets the flag, 200 ticks at most.  The driver does not copy: the interrupts read the string while
the transfer runs.

A step is one access to what the tasks share, or one call.  Every write that starts a transfer gets a
number; the transfer in progress, the interrupt still to be served and the call that waits carry it, and
`credited` remembers whose interrupt set the flag last.  `checking` is the parameter checking of the
driver, which this build compiles out: then a second write replaces the transfer in progress.
-/

namespace IotcRa8p1.App.Console

open Machine

/-- The next instruction in `console_output_write`: `id` is the number of the call's own write, `i` the
loop counter. -/
inductive Pc where
  | idle
  | test
  | create
  | store
  | take
  | clear
  | write
  | wait (id i : ℕ)
  | delay (id i : ℕ)
  | give (id : ℕ)
  | fail
  | trap
  deriving DecidableEq, Repr

/-- A task's call: the length of its string, and whether it prints the message of `handle_error`. -/
structure Call where
  pc : Pc
  len : ℕ
  inError : Bool
  deriving DecidableEq, Repr

inductive FspErr where
  | success
  | assertion
  | inUse
  deriving DecidableEq, Repr

/-- What `R_SCI_B_UART_Write` answers. -/
def uartWrite (checking : Bool) (tx : Option ℕ) (bytes : ℕ) : FspErr :=
  if checking = true then
    if bytes = 0 then .assertion else if tx.isSome = true then .inUse else .success
  else .success

/-- The message of `handle_error (VISION_AI_APP_ERR_CONSOLE_WRITE)`. -/
def consoleWriteMessage : String :=
  "\r\n[failure: FACE_DET_APP_JLINK_SONSOLE_WRITE: R_SCI_B_UART_Write returned error. \r\n"

structure St (τ : Type*) where
  /-- `s_console_mutex` is not null -/
  created : Bool
  /-- the holder in `s_console_mutex_buf` -/
  mutex : Option τ
  /-- `g_transfer_complete` -/
  complete : Bool
  /-- the transfer in progress -/
  tx : Option ℕ
  /-- the ended transfer whose interrupt is not served yet -/
  irq : Option ℕ
  calls : τ → Call
  writes : ℕ
  credited : Option ℕ

variable {τ : Type*}

def boot : St τ where
  created := false
  mutex := none
  complete := false
  tx := none
  irq := none
  calls _ := ⟨.idle, 0, false⟩
  writes := 0
  credited := none

/-- `txEnd` is the end of the transfer on the wire, its interrupt lost or not; `txComplete` is the callback
with `UART_EVENT_TX_COMPLETE`. -/
inductive Action (τ : Type*) where
  | print (t : τ) (len : ℕ)
  | go (t : τ)
  | txEnd (lost : Bool)
  | txComplete
  deriving DecidableEq, Repr

section

variable [DecidableEq τ]

def St.setPc (s : St τ) (t : τ) (p : Pc) : St τ :=
  { s with calls := Function.update s.calls t { s.calls t with pc := p } }

/-- One instruction of `console_output_write`. -/
def consoleOutputWrite (checking : Bool) (s : St τ) (t : τ) : Option (St τ) :=
  match (s.calls t).pc with
  | .idle => none
  | .test => some (s.setPc t (if s.created = true then .take else .create))
  -- `xSemaphoreCreateMutexStatic` initialises the one buffer, whoever holds the mutex in it
  | .create => some { s.setPc t .store with mutex := none }
  | .store => some { s.setPc t .take with created := true }
  | .take =>
    match s.mutex with
    | none => some { s.setPc t .clear with mutex := some t }
    | some _ => none
  | .clear => some { s.setPc t .write with complete := false }
  | .write =>
    match uartWrite checking s.tx (s.calls t).len with
    | .success =>
      some { s.setPc t (.wait s.writes 0) with tx := some s.writes, writes := s.writes + 1 }
    | _ => some (s.setPc t .fail)
  | .wait id i => some (s.setPc t (if i < 200 ∧ s.complete = false then .delay id i else .give id))
  | .delay id i => some (s.setPc t (.wait id (i + 1)))
  | .give _ =>
    some { s.setPc t (if (s.calls t).inError = true then .trap else .idle) with mutex := none }
  -- `handle_error` prints its message and stops at a breakpoint
  | .fail =>
    some { s with
      mutex := none
      calls := Function.update s.calls t ⟨.test, consoleWriteMessage.length, true⟩ }
  | .trap => none

def step (checking : Bool) (s : St τ) : Action τ → Option (St τ)
  | .print t len =>
    if (s.calls t).pc = .idle then
      some { s with calls := Function.update s.calls t ⟨.test, len, false⟩ }
    else none
  | .go t => consoleOutputWrite checking s t
  | .txEnd lost =>
    match s.tx with
    | none => none
    | some id => some { s with tx := none, irq := if lost = true then s.irq else some id }
  | .txComplete =>
    match s.irq with
    | none => none
    | some id => some { s with irq := none, complete := true, credited := some id }

end

/-! ### What the writers rely on -/

/-- The write whose completion the call waits for. -/
def Pc.transfer : Pc → Option ℕ
  | .wait id _ => some id
  | .delay id _ => some id
  | .give id => some id
  | _ => none

/-- Between the take and the give. -/
def Pc.holds : Pc → Bool
  | .clear => true
  | .write => true
  | .fail => true
  | p => p.transfer.isSome

/-- The driver is called only when no transfer is in progress, a flag that a waiting call sees was set for
its own write, and the string of a transfer in progress belongs to a call that has not returned. -/
structure Serialised (s : St τ) (a : Action τ) (s' : St τ) : Prop where
  write : ∀ t, a = .go t → (s.calls t).pc = .write → s.tx = none
  credit : ∀ t id, (s'.calls t).pc.transfer = some id → s'.complete = true → s'.credited = some id
  live : ∀ id, s'.tx = some id → ∃ t, (s'.calls t).pc.transfer = some id

/-- The mutex is not made again while a call holds it, and a wait that gives up after 200 ticks waited for
a transfer that is over, with no interrupt of it still to come. -/
def Timely (s : St τ) : Action τ → Prop
  | .go t =>
    match (s.calls t).pc with
    | .create => s.mutex = none
    | .wait id i => 200 ≤ i → s.complete = false → s.tx ≠ some id ∧ s.irq ≠ some id
    | _ => True
  | _ => True

instance (s : St τ) (a : Action τ) [DecidableEq τ] : Decidable (Timely s a) := by
  unfold Timely
  split
  · split <;> infer_instance
  · infer_instance

structure Inv (s : St τ) : Prop where
  held : ∀ t, (s.calls t).pc.holds = true → s.mutex = some t
  owned : ∀ id, s.tx = some id ∨ s.irq = some id → ∃ t, (s.calls t).pc.transfer = some id
  ended : ∀ id, s.irq = some id → s.tx = none
  cleared : ∀ t, (s.calls t).pc = .write → s.complete = false
  own : ∀ t id, (s.calls t).pc.transfer = some id → s.complete = true →
    s.credited = some id ∧ s.tx ≠ some id ∧ s.irq ≠ some id
  given : ∀ t id, (s.calls t).pc = .give id → s.tx ≠ some id ∧ s.irq ≠ some id

/-! ### One step -/

theorem Pc.holds_of_transfer {p : Pc} {id : ℕ} (h : p.transfer = some id) : p.holds = true := by
  cases p <;> simp_all [Pc.transfer, Pc.holds]

theorem inv_boot : Inv (boot : St τ) := by
  constructor <;> simp [boot, Pc.holds, Pc.transfer]

/-- Two calls cannot both wait for a transfer. -/
theorem Inv.unique {s : St τ} (h : Inv s) {t u : τ} {id : ℕ} (ht : (s.calls t).pc.holds = true)
    (hu : (s.calls u).pc.transfer = some id) : u = t := by
  have hheld := h.held u (Pc.holds_of_transfer hu)
  rw [h.held t ht] at hheld
  exact (Option.some.inj hheld).symm

/-- While a call holds the mutex and waits for nothing, no transfer is outstanding. -/
theorem Inv.quiet {s : St τ} (h : Inv s) {t : τ} (ht : (s.calls t).pc.holds = true)
    (hnone : (s.calls t).pc.transfer = none) : s.tx = none ∧ s.irq = none := by
  have hout : ∀ id, ¬ (s.tx = some id ∨ s.irq = some id) := by
    intro id hid
    obtain ⟨u, hu⟩ := h.owned id hid
    have hut := h.unique ht hu
    subst hut
    rw [hnone] at hu
    contradiction
  exact ⟨Option.eq_none_iff_forall_ne_some.mpr fun id hid => hout id (Or.inl hid),
    Option.eq_none_iff_forall_ne_some.mpr fun id hid => hout id (Or.inr hid)⟩

section

variable [DecidableEq τ]

theorem setPc_pc (s : St τ) (t u : τ) (p : Pc) :
    ((s.setPc t p).calls u).pc = if u = t then p else (s.calls u).pc := by
  simp only [St.setPc, Function.update_apply]
  split <;> rfl

/-- A call moves and nothing shared changes but the handle. -/
theorem Inv.move {s : St τ} (h : Inv s) {t : τ} {p : Pc} {c : τ → Call} (b : Bool)
    (hpc : ∀ u, (c u).pc = if u = t then p else (s.calls u).pc)
    (hholds : p.holds = true → (s.calls t).pc.holds = true)
    (htransfer : p.transfer = (s.calls t).pc.transfer) (hwrite : p ≠ .write)
    (hgive : ∀ id, p = .give id → s.tx ≠ some id ∧ s.irq ≠ some id) :
    Inv { s with calls := c, created := b } := by
  have htr : ∀ u, (c u).pc.transfer = (s.calls u).pc.transfer := by
    intro u
    rw [hpc]
    split
    · next hu => rw [hu, htransfer]
    · rfl
  constructor
  · intro u hu
    simp only [hpc] at hu
    split at hu
    · next hut => exact hut ▸ h.held t (hholds hu)
    · exact h.held u hu
  · intro id hid
    obtain ⟨u, hu⟩ := h.owned id hid
    exact ⟨u, (htr u).trans hu⟩
  · exact h.ended
  · intro u hu
    simp only [hpc] at hu
    split at hu
    · exact absurd hu hwrite
    · exact h.cleared u hu
  · intro u id hu hc
    exact h.own u id ((htr u).symm.trans hu) hc
  · intro u id hu
    simp only [hpc] at hu
    split at hu
    · exact hgive id hu
    · exact h.given u id hu

/-- The holder gives the mutex when its transfer is over. -/
theorem Inv.release {s : St τ} (h : Inv s) {t : τ} {p : Pc} {c : τ → Call}
    (hpc : ∀ u, (c u).pc = if u = t then p else (s.calls u).pc)
    (ht : (s.calls t).pc.holds = true) (hholds : p.holds = false)
    (hover : ∀ id, (s.calls t).pc.transfer = some id → s.tx ≠ some id ∧ s.irq ≠ some id) :
    Inv { s with calls := c, mutex := none } := by
  -- nobody else is between the take and the give
  have hfree : ∀ u, (c u).pc.holds = false := by
    intro u
    rw [hpc]
    split
    · exact hholds
    · next hut =>
      refine eq_false_of_ne_true fun hu => hut ?_
      have hheld := h.held u hu
      rw [h.held t ht] at hheld
      exact (Option.some.inj hheld).symm
  have hnone : ∀ u id, (c u).pc.transfer ≠ some id := by
    intro u id hu
    have hheld := Pc.holds_of_transfer hu
    rw [hfree u] at hheld
    contradiction
  constructor
  · intro u hu
    exact absurd hu (by simp [hfree u])
  · intro id hid
    obtain ⟨u, hu⟩ := h.owned id hid
    have hut := h.unique ht hu
    subst hut
    obtain ⟨htx, hirq⟩ := hover id hu
    exact absurd hid (by simp [htx, hirq])
  · exact h.ended
  · intro u hu
    have hheld := hfree u
    simp only at hu
    rw [hu] at hheld
    contradiction
  · intro u id hu
    exact absurd hu (hnone u id)
  · intro u id hu
    exact absurd (congrArg Pc.transfer hu) (hnone u id)

theorem Inv.take {s : St τ} (h : Inv s) {t : τ} (hfree : s.mutex = none) :
    Inv { s.setPc t .clear with mutex := some t } := by
  have hidle : ∀ u, (s.calls u).pc.holds = false := by
    intro u
    refine eq_false_of_ne_true fun hu => ?_
    have hheld := h.held u hu
    rw [hfree] at hheld
    contradiction
  have hnone : ∀ u id, (s.calls u).pc.transfer ≠ some id := by
    intro u id hu
    have hheld := Pc.holds_of_transfer hu
    rw [hidle u] at hheld
    contradiction
  have hpc := setPc_pc s t
  constructor
  · intro u hu
    simp only [hpc] at hu
    split at hu
    · next hut => rw [hut]
    · exact absurd hu (by simp [hidle u])
  · intro id hid
    obtain ⟨u, hu⟩ := h.owned id hid
    exact absurd hu (hnone u id)
  · exact h.ended
  · intro u hu
    simp only [hpc] at hu
    split at hu
    · contradiction
    · exact h.cleared u hu
  · intro u id hu
    simp only [hpc] at hu
    split at hu
    · contradiction
    · exact absurd hu (hnone u id)
  · intro u id hu
    simp only [hpc] at hu
    split at hu
    · contradiction
    · exact absurd (congrArg Pc.transfer hu) (hnone u id)

theorem Inv.clear {s : St τ} (h : Inv s) {t : τ} (ht : (s.calls t).pc = .clear) :
    Inv { s.setPc t .write with complete := false } := by
  have hpc := setPc_pc s t
  constructor
  · intro u hu
    simp only [hpc] at hu
    split at hu
    · next hut =>
      subst hut
      exact h.held u (by rw [ht]; rfl)
    · exact h.held u hu
  · intro id hid
    obtain ⟨u, hu⟩ := h.owned id hid
    refine ⟨u, ?_⟩
    have hut : u ≠ t := by
      rintro rfl
      rw [ht] at hu
      contradiction
    simpa only [hpc, if_neg hut] using hu
  · exact h.ended
  · intro u _
    rfl
  · intro u id _ hc
    contradiction
  · intro u id hu
    simp only [hpc] at hu
    split at hu
    · contradiction
    · exact h.given u id hu

/-- The driver starts the transfer: nothing was outstanding. -/
theorem Inv.write {s : St τ} (h : Inv s) {t : τ} (ht : (s.calls t).pc = .write) :
    Inv { s.setPc t (.wait s.writes 0) with tx := some s.writes, writes := s.writes + 1 } := by
  have hpc := setPc_pc s t
  have hholds : (s.calls t).pc.holds = true := by
    rw [ht]
    rfl
  obtain ⟨_, hirq⟩ := h.quiet hholds (by rw [ht]; rfl)
  have hcomplete := h.cleared t ht
  constructor
  · intro u hu
    simp only [hpc] at hu
    split at hu
    · next hut => exact hut ▸ h.held t hholds
    · exact h.held u hu
  · intro id hid
    have hown : some s.writes = some id := hid.resolve_right fun hi => by
      have hi' : s.irq = some id := hi
      exact absurd (hirq.symm.trans hi') (by simp)
    exact ⟨t, by rw [hpc, if_pos rfl]; exact hown⟩
  · intro id hid
    exact absurd (hirq.symm.trans hid) (by simp)
  · intro u _
    exact hcomplete
  · intro u id _ hc
    exact absurd (hcomplete.symm.trans hc) (by simp)
  · intro u id hu
    simp only [hpc] at hu
    split at hu
    · contradiction
    · next hut => exact absurd (h.unique hholds (congrArg Pc.transfer hu)) hut

end

/-- The transfer ends on the wire. -/
theorem Inv.txEnd {s : St τ} (h : Inv s) {id : ℕ} (htx : s.tx = some id) (lost : Bool) :
    Inv { s with tx := none, irq := if lost = true then s.irq else some id } := by
  have hirq : ∀ k, (if lost = true then s.irq else some id) = some k →
      s.tx = some k ∨ s.irq = some k := by
    intro k hk
    cases lost with
    | false => exact Or.inl (htx.trans hk)
    | true => exact Or.inr hk
  constructor
  · exact h.held
  · intro k hk
    simp only [reduceCtorEq, false_or] at hk
    exact h.owned k (hirq k hk)
  · intro k _
    rfl
  · exact h.cleared
  · intro u k hu hc
    obtain ⟨hcredit, hntx, hnirq⟩ := h.own u k hu hc
    exact ⟨hcredit, by simp, fun hk => (hirq k hk).elim hntx hnirq⟩
  · intro u k hu
    obtain ⟨hntx, hnirq⟩ := h.given u k hu
    exact ⟨by simp, fun hk => (hirq k hk).elim hntx hnirq⟩

/-- The callback sets the flag for the one call that waits. -/
theorem Inv.txComplete {s : St τ} (h : Inv s) {id : ℕ} (hirq : s.irq = some id) :
    Inv { s with irq := none, complete := true, credited := some id } := by
  have htx := h.ended id hirq
  obtain ⟨v, hv⟩ := h.owned id (Or.inr hirq)
  constructor
  · exact h.held
  · intro k hk
    simp only [htx, reduceCtorEq, or_false] at hk
  · intro k _
    exact htx
  · intro u hu
    obtain ⟨_, hnone⟩ := h.quiet (t := u) (by rw [hu]; rfl) (by rw [hu]; rfl)
    exact absurd (hirq.symm.trans hnone) (by simp)
  · intro u k hu _
    have huv := h.unique (Pc.holds_of_transfer hv) hu
    subst huv
    exact ⟨hv.symm.trans hu, by simp [htx], by simp⟩
  · intro u k _
    exact ⟨by simp [htx], by simp⟩

section

variable [DecidableEq τ]

theorem inv_go {checking : Bool} {s s' : St τ} {t : τ} (h : Inv s) (hok : Timely s (.go t))
    (hstep : consoleOutputWrite checking s t = some s') : Inv s' := by
  have hpc := setPc_pc s t
  cases ht : (s.calls t).pc with
  | idle => simp only [consoleOutputWrite, ht, reduceCtorEq] at hstep
  | test =>
    simp only [consoleOutputWrite, ht, Option.some.injEq] at hstep
    subst hstep
    exact h.move s.created (hpc · _) (by split <;> simp [Pc.holds, Pc.transfer])
      (by rw [ht]; split <;> rfl) (by split <;> simp)
      (fun id hid => by split at hid <;> contradiction)
  | create =>
    simp only [consoleOutputWrite, ht, Option.some.injEq] at hstep
    subst hstep
    -- the condition: the mutex is free, so making it again changes nothing
    have hfree : s.mutex = none := by simpa only [Timely, ht] using hok
    have hsame : { s.setPc t .store with mutex := none } = s.setPc t .store := by
      simp only [St.setPc, hfree]
    rw [hsame]
    exact h.move s.created (hpc · _) (by simp [Pc.holds, Pc.transfer]) (by rw [ht]; rfl) (by simp)
      (by simp)
  | store =>
    simp only [consoleOutputWrite, ht, Option.some.injEq] at hstep
    subst hstep
    exact h.move true (hpc · _) (by simp [Pc.holds, Pc.transfer]) (by rw [ht]; rfl) (by simp)
      (by simp)
  | take =>
    cases hfree : s.mutex with
    | some u => simp only [consoleOutputWrite, ht, hfree, reduceCtorEq] at hstep
    | none =>
      simp only [consoleOutputWrite, ht, hfree, Option.some.injEq] at hstep
      subst hstep
      exact h.take hfree
  | clear =>
    simp only [consoleOutputWrite, ht, Option.some.injEq] at hstep
    subst hstep
    exact h.clear ht
  | write =>
    cases hw : uartWrite checking s.tx (s.calls t).len with
    | success =>
      simp only [consoleOutputWrite, ht, hw, Option.some.injEq] at hstep
      subst hstep
      exact h.write ht
    | assertion =>
      simp only [consoleOutputWrite, ht, hw, Option.some.injEq] at hstep
      subst hstep
      exact h.move s.created (hpc · _) (fun _ => by rw [ht]; rfl) (by rw [ht]; rfl) (by simp)
        (by simp)
    | inUse =>
      simp only [consoleOutputWrite, ht, hw, Option.some.injEq] at hstep
      subst hstep
      exact h.move s.created (hpc · _) (fun _ => by rw [ht]; rfl) (by rw [ht]; rfl) (by simp)
        (by simp)
  | wait id i =>
    simp only [consoleOutputWrite, ht, Option.some.injEq] at hstep
    subst hstep
    have htr : (s.calls t).pc.transfer = some id := by
      rw [ht]
      rfl
    refine h.move s.created (hpc · _) (fun _ => by rw [ht]; rfl) ?_ (by split <;> simp) ?_
    · rw [ht]
      split <;> rfl
    · intro k hk
      split at hk
      · contradiction
      · next hleave =>
        obtain rfl := Pc.give.inj hk
        -- left by the flag, which is the call's own, or after 200 ticks
        cases hc : s.complete with
        | true => exact (h.own t id htr hc).2
        | false =>
          have hlate : 200 ≤ i → s.complete = false → s.tx ≠ some id ∧ s.irq ≠ some id := by
            simpa only [Timely, ht] using hok
          exact hlate (by by_contra hlt; exact hleave ⟨by omega, hc⟩) hc
  | delay id i =>
    simp only [consoleOutputWrite, ht, Option.some.injEq] at hstep
    subst hstep
    exact h.move s.created (hpc · _) (fun _ => by rw [ht]; rfl) (by rw [ht]; rfl) (by simp) (by simp)
  | give id =>
    simp only [consoleOutputWrite, ht, Option.some.injEq] at hstep
    subst hstep
    refine h.release (hpc · _) (by rw [ht]; rfl) (by split <;> rfl) ?_
    intro k hk
    rw [ht] at hk
    obtain rfl := Option.some.inj hk
    exact h.given t id ht
  | fail =>
    simp only [consoleOutputWrite, ht, Option.some.injEq] at hstep
    subst hstep
    refine h.release (t := t) (p := .test) ?_ (by rw [ht]; rfl) rfl ?_
    · intro u
      simp only [Function.update_apply]
      split <;> rfl
    · intro k hk
      rw [ht] at hk
      contradiction
  | trap => simp only [consoleOutputWrite, ht, reduceCtorEq] at hstep

/-- **Step lemma.** -/
theorem inv_step {checking : Bool} {s s' : St τ} {a : Action τ} (h : Inv s) (hok : Timely s a)
    (hstep : step checking s a = some s') : Inv s' := by
  cases a with
  | print t len =>
    simp only [step, Option.ite_none_right_eq_some, Option.some.injEq] at hstep
    obtain ⟨ht, rfl⟩ := hstep
    refine h.move (t := t) (p := .test) s.created ?_ (by simp [Pc.holds, Pc.transfer])
      (by rw [ht]; rfl) (by simp) (by simp)
    intro u
    simp only [Function.update_apply]
    split <;> rfl
  | go t => exact inv_go h hok hstep
  | txEnd lost =>
    cases htx : s.tx with
    | none => simp only [step, htx, reduceCtorEq] at hstep
    | some id =>
      simp only [step, htx, Option.some.injEq] at hstep
      subst hstep
      exact h.txEnd htx lost
  | txComplete =>
    cases hirq : s.irq with
    | none => simp only [step, hirq, reduceCtorEq] at hstep
    | some id =>
      simp only [step, hirq, Option.some.injEq] at hstep
      subst hstep
      exact h.txComplete hirq

/-! ### Runs -/

/-- **Console output.**  In every run that makes the mutex only while nobody holds it, and in which no wait
gives up on a transfer that is still to end or to be reported, the output is serialised. -/
theorem console_serialised (checking : Bool) (actions : List (Action τ))
    (h : Meets (step checking) Timely actions boot) :
    AllSteps (step checking) Serialised actions boot := by
  refine allSteps_of_invariant (I := Inv) inv_step ?_ inv_boot h
  intro s a s' hinv hok hstep
  have hinv' := inv_step hinv hok hstep
  refine ⟨?_, ?_, ?_⟩
  · intro t _ ht
    exact (hinv.quiet (t := t) (by rw [ht]; rfl) (by rw [ht]; rfl)).1
  · intro t id ht hc
    exact (hinv'.own t id ht hc).1
  · intro id htx
    exact hinv'.owned id (Or.inl htx)

/-- The first print after a reset: the write, so many ticks of waiting, what the wire does meanwhile, and
the return. -/
def firstPrint (t : τ) (len ticks : ℕ) (wire : List (Action τ)) : List (Action τ) :=
  .print t len :: List.replicate (6 + 2 * ticks) (.go t) ++ wire ++ [.go t, .go t]

/-- A later print, up to its write. -/
def nextWrite (t : τ) (len : ℕ) : List (Action τ) := .print t len :: List.replicate 4 (.go t)

end

/-- Two tasks print one after the other, the first transfer ends within two ticks. -/
theorem console_serialised_inTime :
    AllSteps (step false) Serialised
      (firstPrint false 5 2 [.txEnd false, .txComplete] ++ nextWrite true 5) boot :=
  console_serialised false _ (by decide +kernel)

/-- A string of 4000 bytes is still on the wire after 200 ticks, and another task writes. -/
theorem console_longString :
    ¬ ∀ actions : List (Action Bool), AllSteps (step false) Serialised actions boot := by
  intro h
  have hwrite := (h (firstPrint false 4000 200 [] ++ nextWrite true 5)).mono
    (Q := fun s a _ => a = .go true → (s.calls true).pc = .write → s.tx = none)
    fun s a s' hs => hs.write true
  exact absurd hwrite (by decide +kernel)

end IotcRa8p1.App.Console
