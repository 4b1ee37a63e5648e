import IotcRa8p1.App.Restart
import IotcRa8p1.Lib.Clock

/-!
# The retry after a failure (`iotc_app.c`)

`s_fail_at` is a function-static: the first poll in `IOTC_APP_FAILED` stores the tick count in it, a later
one that reads a difference of 20000 or more tears the connection down and goes to `IOTC_APP_IDLE`.  The
value 0 stands for "not started".  Only the retry itself sets it back, a restart leaves it as it is.

`now` counts the ticks since boot without wrapping, a reading of it is the count modulo 2^32.
-/

namespace IotcRa8p1.App.Poll

open Machine
open Sdk (AppState)

structure Timed where
  base : St
  now : ℕ
  /-- `s_fail_at` -/
  failAt : ℕ
  /-- when the app last became `IOTC_APP_FAILED` -/
  failedSince : ℕ

def timedBoot : Timed := ⟨boot, 0, 0, 0⟩

/-- `xTaskGetTickCount` -/
def tickCount (now : ℕ) : ℕ := now % 2 ^ 32

/-- The timer is started and the difference is large enough. -/
def backoffOver (c : Timed) : Bool :=
  c.failAt != 0 && decide (20000 ≤ Clock.elapsed (2 ^ 32) c.failAt (tickCount c.now))

/-- The answer of the timer decides the poll in `IOTC_APP_FAILED`. -/
def timedAnswer (c : Timed) (yes : Bool) : Bool := if c.base.net = .retry then backoffOver c else yes

/-- `s_fail_at` behind one instruction of the net thread. -/
def timer (c : Timed) : ℕ :=
  match c.base.net with
  | .retry => if c.failAt = 0 then tickCount c.now else c.failAt
  | .retryDeinit => 0
  | _ => c.failAt

/-- `failedSince` behind a step to `s`. -/
def since (c : Timed) (s : St) : ℕ :=
  if s.appState = .failed ∧ c.base.appState ≠ .failed then c.now else c.failedSince

inductive TimedAction where
  /-- time passes -/
  | wait (ticks : ℕ)
  | act (a : Action)
  deriving DecidableEq

def timedStep (c : Timed) : TimedAction → Option Timed
  | .wait ticks => some { c with now := c.now + ticks }
  | .act (.net yes) =>
    (step c.base (.net (timedAnswer c yes))).map fun s => ⟨s, c.now, timer c, since c s⟩
  | .act a => (step c.base a).map fun s => ⟨s, c.now, c.failAt, since c s⟩

/-- A transition from `IOTC_APP_FAILED` to `IOTC_APP_IDLE` other than that of a restart comes 20000 ticks
after the failure. -/
def BackedOff (c : Timed) (_ : TimedAction) (c' : Timed) : Prop :=
  c.base.appState = .failed → c'.base.appState = .idle → c.base.net ≠ .restartIdle →
    c.failedSince + 20000 ≤ c.now

/-- A restart that finds the app failed finds the timer not started. -/
def NotStarted (c : Timed) (_ : TimedAction) : Prop :=
  c.base.net = .restartIdle → c.base.appState = .failed → c.failAt = 0

instance (c : Timed) (a : TimedAction) (c' : Timed) : Decidable (BackedOff c a c') :=
  inferInstanceAs (Decidable (_ → _ → _ → _))

instance (c : Timed) (a : TimedAction) : Decidable (NotStarted c a) :=
  inferInstanceAs (Decidable (_ → _ → _))

/-! ### The net thread on its way to a retry -/

/-- In the branch of `IOTC_APP_FAILED`. -/
def NetPc.retries : NetPc → Bool
  | .retry => true
  | .retryBusy _ => true
  | .retryDeinit => true
  | .retryIdle => true
  | _ => false

/-- Where the app leaves a state for another one than `IOTC_APP_FAILED`. -/
def NetPc.leaves : NetPc → Bool
  | .restartIdle => true
  | .retryIdle => true
  | .setStarting => true
  | .timeSync => true
  | .setRunning => true
  | _ => false

/-- The net thread keeps out of the branch, enters it, walks through it, fails, or leaves a state. -/
theorem netStep_retry (s : St) (yes : Bool) :
    (s.net.retries = false ∧ (netStep s yes).net.retries = false ∧
      (netStep s yes).appState = s.appState) ∨
    (s.net = .switch ∧ s.appState = .failed ∧ netStep s yes = { s with net := .retry }) ∨
    (s.net = .retry ∧
      netStep s yes = { s with net := if yes = true then .retryBusy .model else .poll }) ∨
    ((∃ k, s.net = .retryBusy k) ∧ (netStep s yes).net ≠ .retry ∧ (netStep s yes).net ≠ .retryIdle ∧
      (netStep s yes).appState = s.appState) ∨
    (s.net = .retryDeinit ∧ (netStep s yes).net = .retryIdle ∧
      (netStep s yes).appState = s.appState) ∨
    (s.net.retries = false ∧ (netStep s yes).net = .poll ∧ (netStep s yes).appState = .failed) ∨
    (s.net.leaves = true ∧ (netStep s yes).net.retries = false ∧
      (netStep s yes).appState ≠ .failed) := by
  cases hpc : s.net with
  | retry => exact Or.inr (Or.inr (Or.inl ⟨rfl, by simp only [netStep, hpc]⟩))
  | retryBusy k =>
    refine Or.inr (Or.inr (Or.inr (Or.inl ⟨⟨k, rfl⟩, ?_⟩)))
    cases k <;> simp only [netStep, hpc] <;> split_ifs <;> simp
  | retryDeinit =>
    simp only [netStep, hpc]
    exact Or.inr (Or.inr (Or.inr (Or.inr (Or.inl ⟨trivial, trivial, trivial⟩))))
  | restartIdle | retryIdle | setStarting | setRunning =>
    simp only [netStep, hpc]
    simp [NetPc.leaves, NetPc.retries]
  | timeSync =>
    cases yes <;> simp [netStep, hpc, NetPc.leaves, NetPc.retries]
  | init | connect | connected =>
    cases yes <;> simp [netStep, hpc, NetPc.retries]
  | switch =>
    cases happ : s.appState <;> cases yes <;> simp [netStep, hpc, happ, NetPc.retries]
  | create k => cases hx : s.xfer <;> simp [netStep, hpc, hx, NetPc.retries]
  | poll | load | heapTest =>
    refine Or.inl ⟨rfl, ?_⟩
    simp only [netStep, hpc]
    split_ifs <;> exact ⟨rfl, trivial⟩
  | restartBusy k | runningTest k | pendingTest k =>
    refine Or.inl ⟨rfl, ?_⟩
    cases k <;> simp only [netStep, hpc] <;> split_ifs <;> exact ⟨rfl, trivial⟩
  | give k =>
    refine Or.inl ⟨rfl, ?_⟩
    cases k <;> simp only [netStep, hpc] <;> exact ⟨rfl, trivial⟩
  | restartClear | restartDeinit | set k =>
    refine Or.inl ⟨rfl, ?_⟩
    simp only [netStep, hpc]
    exact ⟨rfl, trivial⟩

/-! ### The invariant -/

/-- A started timer belongs to the failure the app is in, and behind its test the time has passed. -/
structure BackoffInv (c : Timed) : Prop where
  session : Session c.base
  failed : c.base.net = .retry → c.base.appState = .failed
  past : c.failedSince ≤ c.now
  started : c.failAt ≠ 0 → c.base.appState = .failed ∧
    ∃ start, c.failedSince ≤ start ∧ start ≤ c.now ∧ c.failAt = tickCount start
  waited : c.base.net.retries = true → c.base.net ≠ .retry → c.failedSince + 20000 ≤ c.now
  stopped : c.base.net = .retryIdle → c.failAt = 0

theorem backoffInv_boot : BackoffInv timedBoot where
  session := boot_session
  failed h := by simp [timedBoot, boot] at h
  past := Nat.le_refl 0
  started h := absurd rfl h
  waited h := by simp [timedBoot, boot, NetPc.retries] at h
  stopped _ := rfl

theorem since_of_same {c : Timed} {s : St} (h : s.appState = c.base.appState) :
    since c s = c.failedSince := by
  rw [since, h, if_neg fun hboth => hboth.2 hboth.1]

theorem since_le {c : Timed} (h : c.failedSince ≤ c.now) (s : St) : since c s ≤ c.now := by
  rw [since]
  split_ifs
  · exact Nat.le_refl _
  · exact h

/-- The test of the timer. -/
theorem BackoffInv.elapsed {c : Timed} (h : BackoffInv c) (hover : backoffOver c = true) :
    c.failedSince + 20000 ≤ c.now := by
  rw [backoffOver, Bool.and_eq_true, bne_iff_ne, decide_eq_true_eq] at hover
  obtain ⟨hstarted, helapsed⟩ := hover
  obtain ⟨-, start, hsince, hstart, hfailAt⟩ := h.started hstarted
  rw [hfailAt] at helapsed
  have hle : Clock.elapsed (2 ^ 32) (tickCount start) (tickCount c.now) ≤ c.now - start :=
    Clock.elapsed_le (by decide) hstart
  omega

/-- A step of another task. -/
theorem BackoffInv.other {c : Timed} {s : St} (h : BackoffInv c) (hsession : Session s)
    (hnet : s.net = c.base.net) (happ : s.appState = c.base.appState) :
    BackoffInv ⟨s, c.now, c.failAt, since c s⟩ := by
  rw [since_of_same happ]
  constructor
  · exact hsession
  · rw [hnet, happ]
    exact h.failed
  · exact h.past
  · rw [happ]
    exact h.started
  · rw [hnet]
    exact h.waited
  · rw [hnet]
    exact h.stopped

/-- Outside the branch only the timer counts. -/
theorem BackoffInv.outside {c : Timed} {s : St} {failAt : ℕ} (h : BackoffInv c) (hsession : Session s)
    (hnet : s.net.retries = false)
    (hstarted : failAt ≠ 0 → s.appState = .failed ∧ failAt = c.failAt) :
    BackoffInv ⟨s, c.now, failAt, since c s⟩ := by
  have hout {pc : NetPc} (hpc : pc.retries = true) : s.net ≠ pc := by
    intro heq
    rw [heq, hpc] at hnet
    contradiction
  constructor
  · exact hsession
  · exact fun hretry => absurd hretry (hout rfl)
  · exact since_le h.past s
  · intro hne
    obtain ⟨hfailed, heq⟩ := hstarted hne
    obtain ⟨hbefore, hstart⟩ := h.started (heq ▸ hne)
    refine ⟨hfailed, ?_⟩
    rw [since_of_same (hfailed.trans hbefore.symm), heq]
    exact hstart
  · exact fun hretries => absurd (hnet.symm.trans hretries) (by decide)
  · exact fun hidle => absurd hidle (hout rfl)

theorem timer_of_not_retries {c : Timed} (h : c.base.net.retries = false) : timer c = c.failAt := by
  rw [timer]
  cases hpc : c.base.net with
  | retry | retryDeinit =>
    rw [hpc] at h
    contradiction
  | _ => rfl

/-- Where the app leaves its state, the timer is not started. -/
theorem BackoffInv.leave {c : Timed} {a : TimedAction} (h : BackoffInv c) (hok : NotStarted c a)
    (hleaves : c.base.net.leaves = true) : timer c = 0 := by
  by_contra hstarted
  have hsession := h.session
  rw [Session] at hsession
  rw [timer] at hstarted
  cases hpc : c.base.net with
  | restartIdle =>
    simp only [hpc] at hstarted
    exact hstarted (hok hpc (h.started hstarted).1)
  | retryIdle =>
    simp only [hpc] at hstarted
    exact hstarted (h.stopped hpc)
  | setStarting | timeSync | setRunning =>
    simp only [hpc] at hstarted hsession
    have hfailed : c.base.appState = .failed := (h.started hstarted).1
    exact absurd (hfailed.symm.trans hsession.1) (by decide)
  | _ =>
    rw [hpc] at hleaves
    contradiction

/-- The poll that tests the timer. -/
theorem backoffInv_test {c : Timed} (h : BackoffInv c) (hpc : c.base.net = .retry) {s : St}
    (hsession : Session s) (happ : s.appState = c.base.appState)
    (hnet : s.net = if backoffOver c = true then .retryBusy .model else .poll) :
    BackoffInv ⟨s, c.now, timer c, since c s⟩ := by
  have hfailed : c.base.appState = .failed := h.failed hpc
  rw [since_of_same happ]
  constructor
  · exact hsession
  · rw [hnet]
    split_ifs <;> simp
  · exact h.past
  · intro hstarted
    refine ⟨happ.trans hfailed, ?_⟩
    simp only [timer, hpc]
    split_ifs with hzero
    · -- the timer starts now
      exact ⟨c.now, h.past, Nat.le_refl _, rfl⟩
    · exact (h.started hzero).2
  · intro hretries _
    rw [hnet] at hretries
    split_ifs at hretries with hover
    · exact h.elapsed hover
    · contradiction
  · rw [hnet]
    split_ifs <;> simp

/-- One instruction of the net thread. -/
theorem backoffInv_net {c : Timed} {a : TimedAction} (h : BackoffInv c) (hok : NotStarted c a)
    (yes : Bool) :
    BackoffInv ⟨netStep c.base (timedAnswer c yes), c.now, timer c,
      since c (netStep c.base (timedAnswer c yes))⟩ := by
  have hsession := net_session h.session (timedAnswer c yes)
  obtain ⟨hpc, hnet, happ⟩ | ⟨hpc, hfailed, heq⟩ | ⟨hpc, heq⟩ | ⟨⟨k, hpc⟩, hne, hidle, happ⟩ |
    ⟨hpc, hnet, happ⟩ | ⟨hpc, hnet, happ⟩ | ⟨hleaves, hnet, happ⟩ :=
    netStep_retry c.base (timedAnswer c yes)
  · refine h.outside hsession hnet fun hne => ?_
    rw [timer_of_not_retries hpc] at hne ⊢
    exact ⟨happ.trans (h.started hne).1, rfl⟩
  · -- into the branch of the failed state
    have htimer : timer c = c.failAt := timer_of_not_retries (by rw [hpc]; rfl)
    have hsince : since c { c.base with net := .retry } = c.failedSince := since_of_same rfl
    rw [heq] at hsession ⊢
    rw [hsince, htimer]
    constructor
    · exact hsession
    · exact fun _ => hfailed
    · exact h.past
    · exact h.started
    · exact fun _ hne => absurd rfl hne
    · exact fun hidle => by simp at hidle
  · refine backoffInv_test h hpc hsession (by rw [heq]) ?_
    rw [heq, timedAnswer, if_pos hpc]
  · have hwaited : c.failedSince + 20000 ≤ c.now := h.waited (by rw [hpc]; rfl) (by simp [hpc])
    have htimer : timer c = c.failAt := by simp only [timer, hpc]
    rw [since_of_same happ, htimer]
    constructor
    · exact hsession
    · exact fun hretry => absurd hretry hne
    · exact h.past
    · rw [happ]
      exact h.started
    · exact fun _ _ => hwaited
    · exact fun hat => absurd hat hidle
  · have hwaited : c.failedSince + 20000 ≤ c.now := h.waited (by rw [hpc]; rfl) (by simp [hpc])
    have htimer : timer c = 0 := by simp only [timer, hpc]
    rw [since_of_same happ, htimer]
    constructor
    · exact hsession
    · rw [hnet]
      simp
    · exact h.past
    · exact fun hne => absurd rfl hne
    · exact fun _ _ => hwaited
    · exact fun _ => rfl
  · refine h.outside hsession (by rw [hnet]; rfl) fun hne => ?_
    exact ⟨happ, timer_of_not_retries hpc⟩
  · exact h.outside hsession hnet fun hne => absurd (h.leave hok hleaves) hne

theorem timedStep_net {c c' : Timed} {yes : Bool} (h : timedStep c (.act (.net yes)) = some c') :
    c' = ⟨netStep c.base (timedAnswer c yes), c.now, timer c,
      since c (netStep c.base (timedAnswer c yes))⟩ :=
  (Option.some.inj h).symm

/-- A step of another task keeps the net thread and the state. -/
theorem timedStep_other {c c' : Timed} {a : Action} (hnot : ∀ yes, a ≠ .net yes)
    (h : timedStep c (.act a) = some c') :
    ∃ s, step c.base a = some s ∧ s.net = c.base.net ∧ s.appState = c.base.appState ∧
      c' = ⟨s, c.now, c.failAt, since c s⟩ := by
  have hmap : (step c.base a).map (fun s => Timed.mk s c.now c.failAt (since c s)) = some c' := by
    cases a with
    | net yes => exact absurd rfl (hnot yes)
    | _ => exact h
  obtain ⟨s, hs, rfl⟩ := Option.map_eq_some_iff.mp hmap
  obtain ⟨yes, rfl, -⟩ | ⟨yes, pc, -, -, rfl⟩ | ⟨-, hasked⟩ := step_cases hs
  · exact absurd rfl (hnot yes)
  · obtain ⟨hnet, happ, -⟩ := xferStep_fields c.base pc yes
    exact ⟨_, hs, hnet, happ, rfl⟩
  · exact ⟨s, hs, hasked.net, hasked.appState, rfl⟩

/-- **Step lemma.** -/
theorem backoffInv_step {c c' : Timed} {a : TimedAction} (h : BackoffInv c) (hok : NotStarted c a)
    (hstep : timedStep c a = some c') : BackoffInv c' := by
  cases a with
  | wait ticks =>
    obtain rfl := Option.some.inj hstep
    have hpast : c.now ≤ c.now + ticks := Nat.le_add_right _ _
    constructor
    · exact h.session
    · exact h.failed
    · exact Nat.le_trans h.past hpast
    · intro hstarted
      obtain ⟨hfailed, start, hsince, hstart, hfailAt⟩ := h.started hstarted
      exact ⟨hfailed, start, hsince, Nat.le_trans hstart hpast, hfailAt⟩
    · exact fun hretries hne => Nat.le_trans (h.waited hretries hne) hpast
    · exact h.stopped
  | act a =>
    by_cases hnet : ∃ yes, a = .net yes
    · obtain ⟨yes, rfl⟩ := hnet
      obtain rfl := timedStep_net hstep
      exact backoffInv_net h hok yes
    · obtain ⟨s, hs, hpc, happ, rfl⟩ := timedStep_other (fun yes heq => hnet ⟨yes, heq⟩) hstep
      exact h.other (step_session h.session hs) hpc happ

/-- The only other way from `IOTC_APP_FAILED` to `IOTC_APP_IDLE`. -/
theorem netStep_idle {s : St} {yes : Bool} (hs : Session s) (hfailed : s.appState = .failed)
    (hidle : (netStep s yes).appState = .idle) : s.net = .restartIdle ∨ s.net = .retryIdle := by
  obtain ⟨-, -, happ⟩ | ⟨-, -, heq⟩ | ⟨-, heq⟩ | ⟨-, -, -, happ⟩ | ⟨-, -, happ⟩ | ⟨-, -, happ⟩ |
    ⟨hleaves, -, -⟩ := netStep_retry s yes
  · rw [happ, hfailed] at hidle
    contradiction
  · rw [heq, hfailed] at hidle
    contradiction
  · rw [heq, hfailed] at hidle
    contradiction
  · rw [happ, hfailed] at hidle
    contradiction
  · rw [happ, hfailed] at hidle
    contradiction
  · rw [happ] at hidle
    contradiction
  · rw [Session] at hs
    cases hpc : s.net with
    | restartIdle => exact Or.inl rfl
    | retryIdle => exact Or.inr rfl
    | setStarting | timeSync | setRunning =>
      simp only [hpc, hfailed] at hs
      exact absurd hs.1 (by decide)
    | _ =>
      rw [hpc] at hleaves
      contradiction

/-! ### Every run -/

/-- **Retry backoff.**  In every run in which each restart of a failed app finds the timer not started,
the app stays failed for 20000 ticks before it retries by itself. -/
theorem retries_backedOff (as : List TimedAction) (h : Meets timedStep NotStarted as timedBoot) :
    AllSteps timedStep BackedOff as timedBoot := by
  refine allSteps_of_invariant (I := BackoffInv) backoffInv_step ?_ backoffInv_boot h
  intro c a c' hinv _ hstep hfailed hidle hnot
  cases a with
  | wait ticks =>
    obtain rfl := Option.some.inj hstep
    exact absurd (hfailed.symm.trans hidle) (by decide)
  | act a =>
    by_cases hnet : ∃ yes, a = .net yes
    · obtain ⟨yes, rfl⟩ := hnet
      obtain rfl := timedStep_net hstep
      obtain hpc | hpc := netStep_idle hinv.session hfailed hidle
      · exact absurd hpc hnot
      · exact hinv.waited (by rw [hpc]; rfl) (by simp [hpc])
    · obtain ⟨s, -, -, happ, rfl⟩ := timedStep_other (fun yes heq => hnet ⟨yes, heq⟩) hstep
      exact absurd (hfailed.symm.trans (happ.symm.trans hidle)) (by decide)

/-- From an idle app to one whose library does not start. -/
def failedStart : List TimedAction :=
  List.replicate 5 (.act (.net true)) ++ [.act (.net false)]

/-- The first poll of a failed app starts the timer, a later one retries. -/
def firstPoll : List TimedAction := List.replicate 3 (.act (.net true))
def retryPoll : List TimedAction := List.replicate 7 (.act (.net true))

theorem retries_backedOff_one :
    AllSteps timedStep BackedOff (.wait 1 :: failedStart ++ firstPoll ++ .wait 20000 :: retryPoll)
      timedBoot :=
  retries_backedOff _ (by decide +kernel)

/-- A restart of the failed app, which fails again, 20000 ticks later.  The old timer lets it retry at
once. -/
theorem retry_at_once :
    ¬ ∀ as : List TimedAction, AllSteps timedStep BackedOff as timedBoot := by
  intro h
  have hrun := h (.wait 1 :: failedStart ++ firstPoll ++ .wait 20000 :: .act .cliApply ::
    List.replicate 6 (.act (.net true)) ++ failedStart.drop 1 ++ retryPoll)
  exact absurd hrun (by decide +kernel)

end IotcRa8p1.App.Poll
