import IotcRa8p1.Lib.Machine
import Mathlib.Algebra.Group.Nat.Defs
import Mathlib.Data.List.Range

/-!
# The task that runs the signaling controller (`kvs_webrtc_task.c`)

`prv_kvs_task` waits for the configuration, initialises the media source and the SDK, starts the signaling
controller and waits for it to stop.  Behind an error it delays, twice as long each time, and tries again.
`AppCommon_WaitSignalingControllerStop` is code of the SDK (`app_common.c`): it deletes the task that calls it.

An action of the control task carries what the called function answers.  `ended` counts the attempts that
have failed or whose controller has stopped, `delays` lists the delays that were waited for.

`supervised_iff` is that the task does what the comment at the top of the file says exactly as long as it does
not come to the start of a controller; `alive_iff` and `retried_iff` say where each part breaks.
-/

namespace IotcRa8p1.Kvs.Supervisor

open Machine

/-! ### State -/

/-- The next instruction of `prv_kvs_task`. -/
inductive Pc where
  | setWait
  /-- configuration, credentials and time -/
  | poll
  /-- the head of the loop -/
  | top
  /-- `AppMediaSource_Init` -/
  | mediaInit
  /-- `AppCommon_Init` -/
  | commonInit
  | setReady
  /-- `AppCommon_StartSignalingController`: the task is created, and the wait for its first connection -/
  | createController
  | barrier
  /-- `AppCommon_WaitSignalingControllerStop`, with the return value of the start -/
  | waitStop (rc : ℤ)
  /-- the label `retry` -/
  | retry
  /-- `vTaskDelay` -/
  | delay
  deriving DecidableEq

/-- The strings of `iotc_kvs_state`. -/
inductive KvsState where
  | off
  | wait
  | ready
  | live
  deriving DecidableEq

structure St where
  /-- `s_task` is not NULL -/
  task : Bool
  /-- the control task, where there is one -/
  control : Option Pc
  /-- `s_state` -/
  state : KvsState
  sdkInited : Bool
  retryMs : ℕ
  /-- the tasks of `SignalingController_Task` -/
  controllers : ℕ
  /-- the bit of `signalingConnectionBarrier` -/
  barrier : Bool
  /-- `isFirst` in `OnSignalingConnectionStateChange` -/
  isFirst : Bool
  /-- `ucStreaming` -/
  streaming : Bool
  ended : ℕ
  delays : List ℕ

def boot : St where
  task := false
  control := none
  state := .off
  sdkInited := false
  retryMs := 0
  controllers := 0
  barrier := false
  isFirst := true
  streaming := false
  ended := 0
  delays := []

/-- `KVS_RETRY_MIN_DELAY_MS` -/
def retryMinDelayMs : ℕ := 10000

/-- `KVS_RETRY_MAX_DELAY_MS` -/
def retryMaxDelayMs : ℕ := 300000

/-- `iotc_kvs_state` -/
def iotcKvsState (s : St) : KvsState := if s.streaming = true then .live else s.state

/-! ### Steps -/

/-- `iotc_kvs_start_task` -/
def startTask (s : St) (ok : Bool) : St :=
  if s.task = true then s
  else if ok = true then
    { s with task := true, control := some .setWait, sdkInited := false, retryMs := retryMinDelayMs }
  else s

/-- What becomes of the caller. -/
inductive Waited where
  | deleted
  | returned

/-- `AppCommon_WaitSignalingControllerStop`, for a context or for NULL. -/
def waitSignalingControllerStop (context : Bool) : Waited :=
  if context = true then .deleted else .returned

/-- An attempt fails. -/
def fail (s : St) (pc : Pc) : St := { s with ended := s.ended + 1, control := some pc }

/-- `retry_ms *= 2U`, and the bound. -/
def doubled (retryMs : ℕ) : ℕ :=
  if retryMaxDelayMs < retryMs * 2 then retryMaxDelayMs else retryMs * 2

/-- One instruction of `prv_kvs_task`. -/
def controlStep (s : St) (ok : Bool) : Option St :=
  match s.control with
  | none => none
  | some .setWait => some { s with state := .wait, control := some .poll }
  | some .poll => some { s with control := some (if ok = true then .top else .poll) }
  | some .top => some { s with control := some (if s.sdkInited = true then .setReady else .mediaInit) }
  | some .mediaInit => some (if ok = true then { s with control := some .commonInit } else fail s .retry)
  | some .commonInit =>
    some (if ok = true then { s with sdkInited := true, control := some .setReady } else fail s .retry)
  | some .setReady => some { s with state := .ready, control := some .createController }
  | some .createController =>
    some (if ok = true then { s with controllers := s.controllers + 1, control := some .barrier }
      else fail s (.waitStop (-1)))
  | some .barrier =>
    -- the wait has no timeout, and clears the bit
    if ok = true then
      if s.barrier = true then some { s with barrier := false, control := some (.waitStop 0) } else none
    else some (fail s (.waitStop (-1)))
  | some (.waitStop rc) =>
    -- the context is a static
    match waitSignalingControllerStop true with
    | .deleted => some { s with control := none }
    | .returned => some (if rc = 0 then fail s .retry else { s with control := some .retry })
  | some .retry => some { s with state := .wait, control := some .delay }
  | some .delay =>
    some { s with delays := s.delays ++ [s.retryMs], retryMs := doubled s.retryMs, control := some .top }

inductive Action where
  | startTask (ok : Bool)
  | control (ok : Bool)
  /-- `OnSignalingConnectionStateChange`, with the state connected -/
  | connected
  /-- a viewer comes through the controller, or the last one goes -/
  | streaming (on : Bool)

/-- An action of the control task. -/
def Action.isControl : Action → Bool
  | .control _ => true
  | _ => false

def step (s : St) : Action → Option St
  | .startTask ok => some (startTask s ok)
  | .control ok => controlStep s ok
  | .connected =>
    if 0 < s.controllers then
      some (if s.isFirst = true then { s with barrier := true, isFirst := false } else s)
    else none
  | .streaming on => if 0 < s.controllers ∨ on = false then some { s with streaming := on } else none

/-! ### What the task is for -/

/-- The control task is there while `s_task` says so. -/
def Alive (s : St) : Prop := s.task = true → s.control ≠ none

/-- The delays double from 10 s up to 300 s. -/
def backoff (n : ℕ) : ℕ := min (retryMinDelayMs * 2 ^ n) retryMaxDelayMs

/-- The control task, by its own steps, waits for the next delay and is back at the head of the loop. -/
def Retries (s : St) : Prop :=
  ∃ k t, runs step (List.replicate k (.control true)) s = some t ∧ t.control = some .top ∧
    t.delays = s.delays ++ [backoff s.delays.length]

/-- Every attempt that has ended was followed by its delay, or the last one will be. -/
def Retried (s : St) : Prop :=
  s.ended = s.delays.length ∨ s.ended = s.delays.length + 1 ∧ Retries s

/-- The delays so far. -/
def BackedOff (s : St) : Prop := s.delays = (List.range s.delays.length).map backoff

/-- Only with a controller the state is "ready". -/
def ReadyBacked (s : St) : Prop := iotcKvsState s = .ready → 0 < s.controllers

/-- The task stays, its attempts are retried behind the right delays, and "ready" needs a controller. -/
structure Supervised (s : St) : Prop where
  alive : Alive s
  retried : Retried s
  backedOff : BackedOff s
  ready : ReadyBacked s

/-- The control task does not store "ready" and go on to the start of a controller. -/
def Ok (s : St) : Action → Prop
  | .control _ => s.control ≠ some .setReady
  | _ => True

/-! ### The invariant -/

/-- The attempt has ended and its delay is not over. -/
def Pc.owed : Pc → ℕ
  | .waitStop rc => if rc = 0 then 0 else 1
  | .retry => 1
  | .delay => 1
  | _ => 0

/-- The controller may have been created. -/
def Pc.started : Pc → Bool
  | .barrier => true
  | .waitStop _ => true
  | _ => false

/-- Before the start of a controller. -/
def Pc.initialises : Pc → Bool
  | .createController => false
  | .barrier => false
  | .waitStop _ => false
  | _ => true

/-- From one instruction to the next, with the same attempts behind it. -/
structure Moves (pc pc' : Pc) : Prop where
  owed : pc'.owed = pc.owed
  started : pc'.started = pc.started
  initialises : pc ≠ .setReady → pc'.initialises = pc.initialises
  wait : ∀ rc, pc' = .waitStop rc → rc = 0

/-- What one instruction of the control task does. -/
inductive Turn (s : St) (ok : Bool) : St → Prop where
  | go {pc pc' : Pc} {state : KvsState} {sdkInited barrier : Bool} (hpc : s.control = some pc)
      (hmoves : Moves pc pc') (hstate : state = s.state ∨ state = .wait ∨ pc = .setReady) :
      Turn s ok { s with control := some pc', state := state, sdkInited := sdkInited, barrier := barrier }
  | failInit {pc : Pc} (hpc : s.control = some pc) (hinit : pc = .mediaInit ∨ pc = .commonInit) :
      Turn s ok (fail s .retry)
  | failStart {pc : Pc} (hpc : s.control = some pc) (hstart : pc = .createController ∨ pc = .barrier)
      (hok : ok = false) : Turn s ok (fail s (.waitStop (-1)))
  | create (hpc : s.control = some .createController) :
      Turn s ok { s with controllers := s.controllers + 1, control := some .barrier }
  | delete {rc : ℤ} (hpc : s.control = some (.waitStop rc)) : Turn s ok { s with control := none }
  | delay (hpc : s.control = some .delay) :
      Turn s ok { s with
        delays := s.delays ++ [s.retryMs], retryMs := doubled s.retryMs, control := some .top }

variable {s s' : St}

theorem turn_of_controlStep {ok : Bool} (hs : controlStep s ok = some s') : Turn s ok s' := by
  unfold controlStep at hs
  cases hpc : s.control with
  | none => simp [hpc] at hs
  | some pc =>
    cases pc with
    | setWait =>
      simp only [hpc] at hs
      obtain rfl := Option.some.inj hs
      exact .go hpc ⟨rfl, rfl, fun _ => rfl, nofun⟩ (Or.inr (Or.inl rfl))
    | poll =>
      simp only [hpc] at hs
      obtain rfl := Option.some.inj hs
      split_ifs
      · exact .go hpc ⟨rfl, rfl, fun _ => rfl, nofun⟩ (Or.inl rfl)
      · exact .go hpc ⟨rfl, rfl, fun _ => rfl, nofun⟩ (Or.inl rfl)
    | top =>
      simp only [hpc] at hs
      obtain rfl := Option.some.inj hs
      split_ifs
      · exact .go hpc ⟨rfl, rfl, fun _ => rfl, nofun⟩ (Or.inl rfl)
      · exact .go hpc ⟨rfl, rfl, fun _ => rfl, nofun⟩ (Or.inl rfl)
    | mediaInit =>
      simp only [hpc] at hs
      obtain rfl := Option.some.inj hs
      split_ifs
      · exact .go hpc ⟨rfl, rfl, fun _ => rfl, nofun⟩ (Or.inl rfl)
      · exact .failInit hpc (Or.inl rfl)
    | commonInit =>
      simp only [hpc] at hs
      obtain rfl := Option.some.inj hs
      split_ifs
      · exact .go hpc ⟨rfl, rfl, fun _ => rfl, nofun⟩ (Or.inl rfl)
      · exact .failInit hpc (Or.inr rfl)
    | setReady =>
      simp only [hpc] at hs
      obtain rfl := Option.some.inj hs
      exact .go hpc ⟨rfl, rfl, fun hne => absurd rfl hne, nofun⟩ (Or.inr (Or.inr rfl))
    | createController =>
      simp only [hpc] at hs
      obtain rfl := Option.some.inj hs
      split_ifs with hok
      · exact .create hpc
      · exact .failStart hpc (Or.inl rfl) (Bool.of_not_eq_true hok)
    | barrier =>
      simp only [hpc] at hs
      split_ifs at hs with hok
      · obtain rfl := Option.some.inj hs
        exact .go hpc ⟨rfl, rfl, fun _ => rfl, fun rc hrc => (Pc.waitStop.inj hrc).symm⟩ (Or.inl rfl)
      · obtain rfl := Option.some.inj hs
        exact .failStart hpc (Or.inr rfl) (Bool.of_not_eq_true hok)
    | waitStop rc =>
      simp only [hpc, waitSignalingControllerStop] at hs
      obtain rfl := Option.some.inj hs
      exact .delete hpc
    | retry =>
      simp only [hpc] at hs
      obtain rfl := Option.some.inj hs
      exact .go hpc ⟨rfl, rfl, fun _ => rfl, nofun⟩ (Or.inr (Or.inl rfl))
    | delay =>
      simp only [hpc] at hs
      obtain rfl := Option.some.inj hs
      exact .delay hpc

structure Inv (s : St) : Prop where
  created : ∀ {pc}, s.control = some pc → s.task = true
  fresh : s.task = false → s.ended = 0 ∧ s.delays = [] ∧ s.controllers = 0
  backedOff : BackedOff s
  retryMs : ∀ {pc}, s.control = some pc → s.retryMs = backoff s.delays.length
  ended : ∀ {pc}, s.control = some pc → s.ended = s.delays.length + pc.owed
  early : ∀ {pc}, s.control = some pc → pc.started = false → s.controllers = 0
  streaming : s.streaming = true → 0 < s.controllers

theorem boot_inv : Inv boot where
  created h := nomatch h
  fresh _ := ⟨rfl, rfl, rfl⟩
  backedOff := rfl
  retryMs h := nomatch h
  ended h := nomatch h
  early h := nomatch h
  streaming h := Bool.noConfusion h

theorem doubled_backoff (n : ℕ) : doubled (backoff n) = backoff (n + 1) := by
  have hpow : 2 ^ (n + 1) = 2 ^ n * 2 := pow_succ 2 n
  unfold doubled backoff retryMaxDelayMs retryMinDelayMs
  split_ifs with hmax
  · omega
  · omega

/-- An attempt fails. -/
theorem Inv.fail (h : Inv s) {pc : Pc} (pc' : Pc) (hpc : s.control = some pc) (howed : pc.owed = 0)
    (howed' : pc'.owed = 1) (hstarted : pc'.started = false → pc.started = false) :
    Inv (Supervisor.fail s pc') where
  created _ := h.created hpc
  fresh htask := Bool.noConfusion (htask.symm.trans (h.created hpc))
  backedOff := h.backedOff
  retryMs _ := h.retryMs hpc
  ended hq := by
    obtain rfl := Option.some.inj hq
    have hended := h.ended hpc
    show s.ended + 1 = s.delays.length + _
    rw [howed', hended, howed]
  early hq hfalse := by
    obtain rfl := Option.some.inj hq
    exact h.early hpc (hstarted hfalse)
  streaming := h.streaming

/-- The delay is over. -/
theorem Inv.delay (h : Inv s) (hpc : s.control = some .delay) :
    Inv { s with
      delays := s.delays ++ [s.retryMs]
      retryMs := doubled s.retryMs
      control := some .top } := by
  have hms := h.retryMs hpc
  have htask := h.created hpc
  refine ⟨fun _ => htask, fun hfalse => ?_, ?_, fun _ => ?_, fun {q} hq => ?_, fun _ _ => ?_, h.streaming⟩
  · exact Bool.noConfusion (hfalse.symm.trans htask)
  · show s.delays ++ [s.retryMs] = (List.range (s.delays ++ [s.retryMs]).length).map backoff
    rw [List.length_append, List.length_singleton, List.range_succ, List.map_append, ← h.backedOff, hms]
    rfl
  · show doubled s.retryMs = backoff (s.delays ++ [s.retryMs]).length
    rw [hms, doubled_backoff, List.length_append, List.length_singleton]
  · obtain rfl := Option.some.inj hq
    have hended := h.ended hpc
    show s.ended = (s.delays ++ [s.retryMs]).length + 0
    rw [List.length_append, hended]
    rfl
  · exact h.early hpc rfl

theorem control_inv (h : Inv s) {ok : Bool} (hs : controlStep s ok = some s') : Inv s' := by
  cases turn_of_controlStep hs with
  | go hpc hmoves hstate =>
    refine ⟨fun _ => h.created hpc, h.fresh, h.backedOff, fun _ => h.retryMs hpc, fun {q} hq => ?_,
      fun {q} hq hfalse => ?_, h.streaming⟩
    · obtain rfl := Option.some.inj hq
      rw [hmoves.owed]
      exact h.ended hpc
    · obtain rfl := Option.some.inj hq
      exact h.early hpc (hmoves.started.symm.trans hfalse)
  | failInit hpc hinit =>
    obtain rfl | rfl := hinit
    · exact h.fail .retry hpc rfl rfl fun _ => rfl
    · exact h.fail .retry hpc rfl rfl fun _ => rfl
  | failStart hpc hstart hok =>
    obtain rfl | rfl := hstart
    · exact h.fail (.waitStop (-1)) hpc rfl rfl fun hfalse => Bool.noConfusion hfalse
    · exact h.fail (.waitStop (-1)) hpc rfl rfl fun hfalse => Bool.noConfusion hfalse
  | create hpc =>
    have htask := h.created hpc
    refine ⟨fun _ => htask, fun hfalse => Bool.noConfusion (hfalse.symm.trans htask), h.backedOff,
      fun _ => h.retryMs hpc, fun {q} hq => ?_, fun {q} hq hfalse => ?_, fun _ => Nat.succ_pos _⟩
    · obtain rfl := Option.some.inj hq
      have hended := h.ended hpc
      exact hended
    · obtain rfl := Option.some.inj hq
      exact Bool.noConfusion hfalse
  | delete hpc => exact ⟨nofun, h.fresh, h.backedOff, nofun, nofun, nofun, h.streaming⟩
  | delay hpc => exact h.delay hpc

/-- The other actions create the control task, or leave what it works on. -/
theorem step_other {a : Action} (hs : step s a = some s') (ha : a.isControl = false) :
    (s.task = false ∧ s' = { s with
      task := true, control := some .setWait, sdkInited := false, retryMs := retryMinDelayMs }) ∨
    ∃ barrier isFirst streaming,
      s' = { s with barrier := barrier, isFirst := isFirst, streaming := streaming } ∧
        (streaming = true → s.streaming = true ∨ 0 < s.controllers) := by
  cases a with
  | control ok => exact Bool.noConfusion ha
  | startTask ok =>
    obtain rfl := Option.some.inj hs
    unfold startTask
    split_ifs with htask
    · exact Or.inr ⟨_, _, _, rfl, Or.inl⟩
    · exact Or.inl ⟨Bool.of_not_eq_true htask, rfl⟩
    · exact Or.inr ⟨_, _, _, rfl, Or.inl⟩
  | connected =>
    simp only [step] at hs
    split_ifs at hs
    · exact Or.inr ⟨_, _, _, (Option.some.inj hs).symm, Or.inl⟩
    · exact Or.inr ⟨_, _, _, (Option.some.inj hs).symm, Or.inl⟩
  | streaming on =>
    simp only [step] at hs
    split_ifs at hs with hc
    refine Or.inr ⟨_, _, _, (Option.some.inj hs).symm, fun hon => Or.inr (hc.resolve_right ?_)⟩
    exact fun hoff => Bool.noConfusion (hoff.symm.trans hon)

theorem other_inv {a : Action} (h : Inv s) (hs : step s a = some s') (ha : a.isControl = false) :
    Inv s' := by
  obtain ⟨htask, rfl⟩ | ⟨barrier, isFirst, streaming, rfl, hstreaming⟩ := step_other hs ha
  · -- the first control task
    obtain ⟨hended, hdelays, hcontrollers⟩ := h.fresh htask
    refine ⟨fun _ => rfl, fun hfalse => Bool.noConfusion hfalse, h.backedOff, fun _ => ?_, fun {q} hq => ?_,
      fun _ _ => hcontrollers, h.streaming⟩
    · show retryMinDelayMs = backoff s.delays.length
      rw [hdelays]
      rfl
    · obtain rfl := Option.some.inj hq
      show s.ended = s.delays.length + 0
      rw [hended, hdelays]
      rfl
  · refine ⟨h.created, h.fresh, h.backedOff, h.retryMs, h.ended, h.early, fun hon => ?_⟩
    exact (hstreaming hon).elim h.streaming id

theorem step_inv {a : Action} (h : Inv s) (hs : step s a = some s') : Inv s' := by
  cases a with
  | control ok => exact control_inv h hs
  | _ => exact other_inv h hs rfl

/-- In every run the delays are those of the backoff. -/
theorem runs_backedOff {as : List Action} (hrun : runs step as boot = some s) : BackedOff s :=
  (runs_invariant (I := Inv) (fun h _ hs => step_inv h hs) boot_inv
    (meets_of_forall (fun _ _ _ => trivial) _) hrun).backedOff

/-! ### Where an attempt is retried -/

theorem Inv.retries_delay (h : Inv s) (hcontrol : s.control = some .delay) : Retries s := by
  have hms := h.retryMs hcontrol
  refine ⟨1, { s with
    delays := s.delays ++ [s.retryMs], retryMs := doubled s.retryMs, control := some .top }, ?_, rfl, ?_⟩
  · simp only [List.replicate_one, runs_cons, step, controlStep, hcontrol, Option.bind_some, runs_nil]
  · show s.delays ++ [s.retryMs] = _
    rw [hms]

theorem Inv.retries_retry (h : Inv s) (hcontrol : s.control = some .retry) : Retries s := by
  have hstep : step s (.control true) = some { s with state := .wait, control := some .delay } := by
    simp only [step, controlStep, hcontrol]
  obtain ⟨k, t, hrun, htop, hdelays⟩ := (step_inv h hstep).retries_delay rfl
  exact ⟨k + 1, t, runs_cons_eq_some.mpr ⟨_, hstep, hrun⟩, htop, hdelays⟩

/-- The task does not come back from `AppCommon_WaitSignalingControllerStop`. -/
theorem not_retries {rc : ℤ} (hcontrol : s.control = some (.waitStop rc)) : ¬ Retries s := by
  rintro ⟨k, t, hrun, htop, -⟩
  have hstep : step s (.control true) = some { s with control := none } := by
    simp only [step, controlStep, hcontrol, waitSignalingControllerStop, if_true]
  cases k with
  | zero =>
    obtain rfl := Option.some.inj hrun
    exact nomatch hcontrol.symm.trans htop
  | succ k =>
    obtain ⟨u, hu, hrest⟩ := runs_cons_eq_some.mp hrun
    obtain rfl := Option.some.inj (hstep.symm.trans hu)
    cases k with
    | zero =>
      obtain rfl := Option.some.inj hrest
      exact nomatch htop
    | succ k =>
      obtain ⟨v, hv, -⟩ := runs_cons_eq_some.mp hrest
      exact nomatch hv

/-- An attempt that has ended and is not lost in the wait is retried. -/
theorem Inv.retried (h : Inv s) (hwait : ∀ rc, s.control = some (.waitStop rc) → rc = 0)
    (hnone : s.control = none → s.ended = s.delays.length) : Retried s := by
  cases hcontrol : s.control with
  | none => exact Or.inl (hnone hcontrol)
  | some pc =>
    have hended := h.ended hcontrol
    cases pc with
    | retry => exact Or.inr ⟨hended, h.retries_retry hcontrol⟩
    | delay => exact Or.inr ⟨hended, h.retries_delay hcontrol⟩
    | waitStop rc =>
      obtain rfl := hwait rc hcontrol
      exact Or.inl hended
    | _ => exact Or.inl hended

/-! ### Where the control task is deleted -/

/-- The control task does not call `AppCommon_WaitSignalingControllerStop`. -/
def Returns (s : St) : Action → Prop
  | .control _ => ∀ rc, s.control ≠ some (.waitStop rc)
  | _ => True

theorem control_ne_none {ok : Bool} (h : Returns s (.control ok)) (hs : controlStep s ok = some s') :
    s'.control ≠ none := by
  cases turn_of_controlStep hs with
  | delete hpc => exact absurd hpc (h _)
  | _ => exact Option.some_ne_none _

theorem alive_step {a : Action} (h : Inv s) (halive : Alive s) (hs : step s a = some s') :
    Alive s' ↔ Returns s a := by
  cases a with
  | control ok =>
    have hstep : controlStep s ok = some s' := hs
    constructor
    · intro halive' rc hcontrol
      simp only [controlStep, hcontrol, waitSignalingControllerStop, if_true] at hstep
      obtain rfl := Option.some.inj hstep
      exact halive' (h.created hcontrol) rfl
    · exact fun hreturns _ => control_ne_none hreturns hstep
  | _ =>
    refine iff_of_true ?_ trivial
    obtain ⟨-, rfl⟩ | ⟨_, _, _, rfl, -⟩ := step_other hs rfl
    · exact fun _ => Option.some_ne_none _
    · exact halive

/-- The control task is there while `s_task` says so, exactly until it waits for a controller to stop. -/
theorem alive_iff (as : List Action) :
    AllSteps step (fun _ _ s' => Alive s') as boot ↔ Meets step Returns as boot :=
  allSteps_iff_meets (I := fun s => Inv s ∧ Alive s)
    (fun h hok hs => ⟨step_inv h.1 hs, (alive_step h.1 h.2 hs).mpr hok⟩)
    (fun h hs => alive_step h.1 h.2 hs) ⟨boot_inv, fun h => Bool.noConfusion h⟩

/-- Nothing brings a deleted control task back. -/
theorem deleted_stays {as : List Action} {t : St} (htask : s.task = true) (hcontrol : s.control = none)
    (hrun : runs step as s = some t) :
    t.task = true ∧ t.control = none ∧ t.state = s.state ∧ t.ended = s.ended ∧ t.delays = s.delays ∧
      t.controllers = s.controllers := by
  refine runs_invariant (I := fun t => t.task = true ∧ t.control = none ∧ t.state = s.state ∧
    t.ended = s.ended ∧ t.delays = s.delays ∧ t.controllers = s.controllers) (fun {u a u'} h _ hs => ?_)
    ⟨htask, hcontrol, rfl, rfl, rfl, rfl⟩ (meets_of_forall (fun _ _ _ => trivial) _) hrun
  cases a with
  | control ok =>
    simp only [step, controlStep, h.2.1] at hs
    exact nomatch hs
  | _ =>
    obtain ⟨hfalse, -⟩ | ⟨_, _, _, rfl, -⟩ := step_other hs rfl
    · exact Bool.noConfusion (hfalse.symm.trans h.1)
    · exact h

/-! ### Where a failed start is retried -/

/-- No start of a controller fails. -/
def Starts (s : St) : Action → Prop
  | .control ok => ok = true ∨ s.control ≠ some .createController ∧ s.control ≠ some .barrier
  | _ => True

/-- The attempts so far were no failed starts. -/
structure Started (s : St) : Prop where
  inv : Inv s
  wait : ∀ rc, s.control = some (.waitStop rc) → rc = 0
  none : s.control = none → s.ended = s.delays.length

theorem control_started {ok : Bool} (h : Started s) (hok : Starts s (.control ok))
    (hs : controlStep s ok = some s') : Started s' := by
  have hinv := control_inv h.inv hs
  cases turn_of_controlStep hs with
  | go hpc hmoves hstate => exact ⟨hinv, fun rc hrc => hmoves.wait rc (Option.some.inj hrc), nofun⟩
  | failStart hpc hstart hfalse =>
    -- the condition excludes a start that fails
    obtain ⟨hcreate, hbarrier⟩ := hok.resolve_left (by rw [hfalse]; exact Bool.false_ne_true)
    obtain rfl | rfl := hstart
    · exact absurd hpc hcreate
    · exact absurd hpc hbarrier
  | delete hpc =>
    have hended := h.inv.ended hpc
    rw [h.wait _ hpc] at hended
    exact ⟨hinv, nofun, fun _ => hended⟩
  | _ => exact ⟨hinv, nofun, nofun⟩

theorem other_started {a : Action} (h : Started s) (hs : step s a = some s')
    (ha : a.isControl = false) : Started s' := by
  have hinv := other_inv h.inv hs ha
  obtain ⟨-, rfl⟩ | ⟨_, _, _, rfl, -⟩ := step_other hs ha
  · exact ⟨hinv, nofun, nofun⟩
  · exact ⟨hinv, h.wait, h.none⟩

theorem step_started {a : Action} (h : Started s) (hok : Starts s a) (hs : step s a = some s') :
    Started s' := by
  cases a with
  | control ok => exact control_started h hok hs
  | _ => exact other_started h hs rfl

/-- A start that fails leads to the wait, and the wait to no retry. -/
theorem not_retried (h : Inv s) {ok : Bool} (hok : ¬ Starts s (.control ok))
    (hs : controlStep s ok = some s') : ¬ Retried s' := by
  simp only [Starts, not_or, not_and_or, not_not] at hok
  obtain ⟨hfalse, hcontrol⟩ := hok
  obtain rfl := Bool.of_not_eq_true hfalse
  have hfail : s.ended = s.delays.length ∧ s' = fail s (.waitStop (-1)) := by
    obtain hcontrol | hcontrol := hcontrol
    · simp only [controlStep, hcontrol] at hs
      exact ⟨h.ended hcontrol, (Option.some.inj hs).symm⟩
    · simp only [controlStep, hcontrol] at hs
      exact ⟨h.ended hcontrol, (Option.some.inj hs).symm⟩
  obtain ⟨hended, rfl⟩ := hfail
  rintro (hall | ⟨-, hretries⟩)
  · have hsucc : s.ended + 1 = s.delays.length := hall
    omega
  · exact not_retries rfl hretries

/-- Every attempt is followed by its delay and a retry, exactly until a start of a controller fails. -/
theorem retried_iff (as : List Action) :
    AllSteps step (fun _ _ s' => Retried s') as boot ↔ Meets step Starts as boot := by
  refine allSteps_iff_meets (I := Started) step_started (fun {s a s'} h hs => ⟨fun hretried => ?_, fun hok => ?_⟩)
    ⟨boot_inv, nofun, fun _ => rfl⟩
  · by_contra hok
    cases a with
    | control ok => exact not_retried h.inv hok hs hretried
    | _ => exact hok trivial
  · have hstarted := step_started h hok hs
    exact hstarted.inv.retried hstarted.wait hstarted.none

/-! ### Where all of it holds -/

/-- No start of a controller was made. -/
structure Initialising (s : St) : Prop where
  inv : Inv s
  alive : Alive s
  state : s.state ≠ .ready
  control : ∀ pc, s.control = some pc → pc.initialises = true

theorem Initialising.supervised (h : Initialising s) : Supervised s where
  alive := h.alive
  retried := by
    refine h.inv.retried (fun rc hrc => Bool.noConfusion (h.control _ hrc)) fun hnone => ?_
    -- without a control task there was none before
    have htask : s.task = false := Bool.of_not_eq_true fun htrue => h.alive htrue hnone
    obtain ⟨hended, hdelays, -⟩ := h.inv.fresh htask
    rw [hended, hdelays]
    rfl
  backedOff := h.inv.backedOff
  ready hready := by
    rw [iotcKvsState] at hready
    split_ifs at hready
    exact absurd hready h.state

theorem control_initialising {ok : Bool} (h : Initialising s) (hok : Ok s (.control ok))
    (hs : controlStep s ok = some s') : Initialising s' := by
  have hinv := control_inv h.inv hs
  have halive : Alive s' := fun _ =>
    control_ne_none (fun rc hrc => Bool.noConfusion (h.control _ hrc)) hs
  cases turn_of_controlStep hs with
  | @go pc pc' state _ _ hpc hmoves hstate =>
    have hne : pc ≠ .setReady := fun heq => hok (heq ▸ hpc)
    refine ⟨hinv, halive, fun hready => ?_, fun q hq => ?_⟩
    · have hready : state = .ready := hready
      obtain rfl | rfl | heq := hstate
      · exact h.state hready
      · exact nomatch hready
      · exact hne heq
    · obtain rfl := Option.some.inj hq
      rw [hmoves.initialises hne]
      exact h.control pc hpc
  | failInit hpc hinit => exact ⟨hinv, halive, h.state, fun q hq => Option.some.inj hq ▸ rfl⟩
  | delay hpc => exact ⟨hinv, halive, h.state, fun q hq => Option.some.inj hq ▸ rfl⟩
  | failStart hpc hstart hfalse =>
    have hpcs := h.control _ hpc
    obtain rfl | rfl := hstart
    · exact Bool.noConfusion hpcs
    · exact Bool.noConfusion hpcs
  | create hpc => exact Bool.noConfusion (h.control _ hpc)
  | delete hpc => exact Bool.noConfusion (h.control _ hpc)

theorem other_initialising {a : Action} (h : Initialising s) (hs : step s a = some s')
    (ha : a.isControl = false) : Initialising s' := by
  have hinv := other_inv h.inv hs ha
  obtain ⟨-, rfl⟩ | ⟨_, _, _, rfl, -⟩ := step_other hs ha
  · exact ⟨hinv, fun _ => Option.some_ne_none _, h.state, fun q hq => Option.some.inj hq ▸ rfl⟩
  · exact ⟨hinv, h.alive, h.state, h.control⟩

theorem step_initialising {a : Action} (h : Initialising s) (hok : Ok s a) (hs : step s a = some s') :
    Initialising s' := by
  cases a with
  | control ok => exact control_initialising h hok hs
  | _ => exact other_initialising h hs rfl

/-- "ready" is stored before there is a controller. -/
theorem not_readyBacked (h : Inv s) (hcontrol : s.control = some .setReady) {ok : Bool}
    (hs : controlStep s ok = some s') : ¬ ReadyBacked s' := by
  have hnone : s.controllers = 0 := h.early hcontrol rfl
  have hoff : ¬ s.streaming = true := by
    intro hon
    have hpos := h.streaming hon
    omega
  simp only [controlStep, hcontrol] at hs
  obtain rfl := Option.some.inj hs
  intro hready
  have hpos : 0 < s.controllers := hready (if_neg hoff)
  omega

/-- **The supervisor** keeps its task, retries what has ended behind the right delay and says "ready" only
with a controller, in every state of a run, exactly when it does not come to the start of a controller. -/
theorem supervised_iff (as : List Action) :
    AllSteps step (fun _ _ s' => Supervised s') as boot ↔ Meets step Ok as boot := by
  refine allSteps_iff_meets (I := Initialising) step_initialising
    (fun {s a s'} h hs => ⟨fun hsup => ?_, fun hok => (step_initialising h hok hs).supervised⟩)
    ⟨boot_inv, nofun, nofun, nofun⟩
  cases a with
  | control ok => exact fun hcontrol => not_readyBacked h.inv hcontrol hs hsup.ready
  | _ => exact trivial

/-! ### A controller that cannot be created -/

/-- The initialisation succeeds, and there is no memory for the controller. -/
def failedStart : List Action :=
  [.startTask true, .control true, .control true, .control true, .control true, .control true, .control true,
    .control false, .control true]

/-- The control task is deleted, its attempt is not retried, and the state stays "ready". -/
theorem failedStart_not_supervised :
    (∃ s, runs step failedStart boot = some s ∧ s.task = true ∧ s.control = none ∧ s.ended = 1 ∧
      s.delays = [] ∧ iotcKvsState s = .ready ∧ s.controllers = 0) ∧
    ¬ ∀ as : List Action, AllSteps step (fun _ _ s' => Supervised s') as boot := by
  refine ⟨⟨_, rfl, rfl, rfl, rfl, rfl, rfl, rfl⟩, fun h => ?_⟩
  obtain ⟨s, s', hrun, hstep, htask, hcontrol⟩ : ∃ s s', runs step (failedStart.take 8) boot = some s ∧
      step s (.control true) = some s' ∧ s'.task = true ∧ s'.control = none := ⟨_, _, rfl, rfl, rfl, rfl⟩
  exact ((h (failedStart.take 8 ++ [.control true])).at hrun hstep).alive htask hcontrol

end IotcRa8p1.Kvs.Supervisor
