import IotcRa8p1.App.Sdk

/-!
# The tasks of `iotc_app.c`

The net thread calls `iotc_app_poll` in a loop, the transfer task runs model pushes and snapshots, the
library calls `prv_on_ota` and `prv_on_command` on a task of its own, and the CLI asks for snapshots and
restarts.  A step is one access to what they share or one call that takes time; a callback or a CLI request
is one step.  What the network, the heap and the calls answer is the `Bool` of the action.

`trace` records what happened, and a message or a capture is known by its index there: an ack id stands for
the message it came with.  A restart from the cloud ends a run, telemetry and the timers are left out.
-/

namespace IotcRa8p1.App.Poll

open Sdk (AppState)

/-- The two transfers, `s_model_*` and `s_snapshot_*`. -/
inductive Kind where
  | model
  | snapshot
  deriving DecidableEq

/-- The status of an OTA ack. -/
inductive OtaStatus where
  | downloading
  | failed
  | downloadFailed
  | downloadDone
  deriving DecidableEq

/-- How `prv_on_ota` takes a message. -/
inductive OtaVerdict where
  | noUrl
  | busy
  | accepted
  deriving DecidableEq

/-- A command is refused, or gets the result of the capture that started at an index of the trace. -/
inductive CommandResult where
  | refused
  | captured (start : ℕ) (ok : Bool)
  deriving DecidableEq

inductive Event where
  /-- `iotconnect_sdk_deinit` -/
  | deinit
  /-- `iotc_config_load` -/
  | load
  /-- `iotconnect_sdk_connect` succeeds -/
  | opened
  /-- `iotc_app_request_restart` -/
  | request
  /-- `prv_xfer_start` sets the running flag -/
  | set (k : Kind)
  /-- the transfer task sees the flag -/
  | begin (k : Kind)
  /-- the transfer task clears the flag -/
  | finish (k : Kind)
  /-- an OTA message, with an ack id or not -/
  | ota (ack : Bool) (verdict : OtaVerdict)
  /-- an ack for the OTA message at an index -/
  | otaAck (message : ℕ) (status : OtaStatus)
  /-- a snapshot command, with an ack id or not -/
  | command (ack : Bool) (accepted : Bool)
  | commandAck (message : ℕ) (result : CommandResult)
  /-- `iotc_snapshot_capture_upload` starts -/
  | capture
  deriving DecidableEq

/-- The next instruction of the net thread. -/
inductive NetPc where
  | poll
  | restartBusy (k : Kind)
  | restartClear
  | restartDeinit
  | restartIdle
  | switch
  | load
  | setStarting
  | timeSync
  | init
  | connect
  | setRunning
  | connected
  | pendingTest (k : Kind)
  | runningTest (k : Kind)
  | heapTest
  | create (k : Kind)
  | set (k : Kind)
  | give (k : Kind)
  | retry
  | retryBusy (k : Kind)
  | retryDeinit
  | retryIdle
  deriving DecidableEq

/-- The locals of `prv_model_push_execute`: which message `host` and `res` came with, and `ack_id`. -/
structure Push where
  url : Option ℕ
  ack : Option ℕ
  deriving DecidableEq

/-- The next instruction of the transfer task. -/
inductive XferPc where
  | take
  | check (k : Kind)
  | read
  | download (attempt : ℕ) (p : Push)
  | lostHeap (p : Push)
  | unwrap (p : Push)
  | swap (p : Push)
  | ack (p : Push) (status : OtaStatus)
  | release
  | capture
  | upload (start : ℕ)
  | ackTest (start : ℕ) (ok : Bool)
  | sendAck (start : ℕ) (ok : Bool)
  | releaseAck
  | clearPending (k : Kind)
  | clear (k : Kind)
  deriving DecidableEq

structure St where
  appState : AppState
  /-- `s_restart_req` -/
  restartReq : Bool
  /-- `s_model_pending`, `s_snapshot_pending` -/
  pending : Kind → Bool
  /-- `s_model_running`, `s_snapshot_running` -/
  running : Kind → Bool
  /-- the notification value of the transfer task -/
  notified : ℕ
  /-- the message `s_model_host` and `s_model_res` came with -/
  modelUrl : Option ℕ
  /-- `s_model_ack_id` -/
  modelAck : Option ℕ
  /-- `s_snapshot_ack_id` -/
  snapshotAck : Option ℕ
  net : NetPc
  /-- the transfer task, once it is created -/
  xfer : Option XferPc
  trace : List Event

def boot : St where
  appState := .idle
  restartReq := false
  pending _ := false
  running _ := false
  notified := 0
  modelUrl := none
  modelAck := none
  snapshotAck := none
  net := .poll
  xfer := none
  trace := []

/-! ### `iotc_app_poll` -/

/-- Where a poll goes on when it has started a transfer or not. -/
def afterStart : Kind → NetPc
  | .model => .pendingTest .snapshot
  | .snapshot => .poll

/-- One instruction of the net thread. -/
def netStep (s : St) (yes : Bool) : St :=
  match s.net with
  | .poll => { s with net := if s.restartReq = true then .restartBusy .model else .switch }
  -- `prv_xfer_busy`
  | .restartBusy .model =>
    { s with net := if s.running .model = true then .switch else .restartBusy .snapshot }
  | .restartBusy .snapshot =>
    { s with net := if s.running .snapshot = true then .switch else .restartClear }
  | .restartClear => { s with restartReq := false, net := .restartDeinit }
  | .restartDeinit => { s with net := .restartIdle, trace := s.trace ++ [.deinit] }
  | .restartIdle => { s with appState := .idle, net := .switch }
  | .switch =>
    match s.appState with
    | .idle => { s with net := if yes = true then .load else .poll }
    | .starting => { s with net := .poll }
    | .running => { s with net := .connected }
    | .failed => { s with net := .retry }
  | .load => { s with net := if yes = true then .setStarting else .poll, trace := s.trace ++ [.load] }
  | .setStarting => { s with appState := .starting, net := .timeSync }
  | .timeSync =>
    if yes = true then { s with net := .init } else { s with appState := .idle, net := .poll }
  | .init =>
    if yes = true then { s with net := .connect } else { s with appState := .failed, net := .poll }
  | .connect =>
    if yes = true then { s with net := .setRunning, trace := s.trace ++ [.opened] }
    else { s with appState := .failed, net := .poll }
  | .setRunning => { s with appState := .running, net := .poll }
  | .connected =>
    if yes = true then { s with net := .pendingTest .model }
    else { s with appState := .failed, net := .poll }
  | .pendingTest k => { s with net := if s.pending k = true then .runningTest k else afterStart k }
  | .runningTest .model =>
    { s with net := if s.running .model = true then afterStart .model else .heapTest }
  | .runningTest .snapshot =>
    { s with net := if s.running .snapshot = true then afterStart .snapshot else .create .snapshot }
  | .heapTest => { s with net := if yes = true then .create .model else afterStart .model }
  -- `prv_xfer_start`
  | .create k =>
    match s.xfer with
    | none => { s with xfer := some .take, net := .set k }
    | some _ => { s with net := .set k }
  | .set k =>
    { s with running := Function.update s.running k true, net := .give k, trace := s.trace ++ [.set k] }
  | .give k => { s with notified := s.notified + 1, net := afterStart k }
  | .retry => { s with net := if yes = true then .retryBusy .model else .poll }
  | .retryBusy .model =>
    { s with net := if s.running .model = true then .poll else .retryBusy .snapshot }
  | .retryBusy .snapshot =>
    { s with net := if s.running .snapshot = true then .poll else .retryDeinit }
  | .retryDeinit => { s with net := .retryIdle, trace := s.trace ++ [.deinit] }
  | .retryIdle => { s with appState := .idle, net := .poll }

/-! ### `prv_xfer_task` -/

/-- Where the task goes on behind a transfer. -/
def afterTransfer : Kind → XferPc
  | .model => .check .snapshot
  | .snapshot => .take

/-- `prv_model_push_execute` or `prv_snapshot_execute`. -/
def execute : Kind → XferPc
  | .model => .read
  | .snapshot => .capture

/-- One instruction of the transfer task. -/
def xferStep (s : St) (pc : XferPc) (yes : Bool) : St :=
  match pc with
  | .take => { s with notified := 0, xfer := some (.check .model) }
  | .check k =>
    if s.running k = true then { s with xfer := some (execute k), trace := s.trace ++ [.begin k] }
    else { s with xfer := some (afterTransfer k) }
  | .read => { s with xfer := some (.download 1 ⟨s.modelUrl, s.modelAck⟩) }
  | .download attempt p =>
    if yes = true then { s with xfer := some (.unwrap p) }
    else if attempt < 3 then { s with xfer := some (.download (attempt + 1) p) }
    else { s with xfer := some (.lostHeap p) }
  -- stays pending when the heap is short
  | .lostHeap p =>
    { s with xfer := some (if yes = true then .clear .model else .ack p .downloadFailed) }
  | .unwrap p => { s with xfer := some (if yes = true then .swap p else .ack p .downloadFailed) }
  | .swap p => { s with xfer := some (.ack p (if yes = true then .downloadDone else .downloadFailed)) }
  | .ack p status =>
    match p.ack with
    | some message => { s with xfer := some .release, trace := s.trace ++ [.otaAck message status] }
    | none => { s with xfer := some .release }
  | .release => { s with modelUrl := none, modelAck := none, xfer := some (.clearPending .model) }
  | .capture => { s with xfer := some (.upload s.trace.length), trace := s.trace ++ [.capture] }
  | .upload start => { s with xfer := some (.ackTest start yes) }
  | .ackTest start ok =>
    { s with xfer := some (if s.snapshotAck.isSome = true then .sendAck start ok
      else .clearPending .snapshot) }
  | .sendAck start ok =>
    match s.snapshotAck with
    | some message =>
      { s with xfer := some .releaseAck, trace := s.trace ++ [.commandAck message (.captured start ok)] }
    | none => { s with xfer := some .releaseAck }
  | .releaseAck => { s with snapshotAck := none, xfer := some (.clearPending .snapshot) }
  | .clearPending k =>
    { s with pending := Function.update s.pending k false, xfer := some (.clear k) }
  | .clear k =>
    { s with
      running := Function.update s.running k false
      xfer := some (afterTransfer k)
      trace := s.trace ++ [.finish k] }

/-! ### Callbacks and the CLI -/

/-- The index of the next event, when it is a message with an ack id. -/
def ackId (s : St) (ack : Bool) : Option ℕ := if ack = true then some s.trace.length else none

/-- An OTA message and the ack it is answered with at once. -/
def otaEvents (s : St) (ack : Bool) (verdict : OtaVerdict) (status : OtaStatus) : List Event :=
  .ota ack verdict :: (if ack = true then [.otaAck s.trace.length status] else [])

/-- `prv_on_ota` -/
def prvOnOta (s : St) (url ack : Bool) : St :=
  if url = false then { s with trace := s.trace ++ otaEvents s ack .noUrl .failed }
  else if s.pending .model = true then { s with trace := s.trace ++ otaEvents s ack .busy .failed }
  else
    { s with
      modelUrl := some s.trace.length
      modelAck := ackId s ack
      pending := Function.update s.pending .model true
      trace := s.trace ++ otaEvents s ack .accepted .downloading }

/-- `prv_on_command` on "snapshot" -/
def prvOnCommand (s : St) (ack : Bool) : St :=
  if s.pending .snapshot = true then
    { s with trace := s.trace ++
        .command ack false :: (if ack = true then [.commandAck s.trace.length .refused] else []) }
  else
    { s with
      snapshotAck := ackId s ack
      pending := Function.update s.pending .snapshot true
      trace := s.trace ++ [.command ack true] }

/-- `iotc_app_request_snapshot` -/
def requestSnapshot (s : St) : St :=
  { s with pending := Function.update s.pending .snapshot true }

/-- `iotc_app_request_restart` -/
def requestRestart (s : St) : St := { s with restartReq := true, trace := s.trace ++ [.request] }

inductive Action where
  | net (yes : Bool)
  | xfer (yes : Bool)
  | ota (url ack : Bool)
  | command (ack : Bool)
  | cliSnapshot
  | cliApply
  deriving DecidableEq

/-- `ulTaskNotifyTake` waits for a notification. -/
def xferReady (s : St) : XferPc → Bool
  | .take => s.notified != 0
  | _ => true

def step (s : St) : Action → Option St
  | .net yes => some (netStep s yes)
  | .xfer yes =>
    match s.xfer with
    | none => none
    | some pc => if xferReady s pc = true then some (xferStep s pc yes) else none
  | .ota url ack => some (prvOnOta s url ack)
  | .command ack => some (prvOnCommand s ack)
  | .cliSnapshot => some (requestSnapshot s)
  | .cliApply => some (requestRestart s)

theorem step_xfer {s s' : St} {yes : Bool} (h : step s (.xfer yes) = some s') :
    ∃ pc, s.xfer = some pc ∧ xferReady s pc = true ∧ s' = xferStep s pc yes := by
  rw [step] at h
  cases hx : s.xfer with
  | none => simp [hx] at h
  | some pc =>
    simp only [hx, Option.ite_none_right_eq_some, Option.some.injEq] at h
    exact ⟨pc, rfl, h.1, h.2.symm⟩

end IotcRa8p1.App.Poll
