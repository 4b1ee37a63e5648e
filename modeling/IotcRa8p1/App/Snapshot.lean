import IotcRa8p1.App.Acks

/-!
# Requests for a snapshot (`iotc_app.c`)

`s_snapshot_pending` is set by the CLI without a look at it, by a cloud command when it was not set, and
cleared by the transfer task at the end of the upload.  A request that sets a flag which is set already is
served by the capture under way only when that capture has not started yet.

`requests` remembers every accepted request by the length of the trace when it was made: an event recorded
at that index or behind it came later.
-/

namespace IotcRa8p1.App.Poll

open Machine

structure Snap where
  base : St
  requests : List ℕ

/-- The action asks for a snapshot and is not refused. -/
def accepts (s : St) : Action → Bool
  | .cliSnapshot => true
  | .command _ => !s.pending .snapshot
  | _ => false

def snapStep (c : Snap) (a : Action) : Option Snap :=
  (step c.base a).map fun s =>
    ⟨s, if accepts c.base a = true then c.requests ++ [c.base.trace.length] else c.requests⟩

def snapBoot : Snap := ⟨boot, []⟩

/-- A capture started behind the request. -/
def Served (events : List Event) (request : ℕ) : Prop :=
  ∃ start, request ≤ start ∧ events[start]? = some .capture

/-- Where the flag is cleared, every request made so far is served. -/
def NoneLost (c : Snap) (_ : Action) (c' : Snap) : Prop :=
  c.base.pending .snapshot = true → c'.base.pending .snapshot = false →
    ∀ request ∈ c'.requests, Served c'.base.trace request

/-- From the start of a capture until the flag is cleared. -/
def XferPc.capturing : XferPc → Bool
  | .upload _ => true
  | .ackTest _ _ => true
  | .sendAck _ _ => true
  | .releaseAck => true
  | .clearPending .snapshot => true
  | _ => false

def capturing (s : St) : Bool := (s.xfer.map XferPc.capturing).getD false

/-- No request is accepted while a capture is under way. -/
def Spaced (c : Snap) (a : Action) : Prop := accepts c.base a = true → capturing c.base = false

instance (c : Snap) (a : Action) : Decidable (Spaced c a) := inferInstanceAs (Decidable (_ → _))

/-- No request lies ahead of the trace, and behind the start of a capture all are served. -/
structure SnapInv (c : Snap) : Prop where
  past : ∀ request ∈ c.requests, request ≤ c.base.trace.length
  served : capturing c.base = true → ∀ request ∈ c.requests, Served c.base.trace request

theorem snapInv_boot : SnapInv snapBoot :=
  ⟨by simp [snapBoot], by simp [snapBoot]⟩

theorem Served.grow {s s' : St} {events : List Event} (h : s'.trace = s.trace ++ events) {request : ℕ}
    (hs : Served s.trace request) : Served s'.trace request := by
  obtain ⟨start, hle, hstart⟩ := hs
  exact ⟨start, hle, getElem?_kept h hstart⟩

theorem capturing_of_xfer {s : St} {pc : XferPc} (hx : s.xfer = some pc) :
    capturing s = pc.capturing := by
  rw [capturing, hx]
  rfl

/-- A capture under way has just started, or was under way before. -/
theorem xferStep_capturing (s : St) (pc : XferPc) (yes : Bool)
    (h : capturing (xferStep s pc yes) = true) :
    pc.capturing = true ∨ pc = .capture ∧ (xferStep s pc yes).trace = s.trace ++ [.capture] := by
  cases pc with
  | capture => exact Or.inr ⟨rfl, rfl⟩
  | upload | ackTest | sendAck | releaseAck => exact Or.inl rfl
  | clearPending k =>
    cases k with
    | model => simp [xferStep, capturing, XferPc.capturing] at h
    | snapshot => exact Or.inl rfl
  | check k =>
    rw [xferStep] at h
    split_ifs at h <;> cases k <;> simp [capturing, execute, afterTransfer, XferPc.capturing] at h
  | download attempt p =>
    rw [xferStep] at h
    split_ifs at h <;> simp [capturing, XferPc.capturing] at h
  | lostHeap p | unwrap p => cases yes <;> simp [xferStep, capturing, XferPc.capturing] at h
  | swap p => simp [xferStep, capturing, XferPc.capturing] at h
  | ack p status =>
    cases hack : p.ack <;> simp [xferStep, hack, capturing, XferPc.capturing] at h
  | clear k => cases k <;> simp [xferStep, capturing, afterTransfer, XferPc.capturing] at h
  | take | read | release => simp [xferStep, capturing, XferPc.capturing] at h

theorem netStep_capturing (s : St) (yes : Bool) : capturing (netStep s yes) = capturing s := by
  obtain hx | ⟨hx, hx'⟩ := (netStep_frame s yes).xfer
  · rw [capturing, hx, capturing]
  · rw [capturing, hx', capturing, hx]
    rfl

theorem not_accepts {c : Snap} {a : Action} (hok : Spaced c a) (h : capturing c.base = true) :
    accepts c.base a = false := by
  refine eq_false_of_ne_true fun hacc => ?_
  rw [hok hacc] at h
  contradiction

/-- **Step lemma.** -/
theorem snapInv_step {c c' : Snap} {a : Action} (h : SnapInv c) (hok : Spaced c a)
    (hstep : snapStep c a = some c') : SnapInv c' := by
  obtain ⟨s', hs', rfl⟩ := Option.map_eq_some_iff.mp hstep
  obtain ⟨events, htrace⟩ := step_trace hs'
  have hlen : c.base.trace.length ≤ s'.trace.length := by
    rw [htrace, List.length_append]
    omega
  constructor
  · intro request hmem
    dsimp only at hmem ⊢
    split_ifs at hmem
    · obtain hmem | hmem := List.mem_append.mp hmem
      · exact Nat.le_trans (h.past request hmem) hlen
      · rw [List.mem_singleton.mp hmem]
        exact hlen
    · exact Nat.le_trans (h.past request hmem) hlen
  · intro hcapturing request hmem
    dsimp only at hcapturing hmem ⊢
    obtain ⟨yes, rfl, rfl⟩ | ⟨yes, pc, rfl, hx, rfl⟩ | ⟨hnot, hasked⟩ := step_cases hs'
    · rw [netStep_capturing] at hcapturing
      exact (h.served hcapturing request hmem).grow htrace
    · obtain hpc | ⟨rfl, hcapture⟩ := xferStep_capturing c.base pc yes hcapturing
      · exact (h.served ((capturing_of_xfer hx).trans hpc) request hmem).grow htrace
      · -- the capture starts now, behind every request
        exact ⟨c.base.trace.length, h.past request hmem, by rw [hcapture]; simp⟩
    · have hsame : capturing c.base = true := by
        rwa [capturing, ← hasked.still.xfer]
      rw [not_accepts hok hsame] at hmem
      exact (h.served hsame request hmem).grow htrace

/-- Only the end of a snapshot clears the flag. -/
theorem pending_cleared {s s' : St} {a : Action} (h : step s a = some s')
    (hset : s.pending .snapshot = true) (hclear : s'.pending .snapshot = false) :
    s.xfer = some (.clearPending .snapshot) := by
  cases a with
  | net yes =>
    obtain rfl := Option.some.inj h
    rw [(netStep_frame s yes).pending, hset] at hclear
    contradiction
  | xfer yes =>
    obtain ⟨pc, hx, -, rfl⟩ := step_xfer h
    by_cases hpc : ∃ k, pc = .clearPending k
    · obtain ⟨k, rfl⟩ := hpc
      cases k with
      | snapshot => exact hx
      | model =>
        change Function.update s.pending .model false .snapshot = false at hclear
        rw [Function.update_of_ne (by decide), hset] at hclear
        contradiction
    · rw [xferStep_pending yes fun k hk => hpc ⟨k, hk⟩, hset] at hclear
      contradiction
  | ota url ack =>
    obtain rfl := Option.some.inj h
    rw [prvOnOta] at hclear
    split_ifs at hclear <;> simp [hset] at hclear
  | command ack =>
    obtain rfl := Option.some.inj h
    rw [prvOnCommand, if_pos hset] at hclear
    simp [hset] at hclear
  | cliSnapshot =>
    obtain rfl := Option.some.inj h
    simp [requestSnapshot] at hclear
  | cliApply =>
    obtain rfl := Option.some.inj h
    simp [requestRestart, hset] at hclear

/-- **Snapshot requests.**  In every run that accepts no request while a capture is under way, none is
lost. -/
theorem snapshots_noneLost (as : List Action) (h : Meets snapStep Spaced as snapBoot) :
    AllSteps snapStep NoneLost as snapBoot := by
  refine allSteps_of_invariant (I := SnapInv) snapInv_step ?_ snapInv_boot h
  intro c a c' hinv hok hstep hset hclear
  obtain ⟨s', hs', rfl⟩ := Option.map_eq_some_iff.mp hstep
  have hx := pending_cleared hs' hset hclear
  obtain ⟨events, htrace⟩ := step_trace hs'
  intro request hmem
  dsimp only at hmem ⊢
  have hcapturing : capturing c.base = true := capturing_of_xfer hx
  rw [not_accepts hok hcapturing] at hmem
  exact (hinv.served hcapturing request hmem).grow htrace

/-- A connect, a snapshot asked for at the CLI, and the transfer up to the start of the upload. -/
def snapshotRun : List Action :=
  List.replicate 8 (.net true) ++ .cliSnapshot :: List.replicate 9 (.net true) ++
    List.replicate 4 (.xfer true)

theorem snapshots_noneLost_one :
    AllSteps snapStep NoneLost (snapshotRun ++ List.replicate 4 (.xfer true)) snapBoot :=
  snapshots_noneLost _ (by decide +kernel)

/-- Asked for again during the upload. -/
theorem snapshots_lostDuringUpload :
    ¬ ∀ as : List Action, AllSteps snapStep NoneLost as snapBoot := by
  intro h
  obtain ⟨c, c', request, hrun, hstep, hset, hclear, hmem, hlen⟩ : ∃ c c' request,
      runs snapStep (snapshotRun ++ .cliSnapshot :: List.replicate 2 (.xfer true)) snapBoot = some c ∧
      snapStep c (.xfer true) = some c' ∧ c.base.pending .snapshot = true ∧
      c'.base.pending .snapshot = false ∧ c'.requests.getLast? = some request ∧
      c'.base.trace.length = request :=
    ⟨_, _, _, rfl, rfl, rfl, rfl, rfl, rfl⟩
  have hlost : NoneLost c (.xfer true) c' :=
    (h (snapshotRun ++ .cliSnapshot :: List.replicate 2 (.xfer true) ++ [.xfer true])).at hrun hstep
  obtain ⟨start, hle, hstart⟩ := hlost hset hclear request (List.mem_of_getLast? hmem)
  rw [← hlen] at hle
  rw [List.getElem?_eq_none hle] at hstart
  contradiction

end IotcRa8p1.App.Poll
