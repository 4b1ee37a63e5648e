import IotcRa8p1.App.ModelPush
import IotcRa8p1.Lib.Machine
import IotcRa8p1.Vision.FaceDetection

/-!
# The vision component over time

The events of the component, each taken as a whole: a model push with what it downloaded, one
`face_detection_run`, a revert, a reboot with whatever SDRAM holds then.  The interleaving of their
sub-steps is another machine; this one is for properties that already need every order of the whole
events.

Two ghosts record the history: whether the queued swap came from a push, and the last cloud model
whose swap succeeded (a revert clears it).
-/

namespace IotcRa8p1.Vision

open ByteMem CString Machine NorFlash ModelStore App

/-- The part of `prv_model_push_execute` behind the download: the unwrap, then the request.  `buf` is
the pending buffer as the download left it. -/
def pushExecute (v : State) (buf : Mem) (got : ℕ) : State × Option String :=
  let v := { v with pending := buf }
  match unwrapZip v.pending got with
  | .error reason => (v, some reason)
  | .ok (b, n) => faceDetectionRequestSwap { v with pending := b } none n

/-- A model by what a reboot can show of it. -/
structure CloudModel where
  payload : List UInt8
  name : List UInt8
  ver : ℕ
  deriving DecidableEq, Repr

structure Sys where
  st : State
  queuedByPush : Bool
  lastCloud : Option CloudModel

inductive Event where
  | push (buf : Mem) (got : ℕ)
  | run (ans : SwapAnswers)
  | revert (erase : OpAnswer)
  | reboot (staging pending : Mem) (ans : BootAnswers)

/-- The model a blob carries. -/
def blobModel (blob : Mem) : CloudModel :=
  ⟨payload blob, hdrName (iotvHdr blob), (iotvHdr blob).modelVer⟩

/-- The first boot. -/
def boot (builtin : List UInt8) (staging pending slot : Mem) (ans : BootAnswers) : Sys :=
  ⟨(faceDetectionInit builtin (powerOn staging pending slot) ans).1, false, none⟩

/-- One event.  A download never exceeds the pending buffer. -/
def step (builtin : List UInt8) (s : Sys) : Event → Option Sys
  | .push buf got =>
    if got ≤ modelMaxBlob then
      let r := pushExecute s.st buf got
      some { s with st := r.1, queuedByPush := if r.2 = none then true else s.queuedByPush }
    else none
  | .run ans =>
    let swapOk := (swapApply (swapped s.st) ans.first).2
    some { s with
      st := prvSwapIfPending builtin s.st ans
      lastCloud := if s.st.pendingLen ≠ 0 ∧ s.queuedByPush ∧ swapOk then
        some (blobModel s.st.pending) else s.lastCloud }
  | .revert erase =>
    some ⟨faceDetectionRevert builtin s.st erase, s.queuedByPush && builtin.isEmpty, none⟩
  | .reboot staging pending ans =>
    some { boot builtin staging pending s.st.slot ans with lastCloud := s.lastCloud }

/-- A push touches the pending buffer and its length only. -/
theorem pushExecute_frame (v : State) (buf : Mem) (got : ℕ) :
    (pushExecute v buf got).1 = { v with
      pending := (pushExecute v buf got).1.pending
      pendingLen := (pushExecute v buf got).1.pendingLen } := by
  rw [pushExecute]
  split
  · rfl
  · rw [faceDetectionRequestSwap]
    split
    · rfl
    · split_ifs <;> rfl

/-- An accepted push leaves a valid blob in a queue that was empty. -/
theorem pushExecute_accepted {v : State} {buf : Mem} {got : ℕ}
    (h : (pushExecute v buf got).2 = none) :
    v.pendingLen = 0 ∧
      IotvValid (pushExecute v buf got).1.pending (pushExecute v buf got).1.pendingLen := by
  rw [pushExecute] at h ⊢
  cases hun : unwrapZip buf got with
  | error reason =>
    rw [hun] at h
    contradiction
  | ok r =>
    rw [hun] at h
    simp only [faceDetectionRequestSwap, Option.getD_none] at h ⊢
    cases hv : iotvValidate r.1 r.2 with
    | some reason =>
      rw [hv] at h
      contradiction
    | none =>
      rw [hv] at h
      by_cases hq : v.pendingLen ≠ 0
      · simp only [if_pos hq] at h
        contradiction
      · simp only [if_neg hq]
        exact ⟨not_not.mp hq, (iotvValidate_eq_none_iff _ _).mp hv⟩

/-- A revert touches the pending buffer, its length and the flash slot only. -/
theorem faceDetectionRevert_frame (builtin : List UInt8) (v : State) (erase : OpAnswer) :
    faceDetectionRevert builtin v erase = { v with
      pending := (faceDetectionRevert builtin v erase).pending
      pendingLen := (faceDetectionRevert builtin v erase).pendingLen
      slot := applyOps (modelStoreErase erase).2 v.slot } := by
  by_cases hb : builtin = []
  · simp only [faceDetectionRevert, if_pos hb]
  · simp only [faceDetectionRevert, if_neg hb]
    rfl

/-- A state of the component some sequence of events leads to. -/
def Reachable (builtin : List UInt8) (v : State) : Prop :=
  ∃ staging pending slot ans events t,
    runs (step builtin) events (boot builtin staging pending slot ans) = some t ∧ t.st = v

variable {builtin : List UInt8} {v : State}

theorem reachable_boot (builtin : List UInt8) (staging pending slot : Mem) (ans : BootAnswers) :
    Reachable builtin (boot builtin staging pending slot ans).st :=
  ⟨staging, pending, slot, ans, [], _, rfl, rfl⟩

/-- One more event. -/
theorem Reachable.step {w : State} (h : Reachable builtin v) (e : Event)
    (hstep : ∀ s : Sys, s.st = v → ∃ t, step builtin s e = some t ∧ t.st = w) :
    Reachable builtin w := by
  obtain ⟨staging, pending, slot, ans, events, t, hrun, ht⟩ := h
  obtain ⟨u, hu, hw⟩ := hstep t ht
  refine ⟨staging, pending, slot, ans, events ++ [e], u, ?_, hw⟩
  rw [runs_append, hrun, Option.bind_some, runs_cons, hu, Option.bind_some, runs_nil]

theorem Reachable.push (h : Reachable builtin v) (buf : Mem) {got : ℕ} (hgot : got ≤ modelMaxBlob) :
    Reachable builtin (pushExecute v buf got).1 := by
  refine h.step (.push buf got) fun s hs => ⟨_, if_pos hgot, ?_⟩
  rw [← hs]

theorem Reachable.run (h : Reachable builtin v) (ans : SwapAnswers) :
    Reachable builtin (prvSwapIfPending builtin v ans) := by
  refine h.step (.run ans) fun s hs => ⟨_, rfl, ?_⟩
  rw [← hs]

end IotcRa8p1.Vision
