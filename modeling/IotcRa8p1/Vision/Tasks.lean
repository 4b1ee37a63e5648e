import IotcRa8p1.App.ModelPush
import IotcRa8p1.Lib.Machine
import IotcRa8p1.Vision.FaceDetection

/-!
# The three tasks around the pending buffer

The transfer task downloads a model straight into `s_model_pending`, unwraps it there and asks for the
swap; a revert on the MQTT task wraps the compiled-in model into the same buffer; the AI thread
consumes it in the sub-steps of `prv_swap_if_pending`.  `s_pending_len` is all they share besides the
buffer.  Here each of them is a program counter, and a run is any interleaving of their steps.

An action names the task that moves and carries what its environment answers.  The ghosts are the
number of pushes started, who wrote the buffer last, the blob at the last store of `s_pending_len`,
the pushes answered "swap already pending", and whether a revert was the last request.
-/

namespace IotcRa8p1.Vision.Tasks

open ByteMem CString Machine NorFlash ModelStore App

/-- Who wrote the pending buffer. -/
inductive Origin where
  | boot
  | push (n : ℕ)
  | revert
  deriving DecidableEq, Repr

/-- The pending buffer and `s_pending_len` at the store that queued them. -/
structure Queued where
  blob : Mem
  len : ℕ
  origin : Origin

/-- `prv_model_push_execute` on the transfer task. -/
inductive XferPc where
  | idle
  | downloading
  | downloaded (got : ℕ)
  | unwrapped (got : ℕ)
  | validated (got : ℕ)
  | tested (got : ℕ)
  deriving DecidableEq, Repr

/-- `face_detection_revert` behind its erase, in a build with a compiled-in model. -/
inductive RevertPc where
  | idle
  | erased
  | copied
  | wrapped
  deriving DecidableEq, Repr

/-- `face_detection_run` on the AI thread.  `len` and `fb` are the locals of
`prv_swap_if_pending`. -/
inductive AiPc where
  | idle
  | read (len : ℕ)
  | staged (len : ℕ)
  | named (len : ℕ) (fb : Bool)
  | save (len : ℕ)
  | clear
  | infer
  deriving DecidableEq, Repr

structure Cfg where
  st : State
  xfer : XferPc
  revert : RevertPc
  ai : AiPc
  pushes : ℕ
  writer : Origin
  queued : Option Queued
  refused : List ℕ
  reverted : Bool

/-- The transfer task: start, write some downloaded bytes (also those of a later attempt), end of the
download, failure, unwrap, `iotv_validate`, the test of `s_pending_len`, its store. -/
inductive XferAct where
  | start
  | write (off : ℕ) (bytes : List UInt8)
  | got (n : ℕ)
  | fail
  | unwrap
  | validate
  | test
  | set

inductive RevertAct where
  | start (erase : OpAnswer)
  | copy
  | wrap
  | set

inductive Action where
  | xfer (a : XferAct)
  | revert (a : RevertAct)
  | ai (ans : SwapAnswers)
  | reboot (staging pending : Mem) (ans : BootAnswers)

def xferStep (c : Cfg) : XferAct → Option Cfg
  | .start =>
    if c.xfer = .idle then some { c with xfer := .downloading, pushes := c.pushes + 1 } else none
  | .write off bytes =>
    if c.xfer = .downloading ∧ off + bytes.length ≤ modelMaxBlob then
      some { c with
        st := { c.st with pending := store c.st.pending off bytes }
        writer := .push c.pushes }
    else none
  | .got n =>
    if c.xfer = .downloading ∧ n ≤ modelMaxBlob then some { c with xfer := .downloaded n } else none
  | .fail => if c.xfer = .downloading then some { c with xfer := .idle } else none
  | .unwrap =>
    match c.xfer with
    | .downloaded got =>
      match unwrapZip c.st.pending got with
      | .error _ => some { c with xfer := .idle }
      | .ok (b, n) =>
        some { c with
          st := { c.st with pending := b }, xfer := .unwrapped n, writer := .push c.pushes }
    | _ => none
  | .validate =>
    match c.xfer with
    | .unwrapped n =>
      if iotvValidate c.st.pending n = none then some { c with xfer := .validated n }
      else some { c with xfer := .idle }
    | _ => none
  | .test =>
    match c.xfer with
    | .validated n =>
      if c.st.pendingLen ≠ 0 then
        some { c with xfer := .idle, refused := c.pushes :: c.refused }
      else some { c with xfer := .tested n }
    | _ => none
  | .set =>
    match c.xfer with
    | .tested n =>
      some { c with
        st := { c.st with pendingLen := n }, xfer := .idle
        queued := some ⟨c.st.pending, n, .push c.pushes⟩, reverted := false }
    | _ => none

def revertStep (builtin : List UInt8) (c : Cfg) : RevertAct → Option Cfg
  | .start erase =>
    if c.revert = .idle then
      let st := { c.st with slot := applyOps (modelStoreErase erase).2 c.st.slot }
      if builtin = [] then some { c with st := st, reverted := true }
      else some { c with st := st, revert := .erased, reverted := true }
    else none
  | .copy =>
    if c.revert = .erased then
      some { c with st := revertCopy builtin c.st, revert := .copied, writer := .revert }
    else none
  | .wrap =>
    if c.revert = .copied then
      some { c with st := revertWrap builtin c.st, revert := .wrapped, writer := .revert }
    else none
  | .set =>
    if c.revert = .wrapped then
      some { c with
        st := revertQueue builtin c.st, revert := .idle
        queued := some ⟨c.st.pending, builtin.length + iotvHdrLen, .revert⟩ }
    else none

/-- The AI thread; the step from `infer` is the `IsInited()` check and the inference. -/
def aiStep (builtin : List UInt8) (c : Cfg) (ans : SwapAnswers) : Cfg :=
  match c.ai with
  | .idle =>
    if c.st.pendingLen = 0 then { c with ai := .infer } else { c with ai := .read c.st.pendingLen }
  | .read len => { c with st := swapStage c.st, ai := .staged len }
  | .staged len => { c with st := swapMeta c.st, ai := .named len (fromBuiltin c.st.pending) }
  | .named len fb =>
    let r := swapApply c.st ans.first
    if r.2 then
      if fb then { c with st := r.1, ai := .clear } else { c with st := r.1, ai := .save len }
    else { c with st := swapFallback builtin r.1 ans.reload, ai := .clear }
  | .save len => { c with st := swapSave ans.drv len c.st, ai := .clear }
  | .clear => { c with st := swapDone c.st, ai := .infer }
  | .infer => { c with ai := .idle }

/-- The configuration after a boot. -/
def bootCfg (builtin : List UInt8) (staging pending slot : Mem) (ans : BootAnswers) : Cfg where
  st := (faceDetectionInit builtin (powerOn staging pending slot) ans).1
  xfer := .idle
  revert := .idle
  ai := .idle
  pushes := 0
  writer := .boot
  queued := none
  refused := []
  reverted := false

def step (builtin : List UInt8) (c : Cfg) : Action → Option Cfg
  | .xfer a => xferStep c a
  | .revert a => revertStep builtin c a
  | .ai ans => some (aiStep builtin c ans)
  | .reboot staging pending ans =>
    some { bootCfg builtin staging pending c.st.slot ans with reverted := c.reverted }

/-! ### What each task can do -/

/-- What the transfer task leaves alone. -/
structure XferFrame (c c' : Cfg) : Prop where
  st : c'.st = { c.st with pending := c'.st.pending, pendingLen := c'.st.pendingLen }
  revert : c'.revert = c.revert
  ai : c'.ai = c.ai

/-- **Transfer steps.**  A step starts a push, or goes on with one (it may write the buffer, and it may
be refused, when something is queued), or stores the length. -/
theorem xferStep_cases {c c' : Cfg} {a : XferAct} (h : xferStep c a = some c') :
    XferFrame c c' ∧
      ((a = .start ∧ c'.st = c.st ∧ c'.queued = c.queued ∧ c'.refused = c.refused ∧
          c'.reverted = c.reverted) ∨
        (c.xfer ≠ .idle ∧ c'.st.pendingLen = c.st.pendingLen ∧ c'.queued = c.queued ∧
          (c'.refused = c.refused ∨ c.st.pendingLen ≠ 0) ∧ c'.reverted = c.reverted) ∨
        ∃ n, c.xfer = .tested n ∧ c'.xfer = .idle ∧ c'.st = { c.st with pendingLen := n } ∧
          c'.queued = some ⟨c.st.pending, n, .push c.pushes⟩ ∧ c'.refused = c.refused ∧
          c'.reverted = false) := by
  cases a with
  | start =>
    simp only [xferStep] at h
    split_ifs at h with hx
    obtain rfl := Option.some.inj h
    exact ⟨⟨rfl, rfl, rfl⟩, Or.inl ⟨rfl, rfl, rfl, rfl, rfl⟩⟩
  | write off bytes =>
    simp only [xferStep] at h
    split_ifs at h with hx
    obtain rfl := Option.some.inj h
    exact ⟨⟨rfl, rfl, rfl⟩, Or.inr (Or.inl ⟨by rw [hx.1]; decide, rfl, rfl, Or.inl rfl, rfl⟩)⟩
  | got n =>
    simp only [xferStep] at h
    split_ifs at h with hx
    obtain rfl := Option.some.inj h
    exact ⟨⟨rfl, rfl, rfl⟩, Or.inr (Or.inl ⟨by rw [hx.1]; decide, rfl, rfl, Or.inl rfl, rfl⟩)⟩
  | fail =>
    simp only [xferStep] at h
    split_ifs at h with hx
    obtain rfl := Option.some.inj h
    exact ⟨⟨rfl, rfl, rfl⟩, Or.inr (Or.inl ⟨by rw [hx]; decide, rfl, rfl, Or.inl rfl, rfl⟩)⟩
  | unwrap =>
    simp only [xferStep] at h
    split at h
    · rename_i got hx
      have hne : c.xfer ≠ .idle := by rw [hx]; exact fun h => nomatch h
      split at h <;> obtain rfl := Option.some.inj h <;>
        exact ⟨⟨rfl, rfl, rfl⟩, Or.inr (Or.inl ⟨hne, rfl, rfl, Or.inl rfl, rfl⟩)⟩
    · contradiction
  | validate =>
    simp only [xferStep] at h
    split at h
    · rename_i n hx
      have hne : c.xfer ≠ .idle := by rw [hx]; exact fun h => nomatch h
      split_ifs at h <;> obtain rfl := Option.some.inj h <;>
        exact ⟨⟨rfl, rfl, rfl⟩, Or.inr (Or.inl ⟨hne, rfl, rfl, Or.inl rfl, rfl⟩)⟩
    · contradiction
  | test =>
    simp only [xferStep] at h
    split at h
    · rename_i n hx
      have hne : c.xfer ≠ .idle := by rw [hx]; exact fun h => nomatch h
      split_ifs at h with hq <;> obtain rfl := Option.some.inj h
      · exact ⟨⟨rfl, rfl, rfl⟩, Or.inr (Or.inl ⟨hne, rfl, rfl, Or.inr hq, rfl⟩)⟩
      · exact ⟨⟨rfl, rfl, rfl⟩, Or.inr (Or.inl ⟨hne, rfl, rfl, Or.inl rfl, rfl⟩)⟩
    · contradiction
  | set =>
    simp only [xferStep] at h
    split at h
    · rename_i n hx
      obtain rfl := Option.some.inj h
      exact ⟨⟨rfl, rfl, rfl⟩, Or.inr (Or.inr ⟨n, hx, rfl, rfl, rfl, rfl, rfl⟩)⟩
    · contradiction

/-- What a revert leaves alone. -/
structure RevertFrame (c c' : Cfg) : Prop where
  xfer : c'.xfer = c.xfer
  ai : c'.ai = c.ai
  model : c'.st.model = c.st.model
  refused : c'.refused = c.refused

/-- **Revert steps.**  A step erases the store (and is done, without a compiled-in model), or writes the
buffer, or stores the length. -/
theorem revertStep_cases {builtin : List UInt8} {c c' : Cfg} {a : RevertAct}
    (h : revertStep builtin c a = some c') :
    RevertFrame c c' ∧
      ((∃ erase, a = .start erase ∧
          c'.st = { c.st with slot := applyOps (modelStoreErase erase).2 c.st.slot } ∧
          (builtin = [] → c'.revert = c.revert) ∧ c'.queued = c.queued ∧ c'.reverted = true) ∨
        (c.revert ≠ .idle ∧ c'.st.pendingLen = c.st.pendingLen ∧ c'.queued = c.queued) ∨
        (c.revert ≠ .idle ∧ c'.revert = .idle ∧ c'.st = revertQueue builtin c.st ∧
          c'.queued = some ⟨c.st.pending, builtin.length + iotvHdrLen, .revert⟩)) := by
  cases a with
  | start erase =>
    simp only [revertStep] at h
    split_ifs at h with hr hb
    · obtain rfl := Option.some.inj h
      exact ⟨⟨rfl, rfl, rfl, rfl⟩, Or.inl ⟨erase, rfl, rfl, fun _ => rfl, rfl, rfl⟩⟩
    · obtain rfl := Option.some.inj h
      exact ⟨⟨rfl, rfl, rfl, rfl⟩, Or.inl ⟨erase, rfl, rfl, fun hb' => absurd hb' hb, rfl, rfl⟩⟩
  | copy =>
    simp only [revertStep] at h
    split_ifs at h with hr
    obtain rfl := Option.some.inj h
    exact ⟨⟨rfl, rfl, rfl, rfl⟩, Or.inr (Or.inl ⟨by rw [hr]; decide, rfl, rfl⟩)⟩
  | wrap =>
    simp only [revertStep] at h
    split_ifs at h with hr
    obtain rfl := Option.some.inj h
    exact ⟨⟨rfl, rfl, rfl, rfl⟩, Or.inr (Or.inl ⟨by rw [hr]; decide, rfl, rfl⟩)⟩
  | set =>
    simp only [revertStep] at h
    split_ifs at h with hr
    obtain rfl := Option.some.inj h
    exact ⟨⟨rfl, rfl, rfl, rfl⟩, Or.inr (Or.inr ⟨by rw [hr]; decide, rfl, rfl, rfl⟩)⟩

/-- The local `len` of a swap in progress. -/
def AiPc.len : AiPc → Option ℕ
  | .read len => some len
  | .staged len => some len
  | .named len _ => some len
  | .save len => some len
  | _ => none

/-- What the AI thread leaves alone. -/
structure AiFrame (c c' : Cfg) : Prop where
  xfer : c'.xfer = c.xfer
  revert : c'.revert = c.revert
  pending : c'.st.pending = c.st.pending
  queued : c'.queued = c.queued
  refused : c'.refused = c.refused
  reverted : c'.reverted = c.reverted

theorem swapStage_pending (v : State) :
    (swapStage v).pending = v.pending ∧ (swapStage v).pendingLen = v.pendingLen := by
  simp only [swapStage, prvModelTeardown, and_self]

theorem swapApply_pending (v : State) (o : InitOutcome) :
    (swapApply v o).1.pending = v.pending ∧ (swapApply v o).1.pendingLen = v.pendingLen := by
  simp only [swapApply, prvModelApply_eq, and_self]

theorem swapFallback_pending (builtin : List UInt8) (v : State) (o : InitOutcome) :
    (swapFallback builtin v o).pending = v.pending ∧
      (swapFallback builtin v o).pendingLen = v.pendingLen := by
  by_cases hb : builtin = []
  · subst hb
    simp only [swapFallback_nil, prvModelApply_eq, and_self]
  · simp only [swapFallback_builtin hb, and_self]

section

variable {builtin : List UInt8} {c : Cfg} {ans : SwapAnswers} {len : ℕ} {fb : Bool}

theorem aiStep_idle_none (h : c.ai = .idle) (hq : c.st.pendingLen = 0) :
    aiStep builtin c ans = { c with ai := .infer } := by
  simp only [aiStep, h, if_pos hq]

theorem aiStep_idle_queued (h : c.ai = .idle) (hq : c.st.pendingLen ≠ 0) :
    aiStep builtin c ans = { c with ai := .read c.st.pendingLen } := by
  simp only [aiStep, h, if_neg hq]

theorem aiStep_read (h : c.ai = .read len) :
    aiStep builtin c ans = { c with st := swapStage c.st, ai := .staged len } := by
  simp only [aiStep, h]

theorem aiStep_staged (h : c.ai = .staged len) :
    aiStep builtin c ans =
      { c with st := swapMeta c.st, ai := .named len (fromBuiltin c.st.pending) } := by
  simp only [aiStep, h]

theorem aiStep_named_ok (h : c.ai = .named len fb) (hok : (swapApply c.st ans.first).2 = true) :
    aiStep builtin c ans =
      { c with st := (swapApply c.st ans.first).1, ai := if fb then .clear else .save len } := by
  cases fb <;> simp [aiStep, h, if_pos hok]

theorem aiStep_named_refused (h : c.ai = .named len fb)
    (hok : ¬ (swapApply c.st ans.first).2 = true) :
    aiStep builtin c ans =
      { c with st := swapFallback builtin (swapApply c.st ans.first).1 ans.reload, ai := .clear } := by
  simp only [aiStep, h, if_neg hok]

theorem aiStep_save (h : c.ai = .save len) :
    aiStep builtin c ans = { c with st := swapSave ans.drv len c.st, ai := .clear } := by
  simp only [aiStep, h]

theorem aiStep_clear (h : c.ai = .clear) :
    aiStep builtin c ans = { c with st := swapDone c.st, ai := .infer } := by
  simp only [aiStep, h]

theorem aiStep_infer (h : c.ai = .infer) : aiStep builtin c ans = { c with ai := .idle } := by
  simp only [aiStep, h]

end

theorem aiFrame_set (c : Cfg) {v : State} (p : AiPc) (hp : v.pending = c.st.pending) :
    AiFrame c { c with st := v, ai := p } := ⟨rfl, rfl, hp, rfl, rfl, rfl⟩

/-- **AI steps.**  The buffer stays, the length is cleared by the last sub-step only, and the local
length is the one read at the start. -/
theorem aiStep_cases (builtin : List UInt8) (c : Cfg) (ans : SwapAnswers) :
    AiFrame c (aiStep builtin c ans) ∧
      (((aiStep builtin c ans).st.pendingLen = c.st.pendingLen ∧
          ∀ len, (aiStep builtin c ans).ai.len = some len → c.ai.len = some len ∨
            len = c.st.pendingLen ∧ len ≠ 0) ∨
        (c.ai = .clear ∧ (aiStep builtin c ans).st.pendingLen = 0 ∧
          (aiStep builtin c ans).ai = .infer)) := by
  cases hai : c.ai with
  | idle =>
    by_cases hq : c.st.pendingLen = 0
    · rw [aiStep_idle_none hai hq]
      exact ⟨aiFrame_set c _ rfl, Or.inl ⟨rfl, fun _ h => nomatch h⟩⟩
    · rw [aiStep_idle_queued hai hq]
      exact ⟨aiFrame_set c _ rfl,
        Or.inl ⟨rfl, fun len h => Or.inr ⟨(Option.some.inj h).symm, Option.some.inj h ▸ hq⟩⟩⟩
  | read len =>
    obtain ⟨hp, hl⟩ := swapStage_pending c.st
    rw [aiStep_read hai]
    exact ⟨aiFrame_set c _ hp, Or.inl ⟨hl, fun _ h => Or.inl h⟩⟩
  | staged len =>
    rw [aiStep_staged hai]
    exact ⟨aiFrame_set c _ rfl, Or.inl ⟨rfl, fun _ h => Or.inl h⟩⟩
  | named len fb =>
    obtain ⟨hp, hl⟩ := swapApply_pending c.st ans.first
    obtain ⟨hfp, hfl⟩ := swapFallback_pending builtin (swapApply c.st ans.first).1 ans.reload
    by_cases hok : (swapApply c.st ans.first).2 = true
    · rw [aiStep_named_ok hai hok]
      refine ⟨aiFrame_set c _ hp, Or.inl ⟨hl, fun len' h => ?_⟩⟩
      cases fb with
      | true => exact nomatch h
      | false => exact Or.inl h
    · rw [aiStep_named_refused hai hok]
      exact ⟨aiFrame_set c _ (hfp.trans hp), Or.inl ⟨hfl.trans hl, fun _ h => nomatch h⟩⟩
  | save len =>
    rw [aiStep_save hai]
    exact ⟨aiFrame_set c _ rfl, Or.inl ⟨rfl, fun _ h => nomatch h⟩⟩
  | clear =>
    rw [aiStep_clear hai]
    exact ⟨aiFrame_set c _ rfl, Or.inr ⟨rfl, rfl, rfl⟩⟩
  | infer =>
    rw [aiStep_infer hai]
    exact ⟨aiFrame_set c _ rfl, Or.inl ⟨rfl, fun _ h => nomatch h⟩⟩

end IotcRa8p1.Vision.Tasks
