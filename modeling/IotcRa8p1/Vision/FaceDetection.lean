import IotcRa8p1.ModelStore.Store
import IotcRa8p1.Vision.Tflm

/-!
# The running model and its replacement (`FaceDetection.cc`)

Every model is staged in an SDRAM buffer and the interpreter is initialised on that copy.  An
incoming envelope waits in a second buffer until the AI thread swaps it in between two inferences;
`s_pending_len` is the only hand-off between the two.

`prv_swap_if_pending` is split into the sub-steps between which another task can run: teardown and
copy of the payload, copy of the metadata, apply, save or fallback, clear.  Each of them reads the
pending buffer again, as the code does through its header pointer.  The compiled-in model is a
parameter; the empty list is the build without one (`GetModelPointer` is null and `GetModelLen` is
zero).  Console output is left out.
-/

namespace IotcRa8p1.Vision

open ByteMem CString NorFlash ModelStore

/-- The values `s_model_src` takes. -/
inductive ModelSrc where
  | builtin
  | flash
  | cloud
  | none
  deriving DecidableEq, Repr

/-- The static state of `FaceDetection.cc` and the flash slot behind it.  `accepted` is a ghost: the
object at the last `prv_model_apply` that returned true. -/
structure State where
  staging : Mem
  modelLen : ℕ
  pending : Mem
  pendingLen : ℕ
  name : List UInt8
  ver : ℕ
  src : ModelSrc
  kind : ModelKind
  model : TflmModel
  slot : Mem
  accepted : Option TflmModel

/-- "builtin" -/
abbrev builtinName : List UInt8 := [0x62, 0x75, 0x69, 0x6C, 0x74, 0x69, 0x6E]

/-- "none" -/
abbrev noneName : List UInt8 := [0x6E, 0x6F, 0x6E, 0x65]

/-- `memcpy (s_model_name, h->name, 16); s_model_name[15] = 0`. -/
def hdrName (h : IotvHdr) : List UInt8 := h.name.take 15 ++ [0]

/-- The zero-initialised and initialised statics at power-on; SDRAM and the flash slot hold what they
hold. -/
def powerOn (staging pending slot : Mem) : State where
  staging := staging
  modelLen := 0
  pending := pending
  pendingLen := 0
  name := builtinName ++ List.replicate 9 0
  ver := 1
  src := .builtin
  kind := .detector
  model := .new
  slot := slot
  accepted := none

def prvModelTeardown (v : State) : State := { v with model := .new }

/-- `prv_model_apply`. -/
def prvModelApply (v : State) (len : ℕ) (o : InitOutcome) : State × Bool :=
  let v := { v with modelLen := len }
  let r := v.model.init (slice v.staging 0 len) o
  let v := { v with model := r.1 }
  if r.2 = false then (v, false)
  else
    match v.model.shapeKind with
    | none => (v, false)
    | some k => ({ v with kind := k, accepted := some v.model }, true)

/-- `prv_load_builtin_to_staging`: false when this build carries no built-in model. -/
def prvLoadBuiltinToStaging (builtin : List UInt8) (v : State) : State × Bool :=
  if builtin = [] then (v, false)
  else
    let v := prvModelTeardown v
    ({ v with
      staging := store v.staging 0 builtin
      modelLen := builtin.length
      name := strncpy v.name builtinName 15
      ver := 1
      src := .builtin }, true)

/-- What the environment answers during `face_detection_init`: the `Init` of the stored model, the
erase, the `Init` of the built-in model. -/
structure BootAnswers where
  stored : InitOutcome
  erase : OpAnswer
  builtin : InitOutcome

/-- The first half of `face_detection_init`: the model persisted in flash. -/
def initFromStore (v : State) (ans : BootAnswers) : State × Bool :=
  let r := modelStoreLoad v.slot v.pending modelMaxBlob
  let v := { v with pending := r.buf }
  if r.rc = 0 then
    let h := iotvHdr v.pending
    let v := prvModelTeardown v
    let v := { v with
      staging := memcpy v.staging 0 v.pending iotvHdrLen h.modelLen
      name := hdrName h
      ver := h.modelVer
      src := .flash }
    let r := prvModelApply v h.modelLen ans.stored
    if r.2 then r
    else ({ r.1 with slot := applyOps (modelStoreErase ans.erase).2 r.1.slot }, false)
  else (v, false)

/-- The second half: the compiled-in model, or none. -/
def initFromBuiltin (builtin : List UInt8) (v : State) (o : InitOutcome) : State × Bool :=
  let b := prvLoadBuiltinToStaging builtin v
  if b.2 then prvModelApply b.1 b.1.modelLen o
  else
    -- vision idles; a hot-swap can still arm a model
    ({ b.1 with name := strncpy b.1.name noneName 15, src := .none, ver := 0, modelLen := 0 }, true)

/-- `face_detection_init`. -/
def faceDetectionInit (builtin : List UInt8) (v : State) (ans : BootAnswers) : State × Bool :=
  let r := initFromStore v ans
  if r.2 then r else initFromBuiltin builtin r.1 ans.builtin

/-- `face_detection_request_swap`; `blob` is `none` when the pointer is the pending buffer itself, as
in the cloud push. -/
def faceDetectionRequestSwap (v : State) (blob : Option Mem) (len : ℕ) : State × Option String :=
  match iotvValidate (blob.getD v.pending) len with
  | some reason => (v, some reason)
  | none =>
    if v.pendingLen ≠ 0 then (v, some "swap already pending")
    else
      let v :=
        match blob with
        | some b => { v with pending := memcpy v.pending 0 b 0 len }
        | none => v
      ({ v with pendingLen := len }, none)

/-- The three steps of `face_detection_revert` behind the erase, in a build with a model. -/
def revertCopy (builtin : List UInt8) (v : State) : State :=
  { v with pending := store v.pending iotvHdrLen builtin }

def revertWrap (builtin : List UInt8) (v : State) : State :=
  { v with pending := iotvWrapInPlace v.pending builtin.length 1 builtinName }

def revertQueue (builtin : List UInt8) (v : State) : State :=
  { v with pendingLen := builtin.length + iotvHdrLen }

/-- `face_detection_revert`. -/
def faceDetectionRevert (builtin : List UInt8) (v : State) (erase : OpAnswer) : State :=
  let v := { v with slot := applyOps (modelStoreErase erase).2 v.slot }
  if builtin = [] then v else revertQueue builtin (revertWrap builtin (revertCopy builtin v))

/-! ### The swap and its sub-steps -/

/-- Teardown, then the payload over staging. -/
def swapStage (v : State) : State :=
  let v := prvModelTeardown v
  { v with staging := memcpy v.staging 0 v.pending iotvHdrLen (iotvHdr v.pending).modelLen }

/-- `0 == strncmp (h->name, "builtin", 7)`. -/
def fromBuiltin (pending : Mem) : Bool := strncmpEq (iotvHdr pending).name builtinName 7

def swapMeta (v : State) : State :=
  { v with
    name := hdrName (iotvHdr v.pending)
    ver := (iotvHdr v.pending).modelVer
    src := if fromBuiltin v.pending then .builtin else .cloud }

def swapApply (v : State) (o : InitOutcome) : State × Bool :=
  prvModelApply v (iotvHdr v.pending).modelLen o

def swapSave (drv : OspiDriver) (len : ℕ) (v : State) : State :=
  let r := modelStoreSave drv v.slot v.pending len
  { v with slot := applyOps r.2 v.slot, src := if r.1 = 0 then .cloud else v.src }

/-- `prv_load_builtin_to_staging (); (void) prv_model_apply (s_model_len)`. -/
def swapFallback (builtin : List UInt8) (v : State) (o : InitOutcome) : State :=
  let v := (prvLoadBuiltinToStaging builtin v).1
  (prvModelApply v v.modelLen o).1

def swapDone (v : State) : State := { v with pendingLen := 0 }

/-- What the environment answers during one swap: the `Init` of the new model, the `Init` of the
fallback, the flash driver. -/
structure SwapAnswers where
  first : InitOutcome
  reload : InitOutcome
  drv : OspiDriver

/-- `prv_swap_if_pending`. -/
def prvSwapIfPending (builtin : List UInt8) (v : State) (ans : SwapAnswers) : State :=
  if v.pendingLen = 0 then v
  else
    let len := v.pendingLen
    let v := swapMeta (swapStage v)
    let fb := fromBuiltin v.pending
    let r := swapApply v ans.first
    let v :=
      if r.2 then (if fb then r.1 else swapSave ans.drv len r.1)
      else swapFallback builtin r.1 ans.reload
    swapDone v

/-- Every model loads and the flash is idle. -/
def goodSwap : SwapAnswers := ⟨detectorOutcome, detectorOutcome, idleDriver⟩

def goodBoot : BootAnswers := ⟨detectorOutcome, idleAnswer, detectorOutcome⟩

/-- No model loads. -/
def failedSwap : SwapAnswers := ⟨.badVersion, .badVersion, idleDriver⟩

/-- A boot whose store is not expected to hold a model. -/
def emptyBoot : BootAnswers := ⟨.badVersion, idleAnswer, detectorOutcome⟩

/-! ### What `prv_model_apply` does -/

/-- **Apply spec.**  The result and the state by the outcome of `Init`: the length and the object are
set in any case, the family only when the shape is accepted. -/
theorem prvModelApply_eq (v : State) (len : ℕ) (o : InitOutcome) :
    prvModelApply v len o =
      ({ v with
          modelLen := len
          model := (v.model.init (slice v.staging 0 len) o).1
          kind := o.kind.getD v.kind
          accepted := if o.kind.isSome then some (v.model.init (slice v.staging 0 len) o).1
            else v.accepted },
        o.kind.isSome) := by
  simp only [prvModelApply, TflmModel.init_snd]
  cases hok : o.initOk with
  | false =>
    have hk : o.kind = none := by
      cases hk : o.kind with
      | none => rfl
      | some k => rw [InitOutcome.initOk_of_kind hk] at hok; contradiction
    simp [hk]
  | true =>
    rw [(TflmModel.init_of_ok _ _ _ hok).1]
    cases hk : o.kind with
    | none => simp
    | some k => simp

/-! ### What a swap does -/

/-- The state behind the metadata step: the queued payload staged, its header published, a fresh
TFLM object. -/
def swapped (v : State) : State :=
  { v with
    staging := memcpy v.staging 0 v.pending iotvHdrLen (iotvHdr v.pending).modelLen
    name := hdrName (iotvHdr v.pending)
    ver := (iotvHdr v.pending).modelVer
    src := if fromBuiltin v.pending then .builtin else .cloud
    model := .new }

theorem swapMeta_swapStage (v : State) : swapMeta (swapStage v) = swapped v := by
  simp only [swapMeta, swapStage, prvModelTeardown, swapped]
  rfl

@[simp] theorem swapped_pending (v : State) : (swapped v).pending = v.pending := by
  simp only [swapped]

theorem slice_swapped (v : State) :
    slice (swapped v).staging 0 (iotvHdr v.pending).modelLen = payload v.pending :=
  slice_memcpy _ _ _ _ _

variable {builtin : List UInt8} {v : State} {ans : SwapAnswers}

theorem prvSwapIfPending_idle (h : v.pendingLen = 0) : prvSwapIfPending builtin v ans = v :=
  if_pos h

/-- The state behind the first apply of a swap. -/
def applied (v : State) (o : InitOutcome) : State := (swapApply (swapped v) o).1

theorem applied_eq (v : State) (o : InitOutcome) :
    applied v o =
      { swapped v with
        modelLen := (iotvHdr v.pending).modelLen
        model := (TflmModel.new.init (payload v.pending) o).1
        kind := o.kind.getD v.kind
        accepted := if o.kind.isSome then some (TflmModel.new.init (payload v.pending) o).1
          else v.accepted } := by
  rw [applied, swapApply, prvModelApply_eq, ← slice_swapped]
  rfl

/-- A swap whose model is accepted: running, and persisted unless its name starts with
"builtin". -/
theorem prvSwapIfPending_accepted (h : v.pendingLen ≠ 0) (hk : ans.first.kind.isSome) :
    prvSwapIfPending builtin v ans = swapDone (if fromBuiltin v.pending then applied v ans.first
      else swapSave ans.drv v.pendingLen (applied v ans.first)) := by
  have hr : (swapApply (swapMeta (swapStage v)) ans.first).2 = true := by
    rw [swapApply, prvModelApply_eq, hk]
  simp only [prvSwapIfPending, if_neg h, if_pos hr]
  rw [swapMeta_swapStage, swapped_pending, applied]

/-- A swap whose model is refused takes the fallback. -/
theorem prvSwapIfPending_refused (h : v.pendingLen ≠ 0) (hk : ans.first.kind = none) :
    prvSwapIfPending builtin v ans =
      swapDone (swapFallback builtin (applied v ans.first) ans.reload) := by
  have hr : ¬ (swapApply (swapMeta (swapStage v)) ans.first).2 = true := by
    simp [swapApply, prvModelApply_eq, hk]
  simp only [prvSwapIfPending, if_neg h, if_neg hr]
  rw [swapMeta_swapStage, applied]

/-- Without a built-in model the fallback applies the staged model once more. -/
theorem swapFallback_nil (w : State) (o : InitOutcome) :
    swapFallback [] w o = (prvModelApply w w.modelLen o).1 := by
  simp only [swapFallback, prvLoadBuiltinToStaging, if_true]

/-- With one, it is staged on a fresh object. -/
theorem swapFallback_builtin (h : builtin ≠ []) (w : State) (o : InitOutcome) :
    swapFallback builtin w o =
      { w with
        staging := store w.staging 0 builtin
        modelLen := builtin.length
        name := strncpy w.name builtinName 15
        ver := 1
        src := .builtin
        model := (TflmModel.new.init builtin o).1
        kind := o.kind.getD w.kind
        accepted := if o.kind.isSome then some (TflmModel.new.init builtin o).1
          else w.accepted } := by
  simp only [swapFallback, prvLoadBuiltinToStaging, if_neg h, prvModelApply_eq, prvModelTeardown,
    slice_store]

/-! ### What a boot does -/

/-- The stored model, staged and published on a fresh object. -/
def loaded (v : State) : State :=
  let buf := (modelStoreLoad v.slot v.pending modelMaxBlob).buf
  { v with
    pending := buf
    staging := memcpy v.staging 0 buf iotvHdrLen (iotvHdr buf).modelLen
    name := hdrName (iotvHdr buf)
    ver := (iotvHdr buf).modelVer
    src := .flash
    model := .new }

@[simp] theorem loaded_pending (v : State) :
    (loaded v).pending = (modelStoreLoad v.slot v.pending modelMaxBlob).buf := by
  simp only [loaded]

@[simp] theorem loaded_model (v : State) : (loaded v).model = .new := by
  simp only [loaded]

@[simp] theorem loaded_slot (v : State) : (loaded v).slot = v.slot := by
  simp only [loaded]

@[simp] theorem loaded_pendingLen (v : State) : (loaded v).pendingLen = v.pendingLen := by
  simp only [loaded]

theorem slice_loaded (v : State) :
    slice (loaded v).staging 0 (iotvHdr (loaded v).pending).modelLen =
      payload (loaded v).pending := by
  simp only [loaded, slice_memcpy, payload]

/-- The state behind the apply of the stored model. -/
def loadApplied (v : State) (o : InitOutcome) : State :=
  (prvModelApply (loaded v) (iotvHdr (loaded v).pending).modelLen o).1

theorem loadApplied_eq (v : State) (o : InitOutcome) :
    loadApplied v o =
      { loaded v with
        modelLen := (iotvHdr (loaded v).pending).modelLen
        model := (TflmModel.new.init (payload (loaded v).pending) o).1
        kind := o.kind.getD (loaded v).kind
        accepted := if o.kind.isSome then
          some (TflmModel.new.init (payload (loaded v).pending) o).1 else (loaded v).accepted } := by
  rw [loadApplied, prvModelApply_eq, slice_loaded, loaded_model]

section Boot

variable {builtin : List UInt8} {w : State} {ans : BootAnswers}

theorem initFromStore_loaded (h : (modelStoreLoad w.slot w.pending modelMaxBlob).rc = 0) :
    initFromStore w ans =
      let r := prvModelApply (loaded w) (iotvHdr (loaded w).pending).modelLen ans.stored
      if r.2 then r
      else ({ r.1 with slot := applyOps (modelStoreErase ans.erase).2 r.1.slot }, false) :=
  if_pos h

/-- No stored model. -/
theorem faceDetectionInit_empty (h : (modelStoreLoad w.slot w.pending modelMaxBlob).rc ≠ 0) :
    faceDetectionInit builtin w ans = initFromBuiltin builtin
      { w with pending := (modelStoreLoad w.slot w.pending modelMaxBlob).buf } ans.builtin := by
  simp only [faceDetectionInit, initFromStore, if_neg h, Bool.false_eq_true, if_false]

/-- A stored model that is accepted. -/
theorem faceDetectionInit_accepted (h : (modelStoreLoad w.slot w.pending modelMaxBlob).rc = 0)
    (hk : ans.stored.kind.isSome) :
    faceDetectionInit builtin w ans = (loadApplied w ans.stored, true) := by
  have hr : (prvModelApply (loaded w) (iotvHdr (loaded w).pending).modelLen ans.stored).2 = true := by
    rw [prvModelApply_eq, hk]
  have hstore : initFromStore w ans = (loadApplied w ans.stored, true) := by
    rw [initFromStore_loaded h]
    simp only [if_pos hr]
    exact Prod.ext rfl hr
  simp only [faceDetectionInit, hstore, if_true]

/-- A stored model that is refused is erased. -/
theorem faceDetectionInit_refused (h : (modelStoreLoad w.slot w.pending modelMaxBlob).rc = 0)
    (hk : ans.stored.kind = none) :
    faceDetectionInit builtin w ans = initFromBuiltin builtin
      { loadApplied w ans.stored with slot := applyOps (modelStoreErase ans.erase).2 w.slot }
      ans.builtin := by
  have hr : ¬ (prvModelApply (loaded w) (iotvHdr (loaded w).pending).modelLen ans.stored).2 = true := by
    simp [prvModelApply_eq, hk]
  have hslot : (prvModelApply (loaded w) (iotvHdr (loaded w).pending).modelLen ans.stored).1.slot =
      w.slot := by
    simp only [prvModelApply_eq, loaded_slot]
  have hstore : initFromStore w ans =
      ({ loadApplied w ans.stored with slot := applyOps (modelStoreErase ans.erase).2 w.slot },
        false) := by
    rw [initFromStore_loaded h]
    simp only [if_neg hr, hslot]
    rw [loadApplied]
  simp only [faceDetectionInit, hstore, Bool.false_eq_true, if_false]

end Boot

theorem initFromBuiltin_nil (w : State) (o : InitOutcome) :
    initFromBuiltin [] w o =
      ({ w with name := strncpy w.name noneName 15, src := .none, ver := 0, modelLen := 0 }, true) :=
  rfl

theorem initFromBuiltin_cons {builtin : List UInt8} (h : builtin ≠ []) (w : State)
    (o : InitOutcome) :
    initFromBuiltin builtin w o = (swapFallback builtin w o, o.kind.isSome) := by
  simp only [initFromBuiltin, swapFallback, prvLoadBuiltinToStaging, if_neg h, if_true,
    prvModelApply_eq]

/-- A boot does not queue anything. -/
theorem faceDetectionInit_pendingLen (builtin : List UInt8) (w : State) (ans : BootAnswers) :
    (faceDetectionInit builtin w ans).1.pendingLen = w.pendingLen := by
  have hbuiltin (u : State) : (initFromBuiltin builtin u ans.builtin).1.pendingLen = u.pendingLen := by
    by_cases hb : builtin = []
    · subst hb
      rfl
    · rw [initFromBuiltin_cons hb, swapFallback_builtin hb]
  have happlied (o : InitOutcome) : (loadApplied w o).pendingLen = w.pendingLen := by
    simp only [loadApplied, prvModelApply_eq, loaded_pendingLen]
  by_cases hrc : (modelStoreLoad w.slot w.pending modelMaxBlob).rc = 0
  · cases hk : ans.stored.kind with
    | some k => rw [faceDetectionInit_accepted hrc (by rw [hk]; rfl), happlied]
    | none => rw [faceDetectionInit_refused hrc hk, hbuiltin, happlied]
  · rw [faceDetectionInit_empty hrc, hbuiltin]

/-- A boot whose stored model, if there is one, loads leaves the slot. -/
theorem faceDetectionInit_slot {builtin : List UInt8} {w : State} {ans : BootAnswers}
    (hk : ans.stored.kind.isSome) : (faceDetectionInit builtin w ans).1.slot = w.slot := by
  by_cases hrc : (modelStoreLoad w.slot w.pending modelMaxBlob).rc = 0
  · simp only [faceDetectionInit_accepted hrc hk, loadApplied, prvModelApply_eq, loaded_slot]
  · rw [faceDetectionInit_empty hrc]
    by_cases hb : builtin = []
    · subst hb
      rfl
    · rw [initFromBuiltin_cons hb, swapFallback_builtin hb]

end IotcRa8p1.Vision
