import IotcRa8p1.Vision.System

/-!
# What a failed hot-swap leaves running

The swap destroys the old interpreter and overwrites its flatbuffer before it knows whether the new
model loads, so nothing is left of the old model to go back to.  The fallback stages the compiled-in
model; in a build without one it applies the refused model a second time.

`prvSwapIfPending_restores_iff` says exactly when that happens to be the model that ran before.
-/

namespace IotcRa8p1.Vision

open ByteMem CString Machine ModelStore

/-- The staged payload, with the name, the version and the source published for it. -/
def published (v : State) : List UInt8 × List UInt8 × ℕ × ModelSrc :=
  (slice v.staging 0 v.modelLen, cstr v.name, v.ver, v.src)

/-- The interpreter is initialised on the staged payload. -/
structure Running (v : State) : Prop where
  inited : v.model.inited = true
  interp : v.model.interp.map Interp.flatbuffer = some (slice v.staging 0 v.modelLen)

/-- `v'` runs the model that ran in `v`. -/
structure Restored (v v' : State) : Prop where
  modelLen : v'.modelLen = v.modelLen
  published : published v' = published v
  kind : v'.kind = v.kind
  running : Running v'

/-- What the fallback publishes: the compiled-in model, or the queued one in a build without. -/
def fallbackModel (builtin : List UInt8) (v : State) : List UInt8 × List UInt8 × ℕ × ModelSrc :=
  if builtin = [] then
    (payload v.pending, cstr (hdrName (iotvHdr v.pending)), (iotvHdr v.pending).modelVer,
      if fromBuiltin v.pending then .builtin else .cloud)
  else (builtin, builtinName, 1, .builtin)

/-- When the fallback is the model that ran before: it is published alike, its `Init` succeeds (in a
build without a compiled-in model, the first one or the second), and the family found is the old
one. -/
structure FallbackIsOld (builtin : List UInt8) (v : State) (ans : SwapAnswers) : Prop where
  same : published v = fallbackModel builtin v
  init : ans.reload.initOk = true ∨ builtin = [] ∧ ans.first.initOk = true
  kind : ans.reload.kind.getD v.kind = v.kind

/-- The name the fallback stores reads "builtin" over any old name. -/
theorem cstr_strncpy_builtinName (dst : List UInt8) :
    cstr (strncpy dst builtinName 15) = builtinName := rfl

variable {builtin : List UInt8} {v : State} {ans : SwapAnswers}

/-- The state after a refused swap, by what it publishes. -/
theorem published_refused (h : v.pendingLen ≠ 0) (hk : ans.first.kind = none) :
    published (prvSwapIfPending builtin v ans) = fallbackModel builtin v := by
  rw [prvSwapIfPending_refused h hk]
  by_cases hb : builtin = []
  · subst hb
    rw [swapFallback_nil, prvModelApply_eq, applied_eq, fallbackModel, if_pos rfl, ← slice_swapped]
    rfl
  · rw [swapFallback_builtin hb, fallbackModel, if_neg hb]
    simp only [published, swapDone, slice_store, cstr_strncpy_builtinName]

/-- The family after a refused swap. -/
theorem kind_refused (h : v.pendingLen ≠ 0) (hk : ans.first.kind = none) :
    (prvSwapIfPending builtin v ans).kind = ans.reload.kind.getD v.kind := by
  rw [prvSwapIfPending_refused h hk]
  by_cases hb : builtin = []
  · subst hb
    rw [swapFallback_nil, prvModelApply_eq, applied_eq, hk]
    rfl
  · rw [swapFallback_builtin hb, applied_eq, hk]
    rfl

/-- After a refused swap the object is initialised exactly when one of the `Init` calls on it
succeeded; without a compiled-in model the first one was on the same object. -/
theorem inited_refused (h : v.pendingLen ≠ 0) (hk : ans.first.kind = none) :
    (prvSwapIfPending builtin v ans).model.inited = true ↔
      ans.reload.initOk = true ∨ builtin = [] ∧ ans.first.initOk = true := by
  rw [prvSwapIfPending_refused h hk]
  by_cases hb : builtin = []
  · subst hb
    rw [swapFallback_nil, prvModelApply_eq, applied_eq]
    simp [swapDone, TflmModel.init_inited, TflmModel.new]
  · rw [swapFallback_builtin hb]
    simp [swapDone, TflmModel.init_new_inited, hb]

/-- And then its interpreter stands on the staged payload. -/
theorem running_refused (h : v.pendingLen ≠ 0) (hk : ans.first.kind = none) :
    Running (prvSwapIfPending builtin v ans) ↔
      ans.reload.initOk = true ∨ builtin = [] ∧ ans.first.initOk = true := by
  refine ⟨fun hr => (inited_refused h hk).mp hr.inited, fun hok => ⟨(inited_refused h hk).mpr hok, ?_⟩⟩
  rw [prvSwapIfPending_refused h hk]
  by_cases hb : builtin = []
  · subst hb
    -- the second `Init` runs on the object of the first, over the same payload
    have hpay : slice (swapped v).staging 0 (iotvHdr v.pending).modelLen = payload v.pending :=
      slice_swapped v
    rw [swapFallback_nil, prvModelApply_eq, applied_eq]
    simp only [swapDone, hpay]
    rcases hok with h2 | ⟨-, h1⟩
    · exact (TflmModel.init_of_ok _ _ _ h2).2.1
    · exact TflmModel.init_flatbuffer _ _ (TflmModel.init_of_ok _ _ _ h1).2.1
  · have h2 : ans.reload.initOk = true := hok.resolve_right fun h => hb h.1
    rw [swapFallback_builtin hb]
    simp only [swapDone, slice_store]
    exact (TflmModel.init_of_ok _ _ _ h2).2.1

/-- **A refused swap restores the model that ran before exactly when the fallback is that model**,
whatever ran and whatever was queued. -/
theorem prvSwapIfPending_restores_iff (builtin : List UInt8) (v : State) (ans : SwapAnswers)
    (hqueued : v.pendingLen ≠ 0) (hrefused : ans.first.kind = none) :
    Restored v (prvSwapIfPending builtin v ans) ↔ FallbackIsOld builtin v ans := by
  constructor
  · intro h
    refine ⟨?_, (running_refused hqueued hrefused).mp h.running, ?_⟩
    · rw [← h.published, published_refused hqueued hrefused]
    · exact (kind_refused hqueued hrefused).symm.trans h.kind
  · intro h
    have hpub : published (prvSwapIfPending builtin v ans) = published v := by
      rw [published_refused hqueued hrefused, h.same]
    have hlen := congrArg List.length (Prod.mk.inj hpub).1
    rw [slice_length, slice_length] at hlen
    exact ⟨hlen, hpub, by rw [kind_refused hqueued hrefused, h.kind],
      (running_refused hqueued hrefused).mpr h.init⟩

/-! ### Both sides on runs -/

/-- The power-on state over erased flash. -/
def bootErased (builtin : List UInt8) : Sys :=
  boot builtin (fun _ => 0) (fun _ => 0) (fun _ => 0xFF) emptyBoot

/-- "a" is queued. -/
def queuedA (builtin : List UInt8) : State :=
  (pushExecute (bootErased builtin).st (sampleBlob 8 [0x61]) 40).1

theorem step_queuedA (builtin : List UInt8) :
    ∃ q, step builtin (bootErased builtin) (.push (sampleBlob 8 [0x61]) 40) =
      some ⟨queuedA builtin, q, none⟩ := ⟨_, rfl⟩

/-- "a" is running, "b" is queued. -/
def runningAQueuedB (builtin : List UInt8) : State :=
  (pushExecute (prvSwapIfPending builtin (queuedA builtin) goodSwap) (sampleBlob 8 [0x62]) 40).1

theorem runningAQueuedB_reachable (builtin : List UInt8) :
    Reachable builtin (runningAQueuedB builtin) :=
  (((reachable_boot builtin _ _ _ emptyBoot).push (sampleBlob 8 [0x61]) (by decide)).run goodSwap).push
    (sampleBlob 8 [0x62]) (by decide)

theorem prvSwapIfPending_restores_iff_sample :
    Restored (runningAQueuedB []) (prvSwapIfPending [] (runningAQueuedB []) failedSwap) ↔
      FallbackIsOld [] (runningAQueuedB []) failedSwap :=
  prvSwapIfPending_restores_iff _ _ _ (by decide +kernel) rfl

/-- Without a compiled-in model: "a" runs, "b" is queued and does not load; afterwards nothing
runs. -/
theorem prvSwapIfPending_loses_old :
    ¬ ∀ (builtin : List UInt8) (v : State) (ans : SwapAnswers), Reachable builtin v → Running v →
      v.pendingLen ≠ 0 → iotvValidate v.pending v.pendingLen = none → ans.first.kind = none →
      Restored v (prvSwapIfPending builtin v ans) := by
  intro h
  have hrunning : Running (runningAQueuedB []) := ⟨by decide +kernel, by decide +kernel⟩
  have hr := h [] (runningAQueuedB []) failedSwap (runningAQueuedB_reachable []) hrunning
    (by decide +kernel) (by decide +kernel) rfl
  exact absurd hr.running.inited (by decide +kernel)

end IotcRa8p1.Vision
