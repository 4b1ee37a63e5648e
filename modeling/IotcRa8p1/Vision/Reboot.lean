import IotcRa8p1.Vision.Restore

/-!
# What a reboot loads

A pushed model is persisted by the swap that takes it over, unless its header name starts with
"builtin": that is how the swap tells the compiled-in model, wrapped by a revert, from a cloud model.
And a stored model of fewer than eight payload bytes does not validate again when it is loaded.

`SwapPersists` excludes these two; then the last cloud model whose swap succeeded is in the slot, and
every reboot loads it.
-/

namespace IotcRa8p1.Vision

open ByteMem CString Machine NorFlash ModelStore App

/-- `v` runs model `m`, loaded from the store. -/
structure RunsStored (v : State) (m : CloudModel) : Prop where
  payload : slice v.staging 0 v.modelLen = m.payload
  name : v.name = m.name
  ver : v.ver = m.ver
  src : v.src = .flash
  running : Running v

/-- A reboot loads the last cloud model whose swap succeeded, unless a revert came after it. -/
def RebootStep (s : Sys) (e : Event) (s' : Sys) : Prop :=
  ∀ staging pending ans, e = .reboot staging pending ans →
    ∀ m, s.lastCloud = some m → RunsStored s'.st m

/-- Pushes are accepted, models load and flash operations succeed. -/
def AllGood (s : Sys) : Event → Prop
  | .push buf got => (pushExecute s.st buf got).2 = none
  | .run ans => ans.first.kind.isSome ∧ (∀ i, (ans.drv.erase i).Good) ∧ ∀ i, (ans.drv.write i).Good
  | .revert erase => (modelStoreErase erase).1 = 0
  | .reboot _ _ ans => ans.stored.kind.isSome

/-- A pushed model that is swapped in has another name than "builtin..." and at least eight payload
bytes. -/
def SwapPersists (s : Sys) : Event → Prop
  | .run _ => s.st.pendingLen ≠ 0 → s.queuedByPush = true →
      fromBuiltin s.st.pending = false ∧ 8 ≤ (iotvHdr s.st.pending).modelLen
  | _ => True

/-- The slot holds a blob that carries `m` and can be loaded again. -/
def Holds (slot : Mem) (m : CloudModel) : Prop :=
  ∃ blob len, IotvValid blob len ∧ 8 ≤ (iotvHdr blob).modelLen ∧ AgreeOn slot blob 0 len ∧
    blobModel blob = m

/-- The relation of the RAM state, the flash and the history. -/
structure Kept (s : Sys) : Prop where
  queued : s.st.pendingLen ≠ 0 → s.queuedByPush = true → IotvValid s.st.pending s.st.pendingLen
  reverted : s.st.pendingLen ≠ 0 → s.queuedByPush = false → s.lastCloud = none
  stored : ∀ m, s.lastCloud = some m → Holds s.st.slot m

/-- A blob and its model depend on the bytes up to its own length. -/
theorem blobModel_congr {buf buf' : Mem}
    (h : AgreeOn buf buf' 0 (32 + (iotvHdr buf).modelLen)) : blobModel buf = blobModel buf' := by
  rw [blobModel, blobModel, payload_congr h, iotvHdr_congr (h.mono le_rfl (by omega))]

/-- **A held model is loaded**, whatever RAM contains. -/
theorem Holds.load {slot : Mem} {m : CloudModel} (h : Holds slot m) (pending : Mem) :
    (modelStoreLoad slot pending modelMaxBlob).rc = 0 ∧
      blobModel (modelStoreLoad slot pending modelMaxBlob).buf = m := by
  obtain ⟨blob, len, hv, h8, hslot, rfl⟩ := h
  have hfits := hv.fits
  have hrc := modelStoreLoad_of_valid hv h8 hslot pending modelMaxBlob le_rfl
  obtain ⟨-, hcopy, -, -⟩ := modelStoreLoad_eq_zero hrc
  have hh : iotvHdr slot = iotvHdr blob := iotvHdr_congr (hslot.mono le_rfl (by omega))
  rw [hh, Nat.add_comm] at hcopy
  have hblob := hcopy.trans (hslot.mono le_rfl (by omega))
  exact ⟨hrc, (blobModel_congr hblob.symm).symm⟩

/-- The state behind the load of a model that is accepted. -/
theorem loadApplied_runsStored (w : State) {o : InitOutcome} (hk : o.kind.isSome) :
    RunsStored (loadApplied w o)
      (blobModel (modelStoreLoad w.slot w.pending modelMaxBlob).buf) := by
  obtain ⟨k, hk⟩ := Option.isSome_iff_exists.mp hk
  have hok := InitOutcome.initOk_of_kind hk
  rw [loadApplied_eq, ← loaded_pending]
  refine ⟨?_, ?_, ?_, ?_, ?_, ?_⟩
  · simp only [blobModel, slice_loaded]
  · simp only [loaded, blobModel]
  · simp only [loaded, blobModel]
  · simp only [loaded]
  · exact (TflmModel.init_new_inited _ _).trans hok
  · dsimp only
    rw [slice_loaded]
    exact (TflmModel.init_of_ok _ _ _ hok).2.1

/-- An accepted swap of a cloud model with a good flash driver stores it. -/
theorem swapSave_holds {v w : State} {drv : OspiDriver} {len : ℕ} (hpending : w.pending = v.pending)
    (herase : ∀ i, (drv.erase i).Good) (hwrite : ∀ i, (drv.write i).Good)
    (hv : IotvValid v.pending len) (h8 : 8 ≤ (iotvHdr v.pending).modelLen) :
    Holds (swapSave drv len w).slot (blobModel v.pending) := by
  have hsave : (modelStoreSave drv w.slot v.pending len).1 = 0 :=
    modelStoreSave_good herase hwrite hv
  obtain ⟨-, hslot⟩ := modelStoreSave_eq_zero hsave
  rw [swapSave, hpending]
  exact ⟨v.pending, len, hv, h8, hslot, rfl⟩

variable {builtin : List UInt8} {s s' : Sys} {e : Event}

theorem boot_kept (builtin : List UInt8) (staging pending slot : Mem) (ans : BootAnswers) :
    Kept (boot builtin staging pending slot ans) := by
  have hlen : (boot builtin staging pending slot ans).st.pendingLen = 0 :=
    faceDetectionInit_pendingLen _ _ _
  exact ⟨fun h => absurd hlen h, fun h => absurd hlen h, fun _ h => nomatch h⟩

/-- What one swap does to the relation. -/
theorem run_kept {ans : SwapAnswers} (hs : Kept s) (hgood : AllGood s (.run ans))
    (hpersists : SwapPersists s (.run ans)) (h : step builtin s (.run ans) = some s') : Kept s' := by
  obtain ⟨hk, herase, hwrite⟩ := hgood
  have hok : (swapApply (swapped s.st) ans.first).2 = true := by rw [swapApply, prvModelApply_eq, hk]
  obtain rfl := Option.some.inj h
  by_cases hq : s.st.pendingLen = 0
  · -- nothing queued
    simp only [prvSwapIfPending_idle hq, hq, ne_eq, not_true, false_and, if_false]
    exact ⟨fun h => absurd hq h, fun h => absurd hq h, hs.stored⟩
  have hdone : (prvSwapIfPending builtin s.st ans).pendingLen = 0 := by
    rw [prvSwapIfPending_accepted hq hk]
    rfl
  refine ⟨fun h => absurd hdone h, fun h => absurd hdone h, fun m hm => ?_⟩
  cases hpush : s.queuedByPush with
  | true =>
    -- a cloud model: the swap saves it
    obtain ⟨hfb, h8⟩ := hpersists hq hpush
    simp only [hpush, hok, and_true, if_pos hq, Option.some.injEq] at hm
    subst hm
    rw [prvSwapIfPending_accepted hq hk, hfb]
    refine swapSave_holds ?_ herase hwrite (hs.queued hq hpush) h8
    rw [applied_eq]
    rfl
  | false =>
    -- the compiled-in model, queued by a revert: the history is empty
    simp only [hpush, Bool.false_eq_true, false_and, and_false, if_false] at hm
    rw [hs.reverted hq hpush] at hm
    contradiction

/-- **One event keeps the relation.** -/
theorem step_kept (hs : Kept s) (hok : AllGood s e ∧ SwapPersists s e)
    (h : step builtin s e = some s') : Kept s' := by
  cases e with
  | push buf got =>
    by_cases hgot : got ≤ modelMaxBlob
    · simp only [step, if_pos hgot, Option.some.injEq] at h
      subst h
      obtain ⟨hq, hv⟩ := pushExecute_accepted hok.1
      refine ⟨fun _ _ => hv, fun _ hf => ?_, fun m hm => ?_⟩
      · have haccepted : (pushExecute s.st buf got).2 = none := hok.1
        simp only [if_pos haccepted] at hf
        contradiction
      · rw [pushExecute_frame]
        exact hs.stored m hm
    · simp only [step, if_neg hgot] at h
      contradiction
  | run ans => exact run_kept hs hok.1 hok.2 h
  | revert erase =>
    obtain rfl := Option.some.inj h
    refine ⟨fun hq hpush => ?_, fun _ _ => rfl, fun m hm => nomatch hm⟩
    rw [Bool.and_eq_true, List.isEmpty_iff] at hpush
    obtain ⟨hpush, rfl⟩ := hpush
    exact hs.queued hq hpush
  | reboot staging pending ans =>
    obtain rfl := Option.some.inj h
    have hlen : (boot builtin staging pending s.st.slot ans).st.pendingLen = 0 :=
      faceDetectionInit_pendingLen _ _ _
    refine ⟨fun h => absurd hlen h, fun h => absurd hlen h, fun m hm => ?_⟩
    show Holds (faceDetectionInit builtin _ ans).1.slot m
    rw [faceDetectionInit_slot hok.1]
    exact hs.stored m hm

/-- A boot that loads the stored model runs it. -/
theorem faceDetectionInit_runsStored {w : State} {ans : BootAnswers}
    (hrc : (modelStoreLoad w.slot w.pending modelMaxBlob).rc = 0) (hk : ans.stored.kind.isSome) :
    RunsStored (faceDetectionInit builtin w ans).1
      (blobModel (modelStoreLoad w.slot w.pending modelMaxBlob).buf) := by
  rw [faceDetectionInit_accepted hrc hk]
  exact loadApplied_runsStored w hk

theorem rebootStep_of_kept (hs : Kept s) (hok : AllGood s e) (h : step builtin s e = some s') :
    RebootStep s e s' := by
  rintro staging pending ans rfl m hm
  obtain rfl := Option.some.inj h
  have hholds : Holds (powerOn staging pending s.st.slot).slot m := hs.stored m hm
  obtain ⟨hrc, hmodel⟩ := hholds.load (powerOn staging pending s.st.slot).pending
  rw [← hmodel]
  exact faceDetectionInit_runsStored hrc hok

/-- **A reboot keeps the pushed model.**  Through every sequence of accepted pushes, swaps, reverts and
reboots in which models load and flash operations succeed, and in which no swapped-in push is named
"builtin..." or has fewer than eight payload bytes, every reboot comes up with the last cloud model
whose swap succeeded, unless a revert came after it. -/
theorem reboot_loads_last_cloud_model (builtin : List UInt8) (staging pending slot : Mem)
    (ans : BootAnswers) (events : List Event)
    (hok : Meets (step builtin) (fun s e => AllGood s e ∧ SwapPersists s e) events
      (boot builtin staging pending slot ans)) :
    AllSteps (step builtin) RebootStep events (boot builtin staging pending slot ans) :=
  allSteps_of_invariant step_kept (fun hs hok h => rebootStep_of_kept hs hok.1 h)
    (boot_kept builtin staging pending slot ans) hok

/-! ### Both sides on runs -/

theorem allGood_goodSwap (s : Sys) : AllGood s (.run goodSwap) :=
  ⟨rfl, fun _ => ⟨rfl, rfl⟩, fun _ => ⟨rfl, rfl⟩⟩

theorem reboot_loads_last_cloud_model_sample :
    AllSteps (step []) RebootStep
      [.push (sampleBlob 8 [0x61]) 40, .run goodSwap, .reboot (fun _ => 0) (fun _ => 0) goodBoot]
      (bootErased []) := by
  refine reboot_loads_last_cloud_model [] _ _ _ emptyBoot _ ?_
  have hobs : (step [] (bootErased []) (.push (sampleBlob 8 [0x61]) 40)).map (fun t =>
      (fromBuiltin t.st.pending, (iotvHdr t.st.pending).modelLen)) = some (false, 8) := by
    decide +kernel
  refine fun s1 h1 => ⟨⟨?_, trivial⟩, fun s2 _ => ⟨⟨allGood_goodSwap s1, fun _ _ => ?_⟩,
    fun s3 _ => ⟨⟨rfl, trivial⟩, trivial⟩⟩⟩
  · show (pushExecute (bootErased []).st (sampleBlob 8 [0x61]) 40).2 = none
    decide +kernel
  · have hat := Option.some.inj ((congrArg (Option.map _) h1).symm.trans hobs)
    obtain ⟨hfb, hlen⟩ := Prod.mk.inj hat
    exact ⟨hfb, by rw [hlen]⟩

/-- "a" is pushed and runs. -/
def runATrace : List Event := [.push (sampleBlob 8 [0x61]) 40, .run goodSwap]

/-- "builtin2" is pushed over it and runs. -/
def builtin2Trace : List Event :=
  runATrace ++ [.push (sampleBlob 8 (builtinName ++ [0x32])) 40, .run goodSwap]

theorem builtin2Trace_allGood :
    Meets (step []) AllGood (builtin2Trace ++ [.reboot (fun _ => 0) (fun _ => 0) goodBoot])
      (bootErased []) := by
  have hobs : (runs (step []) runATrace (bootErased [])).map
      (fun t => (pushExecute t.st (sampleBlob 8 (builtinName ++ [0x32])) 40).2) = some none := by
    decide +kernel
  rw [builtin2Trace, List.append_assoc]
  refine meets_append (fun s1 _ => ⟨?_, fun s2 _ => ⟨allGood_goodSwap s1, trivial⟩⟩) fun t ht => ?_
  · show (pushExecute (bootErased []).st (sampleBlob 8 [0x61]) 40).2 = none
    decide +kernel
  · rw [ht] at hobs
    exact fun s3 _ => ⟨Option.some.inj hobs, fun s4 _ => ⟨allGood_goodSwap s3,
      fun s5 _ => ⟨rfl, trivial⟩⟩⟩

/-- The reboot after it comes up with "a". -/
theorem reboot_loses_builtin_named_model :
    ¬ ∀ (builtin : List UInt8) (staging pending slot : Mem) (ans : BootAnswers)
      (events : List Event),
      Meets (step builtin) AllGood events (boot builtin staging pending slot ans) →
      AllSteps (step builtin) RebootStep events (boot builtin staging pending slot ans) := by
  intro h
  have hall := h [] (fun _ => 0) (fun _ => 0) (fun _ => 0xFF) emptyBoot
    (builtin2Trace ++ [.reboot (fun _ => 0) (fun _ => 0) goodBoot]) builtin2Trace_allGood
  have hobs : (runs (step []) builtin2Trace (bootErased [])).map (fun t =>
      (t.lastCloud, (boot [] (fun _ => 0) (fun _ => 0) t.st.slot goodBoot).st.name)) =
      some (some (blobModel (sampleBlob 8 (builtinName ++ [0x32]))),
        hdrName (iotvHdr (sampleBlob 8 [0x61]))) := by decide +kernel
  obtain ⟨t, hrun, ht⟩ := Option.map_eq_some_iff.mp hobs
  obtain ⟨hm, hname⟩ := Prod.mk.inj ht
  have hsame := (hall.at hrun rfl _ _ _ rfl _ hm).name
  exact absurd (hname.symm.trans hsame) (by decide +kernel)

end IotcRa8p1.Vision
