import IotcRa8p1.Lib.Loop
import IotcRa8p1.Vision.Restore
import Mathlib.Algebra.Order.Ring.Int

/-!
# What `face_detection_run` may run

Behind the `IsInited()` check the input tensor is filled from the camera frame by the family in
`s_model_kind`, without another look at the tensor.  So the family must be the one computed for the
tensor that is there, and the object must be one that `prv_model_apply` accepted.

`Model::Init` sets `m_inited` before the shape is checked, and the paths that end behind a rejected
shape leave the object as it is: such a model is run.  `Settles` says that a load does not end
that way, and `BatchPos` that an accepted classifier has a batch; under both, every state of every run
is fit to run.  Reads and writes are recorded by the loops themselves.
-/

namespace IotcRa8p1.Vision

open ByteMem Loop Machine ModelStore

/-! ### Filling the input -/

/-- The local state of the fill loops: `o`, the bytes of the input tensor, `s_gray`, and as ghosts the
frame offsets read and the tensor offsets written. -/
structure Fill where
  o : ℕ
  input : Mem
  gray : Mem
  reads : List ℕ
  writes : List ℕ

/-- `(77u * px[0] + 150u * px[1] + 29u * px[2]) >> 8` -/
def luma (r g b : UInt8) : UInt8 :=
  UInt8.ofNat ((77 * r.toNat + 150 * g.toNat + 29 * b.toNat) / 256)

def Fill.see (f : Fill) (px : ℕ) : Fill := { f with reads := f.reads ++ [px, px + 1, px + 2] }

/-- `dst[o++] = b` -/
def Fill.put (f : Fill) (b : UInt8) : Fill :=
  { f with input := Function.update f.input f.o b, writes := f.writes ++ [f.o], o := f.o + 1 }

/-- One pixel of the classifier's resampling. -/
def classifierPixel (rgb : Mem) (th tw : ℕ) (tc : ℤ) (flip : UInt8) (y x : ℕ) (f : Fill) : Fill :=
  let px := y * 224 / th * 224 * 3 + x * 224 / tw * 3
  let f := f.see px
  if tc = 3 then
    ((f.put (rgb px ^^^ flip)).put (rgb (px + 1) ^^^ flip)).put (rgb (px + 2) ^^^ flip)
  else f.put (luma (rgb px) (rgb (px + 1)) (rgb (px + 2)) ^^^ flip)

/-- The classifier branch of `face_detection_run`. -/
def classifierFill (rgb : Mem) (th tw : ℕ) (tc : ℤ) (flip : UInt8) : Fill → Fill :=
  forLoop th fun y => forLoop tw fun x => classifierPixel rgb th tw tc flip y x

/-- `rgb224_to_gray192` -/
def rgb224ToGray192 (rgb : Mem) : Fill → Fill :=
  forLoop 192 fun y => forLoop 192 fun x f =>
    let px := y * 224 / 192 * 224 * 3 + x * 224 / 192 * 3
    let f := f.see px
    { f with
      gray := Function.update f.gray (y * 192 + x) (luma (rgb px) (rgb (px + 1)) (rgb (px + 2))) }

/-- The detector branch: at most `bytes` of the grayscale image, shifted to int8 when signed. -/
def detectorFill (rgb : Mem) (bytes : ℕ) (signed : Bool) (f : Fill) : Fill :=
  let f := rgb224ToGray192 rgb f
  let want := 192 * 192
  let n := if bytes < want then bytes else want
  forLoop n (fun i f => { f with
    input := Function.update f.input i (if signed then f.gray i - 128 else f.gray i)
    writes := f.writes ++ [i] }) f

/-- The fill of `face_detection_run`; `none` is a null input tensor. -/
def fillInput (m : TflmModel) (kind : ModelKind) (rgb input gray : Mem) : Option Fill :=
  match m.getInputTensor 0 with
  | none => none
  | some t =>
    let f : Fill := ⟨0, input, gray, [], []⟩
    match kind with
    | .classifier =>
      some (classifierFill rgb (t.dims.getD 1 0).toNat (t.dims.getD 2 0).toNat (t.dims.getD 3 0)
        (if m.isDataSigned then 0x80 else 0) f)
    | .detector => some (detectorFill rgb t.bytes m.isDataSigned f)

/-- `face_detection_run` up to the invoke: the state behind the swap, and the fill of the input when
the check passes. -/
def faceDetectionRun (builtin : List UInt8) (v : State) (ans : SwapAnswers) (rgb input gray : Mem) :
    State × Option (Option Fill) :=
  let v := prvSwapIfPending builtin v ans
  if v.model.inited then (v, some (fillInput v.model v.kind rgb input gray)) else (v, none)

/-- Every read is inside the 224x224x3 frame and every write below `n`. -/
structure Fill.Within (f : Fill) (n : ℕ) : Prop where
  reads : ∀ r ∈ f.reads, r < 224 * 224 * 3
  writes : ∀ w ∈ f.writes, w < n

theorem Fill.Within.mono {f : Fill} {n k : ℕ} (h : f.Within n) (hnk : n ≤ k) : f.Within k :=
  ⟨h.reads, fun w hw => (h.writes w hw).trans_le hnk⟩

theorem Fill.Within.see {f : Fill} {n px : ℕ} (h : f.Within n) (hpx : px + 2 < 224 * 224 * 3) :
    (f.see px).Within n := by
  refine ⟨fun r hr => ?_, h.writes⟩
  rcases List.mem_append.mp hr with hr | hr
  · exact h.reads r hr
  · simp at hr
    omega

theorem Fill.Within.put {f : Fill} (h : f.Within f.o) (b : UInt8) : (f.put b).Within (f.put b).o := by
  refine ⟨h.reads, fun w hw => ?_⟩
  rcases List.mem_append.mp hw with hw | hw
  · exact (h.writes w hw).trans (Nat.lt_succ_self _)
  · rw [List.mem_singleton.mp hw]
    exact Nat.lt_succ_self _

/-- The pixel of a scaled position lies in the frame. -/
theorem pixel_lt {y x th tw : ℕ} (hy : y < th) (hx : x < tw) :
    y * 224 / th * 224 * 3 + x * 224 / tw * 3 + 2 < 224 * 224 * 3 := by
  have h1 : y * 224 / th < 224 := Nat.div_lt_of_lt_mul (by omega)
  have h2 : x * 224 / tw < 224 := Nat.div_lt_of_lt_mul (by omega)
  omega

/-- Bytes written per pixel. -/
def channels (tc : ℤ) : ℕ := if tc = 3 then 3 else 1

theorem classifierPixel_within (rgb : Mem) {th tw y x : ℕ} (tc : ℤ) (flip : UInt8) {f : Fill}
    (hy : y < th) (hx : x < tw) (h : f.Within f.o) :
    (classifierPixel rgb th tw tc flip y x f).Within (classifierPixel rgb th tw tc flip y x f).o ∧
      (classifierPixel rgb th tw tc flip y x f).o = f.o + channels tc := by
  have hs := h.see (pixel_lt hy hx)
  by_cases hc : tc = 3
  · simp only [classifierPixel, channels, if_pos hc]
    exact ⟨((Fill.Within.put hs _).put _).put _, rfl⟩
  · simp only [classifierPixel, channels, if_neg hc]
    exact ⟨Fill.Within.put hs _, rfl⟩

/-- **The classifier fill** writes exactly `th * tw` pixels from offset 0 on and reads the frame
only. -/
theorem classifierFill_within (rgb : Mem) (th tw : ℕ) (tc : ℤ) (flip : UInt8) {f : Fill}
    (h0 : f.o = 0) (h : f.Within 0) :
    (classifierFill rgb th tw tc flip f).Within (th * (tw * channels tc)) := by
  have hrow : ∀ y g, y < th → g.Within g.o ∧ g.o = y * (tw * channels tc) →
      let g' := forLoop tw (fun x => classifierPixel rgb th tw tc flip y x) g
      g'.Within g'.o ∧ g'.o = (y + 1) * (tw * channels tc) := by
    intro y g hy hg
    obtain ⟨hw, ho⟩ := @forLoop_invariant _
      (fun x (k : Fill) => k.Within k.o ∧ k.o = y * (tw * channels tc) + x * channels tc) tw
      (fun x => classifierPixel rgb th tw tc flip y x) g (by simpa using hg) (fun x k hx hk => by
        obtain ⟨hw, ho⟩ := classifierPixel_within rgb tc flip hy hx hk.1
        exact ⟨hw, by rw [ho, hk.2]; ring⟩)
    exact ⟨hw, by rw [ho]; ring⟩
  have hall := forLoop_invariant
    (fun y (k : Fill) => k.Within k.o ∧ k.o = y * (tw * channels tc))
    ⟨h0 ▸ h, by rw [h0, Nat.zero_mul]⟩ hrow
  exact hall.2 ▸ hall.1

/-- The grayscale pass reads the frame only and does not touch the tensor. -/
theorem rgb224ToGray192_within (rgb : Mem) {n : ℕ} {f : Fill} (h : f.Within n) :
    (rgb224ToGray192 rgb f).Within n := by
  refine forLoop_invariant (fun _ (k : Fill) => k.Within n) h fun y g hy hg => ?_
  refine forLoop_invariant (fun _ (k : Fill) => k.Within n) hg fun x k hx hk => ?_
  have hs := hk.see (pixel_lt hy hx)
  exact ⟨hs.reads, hs.writes⟩

/-- **The detector fill** never writes behind the tensor. -/
theorem detectorFill_within (rgb : Mem) (bytes : ℕ) (signed : Bool) {f : Fill} (h : f.Within 0) :
    (detectorFill rgb bytes signed f).Within bytes := by
  have hgray := rgb224ToGray192_within rgb (h.mono (Nat.zero_le bytes))
  refine forLoop_invariant (fun _ (k : Fill) => k.Within bytes) hgray fun i k hi hk => ?_
  refine ⟨hk.reads, fun w hw => ?_⟩
  rcases List.mem_append.mp hw with hw | hw
  · exact hk.writes w hw
  · rw [List.mem_singleton.mp hw]
    split_ifs at hi <;> omega

/-! ### The invariant -/

/-- What TFLM promises of a tensor, as the code relies on it: its size covers its dimensions. -/
def InitOutcome.SizesCoverDims (o : InitOutcome) : Prop :=
  ∀ t, o.mainInput = some t → t.dims.prod ≤ (t.bytes : ℤ)

/-- An accepted classifier has a batch: the code expects `dims = [1, H, W, C]` and does not check
the first one. -/
def InitOutcome.BatchPos (o : InitOutcome) : Prop :=
  o.kind = some .classifier → ∀ t, o.mainInput = some t → 1 ≤ t.dims.headD 0

/-- The object is one that `prv_model_apply` returned true for, the family is the one of its own input
shape, and its input tensor is large enough. -/
structure FitToRun (v : State) : Prop where
  accepted : v.accepted = some v.model
  kind : v.model.shapeKind = some v.kind
  size : ∀ t, v.model.getInputTensor 0 = some t → t.dims.prod ≤ (t.bytes : ℤ)
  batch : v.kind = .classifier → ∀ t, v.model.getInputTensor 0 = some t → 1 ≤ t.dims.headD 0

/-- An accepted apply leaves a model that is fit to run. -/
theorem prvModelApply_fitToRun (v : State) (len : ℕ) {o : InitOutcome} {k : ModelKind}
    (hk : o.kind = some k) (hsize : o.SizesCoverDims) (hbatch : o.BatchPos) :
    FitToRun (prvModelApply v len o).1 := by
  obtain ⟨hkind, -, hinput⟩ := TflmModel.init_of_ok v.model (slice v.staging 0 len) o
    (InitOutcome.initOk_of_kind hk)
  rw [prvModelApply_eq, hk]
  refine ⟨rfl, hkind.trans hk, fun t ht => hsize t (hinput ▸ ht), fun hc t ht => ?_⟩
  obtain rfl : k = .classifier := hc
  exact hbatch hk t (hinput ▸ ht)

/-- What the shape of an accepted model is. -/
theorem shapeKind_eq_some {m : TflmModel} {k : ModelKind} (h : m.shapeKind = some k) :
    ∃ t n h w c, m.getInputTensor 0 = some t ∧ t.dims = [n, h, w, c] ∧
      modelKind h w c m.getNumOutputs = some k := by
  rw [TflmModel.shapeKind] at h
  split at h
  · contradiction
  · rename_i t ht
    split at h
    · rename_i n hh w c hd
      exact ⟨t, n, hh, w, c, ht, hd, h⟩
    · contradiction

/-- A classifier's channels are what the fill writes, and its sides are positive. -/
theorem modelKind_classifier {h w c : ℤ} {n : ℕ} (hk : modelKind h w c n = some .classifier) :
    0 ≤ h ∧ 0 ≤ w ∧ (channels c : ℤ) = c := by
  rw [modelKind] at hk
  split_ifs at hk with h1 h2
  · contradiction
  · refine ⟨by omega, by omega, ?_⟩
    rcases h2.2.1 with rfl | rfl <;> rfl

/-- **A model that is fit to run is filled in bounds.** -/
theorem FitToRun.fill {v : State} (h : FitToRun v) (rgb input gray : Mem) :
    ∃ t f, v.model.getInputTensor 0 = some t ∧ fillInput v.model v.kind rgb input gray = some f ∧
      f.Within t.bytes := by
  obtain ⟨t, n, hh, w, c, ht, hd, hk⟩ := shapeKind_eq_some h.kind
  have hempty : Fill.Within ⟨0, input, gray, [], []⟩ 0 := ⟨by simp, by simp⟩
  cases hkind : v.kind with
  | detector =>
    exact ⟨t, _, ht, by rw [fillInput, ht], detectorFill_within rgb t.bytes v.model.isDataSigned hempty⟩
  | classifier =>
    rw [hkind] at hk
    obtain ⟨h0, w0, hc⟩ := modelKind_classifier hk
    have hsize := h.size t ht
    have hbatch := h.batch hkind t ht
    rw [hd] at hsize hbatch
    simp only [List.prod_cons, List.prod_nil, mul_one, List.headD_cons] at hsize hbatch
    refine ⟨t, _, ht, by rw [fillInput, ht],
      (classifierFill_within rgb _ _ _ _ rfl hempty).mono ?_⟩
    -- `th * tw * channels` is the product of the last three dimensions
    rw [hd]
    have hpos : 0 ≤ hh * (w * c) :=
      mul_nonneg h0 (mul_nonneg w0 (hc ▸ Int.natCast_nonneg (channels c)))
    have hle : hh * (w * c) ≤ t.bytes := (le_mul_of_one_le_left hpos hbatch).trans hsize
    obtain ⟨a, rfl⟩ := Int.eq_ofNat_of_zero_le h0
    obtain ⟨b, rfl⟩ := Int.eq_ofNat_of_zero_le w0
    rw [← hc] at hle
    simp only [List.getD_cons_succ, List.getD_cons_zero, Int.toNat_natCast]
    exact_mod_cast hle

/-- Whatever is initialised is fit to run. -/
def Safe (v : State) : Prop := v.model.inited = true → FitToRun v

/-! ### How a load may end -/

/-- The swap does not end behind a rejected shape: the new model is accepted, or the fallback does
not end so.  Without a compiled-in model the fallback runs on the object of the first `Init`. -/
def SwapSettles (builtin : List UInt8) (ans : SwapAnswers) : Prop :=
  ans.first.kind.isSome ∨
    if builtin = [] then
      ans.reload.kind.isSome ∨ ans.first.initOk = false ∧ ans.reload.initOk = false
    else ans.reload.rejected = false

/-- The boot does not end behind a rejected shape: without a compiled-in model no rejected model is
loaded from the store, with one it is accepted or its `Init` fails. -/
def BootSettles (builtin : List UInt8) (slot pending : Mem) (ans : BootAnswers) : Prop :=
  ((modelStoreLoad slot pending modelMaxBlob).rc = 0 ∧ ans.stored.kind.isSome) ∨
    if builtin = [] then
      (modelStoreLoad slot pending modelMaxBlob).rc = 0 → ans.stored.initOk = false
    else ans.builtin.rejected = false

/-- What is assumed of TFLM's tensors, and that accepted classifiers have a batch. -/
structure TensorsOk (o : InitOutcome) : Prop where
  size : o.SizesCoverDims
  batch : o.BatchPos

theorem not_rejected_cases {o : InitOutcome} (h : o.rejected = false) :
    (∃ k, o.kind = some k) ∨ o.initOk = false := by
  cases hk : o.kind with
  | some k => exact Or.inl ⟨k, rfl⟩
  | none =>
    rw [InitOutcome.rejected, hk] at h
    exact Or.inr (by simpa using h)

/-- An apply on a fresh object is safe unless the shape is rejected. -/
theorem prvModelApply_safe {v : State} (len : ℕ) {o : InitOutcome} (hv : v.model = .new)
    (ho : o.rejected = false) (htensors : TensorsOk o) : Safe (prvModelApply v len o).1 := by
  intro hinited
  obtain ⟨k, hk⟩ | hfail := not_rejected_cases ho
  · exact prvModelApply_fitToRun v len hk htensors.size htensors.batch
  · rw [prvModelApply_eq, hv] at hinited
    exact absurd hinited (by simp [TflmModel.init_new_inited, hfail])

theorem swapFallback_safe {builtin : List UInt8} (hb : builtin ≠ []) (w : State) {o : InitOutcome}
    (ho : o.rejected = false) (htensors : TensorsOk o) : Safe (swapFallback builtin w o) := by
  refine prvModelApply_safe (v := (prvLoadBuiltinToStaging builtin w).1) _ ?_ ho htensors
  rw [prvLoadBuiltinToStaging, if_neg hb]
  rfl

/-- **Swap step.**  A swap that settles keeps the invariant. -/
theorem prvSwapIfPending_safe {builtin : List UInt8} {v : State} {ans : SwapAnswers} (hv : Safe v)
    (hsettles : v.pendingLen ≠ 0 → SwapSettles builtin ans) (h1 : TensorsOk ans.first)
    (h2 : TensorsOk ans.reload) : Safe (prvSwapIfPending builtin v ans) := by
  by_cases hq : v.pendingLen = 0
  · rwa [prvSwapIfPending_idle hq]
  cases hk : ans.first.kind with
  | some k =>
    have hfit : FitToRun (applied v ans.first) := prvModelApply_fitToRun _ _ hk h1.size h1.batch
    intro _
    rw [prvSwapIfPending_accepted hq (by rw [hk]; rfl)]
    by_cases hfb : fromBuiltin v.pending = true
    · rw [if_pos hfb]
      exact ⟨hfit.accepted, hfit.kind, hfit.size, hfit.batch⟩
    · rw [if_neg hfb]
      exact ⟨hfit.accepted, hfit.kind, hfit.size, hfit.batch⟩
  | none =>
    have hs := (hsettles hq).resolve_left (by rw [hk]; decide)
    intro hinited
    rw [prvSwapIfPending_refused hq hk] at hinited ⊢
    suffices hfit : FitToRun (swapFallback builtin (applied v ans.first) ans.reload) from
      ⟨hfit.accepted, hfit.kind, hfit.size, hfit.batch⟩
    by_cases hb : builtin = []
    · subst hb
      rw [if_pos rfl] at hs
      rcases hs with hr | ⟨hf, hr⟩
      · obtain ⟨k, hk2⟩ := Option.isSome_iff_exists.mp hr
        exact prvModelApply_fitToRun _ _ hk2 h2.size h2.batch
      · -- neither `Init` succeeded, so the object is not initialised
        rw [← prvSwapIfPending_refused hq hk, inited_refused hq hk, hf, hr] at hinited
        exact absurd hinited (by decide)
    · rw [if_neg hb] at hs
      exact swapFallback_safe hb _ hs h2 hinited

/-- The second half of a boot is safe from an object that is not initialised. -/
theorem initFromBuiltin_safe {builtin : List UInt8} {w : State} {o : InitOutcome}
    (hnil : builtin = [] → w.model.inited = false) (hcons : builtin ≠ [] → o.rejected = false)
    (htensors : TensorsOk o) : Safe (initFromBuiltin builtin w o).1 := by
  by_cases hb : builtin = []
  · subst hb
    intro hinited
    rw [initFromBuiltin_nil] at hinited
    exact absurd hinited (by simp [hnil rfl])
  · rw [initFromBuiltin_cons hb]
    exact swapFallback_safe hb w (hcons hb) htensors

/-- **Boot step.**  A boot that settles establishes the invariant. -/
theorem faceDetectionInit_safe {builtin : List UInt8} {staging pending slot : Mem}
    {ans : BootAnswers} (hsettles : BootSettles builtin slot pending ans) (h1 : TensorsOk ans.stored)
    (h2 : TensorsOk ans.builtin) :
    Safe (faceDetectionInit builtin (powerOn staging pending slot) ans).1 := by
  have hcons (hnot : ¬ ((modelStoreLoad slot pending modelMaxBlob).rc = 0 ∧ ans.stored.kind.isSome))
      (hb : builtin ≠ []) : ans.builtin.rejected = false := by
    have hs := hsettles.resolve_left hnot
    rwa [if_neg hb] at hs
  by_cases hrc : (modelStoreLoad slot pending modelMaxBlob).rc = 0
  · cases hk : ans.stored.kind with
    | some k =>
      rw [faceDetectionInit_accepted hrc (by rw [hk]; rfl)]
      exact fun _ => prvModelApply_fitToRun _ _ hk h1.size h1.batch
    | none =>
      rw [faceDetectionInit_refused hrc hk]
      refine initFromBuiltin_safe (fun hb => ?_) (hcons (by simp [hk])) h2
      -- without a compiled-in model the object keeps what the stored model's `Init` made of it
      have hs := hsettles.resolve_left (by simp [hk])
      rw [if_pos hb] at hs
      simp only [loadApplied, prvModelApply_eq]
      exact (TflmModel.init_new_inited _ _).trans (hs hrc)
  · rw [faceDetectionInit_empty hrc]
    exact initFromBuiltin_safe (fun _ => rfl) (hcons fun h => hrc h.1) h2

/-! ### Every run -/

/-- What holds behind the `IsInited()` check: the object is the one `prv_model_apply` returned true
for, the family is its own, and the fill stays inside the frame and the tensor. -/
structure RunsAccepted (v : State) (fill : Option Fill) : Prop where
  accepted : v.accepted = some v.model
  kind : v.model.shapeKind = some v.kind
  inBounds : ∃ t f, v.model.getInputTensor 0 = some t ∧ fill = some f ∧ f.Within t.bytes

/-- A `face_detection_run` that gets past the check runs an accepted model. -/
def RunStep (builtin : List UInt8) (s : Sys) (e : Event) (_ : Sys) : Prop :=
  ∀ ans, e = .run ans → ∀ rgb input gray fill,
    (faceDetectionRun builtin s.st ans rgb input gray).2 = some fill →
      RunsAccepted (faceDetectionRun builtin s.st ans rgb input gray).1 fill

/-- The outcomes of an event. -/
def Event.outcomes : Event → List InitOutcome
  | .run ans => [ans.first, ans.reload]
  | .reboot _ _ ans => [ans.stored, ans.builtin]
  | _ => []

/-- No load of this event ends behind a rejected shape. -/
def EventSettles (builtin : List UInt8) (s : Sys) : Event → Prop
  | .run ans => s.st.pendingLen ≠ 0 → SwapSettles builtin ans
  | .reboot _ pending ans => BootSettles builtin s.st.slot pending ans
  | _ => True

/-- What the theorem asks of an event: tensors that cover their dimensions, accepted classifiers with a
batch, and loads that settle. -/
structure EventOk (builtin : List UInt8) (s : Sys) (e : Event) : Prop where
  tensors : ∀ o ∈ e.outcomes, TensorsOk o
  settles : EventSettles builtin s e

/-- **System step.** -/
theorem step_safe {builtin : List UInt8} {s s' : Sys} {e : Event} (hs : Safe s.st)
    (hok : EventOk builtin s e) (h : step builtin s e = some s') : Safe s'.st := by
  cases e with
  | push buf got =>
    by_cases hgot : got ≤ modelMaxBlob
    · simp only [step, if_pos hgot, Option.some.injEq] at h
      subst h
      intro hinited
      rw [pushExecute_frame] at hinited ⊢
      have hfit := hs hinited
      exact ⟨hfit.accepted, hfit.kind, hfit.size, hfit.batch⟩
    · simp only [step, if_neg hgot] at h
      contradiction
  | run ans =>
    obtain rfl := Option.some.inj h
    exact prvSwapIfPending_safe hs hok.settles (hok.tensors _ (by simp [Event.outcomes]))
      (hok.tensors _ (by simp [Event.outcomes]))
  | revert erase =>
    obtain rfl := Option.some.inj h
    intro hinited
    rw [faceDetectionRevert_frame] at hinited ⊢
    have hfit := hs hinited
    exact ⟨hfit.accepted, hfit.kind, hfit.size, hfit.batch⟩
  | reboot staging pending ans =>
    obtain rfl := Option.some.inj h
    exact faceDetectionInit_safe hok.settles (hok.tensors _ (by simp [Event.outcomes]))
      (hok.tensors _ (by simp [Event.outcomes]))

/-- Behind the check of a safe state stands a model that is fit to run. -/
theorem runStep_of_safe {builtin : List UInt8} {s s' : Sys} {e : Event} (hs : Safe s.st)
    (hok : EventOk builtin s e) : RunStep builtin s e s' := by
  rintro ans rfl rgb input gray fill hfill
  have hsafe := prvSwapIfPending_safe hs hok.settles (hok.tensors _ (by simp [Event.outcomes]))
    (hok.tensors _ (by simp [Event.outcomes]))
  by_cases hinited : (prvSwapIfPending builtin s.st ans).model.inited = true
  · simp only [faceDetectionRun, if_pos hinited, Option.some.injEq] at hfill ⊢
    have hfit := hsafe hinited
    refine ⟨hfit.accepted, hfit.kind, ?_⟩
    rw [← hfill]
    exact hfit.fill rgb input gray
  · simp only [faceDetectionRun, if_neg hinited] at hfill
    contradiction

/-- **Only accepted models run.**  From every boot and through every sequence of pushes, swaps, reverts
and reboots whose loads settle, whatever `face_detection_run` finds initialised is a model that
`prv_model_apply` accepted, of the family in `s_model_kind`, filled in bounds. -/
theorem vision_runs_only_accepted (builtin : List UInt8) (staging pending slot : Mem)
    (ans : BootAnswers) (events : List Event)
    (hboot : BootSettles builtin slot pending ans) (hstored : TensorsOk ans.stored)
    (hbuiltin : TensorsOk ans.builtin)
    (hok : Meets (step builtin) (EventOk builtin) events (boot builtin staging pending slot ans)) :
    AllSteps (step builtin) (RunStep builtin) events (boot builtin staging pending slot ans) :=
  allSteps_of_invariant (I := fun s : Sys => Safe s.st) step_safe (fun hs he _ => runStep_of_safe hs he)
    (faceDetectionInit_safe hboot hstored hbuiltin) hok

theorem tensorsOk_badVersion : TensorsOk .badVersion :=
  ⟨fun _ h => (nomatch h), fun h => (nomatch h)⟩

theorem tensorsOk_detectorOutcome : TensorsOk detectorOutcome := by
  refine ⟨fun t ht => ?_, fun h => nomatch h⟩
  obtain rfl := Option.some.inj ht
  decide

/-- Boot over erased flash, a push and its swap. -/
theorem vision_runs_only_accepted_sample :
    AllSteps (step []) (RunStep []) [.push (sampleBlob 8 [0x61]) 40, .run goodSwap]
      (bootErased []) := by
  have hok : Meets (step []) (EventOk []) [.push (sampleBlob 8 [0x61]) 40, .run goodSwap]
      (bootErased []) := by
    refine fun s' _ => ⟨⟨fun o ho => (nomatch ho), trivial⟩,
      fun s'' _ => ⟨⟨fun o ho => ?_, ?_⟩, trivial⟩⟩
    · simp only [Event.outcomes, goodSwap, List.mem_cons, List.not_mem_nil, or_false, or_self] at ho
      rw [ho]
      exact tensorsOk_detectorOutcome
    · exact fun _ => Or.inl (by decide)
  exact vision_runs_only_accepted [] _ _ _ emptyBoot _ (Or.inr (fun h => absurd h (by decide)))
    tensorsOk_badVersion tensorsOk_detectorOutcome hok

/-- An input of two channels: `Init` succeeds and the shape is rejected. -/
def twoChannels : InitOutcome := .tensors [⟨[1, 64, 64, 2], 8192⟩] [⟨[1, 2], 2⟩] true

def twoChannelsSwap : SwapAnswers := ⟨twoChannels, twoChannels, idleDriver⟩

/-- A pushed model with two input channels is rejected and run. -/
theorem vision_runs_rejected_model :
    ¬ ∀ (builtin : List UInt8) (staging pending slot : Mem) (ans : BootAnswers)
      (events : List Event), ans.stored.SizesCoverDims → ans.builtin.SizesCoverDims →
      (∀ e ∈ events, ∀ o ∈ e.outcomes, o.SizesCoverDims) →
      AllSteps (step builtin) (RunStep builtin) events
        (boot builtin staging pending slot ans) := by
  intro h
  have hsize : twoChannels.SizesCoverDims := by
    intro t ht
    obtain rfl := Option.some.inj ht
    decide
  have hall := h [] (fun _ => 0) (fun _ => 0) (fun _ => 0xFF) emptyBoot
    [.push (sampleBlob 8 [0x61]) 40, .run twoChannelsSwap] (fun _ h => (nomatch h))
    tensorsOk_detectorOutcome.size (by simpa [Event.outcomes, twoChannelsSwap] using hsize)
  -- the object is initialised, so the run goes past the check
  have hrun : (faceDetectionRun [] (queuedA []) twoChannelsSwap (fun _ => 0) (fun _ => 0)
      (fun _ => 0)).2.isSome = true := by decide +kernel
  obtain ⟨fill, hfill⟩ := Option.isSome_iff_exists.mp hrun
  obtain ⟨q, hq⟩ := step_queuedA []
  have hstep : RunStep [] ⟨queuedA [], q, none⟩ (.run twoChannelsSwap) _ := ((hall _ hq).2 _ rfl).1
  simp only [RunStep] at hstep
  have haccepted := (hstep twoChannelsSwap rfl (fun _ => 0) (fun _ => 0) (fun _ => 0) fill hfill).accepted
  exact absurd haccepted (by decide +kernel)

end IotcRa8p1.Vision
