import IotcRa8p1.Vision.System
import IotcRa8p1.Vision.Tasks

/-!
# Whole events as runs of the three tasks

The machine of `System.lean` takes a push, a `face_detection_run`, a revert and a reboot each as one
step; the one of `Tasks.lean` takes their sub-steps in any order.  When one task runs through its
sub-steps without interruption the two agree, so every run of the first is a run of the second.
-/

namespace IotcRa8p1.Vision.Tasks

open ByteMem CString Machine NorFlash ModelStore App

/-- Every task is between two events, and `v` is the state they share. -/
structure Between (v : State) (c : Cfg) : Prop where
  st : c.st = v
  xfer : c.xfer = .idle
  revert : c.revert = .idle
  ai : c.ai = .idle

/-- A download writes nothing past the end of the pending buffer. -/
def Feasible (s : Sys) : Event → Prop
  | .push buf _ => ∀ a, modelMaxBlob ≤ a → buf a = s.st.pending a
  | _ => True

variable {builtin : List UInt8} {c : Cfg} {v : State}

/-! ### The AI thread -/

/-- The AI thread at `p` in state `v`, the rest as in `c`. -/
def Cfg.aiAt (c : Cfg) (v : State) (p : AiPc) : Cfg := { c with st := v, ai := p }

theorem leads_ai {d u : Cfg} (ans : SwapAnswers) (h : aiStep builtin c ans = d)
    (hd : Leads (step builtin) d u) : Leads (step builtin) c u :=
  .head (show step builtin c (.ai ans) = some d from congrArg some h) hd

section

variable {w : State} {ans : SwapAnswers} {len : ℕ} {fb : Bool}

theorem aiAt_read : aiStep builtin (c.aiAt w (.read len)) ans = c.aiAt (swapStage w) (.staged len) :=
  aiStep_read rfl

theorem aiAt_staged : aiStep builtin (c.aiAt w (.staged len)) ans =
    c.aiAt (swapMeta w) (.named len (fromBuiltin w.pending)) :=
  aiStep_staged rfl

theorem aiAt_named_ok (hok : (swapApply w ans.first).2 = true) :
    aiStep builtin (c.aiAt w (.named len fb)) ans =
      c.aiAt (swapApply w ans.first).1 (if fb then .clear else .save len) :=
  aiStep_named_ok rfl hok

theorem aiAt_named_refused (hok : ¬ (swapApply w ans.first).2 = true) :
    aiStep builtin (c.aiAt w (.named len fb)) ans =
      c.aiAt (swapFallback builtin (swapApply w ans.first).1 ans.reload) .clear :=
  aiStep_named_refused rfl hok

theorem aiAt_save :
    aiStep builtin (c.aiAt w (.save len)) ans = c.aiAt (swapSave ans.drv len w) .clear :=
  aiStep_save rfl

end

/-- The sub-steps of a swap up to the apply. -/
theorem leads_named (ans : SwapAnswers) (hai : c.ai = .idle) (hq : c.st.pendingLen ≠ 0) :
    Leads (step builtin) c
      (c.aiAt (swapped c.st) (.named c.st.pendingLen (fromBuiltin c.st.pending))) := by
  have hread : aiStep builtin c ans = c.aiAt c.st (.read c.st.pendingLen) :=
    aiStep_idle_queued hai hq
  have hstage : aiStep builtin (c.aiAt c.st (.read c.st.pendingLen)) ans =
      c.aiAt (swapStage c.st) (.staged c.st.pendingLen) := aiAt_read
  have hmeta : aiStep builtin (c.aiAt (swapStage c.st) (.staged c.st.pendingLen)) ans =
      c.aiAt (swapMeta (swapStage c.st))
        (.named c.st.pendingLen (fromBuiltin (swapStage c.st).pending)) := aiAt_staged
  rw [swapMeta_swapStage, (swapStage_pending c.st).1] at hmeta
  exact leads_ai ans hread (leads_ai ans hstage (leads_ai ans hmeta (.refl _)))

/-- And from its last one. -/
theorem leads_done (ans : SwapAnswers) (w : State) :
    Leads (step builtin) (c.aiAt w .clear) (c.aiAt (swapDone w) .idle) := by
  have hclear : aiStep builtin (c.aiAt w .clear) ans = c.aiAt (swapDone w) .infer :=
    aiStep_clear rfl
  have hinfer : aiStep builtin (c.aiAt (swapDone w) .infer) ans = c.aiAt (swapDone w) .idle :=
    aiStep_infer rfl
  exact leads_ai ans hclear (leads_ai ans hinfer (.refl _))

/-- **One `face_detection_run`**, uninterrupted. -/
theorem leads_run (ans : SwapAnswers) (hai : c.ai = .idle) :
    Leads (step builtin) c (c.aiAt (prvSwapIfPending builtin c.st ans) .idle) := by
  by_cases hq : c.st.pendingLen = 0
  · have hskip : aiStep builtin c ans = c.aiAt c.st .infer := aiStep_idle_none hai hq
    have hinfer : aiStep builtin (c.aiAt c.st .infer) ans = c.aiAt c.st .idle := aiStep_infer rfl
    rw [prvSwapIfPending_idle hq]
    exact leads_ai ans hskip (leads_ai ans hinfer (.refl _))
  refine (leads_named ans hai hq).trans ?_
  generalize hlen : c.st.pendingLen = len
  cases hk : ans.first.kind with
  | some k =>
    have hok : (swapApply (swapped c.st) ans.first).2 = true := by
      rw [swapApply, prvModelApply_eq, hk]
      rfl
    have happly : aiStep builtin (c.aiAt (swapped c.st) (.named len (fromBuiltin c.st.pending))) ans =
        c.aiAt (applied c.st ans.first)
          (if fromBuiltin c.st.pending then .clear else .save len) := aiAt_named_ok hok
    rw [prvSwapIfPending_accepted hq (by rw [hk]; rfl), hlen]
    refine leads_ai ans happly ?_
    cases fromBuiltin c.st.pending with
    | true => exact leads_done ans _
    | false =>
      have hsave : aiStep builtin (c.aiAt (applied c.st ans.first) (.save len)) ans =
          c.aiAt (swapSave ans.drv len (applied c.st ans.first)) .clear := aiAt_save
      exact leads_ai ans hsave (leads_done ans _)
  | none =>
    have hok : ¬ (swapApply (swapped c.st) ans.first).2 = true := by
      rw [swapApply, prvModelApply_eq, hk]
      exact Bool.false_ne_true
    have hfall : aiStep builtin (c.aiAt (swapped c.st) (.named len (fromBuiltin c.st.pending))) ans =
        c.aiAt (swapFallback builtin (applied c.st ans.first) ans.reload) .clear :=
      aiAt_named_refused hok
    rw [prvSwapIfPending_refused hq hk]
    exact leads_ai ans hfall (leads_done ans _)

/-! ### The transfer task -/

/-- The transfer task at `p` in state `w`, the rest as in `c`. -/
def Cfg.xferAt (c : Cfg) (w : State) (p : XferPc) : Cfg := { c with st := w, xfer := p }

/-- The end of a download that left `buf` in the buffer. -/
theorem leads_downloaded (hx : c.xfer = .idle) {buf : Mem} {got : ℕ} (hgot : got ≤ modelMaxBlob)
    (hbuf : ∀ a, modelMaxBlob ≤ a → buf a = c.st.pending a) :
    ∃ d : Cfg, Leads (step builtin) c (d.xferAt { c.st with pending := buf } (.downloaded got)) ∧
      d.revert = c.revert ∧ d.ai = c.ai := by
  obtain ⟨bytes, hroom, hstore⟩ : ∃ bytes : List UInt8, 0 + bytes.length ≤ modelMaxBlob ∧
      store c.st.pending 0 bytes = buf := by
    refine ⟨slice buf 0 modelMaxBlob, by rw [slice_length]; omega, ?_⟩
    funext a
    by_cases ha : a < modelMaxBlob
    · rw [store_in _ _ _ _ (Nat.zero_le a) (by rw [slice_length]; omega),
        slice_getD _ _ _ _ _ (by omega), Nat.zero_add, Nat.sub_zero]
    · rw [store_out _ _ _ _ (by rw [slice_length]; omega), hbuf a (by omega)]
  let d : Cfg := { c with pushes := c.pushes + 1 }
  let d' : Cfg := { d with writer := .push d.pushes }
  have hstart : step builtin c (.xfer .start) = some (d.xferAt c.st .downloading) := if_pos hx
  have hwrite : step builtin (d.xferAt c.st .downloading) (.xfer (.write 0 bytes)) =
      some (d'.xferAt { c.st with pending := store c.st.pending 0 bytes } .downloading) :=
    if_pos ⟨rfl, hroom⟩
  rw [hstore] at hwrite
  have hend : step builtin (d'.xferAt { c.st with pending := buf } .downloading) (.xfer (.got got)) =
      some (d'.xferAt { c.st with pending := buf } (.downloaded got)) := if_pos ⟨rfl, hgot⟩
  exact ⟨d', .head hstart (.head hwrite (.head hend (.refl _))), rfl, rfl⟩

/-- The way from there to the answer. -/
theorem leads_answered {d : Cfg} {w : State} {got : ℕ} (hr : d.revert = .idle) (hai : d.ai = .idle) :
    ∃ c', Leads (step builtin) (d.xferAt w (.downloaded got)) c' ∧
      Between (pushExecute w w.pending got).1 c' := by
  simp only [pushExecute]
  cases hun : unwrapZip w.pending got with
  | error reason =>
    have hunwrap : step builtin (d.xferAt w (.downloaded got)) (.xfer .unwrap) =
        some (d.xferAt w .idle) := by
      simp only [step, xferStep, Cfg.xferAt, hun]
    exact ⟨_, .head hunwrap (.refl _), rfl, rfl, hr, hai⟩
  | ok r =>
    obtain ⟨b, n⟩ := r
    let d' : Cfg := { d with writer := .push d.pushes }
    let w' : State := { w with pending := b }
    have hunwrap : step builtin (d.xferAt w (.downloaded got)) (.xfer .unwrap) =
        some (d'.xferAt w' (.unwrapped n)) := by
      simp only [step, xferStep, Cfg.xferAt, hun, d', w']
    simp only [faceDetectionRequestSwap, Option.getD_none]
    cases hv : iotvValidate b n with
    | some reason =>
      have hvalidate : step builtin (d'.xferAt w' (.unwrapped n)) (.xfer .validate) =
          some (d'.xferAt w' .idle) :=
        if_neg fun hnone => Option.some_ne_none reason (hv.symm.trans hnone)
      exact ⟨_, .head hunwrap (.head hvalidate (.refl _)), rfl, rfl, hr, hai⟩
    | none =>
      have hvalidate : step builtin (d'.xferAt w' (.unwrapped n)) (.xfer .validate) =
          some (d'.xferAt w' (.validated n)) := if_pos hv
      by_cases hq : w.pendingLen ≠ 0
      · have htest : step builtin (d'.xferAt w' (.validated n)) (.xfer .test) =
            some { d'.xferAt w' .idle with refused := d.pushes :: d.refused } := if_pos hq
        refine ⟨_, .head hunwrap (.head hvalidate (.head htest (.refl _))), ?_, rfl, hr, hai⟩
        rw [if_pos hq]
        rfl
      · have htest : step builtin (d'.xferAt w' (.validated n)) (.xfer .test) =
            some (d'.xferAt w' (.tested n)) := if_neg hq
        have hset : step builtin (d'.xferAt w' (.tested n)) (.xfer .set) =
            some { d'.xferAt { w' with pendingLen := n } .idle with
              queued := some ⟨b, n, .push d.pushes⟩, reverted := false } := rfl
        refine ⟨_, .head hunwrap (.head hvalidate (.head htest (.head hset (.refl _)))), ?_, rfl, hr,
          hai⟩
        rw [if_neg hq]
        rfl

/-! ### A revert -/

/-- The revert at `p` in state `w`, the rest as in `c`. -/
def Cfg.revertAt (c : Cfg) (w : State) (p : RevertPc) : Cfg := { c with st := w, revert := p }

theorem leads_revert (hr : c.revert = .idle) (erase : OpAnswer) :
    ∃ c', Leads (step builtin) c c' ∧ c'.st = faceDetectionRevert builtin c.st erase ∧
      c'.xfer = c.xfer ∧ c'.revert = .idle ∧ c'.ai = c.ai := by
  let w : State := { c.st with slot := applyOps (modelStoreErase erase).2 c.st.slot }
  let d : Cfg := { c with reverted := true }
  by_cases hb : builtin = []
  · have hstart : step builtin c (.revert (.start erase)) = some (d.revertAt w c.revert) := by
      simp only [step, revertStep, if_pos hr, if_pos hb, w, d, Cfg.revertAt]
    refine ⟨_, .head hstart (.refl _), ?_, rfl, hr, rfl⟩
    rw [faceDetectionRevert, if_pos hb]
    rfl
  · let d' : Cfg := { d with writer := .revert }
    let w' : State := revertWrap builtin (revertCopy builtin w)
    have hstart : step builtin c (.revert (.start erase)) = some (d.revertAt w .erased) := by
      simp only [step, revertStep, if_pos hr, if_neg hb, w, d, Cfg.revertAt]
    have hcopy : step builtin (d.revertAt w .erased) (.revert .copy) =
        some (d'.revertAt (revertCopy builtin w) .copied) := by
      simp only [step, revertStep, if_true, d', Cfg.revertAt]
    have hwrap : step builtin (d'.revertAt (revertCopy builtin w) .copied) (.revert .wrap) =
        some (d'.revertAt w' .wrapped) := by
      simp only [step, revertStep, if_true, d', w', Cfg.revertAt]
    have hset : step builtin (d'.revertAt w' .wrapped) (.revert .set) =
        some { d'.revertAt (revertQueue builtin w') .idle with
          queued := some ⟨w'.pending, builtin.length + iotvHdrLen, .revert⟩ } := by
      simp only [step, revertStep, if_true, d', w', Cfg.revertAt]
    refine ⟨_, .head hstart (.head hcopy (.head hwrap (.head hset (.refl _)))), ?_, rfl, rfl, rfl⟩
    rw [faceDetectionRevert, if_neg hb]
    rfl

/-! ### Runs -/

/-- **One event of the coarse machine** is a run of the tasks. -/
theorem step_simulated {s s' : Sys} {e : Event} (hb : Between s.st c) (hf : Feasible s e)
    (h : Vision.step builtin s e = some s') :
    ∃ c', Leads (step builtin) c c' ∧ Between s'.st c' := by
  obtain ⟨hst, hx, hr, hai⟩ := hb
  cases e with
  | push buf got =>
    by_cases hgot : got ≤ modelMaxBlob
    case neg => exact absurd ((if_neg hgot).symm.trans h) (Option.some_ne_none s').symm
    obtain rfl := Option.some.inj ((if_pos hgot).symm.trans h)
    have hbuf : ∀ a, modelMaxBlob ≤ a → buf a = c.st.pending a := by
      rw [hst]
      exact hf
    obtain ⟨d, hd, hdr, hdai⟩ := leads_downloaded hx hgot hbuf
    obtain ⟨c', hc', hbetween⟩ := @leads_answered builtin d
      { c.st with pending := buf } got (hdr.trans hr) (hdai.trans hai)
    refine ⟨c', hd.trans hc', ?_⟩
    rw [← hst]
    exact hbetween
  | run ans =>
    obtain rfl := Option.some.inj h
    refine ⟨_, leads_run ans hai, ?_, hx, hr, rfl⟩
    rw [← hst]
    rfl
  | revert erase =>
    obtain rfl := Option.some.inj h
    obtain ⟨c', hc', hst', hx', hr', hai'⟩ := @leads_revert builtin c hr erase
    exact ⟨c', hc', hst'.trans (by rw [hst]), hx'.trans hx, hr', hai'.trans hai⟩
  | reboot staging pending ans =>
    obtain rfl := Option.some.inj h
    have hreboot : step builtin c (.reboot staging pending ans) = some
        { bootCfg builtin staging pending c.st.slot ans with reverted := c.reverted } := rfl
    refine ⟨_, .head hreboot (.refl _), ?_, rfl, rfl, rfl⟩
    rw [hst]
    rfl

/-- **Every run of the coarse machine** from a boot is a run of the tasks from that boot. -/
theorem runs_simulated {staging pending slot : Mem} {ans : BootAnswers} {events : List Event}
    {s : Sys}
    (hok : Meets (Vision.step builtin) Feasible events (boot builtin staging pending slot ans))
    (hrun : runs (Vision.step builtin) events (boot builtin staging pending slot ans) = some s) :
    ∃ c, Leads (step builtin) (bootCfg builtin staging pending slot ans) c ∧ Between s.st c :=
  leads_of_simulation (R := fun s c => Between s.st c) step_simulated ⟨rfl, rfl, rfl, rfl⟩ hok hrun

end IotcRa8p1.Vision.Tasks
