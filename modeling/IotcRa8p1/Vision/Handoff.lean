import IotcRa8p1.Vision.Tasks

/-!
# The hand-off of the pending buffer

A push looks at `s_pending_len` only when its download is complete, and a revert never looks at it, so
either can write over a blob that is queued or being swapped in.  What the AI thread then stages,
publishes and saves is no longer the blob that was accepted.

`InTurn` asks that a push starts, and that a revert with a compiled-in model starts, only when nothing
is queued and the other of the two is idle.  Under it the buffer is stable while `s_pending_len` is
nonzero, in every interleaving.
-/

namespace IotcRa8p1.Vision.Tasks

open ByteMem CString Machine ModelStore

/-- What must hold of one step.  The buffer is stable while something is queued (a reboot loses it), and
each sub-step of a swap takes what it takes from the queued blob, which no refused push has
written. -/
structure HandoffStep (c : Cfg) (a : Action) (c' : Cfg) : Prop where
  stable : (∀ staging pending ans, a ≠ .reboot staging pending ans) → c.st.pendingLen ≠ 0 →
    c'.st.pending = c.st.pending
  staged : ∀ ans len, a = .ai ans → c.ai = .read len → ∃ q, c.queued = some q ∧
    slice c'.st.staging 0 (iotvHdr q.blob).modelLen = payload q.blob ∧
    ∀ n, c.writer = .push n → n ∉ c.refused
  named : ∀ ans len, a = .ai ans → c.ai = .staged len → ∃ q, c.queued = some q ∧
    c'.st.name = hdrName (iotvHdr q.blob) ∧ c'.st.ver = (iotvHdr q.blob).modelVer
  saved : ∀ ans len, a = .ai ans → c.ai = .save len → ∃ q, c.queued = some q ∧ len = q.len ∧
    slice c.st.pending 0 len = slice q.blob 0 len

/-- A push, and a revert that writes the buffer, start only when nothing is queued or being swapped in
and the other is not under way. -/
def InTurn (builtin : List UInt8) (c : Cfg) : Action → Prop
  | .xfer .start => c.st.pendingLen = 0 ∧ c.revert = .idle
  | .revert (.start _) => builtin = [] ∨ c.st.pendingLen = 0 ∧ c.xfer = .idle
  | _ => True

/-- The three tasks take turns, and what is queued is in the buffer. -/
structure Turns (c : Cfg) : Prop where
  exclusive : c.xfer ≠ .idle → c.revert = .idle
  free : c.xfer ≠ .idle ∨ c.revert ≠ .idle → c.st.pendingLen = 0
  queued : c.st.pendingLen ≠ 0 →
    ∃ q, c.queued = some q ∧ q.blob = c.st.pending ∧ q.len = c.st.pendingLen
  busy : ∀ len, c.ai.len = some len → len = c.st.pendingLen ∧ len ≠ 0
  refused : c.refused = []

variable {builtin : List UInt8} {c c' : Cfg} {a : Action}

theorem bootCfg_turns (builtin : List UInt8) (staging pending slot : Mem) (ans : BootAnswers) :
    Turns (bootCfg builtin staging pending slot ans) := by
  have hlen : (bootCfg builtin staging pending slot ans).st.pendingLen = 0 :=
    faceDetectionInit_pendingLen _ _ _
  exact ⟨fun h => absurd rfl h, fun _ => hlen, fun h => absurd hlen h, fun _ h => (nomatch h), rfl⟩

/-- A transfer step that is in turn. -/
theorem xfer_turns {x : XferAct} (hs : Turns c) (hok : InTurn builtin c (.xfer x))
    (h : xferStep c x = some c') : Turns c' := by
  obtain ⟨hframe, ⟨rfl, hst, hq, hr, -⟩ | ⟨hne, hlen, hq, hr, -⟩ | ⟨n, hx, hidle, hst, hq, hr, -⟩⟩ :=
    xferStep_cases h
  · -- a push starts while nothing is queued
    obtain ⟨hzero, hrevert⟩ := hok
    rw [← hst] at hzero
    refine ⟨fun _ => hframe.revert.trans hrevert, fun _ => hzero, fun hne => absurd hzero hne,
      fun len hlen => ?_, hr.trans hs.refused⟩
    rw [hframe.ai] at hlen
    rw [hst]
    exact hs.busy len hlen
  · -- the push goes on: nothing is queued, so it is not refused
    have hzero := hs.free (Or.inl hne)
    have hzero' : c'.st.pendingLen = 0 := hlen.trans hzero
    refine ⟨fun _ => hframe.revert.trans (hs.exclusive hne), fun _ => hzero',
      fun hne' => absurd hzero' hne', fun len hl => ?_,
      (hr.resolve_right fun h => h hzero).trans hs.refused⟩
    rw [hframe.ai] at hl
    rw [hlen]
    exact hs.busy len hl
  · -- the length is stored: the AI thread is not in a swap
    have hxne : c.xfer ≠ .idle := by
      rw [hx]
      exact fun h => nomatch h
    have hzero := hs.free (Or.inl hxne)
    have hrevert : c'.revert = .idle := hframe.revert.trans (hs.exclusive hxne)
    refine ⟨fun _ => hrevert, fun hor => hor.elim (fun h => absurd hidle h) (fun h => absurd hrevert h),
      fun _ => ⟨_, hq, by rw [hst], by rw [hst]⟩, fun len hl => ?_, hr.trans hs.refused⟩
    rw [hframe.ai] at hl
    obtain ⟨hlen, hne⟩ := hs.busy len hl
    exact absurd (hlen.trans hzero) hne

/-- A revert step that is in turn. -/
theorem revert_turns {r : RevertAct} (hs : Turns c) (hok : InTurn builtin c (.revert r))
    (h : revertStep builtin c r = some c') : Turns c' := by
  obtain ⟨hframe, ⟨erase, rfl, hst, hnil, hq, -⟩ | ⟨hne, hlen, hq⟩ | ⟨hne, hidle, hst, hq⟩⟩ :=
    revertStep_cases h
  · -- the erase; with a compiled-in model nothing is queued and no push is under way
    have hlen : c'.st.pendingLen = c.st.pendingLen := by rw [hst]
    refine ⟨fun hx => ?_, fun hor => ?_, fun hne => ?_, fun len hl => ?_, hframe.refused.trans hs.refused⟩
    · rw [hframe.xfer] at hx
      rcases hok with hb | ⟨-, hxi⟩
      · exact (hnil hb).trans (hs.exclusive hx)
      · exact absurd hxi hx
    · rw [hlen]
      rcases hok with hb | ⟨hzero, -⟩
      · rw [hframe.xfer, hnil hb] at hor
        exact hs.free hor
      · exact hzero
    · rw [hlen] at hne
      rw [hq, hst]
      exact hs.queued hne
    · rw [hframe.ai] at hl
      rw [hlen]
      exact hs.busy len hl
  · -- the buffer is written while nothing is queued
    have hzero := hs.free (Or.inr hne)
    have hzero' : c'.st.pendingLen = 0 := hlen.trans hzero
    refine ⟨fun hx => ?_, fun _ => hzero', fun hne' => absurd hzero' hne', fun len hl => ?_,
      hframe.refused.trans hs.refused⟩
    · rw [hframe.xfer] at hx
      exact absurd (hs.exclusive hx) hne
    · rw [hframe.ai] at hl
      rw [hlen]
      exact hs.busy len hl
  · -- the length is stored: no push is under way and the AI thread is not in a swap
    have hzero := hs.free (Or.inr hne)
    have hxfer : c.xfer = .idle := by
      by_contra hx
      exact hne (hs.exclusive hx)
    refine ⟨fun _ => hidle, fun hor => ?_, fun _ => ⟨_, hq, by rw [hst]; rfl, by rw [hst]; rfl⟩,
      fun len hl => ?_, hframe.refused.trans hs.refused⟩
    · rw [hframe.xfer] at hor
      exact hor.elim (fun h => absurd hxfer h) (fun h => absurd hidle h)
    · rw [hframe.ai] at hl
      obtain ⟨hlen, hlne⟩ := hs.busy len hl
      exact absurd (hlen.trans hzero) hlne

/-- An AI step needs no condition. -/
theorem ai_turns {ans : SwapAnswers} (hs : Turns c) : Turns (aiStep builtin c ans) := by
  obtain ⟨hframe, ⟨hlen, hloc⟩ | ⟨-, hzero, hinfer⟩⟩ := aiStep_cases builtin c ans
  · refine ⟨fun hx => ?_, fun hor => ?_, fun hne => ?_, fun len hl => ?_,
      hframe.refused.trans hs.refused⟩
    · rw [hframe.xfer] at hx
      exact hframe.revert.trans (hs.exclusive hx)
    · rw [hframe.xfer, hframe.revert] at hor
      exact hlen.trans (hs.free hor)
    · rw [hlen] at hne ⊢
      rw [hframe.queued, hframe.pending]
      exact hs.queued hne
    · rw [hlen]
      exact (hloc len hl).elim (hs.busy len) id
  · -- the end of a swap: nothing is queued any more
    refine ⟨fun hx => ?_, fun _ => hzero, fun hne => absurd hzero hne, fun len hl => ?_,
      hframe.refused.trans hs.refused⟩
    · rw [hframe.xfer] at hx
      exact hframe.revert.trans (hs.exclusive hx)
    · rw [hinfer] at hl
      contradiction

/-- **One step keeps the turns.** -/
theorem step_turns (hs : Turns c) (hok : InTurn builtin c a) (h : step builtin c a = some c') :
    Turns c' := by
  cases a with
  | xfer x => exact xfer_turns hs hok h
  | revert r => exact revert_turns hs hok h
  | ai ans =>
    obtain rfl := Option.some.inj h
    exact ai_turns hs
  | reboot staging pending ans =>
    obtain rfl := Option.some.inj h
    have hb := bootCfg_turns builtin staging pending c.st.slot ans
    exact ⟨hb.exclusive, hb.free, hb.queued, hb.busy, hb.refused⟩

/-- Only a push or a revert under way writes the buffer. -/
theorem pending_stable (hs : Turns c) (h : step builtin c a = some c')
    (hreboot : ∀ staging pending ans, a ≠ .reboot staging pending ans) (hq : c.st.pendingLen ≠ 0) :
    c'.st.pending = c.st.pending := by
  cases a with
  | xfer x =>
    obtain ⟨-, ⟨-, hst, -⟩ | ⟨hne, -⟩ | ⟨n, -, -, hst, -⟩⟩ := xferStep_cases h
    · rw [hst]
    · exact absurd (hs.free (Or.inl hne)) hq
    · rw [hst]
  | revert r =>
    obtain ⟨-, ⟨erase, -, hst, -⟩ | ⟨hne, -⟩ | ⟨hne, -⟩⟩ := revertStep_cases h
    · rw [hst]
    · exact absurd (hs.free (Or.inr hne)) hq
    · exact absurd (hs.free (Or.inr hne)) hq
  | ai ans =>
    obtain rfl := Option.some.inj h
    exact (aiStep_cases builtin c ans).1.pending
  | reboot staging pending ans => exact absurd rfl (hreboot staging pending ans)

theorem handoffStep_of_turns (hs : Turns c) (h : step builtin c a = some c') :
    HandoffStep c a c' := by
  have hlocal (len : ℕ) (hl : c.ai.len = some len) :
      ∃ q, c.queued = some q ∧ q.blob = c.st.pending ∧ len = q.len := by
    obtain ⟨hlen, hne⟩ := hs.busy len hl
    obtain ⟨q, hq, hblob, hql⟩ := hs.queued (hlen ▸ hne)
    exact ⟨q, hq, hblob, hlen.trans hql.symm⟩
  refine ⟨pending_stable hs h, ?_, ?_, ?_⟩
  · rintro ans len rfl hai
    obtain rfl := Option.some.inj h
    obtain ⟨q, hq, hblob, -⟩ := hlocal len (by rw [hai]; rfl)
    refine ⟨q, hq, ?_, by simp [hs.refused]⟩
    rw [aiStep_read hai, hblob]
    exact slice_memcpy _ _ _ _ _
  · rintro ans len rfl hai
    obtain rfl := Option.some.inj h
    obtain ⟨q, hq, hblob, -⟩ := hlocal len (by rw [hai]; rfl)
    refine ⟨q, hq, ?_, ?_⟩ <;> rw [aiStep_staged hai, hblob] <;> rfl
  · rintro ans len rfl hai
    obtain ⟨q, hq, hblob, hlen⟩ := hlocal len (by rw [hai]; rfl)
    exact ⟨q, hq, hlen, by rw [hblob]⟩

/-- **The hand-off.**  In every interleaving of pushes, reverts, swaps and reboots in which pushes and
reverts start in turn, no step modifies the buffer while something is queued, and a swap stages,
publishes and saves the blob that was queued, never that of a refused push. -/
theorem handoff_of_inTurn (builtin : List UInt8) (staging pending slot : Mem) (ans : BootAnswers)
    (actions : List Action)
    (hok : Meets (step builtin) (InTurn builtin) actions (bootCfg builtin staging pending slot ans)) :
    AllSteps (step builtin) HandoffStep actions (bootCfg builtin staging pending slot ans) :=
  allSteps_of_invariant step_turns (fun hs _ h => handoffStep_of_turns hs h)
    (bootCfg_turns builtin staging pending slot ans) hok

/-! ### Both sides on runs -/

/-- A whole push of `blob`, from the start to the store of the length. -/
def pushActions (blob : Mem) : List Action :=
  [.xfer .start, .xfer (.write 0 (slice blob 0 40)), .xfer (.got 40), .xfer .unwrap, .xfer .validate,
    .xfer .test, .xfer .set]

/-- Over erased flash, without a compiled-in model. -/
def bootErasedCfg : Cfg := bootCfg [] (fun _ => 0) (fun _ => 0) (fun _ => 0xFF) emptyBoot

theorem handoff_of_inTurn_sample :
    AllSteps (step []) HandoffStep
      (pushActions (sampleBlob 8 [0x61]) ++ List.replicate 8 (.ai goodSwap)) bootErasedCfg := by
  have hrest : ∀ a ∈ (pushActions (sampleBlob 8 [0x61])).tail ++ List.replicate 8 (.ai goodSwap),
      ∀ c, InTurn [] c a := by
    intro a ha c
    simp only [pushActions, List.tail_cons, List.mem_append, List.mem_cons, List.not_mem_nil,
      or_false, List.mem_replicate] at ha
    rcases ha with (rfl | rfl | rfl | rfl | rfl | rfl) | ⟨-, rfl⟩ <;> trivial
  exact handoff_of_inTurn [] _ _ _ emptyBoot _
    fun _ _ => ⟨⟨by decide +kernel, rfl⟩, meets_of_forall hrest _⟩

/-- "a" is accepted; "b" is downloaded over it and refused; the AI thread takes up the swap. -/
def refusedActions : List Action :=
  pushActions (sampleBlob 8 [0x61]) ++ (pushActions (sampleBlob 8 [0x62])).dropLast ++ [.ai goodSwap]

/-- The AI thread then stages what the refused push wrote. -/
theorem handoff_runs_refused_push :
    ¬ ∀ (builtin : List UInt8) (staging pending slot : Mem) (ans : BootAnswers)
      (actions : List Action),
      AllSteps (step builtin) HandoffStep actions (bootCfg builtin staging pending slot ans) := by
  intro h
  have hall := h [] (fun _ => 0) (fun _ => 0) (fun _ => 0xFF) emptyBoot
    (refusedActions ++ [.ai goodSwap])
  have hobs : (runs (step []) refusedActions bootErasedCfg).map
      (fun c => (c.ai, c.writer, c.refused)) = some (.read 40, .push 2, [2]) := by decide +kernel
  obtain ⟨c, hrun, hc⟩ := Option.map_eq_some_iff.mp hobs
  obtain ⟨hai, hwriter, hrefused⟩ : c.ai = .read 40 ∧ c.writer = .push 2 ∧ c.refused = [2] := by
    simpa using hc
  obtain ⟨q, -, -, hnot⟩ := (hall.at hrun rfl).staged goodSwap 40 rfl hai
  exact hnot 2 hwriter (by simp [hrefused])

end IotcRa8p1.Vision.Tasks
