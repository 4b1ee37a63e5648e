import IotcRa8p1.ModelStore.Persistence
import IotcRa8p1.Vision.Handoff

/-!
# A revert in a build without a compiled-in model

There `face_detection_revert` is the erase and nothing else, one step here.  The interpreter keeps
running on its staged copy, and a swap that is queued or in progress goes on, runs its model and saves
it.

`RevertsInTime` asks for what the function does not look at: no interpreter that outlives the revert,
no save in progress, no swap that still loads a model, and an erase the driver accepts.  Under it
nothing is inferred and nothing is saved from the revert to the next accepted push, reboots
included.  The ghost `reverted` marks that stretch of a run.
-/

namespace IotcRa8p1.Vision.Tasks

open ByteMem Machine NorFlash ModelStore

/-- No boot finds a model in this slot. -/
def StoreEmpty (slot : Mem) : Prop := ∀ ram, (modelStoreLoad slot ram modelMaxBlob).rc ≠ 0

/-- What must hold of one step between a revert and the next accepted push: no inference, no write of
the store by the AI thread, no model after a reboot. -/
structure RevertedStep (c : Cfg) (a : Action) (c' : Cfg) : Prop where
  infer : ∀ ans, c.reverted = true → a = .ai ans → c.ai = .infer → c.st.model.inited = false
  store : ∀ ans, c.reverted = true → a = .ai ans →
    (∀ len, c.ai ≠ .save len) ∧ c'.st.slot = c.st.slot
  reboot : ∀ staging pending ans, c.reverted = true → a = .reboot staging pending ans →
    c'.st.model.inited = false ∧ c'.st.src = .none

/-- The next inference finds no interpreter: there is none, or a swap is about to destroy it. -/
def NextIdle (c : Cfg) : Prop :=
  c.st.model.inited = false ∨ (∃ len, c.ai = .read len) ∨ (c.ai = .idle ∧ c.st.pendingLen ≠ 0)

/-- A revert comes when the store is or gets empty, no save is in progress and no interpreter will be
left; and a swap that was queued before it does not load. -/
def RevertsInTime (c : Cfg) : Action → Prop
  | .revert (.start erase) =>
    (erase.accepted = true ∨ StoreEmpty c.st.slot) ∧ (∀ len, c.ai ≠ .save len) ∧ NextIdle c
  | .ai ans => c.reverted = true → ∀ len fb, c.ai = .named len fb →
    ans.first.initOk = false ∧ ans.reload.initOk = false
  | _ => True

/-- From a revert to the next accepted push. -/
structure Idling (c : Cfg) : Prop where
  revert : c.revert = .idle
  empty : c.reverted = true → StoreEmpty c.st.slot
  saving : c.reverted = true → ∀ len, c.ai ≠ .save len
  idle : c.reverted = true → NextIdle c

variable {c c' : Cfg} {a : Action}

/-- An erase that the driver does not accept writes nothing. -/
theorem storeEmpty_erase {slot : Mem} {erase : OpAnswer}
    (h : erase.accepted = true ∨ StoreEmpty slot) :
    StoreEmpty (applyOps (modelStoreErase erase).2 slot) := by
  intro ram
  cases hacc : erase.accepted with
  | true =>
    rw [modelStoreLoad_accepted hacc]
    exact fun hrc => nomatch hrc
  | false =>
    rw [modelStoreErase, if_pos hacc]
    exact h.resolve_left (by rw [hacc]; decide) ram

/-- A boot over an empty store. -/
theorem bootCfg_of_empty {slot : Mem} (h : StoreEmpty slot) (staging pending : Mem)
    (ans : BootAnswers) :
    (bootCfg [] staging pending slot ans).st.model.inited = false ∧
      (bootCfg [] staging pending slot ans).st.src = .none ∧
      (bootCfg [] staging pending slot ans).st.slot = slot := by
  have hrc : (modelStoreLoad (powerOn staging pending slot).slot
      (powerOn staging pending slot).pending modelMaxBlob).rc ≠ 0 := h _
  simp only [bootCfg]
  rw [faceDetectionInit_empty hrc, initFromBuiltin_nil]
  exact ⟨rfl, rfl, rfl⟩

theorem bootCfg_idling (staging pending slot : Mem) (ans : BootAnswers) :
    Idling (bootCfg [] staging pending slot ans) :=
  ⟨rfl, fun h => (nomatch h), fun h => (nomatch h), fun h => (nomatch h)⟩

/-- A transfer step ends the stretch or changes nothing in it. -/
theorem xfer_idling {x : XferAct} (hs : Idling c) (h : xferStep c x = some c') : Idling c' := by
  obtain ⟨hframe, hcases⟩ := xferStep_cases h
  have hmodel : c'.st.model = c.st.model := by rw [hframe.st]
  have hslot : c'.st.slot = c.st.slot := by rw [hframe.st]
  have hkeep : c'.reverted = false ∨
      c'.reverted = c.reverted ∧ c'.st.pendingLen = c.st.pendingLen := by
    obtain ⟨-, hst, -, -, hr⟩ | ⟨-, hlen, -, -, hr⟩ | ⟨n, -, -, -, -, -, hr⟩ := hcases
    · exact Or.inr ⟨hr, by rw [hst]⟩
    · exact Or.inr ⟨hr, hlen⟩
    · exact Or.inl hr
  refine ⟨hframe.revert.trans hs.revert, fun hr => ?_, fun hr => ?_, fun hr => ?_⟩
  · rw [hslot]
    exact hs.empty ((hkeep.resolve_left (by rw [hr]; decide)).1 ▸ hr)
  · rw [hframe.ai]
    exact hs.saving ((hkeep.resolve_left (by rw [hr]; decide)).1 ▸ hr)
  · obtain ⟨hrev, hlen⟩ := hkeep.resolve_left (by rw [hr]; decide)
    rw [NextIdle, hmodel, hframe.ai, hlen]
    exact hs.idle (hrev ▸ hr)

/-- The revert itself; its other steps belong to a build with a compiled-in model. -/
theorem revert_idling {r : RevertAct} (hs : Idling c) (hok : RevertsInTime c (.revert r))
    (h : revertStep [] c r = some c') : Idling c' := by
  obtain ⟨hframe, ⟨erase, rfl, hst, hnil, -, -⟩ | ⟨hne, -⟩ | ⟨hne, -⟩⟩ := revertStep_cases h
  · obtain ⟨herase, hsave, hidle⟩ := hok
    have hslot : c'.st.slot = applyOps (modelStoreErase erase).2 c.st.slot := by rw [hst]
    have hlen : c'.st.pendingLen = c.st.pendingLen := by rw [hst]
    refine ⟨(hnil rfl).trans hs.revert, fun _ => ?_, fun _ => ?_, fun _ => ?_⟩
    · rw [hslot]
      exact storeEmpty_erase herase
    · rw [hframe.ai]
      exact hsave
    · rw [NextIdle, hframe.model, hframe.ai, hlen]
      exact hidle
  · exact absurd hs.revert hne
  · exact absurd hs.revert hne

/-- Two failed `Init` calls on a fresh object leave it uninitialised. -/
theorem swap_not_inited {v : State} {ans : SwapAnswers} (hv : v.model.inited = false)
    (h1 : ans.first.initOk = false) (h2 : ans.reload.initOk = false) :
    (swapFallback [] (swapApply v ans.first).1 ans.reload).model.inited = false ∧
      (swapFallback [] (swapApply v ans.first).1 ans.reload).slot = v.slot := by
  simp only [swapFallback_nil, swapApply, prvModelApply_eq, TflmModel.init_inited, h1, h2, hv,
    Bool.or_self, and_self]

/-- No family without an `Init` that succeeded, so the apply is refused. -/
theorem swapApply_refused {v : State} {o : InitOutcome} (h : o.initOk = false) :
    ¬ (swapApply v o).2 = true := by
  rw [swapApply, prvModelApply_eq]
  intro hk
  obtain ⟨k, hk⟩ := Option.isSome_iff_exists.mp hk
  rw [InitOutcome.initOk_of_kind hk] at h
  contradiction

/-- **One AI step of the stretch**: from `NextIdle` to `NextIdle`, past any inference, with the store
as it was. -/
theorem aiStep_nextIdle {ans : SwapAnswers} (hidle : NextIdle c) (hsave : ∀ len, c.ai ≠ .save len)
    (hok : ∀ len fb, c.ai = .named len fb → ans.first.initOk = false ∧ ans.reload.initOk = false) :
    NextIdle (aiStep [] c ans) ∧ (∀ len, (aiStep [] c ans).ai ≠ .save len) ∧
      (aiStep [] c ans).st.slot = c.st.slot ∧ (c.ai = .infer → c.st.model.inited = false) := by
  cases hai : c.ai with
  | idle =>
    by_cases hq : c.st.pendingLen = 0
    · have hni : c.st.model.inited = false := by simpa [NextIdle, hai, hq] using hidle
      rw [aiStep_idle_none hai hq]
      exact ⟨Or.inl hni, fun _ h => (nomatch h), rfl, fun h => (nomatch h)⟩
    · rw [aiStep_idle_queued hai hq]
      exact ⟨Or.inr (Or.inl ⟨_, rfl⟩), fun _ h => (nomatch h), rfl, fun h => (nomatch h)⟩
  | read len =>
    -- the teardown
    rw [aiStep_read hai]
    exact ⟨Or.inl rfl, fun _ h => (nomatch h), rfl, fun h => (nomatch h)⟩
  | staged len =>
    have hni : c.st.model.inited = false := by simpa [NextIdle, hai] using hidle
    rw [aiStep_staged hai]
    exact ⟨Or.inl hni, fun _ h => (nomatch h), rfl, fun h => (nomatch h)⟩
  | named len fb =>
    -- neither the new model nor the fallback loads
    have hni : c.st.model.inited = false := by simpa [NextIdle, hai] using hidle
    obtain ⟨h1, h2⟩ := hok len fb hai
    obtain ⟨hinit, hslot⟩ := swap_not_inited hni h1 h2
    rw [aiStep_named_refused hai (swapApply_refused h1)]
    exact ⟨Or.inl hinit, fun _ h => (nomatch h), hslot, fun h => (nomatch h)⟩
  | save len => exact absurd hai (hsave len)
  | clear =>
    have hni : c.st.model.inited = false := by simpa [NextIdle, hai] using hidle
    rw [aiStep_clear hai]
    exact ⟨Or.inl hni, fun _ h => (nomatch h), rfl, fun h => (nomatch h)⟩
  | infer =>
    have hni : c.st.model.inited = false := by simpa [NextIdle, hai] using hidle
    rw [aiStep_infer hai]
    exact ⟨Or.inl hni, fun _ h => (nomatch h), rfl, fun _ => hni⟩

theorem ai_idling {ans : SwapAnswers} (hs : Idling c) (hok : RevertsInTime c (.ai ans)) :
    Idling (aiStep [] c ans) := by
  have hframe := (aiStep_cases [] c ans).1
  refine ⟨hframe.revert.trans hs.revert, fun hr => ?_, fun hr => ?_, fun hr => ?_⟩ <;>
    rw [hframe.reverted] at hr <;>
    obtain ⟨hidle, hsave, hslot, -⟩ := aiStep_nextIdle (hs.idle hr) (hs.saving hr) (hok hr)
  · rw [hslot]
    exact hs.empty hr
  · exact hsave
  · exact hidle

/-- **One step keeps the stretch.** -/
theorem step_idling (hs : Idling c) (hok : RevertsInTime c a) (h : step [] c a = some c') :
    Idling c' := by
  cases a with
  | xfer x => exact xfer_idling hs h
  | revert r => exact revert_idling hs hok h
  | ai ans =>
    obtain rfl := Option.some.inj h
    exact ai_idling hs hok
  | reboot staging pending ans =>
    obtain rfl := Option.some.inj h
    have hb := bootCfg_idling staging pending c.st.slot ans
    refine ⟨hb.revert, fun hr => ?_, fun hr _ hsave => (nomatch hsave), fun hr => ?_⟩
    · dsimp only
      rw [(bootCfg_of_empty (hs.empty hr) staging pending ans).2.2]
      exact hs.empty hr
    · exact Or.inl (bootCfg_of_empty (hs.empty hr) staging pending ans).1

theorem revertedStep_of_idling (hs : Idling c) (hok : RevertsInTime c a)
    (h : step [] c a = some c') : RevertedStep c a c' := by
  refine ⟨?_, ?_, ?_⟩
  · rintro ans hr rfl
    exact (aiStep_nextIdle (hs.idle hr) (hs.saving hr) (hok hr)).2.2.2
  · rintro ans hr rfl
    obtain rfl := Option.some.inj h
    exact ⟨hs.saving hr, (aiStep_nextIdle (hs.idle hr) (hs.saving hr) (hok hr)).2.2.1⟩
  · rintro staging pending ans hr rfl
    obtain rfl := Option.some.inj h
    obtain ⟨hni, hsrc, -⟩ := bootCfg_of_empty (hs.empty hr) staging pending ans
    exact ⟨hni, hsrc⟩

/-- **Revert takes effect.**  In every interleaving of pushes, reverts, swaps and reboots of a build
without a compiled-in model in which every revert comes in time, nothing is inferred and nothing is
saved from a revert to the next accepted push, and a reboot comes up without a model. -/
theorem revert_idles_of_inTime (staging pending slot : Mem) (ans : BootAnswers)
    (actions : List Action)
    (hok : Meets (step []) RevertsInTime actions (bootCfg [] staging pending slot ans)) :
    AllSteps (step []) RevertedStep actions (bootCfg [] staging pending slot ans) :=
  allSteps_of_invariant step_idling revertedStep_of_idling
    (bootCfg_idling staging pending slot ans) hok

/-! ### Both sides on runs -/

/-- "a" is queued when the revert comes, and does not load; then a reboot. -/
def revertQueuedActions : List Action :=
  .revert (.start idleAnswer) :: (List.replicate 8 (.ai failedSwap) ++
    [.reboot (fun _ => 0) (fun _ => 0) emptyBoot, .ai failedSwap, .ai failedSwap])

theorem revert_idles_of_inTime_sample :
    AllSteps (step []) RevertedStep (pushActions (sampleBlob 8 [0x61]) ++ revertQueuedActions)
      bootErasedCfg := by
  have hpush : ∀ a ∈ pushActions (sampleBlob 8 [0x61]), ∀ c, RevertsInTime c a := by
    intro a ha c
    simp only [pushActions, List.mem_cons, List.not_mem_nil, or_false] at ha
    rcases ha with rfl | rfl | rfl | rfl | rfl | rfl | rfl <;> trivial
  have hrest : ∀ a ∈ revertQueuedActions.tail, ∀ c, RevertsInTime c a := by
    intro a ha c
    simp only [revertQueuedActions, List.tail_cons, List.mem_append, List.mem_replicate,
      List.mem_cons, List.not_mem_nil, or_false] at ha
    rcases ha with ⟨-, rfl⟩ | rfl | rfl | rfl
    · exact fun _ _ _ _ => ⟨rfl, rfl⟩
    · trivial
    · exact fun _ _ _ _ => ⟨rfl, rfl⟩
    · exact fun _ _ _ _ => ⟨rfl, rfl⟩
  have hobs : (runs (step []) (pushActions (sampleBlob 8 [0x61])) bootErasedCfg).map
      (fun c => (c.ai, c.st.pendingLen)) = some (.idle, 40) := by decide +kernel
  refine revert_idles_of_inTime _ _ _ emptyBoot _ (meets_append (meets_of_forall hpush _) ?_)
  intro c hc
  have hat : (c.ai, c.st.pendingLen) = (.idle, 40) :=
    Option.some.inj ((congrArg (Option.map _) hc).symm.trans hobs)
  obtain ⟨hai, hlen⟩ := Prod.mk.inj hat
  refine fun _ _ => ⟨⟨Or.inl rfl, ?_, Or.inr (Or.inr ⟨hai, by rw [hlen]; decide⟩)⟩,
    meets_of_forall hrest _⟩
  intro len hsave
  exact absurd (hai.symm.trans hsave) (by simp)

/-- "a" is running when the revert comes. -/
def revertRunningActions : List Action :=
  pushActions (sampleBlob 8 [0x61]) ++ List.replicate 7 (.ai goodSwap) ++
    [.revert (.start idleAnswer), .ai goodSwap]

/-- The AI thread goes on with it. -/
theorem revert_keeps_running :
    ¬ ∀ (staging pending slot : Mem) (ans : BootAnswers) (actions : List Action),
      AllSteps (step []) RevertedStep actions (bootCfg [] staging pending slot ans) := by
  intro h
  have hall := h (fun _ => 0) (fun _ => 0) (fun _ => 0xFF) emptyBoot
    (revertRunningActions ++ [.ai goodSwap])
  have hobs : (runs (step []) revertRunningActions bootErasedCfg).map
      (fun c => (c.reverted, c.ai, c.st.model.inited)) = some (true, .infer, true) := by
    decide +kernel
  obtain ⟨c, hrun, hc⟩ := Option.map_eq_some_iff.mp hobs
  obtain ⟨hrev, hai, hinit⟩ : c.reverted = true ∧ c.ai = .infer ∧ c.st.model.inited = true := by
    simpa using hc
  have hni := (hall.at hrun rfl).infer goodSwap hrev rfl hai
  exact absurd (hinit.symm.trans hni) (by decide)

end IotcRa8p1.Vision.Tasks
