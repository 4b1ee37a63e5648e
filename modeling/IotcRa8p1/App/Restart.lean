import IotcRa8p1.App.Scheduling

/-!
# A restart reads the newest configuration

The request flag is set at any point of a poll and cleared only in the restart branch, which goes on to close
the connection and makes the app idle; from there it reads the configuration before it opens the next one.
So behind every `iotc_config_load` a later request is still in the flag (`Session`), except between the
clearing of the flag and `s_state = IOTC_APP_IDLE`, where the app still counts as running.
-/

namespace IotcRa8p1.App.Poll

open Machine
open Sdk (AppState)

/-- The connection was opened with the identity of the last load, and no restart was requested since that
load. -/
def OpenedWithNewest (trace : List Event) : Prop :=
  ∃ before mid after, trace = before ++ .load :: mid ++ .opened :: after ∧
    .load ∉ mid ++ after ∧ .opened ∉ after ∧ .request ∉ mid ++ after

/-- The net thread is between the clearing of the request and the end of the connection. -/
def InRestart (s : St) : Prop := s.net = .restartDeinit ∨ s.net = .restartIdle

instance (s : St) : Decidable (InRestart s) := inferInstanceAs (Decidable (_ ∨ _))

/-! ### The last load -/

/-- A request since the last load is still in the flag. -/
def Loaded (s : St) : Prop :=
  ∃ before mid, s.trace = before ++ .load :: mid ∧ .load ∉ mid ∧
    (.request ∈ mid → s.restartReq = true)

/-- The same, with the connection opened since. -/
def Opened (s : St) : Prop :=
  ∃ before mid after, s.trace = before ++ .load :: mid ++ .opened :: after ∧
    .load ∉ mid ++ after ∧ .opened ∉ after ∧ (.request ∈ mid ++ after → s.restartReq = true)

/-- A step that neither loads nor opens nor clears the flag. -/
structure Grown (s s' : St) : Prop where
  trace : ∃ events, s'.trace = s.trace ++ events ∧ .load ∉ events ∧ .opened ∉ events ∧
    (.request ∈ events → s'.restartReq = true)
  restartReq : s.restartReq = true → s'.restartReq = true

theorem Loaded.grow {s s' : St} (hs : Loaded s) (h : Grown s s') : Loaded s' := by
  obtain ⟨before, mid, htrace, hload, hreq⟩ := hs
  obtain ⟨events, htrace', hload', -, hreq'⟩ := h.trace
  refine ⟨before, mid ++ events, by rw [htrace', htrace, List.append_assoc, List.cons_append], ?_, ?_⟩
  · simp [hload, hload']
  · intro hmem
    rcases List.mem_append.mp hmem with hmem | hmem
    · exact h.restartReq (hreq hmem)
    · exact hreq' hmem

theorem Opened.grow {s s' : St} (hs : Opened s) (h : Grown s s') : Opened s' := by
  obtain ⟨before, mid, after, htrace, hload, hopened, hreq⟩ := hs
  obtain ⟨events, htrace', hload', hopened', hreq'⟩ := h.trace
  refine ⟨before, mid, after ++ events, by rw [htrace', htrace]; simp, ?_, ?_, ?_⟩
  · rw [← List.append_assoc]
    exact fun hmem => (List.mem_append.mp hmem).elim hload hload'
  · exact fun hmem => (List.mem_append.mp hmem).elim hopened hopened'
  · rw [← List.append_assoc]
    intro hmem
    rcases List.mem_append.mp hmem with hmem | hmem
    · exact h.restartReq (hreq hmem)
    · exact hreq' hmem

theorem Loaded.open {s s' : St} (hs : Loaded s) (htrace' : s'.trace = s.trace ++ [.opened])
    (hreq' : s'.restartReq = s.restartReq) : Opened s' := by
  obtain ⟨before, mid, htrace, hload, hreq⟩ := hs
  refine ⟨before, mid, [], by rw [htrace', htrace], ?_, List.not_mem_nil, ?_⟩
  · rwa [List.append_nil]
  · rw [List.append_nil, hreq']
    exact hreq

theorem Opened.newest {s : St} (hs : Opened s) (hreq : s.restartReq = false) :
    OpenedWithNewest s.trace := by
  obtain ⟨before, mid, after, htrace, hload, hopened, hmem⟩ := hs
  refine ⟨before, mid, after, htrace, hload, hopened, fun h => ?_⟩
  exact absurd (hreq.symm.trans (hmem h)) (by decide)

/-! ### The invariant -/

def Session (s : St) : Prop :=
  match s.net with
  | .load => s.appState = .idle
  | .setStarting => s.appState = .idle ∧ Loaded s
  | .timeSync => s.appState = .starting ∧ Loaded s
  | .init => s.appState = .starting ∧ Loaded s
  | .connect => s.appState = .starting ∧ Loaded s
  | .setRunning => s.appState = .starting ∧ Opened s
  | .restartDeinit => True
  | .restartIdle => True
  | _ => s.appState = .running → Opened s

theorem boot_session : Session boot := fun h => by simp [boot] at h

theorem grown_of_eq {s s' : St} (htrace : s'.trace = s.trace) (hreq : s'.restartReq = s.restartReq) :
    Grown s s' :=
  ⟨⟨[], by rw [htrace, List.append_nil], List.not_mem_nil, List.not_mem_nil,
    fun h => absurd h List.not_mem_nil⟩, fun h => hreq.trans h⟩

theorem grown_of_quiet {s s' : St} (h : Quiet .session s s') (hreq : s'.restartReq = s.restartReq) :
    Grown s s' := by
  obtain ⟨events, htrace, hquiet⟩ := h
  exact ⟨⟨events, htrace, fun hmem => hquiet _ hmem rfl, fun hmem => hquiet _ hmem rfl,
    fun hmem => absurd rfl (hquiet _ hmem)⟩, fun h => hreq.trans h⟩

theorem grown_of_one {s s' : St} {e : Event} (htrace : s'.trace = s.trace ++ [e])
    (he : e ≠ .load ∧ e ≠ .opened ∧ e ≠ .request) (hreq : s'.restartReq = s.restartReq) :
    Grown s s' := by
  refine ⟨⟨[e], htrace, ?_, ?_, fun hmem => ?_⟩, fun h => hreq.trans h⟩
  · exact fun hmem => he.1 (List.mem_singleton.mp hmem).symm
  · exact fun hmem => he.2.1 (List.mem_singleton.mp hmem).symm
  · exact absurd (List.mem_singleton.mp hmem).symm he.2.2

/-- The other tasks. -/
theorem Session.other {s s' : St} (hs : Session s) (hnet : s'.net = s.net)
    (happ : s'.appState = s.appState) (h : Grown s s') : Session s' := by
  rw [Session] at hs ⊢
  rw [hnet, happ]
  cases hpc : s.net with
  | load => simpa only [hpc] using hs
  | restartDeinit | restartIdle => trivial
  | setStarting | timeSync | init | connect =>
    simp only [hpc] at hs
    exact ⟨hs.1, hs.2.grow h⟩
  | setRunning =>
    simp only [hpc] at hs
    exact ⟨hs.1, hs.2.grow h⟩
  | _ =>
    simp only [hpc] at hs
    exact fun hrun => (hs hrun).grow h

/-- The instructions between two openings of a connection. -/
def NetPc.between : NetPc → Bool
  | .load => false
  | .setStarting => false
  | .timeSync => false
  | .init => false
  | .connect => false
  | .setRunning => false
  | _ => true

theorem session_of_between {s : St} (hnet : s.net.between = true)
    (h : s.appState = .running → Opened s) : Session s := by
  rw [Session]
  cases hpc : s.net with
  | load | setStarting | timeSync | init | connect | setRunning =>
    rw [hpc] at hnet
    contradiction
  | restartDeinit | restartIdle => trivial
  | _ => exact h

theorem session_of_stopped {s : St} (hnet : s.net.between = true) (h : s.appState ≠ .running) :
    Session s :=
  session_of_between hnet fun hrun => absurd hrun h

theorem net_session {s : St} (hs : Session s) (yes : Bool) : Session (netStep s yes) := by
  rw [Session] at hs
  -- an instruction that leaves the connection as it is
  have hgo {s' : St} (hold : s.appState = .running → Opened s) (happ : s'.appState = s.appState)
      (h : Grown s s') (hnet : s'.net.between = true) : Session s' :=
    session_of_between hnet fun hrun => (hold (happ ▸ hrun)).grow h
  cases hpc : s.net with
  | poll =>
    simp only [hpc] at hs
    simp only [netStep, hpc]
    exact hgo hs rfl (grown_of_eq rfl rfl) (by dsimp only; split_ifs <;> rfl)
  | restartBusy k | runningTest k | retryBusy k =>
    simp only [hpc] at hs
    cases k <;> simp only [netStep, hpc] <;>
      exact hgo hs rfl (grown_of_eq rfl rfl) (by dsimp only; split_ifs <;> rfl)
  | restartClear | restartDeinit =>
    simp only [netStep, hpc]
    trivial
  | restartIdle =>
    simp only [netStep, hpc]
    exact session_of_stopped rfl (by simp)
  | switch =>
    simp only [hpc] at hs
    simp only [netStep, hpc]
    cases happ : s.appState with
    | idle =>
      cases yes with
      | true => rfl
      | false => exact session_of_stopped rfl (by simp)
    | starting | failed => exact session_of_stopped rfl (by simp)
    | running => exact session_of_between rfl fun _ => (hs happ).grow (grown_of_eq rfl rfl)
  | load =>
    simp only [hpc] at hs
    simp only [netStep, hpc]
    cases yes with
    | true => exact ⟨hs, s.trace, [], rfl, List.not_mem_nil, fun h => absurd h List.not_mem_nil⟩
    | false => exact session_of_stopped rfl (by simp [hs])
  | setStarting =>
    simp only [hpc] at hs
    simp only [netStep, hpc]
    exact ⟨rfl, hs.2.grow (grown_of_eq rfl rfl)⟩
  | timeSync =>
    simp only [hpc] at hs
    simp only [netStep, hpc]
    cases yes with
    | true => exact ⟨hs.1, hs.2.grow (grown_of_eq rfl rfl)⟩
    | false => exact session_of_stopped rfl (by simp)
  | init =>
    simp only [hpc] at hs
    simp only [netStep, hpc]
    cases yes with
    | true => exact ⟨hs.1, hs.2.grow (grown_of_eq rfl rfl)⟩
    | false => exact session_of_stopped rfl (by simp)
  | connect =>
    simp only [hpc] at hs
    simp only [netStep, hpc]
    cases yes with
    | true => exact ⟨hs.1, hs.2.open rfl rfl⟩
    | false => exact session_of_stopped rfl (by simp)
  | setRunning =>
    simp only [hpc] at hs
    simp only [netStep, hpc]
    exact session_of_between rfl fun _ => hs.2.grow (grown_of_eq rfl rfl)
  | connected =>
    simp only [hpc] at hs
    simp only [netStep, hpc]
    cases yes with
    | true => exact hgo hs rfl (grown_of_eq rfl rfl) rfl
    | false => exact session_of_stopped rfl (by simp)
  | pendingTest k =>
    simp only [hpc] at hs
    simp only [netStep, hpc]
    exact hgo hs rfl (grown_of_eq rfl rfl) (by cases k <;> dsimp only <;> split_ifs <;> rfl)
  | heapTest =>
    simp only [hpc] at hs
    simp only [netStep, hpc]
    exact hgo hs rfl (grown_of_eq rfl rfl) (by dsimp only; split_ifs <;> rfl)
  | create k =>
    simp only [hpc] at hs
    simp only [netStep, hpc]
    cases s.xfer <;> exact hgo hs rfl (grown_of_eq rfl rfl) rfl
  | set k =>
    simp only [hpc] at hs
    simp only [netStep, hpc]
    exact hgo hs rfl (grown_of_one rfl (by simp) rfl) rfl
  | give k =>
    simp only [hpc] at hs
    simp only [netStep, hpc]
    exact hgo hs rfl (grown_of_eq rfl rfl) (by cases k <;> rfl)
  | retry =>
    simp only [hpc] at hs
    simp only [netStep, hpc]
    exact hgo hs rfl (grown_of_eq rfl rfl) (by dsimp only; split_ifs <;> rfl)
  | retryDeinit =>
    simp only [hpc] at hs
    simp only [netStep, hpc]
    exact hgo hs rfl (grown_of_one rfl (by simp) rfl) rfl
  | retryIdle =>
    simp only [netStep, hpc]
    exact session_of_stopped rfl (by simp)

theorem xferStep_fields (s : St) (pc : XferPc) (yes : Bool) :
    (xferStep s pc yes).net = s.net ∧ (xferStep s pc yes).appState = s.appState ∧
      (xferStep s pc yes).restartReq = s.restartReq := by
  cases pc with
  | check k | download attempt p =>
    rw [xferStep]
    split_ifs <;> exact ⟨rfl, rfl, rfl⟩
  | ack p status =>
    rw [xferStep]
    cases p.ack <;> exact ⟨rfl, rfl, rfl⟩
  | sendAck start ok =>
    rw [xferStep]
    cases hack : s.snapshotAck <;> exact ⟨rfl, rfl, rfl⟩
  | _ => exact ⟨rfl, rfl, rfl⟩

theorem step_session {s s' : St} {a : Action} (hs : Session s) (h : step s a = some s') :
    Session s' := by
  cases a with
  | net yes => exact Option.some.inj h ▸ net_session hs yes
  | xfer yes =>
    obtain ⟨pc, -, -, rfl⟩ := step_xfer h
    obtain ⟨hnet, happ, hreq⟩ := xferStep_fields s pc yes
    exact hs.other hnet happ (grown_of_quiet (xferStep_session s pc yes) hreq)
  | ota url ack =>
    have hasked := prvOnOta_asked s url ack
    have hq := asked_session h (by simp) (by simp)
    obtain rfl := Option.some.inj h
    have hreq : (prvOnOta s url ack).restartReq = s.restartReq := by
      rw [prvOnOta]
      split_ifs <;> rfl
    exact hs.other hasked.net hasked.appState (grown_of_quiet hq hreq)
  | command ack =>
    have hasked := prvOnCommand_asked s ack
    have hq := asked_session h (by simp) (by simp)
    obtain rfl := Option.some.inj h
    have hreq : (prvOnCommand s ack).restartReq = s.restartReq := by
      rw [prvOnCommand]
      split_ifs <;> rfl
    exact hs.other hasked.net hasked.appState (grown_of_quiet hq hreq)
  | cliSnapshot => exact Option.some.inj h ▸ hs.other rfl rfl (grown_of_eq rfl rfl)
  | cliApply =>
    refine Option.some.inj h ▸ hs.other rfl rfl ⟨⟨[.request], rfl, ?_, ?_, fun _ => rfl⟩, fun _ => rfl⟩
    · simp
    · simp

/-! ### Every run -/

/-- A running app without a request to follow has the newest identity. -/
def Newest (s : St) : Prop :=
  s.appState = .running → s.restartReq = false → OpenedWithNewest s.trace

theorem Session.newest {s : St} (hs : Session s) (hnot : ¬ InRestart s) : Newest s := by
  intro hrun hreq
  rw [Session] at hs
  cases hpc : s.net with
  | load | setStarting | timeSync | init | connect | setRunning =>
    simp only [hpc] at hs
    simp [hrun] at hs
  | restartDeinit => exact absurd (Or.inl hpc) hnot
  | restartIdle => exact absurd (Or.inr hpc) hnot
  | _ =>
    simp only [hpc] at hs
    exact (hs hrun).newest hreq

/-- **Apply uses the newest configuration.**  In every state of every run, outside the restart branch
itself: a running app whose request flag is clear has opened its connection with an identity that was
loaded after the last request. -/
theorem restart_uses_newest (as : List Action) :
    AllSteps step (fun _ _ s' => ¬ InRestart s' → Newest s') as boot := by
  have hmeets : Meets step (fun _ _ => True) as boot := meets_of_forall (fun _ _ _ => trivial) boot
  exact allSteps_of_invariant (fun hs _ h => step_session hs h)
    (fun hs _ h => (step_session hs h).newest) boot_session hmeets

/-- From a start to a running app, then a request and the restart branch up to its `busy` test. -/
def restartRun : List Action :=
  List.replicate 8 (.net true) ++ .cliApply :: List.replicate 3 (.net true)

/-- Where the flag is cleared, the app still runs with the old identity. -/
theorem restart_clears_flag_first :
    ¬ ∀ as : List Action, AllSteps step (fun _ _ s' => Newest s') as boot := by
  intro h
  obtain ⟨s, s', hrun, hstep, happ, hreq, htrace⟩ : ∃ s s', runs step restartRun boot = some s ∧
      step s (.net true) = some s' ∧ s'.appState = .running ∧ s'.restartReq = false ∧
      s'.trace = [.load, .opened, .request] :=
    ⟨_, _, rfl, rfl, rfl, rfl, rfl⟩
  have hnewest : Newest s' := (h (restartRun ++ [.net true])).at hrun hstep
  obtain ⟨before, mid, after, heq, -, -, hmem⟩ := hnewest happ hreq
  rw [htrace] at heq
  have hlen := congrArg List.length heq
  simp only [List.length_append, List.length_cons, List.length_nil] at hlen
  -- the request stands behind the only load
  cases before with
  | nil =>
    have hreq : Event.request ∈ Event.load :: mid ++ .opened :: after := by
      rw [← List.nil_append (Event.load :: mid ++ _), ← List.append_assoc, ← heq]
      simp
    simp only [List.cons_append, List.mem_cons, List.mem_append] at hreq
    simp only [List.mem_append] at hmem
    simp [not_or.mp hmem] at hreq
  | cons e before =>
    have hbefore : before = [] := List.eq_nil_of_length_eq_zero (by simp at hlen; omega)
    simp [hbefore] at heq

end IotcRa8p1.App.Poll
