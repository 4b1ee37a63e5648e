import IotcRa8p1.App.Poll

/-!
# Scheduling of the transfers

The net thread is the only one that sets a running flag, and only when it has read it false; the transfer
task is the only one that clears it, at the end of the execution.  So a set flag that has not led to an
execution is found by the task: either it is still on the way to its check, or it has a notification, or the
net thread is about to give one (`Waiting`).  One notification may serve two flags, and one may come for a flag
that is already served.
-/

namespace IotcRa8p1.App.Poll

open Machine

/-! ### What a step appends -/

inductive Topic where
  | session
  | transfer
  | message
  deriving DecidableEq

def Event.topic : Event → Topic
  | .deinit => .session
  | .load => .session
  | .opened => .session
  | .request => .session
  | .set _ => .transfer
  | .begin _ => .transfer
  | .finish _ => .transfer
  | .ota _ _ => .message
  | .otaAck _ _ => .message
  | .command _ _ => .message
  | .commandAck _ _ => .message
  | .capture => .message

/-- The trace has grown by events that are not of the topic. -/
def Quiet (topic : Topic) (s s' : St) : Prop :=
  ∃ events, s'.trace = s.trace ++ events ∧ ∀ e ∈ events, e.topic ≠ topic

theorem quiet_of_eq {topic : Topic} {s s' : St} (h : s'.trace = s.trace) : Quiet topic s s' :=
  ⟨[], by rw [h, List.append_nil], fun _ he => absurd he List.not_mem_nil⟩

theorem quiet_of_one {topic : Topic} {s s' : St} {e : Event} (h : s'.trace = s.trace ++ [e])
    (he : e.topic ≠ topic) : Quiet topic s s' :=
  ⟨[e], h, fun x hx => by rwa [List.mem_singleton.mp hx]⟩

theorem Quiet.count {topic : Topic} {s s' : St} (h : Quiet topic s s') {e : Event}
    (he : e.topic = topic) : s'.trace.count e = s.trace.count e := by
  obtain ⟨events, htrace, hquiet⟩ := h
  rw [htrace, List.count_append, List.count_eq_zero.mpr fun hmem => hquiet e hmem he, Nat.add_zero]

/-! ### What a step can do to the transfers -/

/-- Neither the flags nor the transfer task nor its notifications change. -/
structure Still (s s' : St) : Prop where
  running : s'.running = s.running
  xfer : s'.xfer = s.xfer
  notified : s'.notified = s.notified
  quiet : Quiet .transfer s s'

/-- **Net thread.**  It sets a flag, gives a notification, creates the task, or leaves the transfers. -/
theorem netStep_cases (s : St) (yes : Bool) :
    (∃ k, s.net = .set k ∧ netStep s yes =
      { s with running := Function.update s.running k true, net := .give k,
               trace := s.trace ++ [.set k] }) ∨
    (∃ k, s.net = .give k ∧
      netStep s yes = { s with notified := s.notified + 1, net := afterStart k }) ∨
    (∃ k, s.net = .create k ∧ s.xfer = none ∧
      netStep s yes = { s with xfer := some .take, net := .set k }) ∨
    ((∀ k, s.net ≠ .give k) ∧ Still s (netStep s yes)) := by
  have hsame {s' : St} (hr : s'.running = s.running) (hx : s'.xfer = s.xfer)
      (hn : s'.notified = s.notified) (ht : s'.trace = s.trace) : Still s s' :=
    ⟨hr, hx, hn, quiet_of_eq ht⟩
  have hone {s' : St} {e : Event} (hr : s'.running = s.running) (hx : s'.xfer = s.xfer)
      (hn : s'.notified = s.notified) (ht : s'.trace = s.trace ++ [e]) (he : e.topic = .session) :
      Still s s' :=
    ⟨hr, hx, hn, quiet_of_one ht (by rw [he]; decide)⟩
  cases hnet : s.net with
  | set k => exact Or.inl ⟨k, rfl, by rw [netStep, hnet]⟩
  | give k => exact Or.inr (Or.inl ⟨k, rfl, by rw [netStep, hnet]⟩)
  | create k =>
    refine Or.inr (Or.inr ?_)
    rw [netStep, hnet]
    cases hx : s.xfer with
    | none => exact Or.inl ⟨k, rfl, rfl, rfl⟩
    | some pc => exact Or.inr ⟨by simp, hsame rfl hx.symm rfl rfl⟩
  | poll | restartClear | restartIdle | setStarting | setRunning | pendingTest k | heapTest
  | retry | retryIdle =>
    refine Or.inr (Or.inr (Or.inr ?_))
    rw [netStep, hnet]
    exact ⟨by simp, hsame rfl rfl rfl rfl⟩
  | restartBusy k | runningTest k | retryBusy k =>
    refine Or.inr (Or.inr (Or.inr ?_))
    rw [netStep, hnet]
    cases k <;> exact ⟨by simp, hsame rfl rfl rfl rfl⟩
  | restartDeinit | load | retryDeinit =>
    refine Or.inr (Or.inr (Or.inr ?_))
    rw [netStep, hnet]
    exact ⟨by simp, hone rfl rfl rfl rfl rfl⟩
  | timeSync | init | connected =>
    refine Or.inr (Or.inr (Or.inr ?_))
    rw [netStep, hnet]
    dsimp only
    split_ifs <;> exact ⟨by simp, hsame rfl rfl rfl rfl⟩
  | connect =>
    refine Or.inr (Or.inr (Or.inr ?_))
    rw [netStep, hnet]
    dsimp only
    split_ifs
    · exact ⟨by simp, hone rfl rfl rfl rfl rfl⟩
    · exact ⟨by simp, hsame rfl rfl rfl rfl⟩
  | switch =>
    refine Or.inr (Or.inr (Or.inr ?_))
    rw [netStep, hnet]
    cases s.appState <;> exact ⟨by simp, hsame rfl rfl rfl rfl⟩

/-! ### What the net thread knows -/

/-- What the net thread has read of the running flags still holds, as no other task sets them. -/
def Knows (s : St) : Prop :=
  match s.net with
  | .restartBusy .snapshot => s.running .model = false
  | .restartClear => ∀ k, s.running k = false
  | .restartDeinit => ∀ k, s.running k = false
  | .heapTest => s.running .model = false
  | .create k => s.running k = false
  | .set k => s.running k = false ∧ s.xfer ≠ none
  | .give _ => s.xfer ≠ none
  | .retryBusy .snapshot => s.running .model = false
  | .retryDeinit => ∀ k, s.running k = false
  | _ => True

theorem forall_kind {P : Kind → Prop} : (∀ k, P k) ↔ P .model ∧ P .snapshot :=
  ⟨fun h => ⟨h _, h _⟩, fun h k => by cases k; exacts [h.1, h.2]⟩

theorem netStep_knows {s : St} (hs : Knows s) (yes : Bool) : Knows (netStep s yes) := by
  cases hnet : s.net with
  | poll =>
    simp only [netStep, hnet]
    split_ifs <;> trivial
  | restartBusy k =>
    cases k with
    | model =>
      simp only [netStep, hnet]
      split_ifs with h
      · trivial
      · exact Bool.eq_false_iff.mpr h
    | snapshot =>
      simp only [Knows, hnet] at hs
      simp only [netStep, hnet]
      split_ifs with h
      · trivial
      · exact forall_kind.mpr ⟨hs, Bool.eq_false_iff.mpr h⟩
  | restartClear =>
    simp only [Knows, hnet] at hs
    simp only [netStep, hnet]
    exact hs
  | restartDeinit | restartIdle | setStarting | setRunning | retryDeinit | retryIdle =>
    simp only [netStep, hnet]
    trivial
  | switch =>
    simp only [netStep, hnet]
    cases s.appState with
    | idle =>
      dsimp only
      split_ifs <;> trivial
    | starting | running | failed => trivial
  | load | timeSync | init | connect | connected | retry =>
    simp only [netStep, hnet]
    split_ifs <;> trivial
  | pendingTest k =>
    simp only [netStep, hnet]
    cases k <;> split_ifs <;> trivial
  | runningTest k =>
    cases k with
    | model =>
      simp only [netStep, hnet]
      split_ifs with h
      · trivial
      · exact Bool.eq_false_iff.mpr h
    | snapshot =>
      simp only [netStep, hnet]
      split_ifs with h
      · trivial
      · exact Bool.eq_false_iff.mpr h
  | heapTest =>
    simp only [Knows, hnet] at hs
    simp only [netStep, hnet]
    split_ifs
    · exact hs
    · trivial
  | create k =>
    simp only [Knows, hnet] at hs
    simp only [netStep, hnet]
    cases hx : s.xfer with
    | none => exact ⟨hs, by simp⟩
    | some pc => exact ⟨hs, by simp⟩
  | set k =>
    simp only [Knows, hnet] at hs
    simp only [netStep, hnet]
    exact hs.2
  | give k =>
    simp only [netStep, hnet]
    cases k <;> trivial
  | retryBusy k =>
    cases k with
    | model =>
      simp only [netStep, hnet]
      split_ifs with h
      · trivial
      · exact Bool.eq_false_iff.mpr h
    | snapshot =>
      simp only [Knows, hnet] at hs
      simp only [netStep, hnet]
      split_ifs with h
      · trivial
      · exact forall_kind.mpr ⟨hs, Bool.eq_false_iff.mpr h⟩

/-- The other tasks only clear the flags. -/
theorem Knows.other {s s' : St} (hs : Knows s) (hnet : s'.net = s.net)
    (hrun : ∀ k, s'.running k = true → s.running k = true) (hx : s.xfer ≠ none → s'.xfer ≠ none) :
    Knows s' := by
  have hfalse {k : Kind} (hk : s.running k = false) : s'.running k = false := by
    cases h : s'.running k with
    | false => rfl
    | true => exact absurd (hk.symm.trans (hrun k h)) (by decide)
  rw [Knows] at hs ⊢
  rw [hnet]
  cases h : s.net with
  | restartBusy k | retryBusy k =>
    cases k with
    | model => trivial
    | snapshot => exact hfalse (by simpa only [h] using hs)
  | restartClear | restartDeinit | retryDeinit =>
    simp only [h] at hs
    exact fun k => hfalse (hs k)
  | heapTest | create k => exact hfalse (by simpa only [h] using hs)
  | set k =>
    simp only [h] at hs
    exact ⟨hfalse hs.1, hx hs.2⟩
  | give k => exact hx (by simpa only [h] using hs)
  | _ => trivial

/-! ### Inside the transfer task -/

/-- The transfer an instruction belongs to. -/
def XferPc.executes : XferPc → Option Kind
  | .take => none
  | .check _ => none
  | .read => some .model
  | .download _ _ => some .model
  | .lostHeap _ => some .model
  | .unwrap _ => some .model
  | .swap _ => some .model
  | .ack _ _ => some .model
  | .release => some .model
  | .capture => some .snapshot
  | .upload _ => some .snapshot
  | .ackTest _ _ => some .snapshot
  | .sendAck _ _ => some .snapshot
  | .releaseAck => some .snapshot
  | .clearPending k => some k
  | .clear k => some k

def executing (s : St) : Option Kind := s.xfer.bind XferPc.executes

/-- At most how many instructions it takes to begin the transfer, when its flag is set. -/
def stepsTo : Kind → XferPc → ℕ
  | .model, .check .model => 1
  | .model, .take => 2
  | .model, .clear _ => 3
  | .model, .clearPending _ => 4
  | .model, .releaseAck => 5
  | .model, .sendAck _ _ => 6
  | .model, .ackTest _ _ => 7
  | .model, .upload _ => 8
  | .model, .capture => 9
  | .model, .check .snapshot => 10
  | .model, _ => 0
  | .snapshot, .check .snapshot => 1
  | .snapshot, .clear _ => 2
  | .snapshot, .clearPending _ => 3
  | .snapshot, .release => 4
  | .snapshot, .ack _ _ => 5
  | .snapshot, .swap _ => 6
  | .snapshot, .lostHeap _ => 6
  | .snapshot, .unwrap _ => 7
  | .snapshot, .download attempt _ => 8 + (3 - attempt)
  | .snapshot, .read => 11
  | .snapshot, .check .model => 12
  | .snapshot, .take => 13
  | .snapshot, _ => 0

/-- One instruction inside a transfer. -/
structure Within (k : Kind) (pc : XferPc) (s s' : St) : Prop where
  running : s'.running = s.running
  net : s'.net = s.net
  notified : s'.notified = s.notified
  quiet : Quiet .transfer s s'
  xfer : ∃ pc', s'.xfer = some pc' ∧ pc'.executes = some k ∧
    ∀ k', k' ≠ k → stepsTo k' pc' + 1 ≤ stepsTo k' pc

theorem forall_ne_model {P : Kind → Prop} (h : P .snapshot) : ∀ k, k ≠ .model → P k := by
  intro k hk
  cases k with
  | model => exact absurd rfl hk
  | snapshot => exact h

theorem forall_ne_snapshot {P : Kind → Prop} (h : P .model) : ∀ k, k ≠ .snapshot → P k := by
  intro k hk
  cases k with
  | model => exact h
  | snapshot => exact absurd rfl hk

/-- **Transfer task.**  It takes its notifications, finds a flag set or not, ends a transfer, or goes on
inside one. -/
theorem xferStep_cases (s : St) (pc : XferPc) (yes : Bool) :
    (pc = .take ∧ xferStep s pc yes = { s with notified := 0, xfer := some (.check .model) }) ∨
    (∃ k, pc = .check k ∧ s.running k = true ∧
      xferStep s pc yes = { s with xfer := some (execute k), trace := s.trace ++ [.begin k] }) ∨
    (∃ k, pc = .check k ∧ s.running k = false ∧
      xferStep s pc yes = { s with xfer := some (afterTransfer k) }) ∨
    (∃ k, pc = .clear k ∧ xferStep s pc yes =
      { s with running := Function.update s.running k false, xfer := some (afterTransfer k),
               trace := s.trace ++ [.finish k] }) ∨
    (∃ k, pc.executes = some k ∧ Within k pc s (xferStep s pc yes)) := by
  cases pc with
  | take => exact Or.inl ⟨rfl, rfl⟩
  | check k =>
    cases hk : s.running k with
    | true => exact Or.inr (Or.inl ⟨k, rfl, hk, by rw [xferStep, if_pos hk]⟩)
    | false => exact Or.inr (Or.inr (Or.inl ⟨k, rfl, hk, by rw [xferStep, if_neg (by simp [hk])]⟩))
  | clear k => exact Or.inr (Or.inr (Or.inr (Or.inl ⟨k, rfl, rfl⟩)))
  | read =>
    refine Or.inr (Or.inr (Or.inr (Or.inr ⟨.model, rfl, ?_⟩)))
    exact ⟨rfl, rfl, rfl, quiet_of_eq rfl, _, rfl, rfl, forall_ne_model (by simp [stepsTo])⟩
  | download attempt p =>
    refine Or.inr (Or.inr (Or.inr (Or.inr ⟨.model, rfl, ?_⟩)))
    rw [xferStep]
    split_ifs with hyes hatt
    · exact ⟨rfl, rfl, rfl, quiet_of_eq rfl, _, rfl, rfl,
        forall_ne_model (by simp only [stepsTo]; omega)⟩
    · exact ⟨rfl, rfl, rfl, quiet_of_eq rfl, _, rfl, rfl,
        forall_ne_model (by simp only [stepsTo]; omega)⟩
    · exact ⟨rfl, rfl, rfl, quiet_of_eq rfl, _, rfl, rfl,
        forall_ne_model (by simp only [stepsTo]; omega)⟩
  | lostHeap p =>
    refine Or.inr (Or.inr (Or.inr (Or.inr ⟨.model, rfl, ?_⟩)))
    rw [xferStep]
    cases yes <;> exact ⟨rfl, rfl, rfl, quiet_of_eq rfl, _, rfl, rfl,
      forall_ne_model (by simp [stepsTo])⟩
  | unwrap p =>
    refine Or.inr (Or.inr (Or.inr (Or.inr ⟨.model, rfl, ?_⟩)))
    rw [xferStep]
    cases yes <;> exact ⟨rfl, rfl, rfl, quiet_of_eq rfl, _, rfl, rfl,
      forall_ne_model (by simp [stepsTo])⟩
  | swap p =>
    refine Or.inr (Or.inr (Or.inr (Or.inr ⟨.model, rfl, ?_⟩)))
    exact ⟨rfl, rfl, rfl, quiet_of_eq rfl, _, rfl, rfl, forall_ne_model (by simp [stepsTo])⟩
  | ack p status =>
    refine Or.inr (Or.inr (Or.inr (Or.inr ⟨.model, rfl, ?_⟩)))
    rw [xferStep]
    cases p.ack with
    | some message =>
      exact ⟨rfl, rfl, rfl, quiet_of_one rfl (by simp [Event.topic]), _, rfl, rfl,
        forall_ne_model (by simp [stepsTo])⟩
    | none =>
      exact ⟨rfl, rfl, rfl, quiet_of_eq rfl, _, rfl, rfl,
        forall_ne_model (by simp [stepsTo])⟩
  | release =>
    refine Or.inr (Or.inr (Or.inr (Or.inr ⟨.model, rfl, ?_⟩)))
    exact ⟨rfl, rfl, rfl, quiet_of_eq rfl, _, rfl, rfl, forall_ne_model (by simp [stepsTo])⟩
  | capture =>
    refine Or.inr (Or.inr (Or.inr (Or.inr ⟨.snapshot, rfl, ?_⟩)))
    exact ⟨rfl, rfl, rfl, quiet_of_one rfl (by decide), _, rfl, rfl,
      forall_ne_snapshot (by simp [stepsTo])⟩
  | upload start =>
    refine Or.inr (Or.inr (Or.inr (Or.inr ⟨.snapshot, rfl, ?_⟩)))
    exact ⟨rfl, rfl, rfl, quiet_of_eq rfl, _, rfl, rfl, forall_ne_snapshot (by simp [stepsTo])⟩
  | ackTest start ok =>
    refine Or.inr (Or.inr (Or.inr (Or.inr ⟨.snapshot, rfl, ?_⟩)))
    rw [xferStep]
    cases s.snapshotAck <;> exact ⟨rfl, rfl, rfl, quiet_of_eq rfl, _, rfl, rfl,
      forall_ne_snapshot (by simp [stepsTo])⟩
  | sendAck start ok =>
    refine Or.inr (Or.inr (Or.inr (Or.inr ⟨.snapshot, rfl, ?_⟩)))
    rw [xferStep]
    cases hack : s.snapshotAck with
    | some message =>
      exact ⟨rfl, rfl, rfl, quiet_of_one rfl (by simp [Event.topic]), _, rfl, rfl,
        forall_ne_snapshot (by simp [stepsTo])⟩
    | none =>
      exact ⟨rfl, rfl, rfl, quiet_of_eq rfl, _, rfl, rfl,
        forall_ne_snapshot (by simp [stepsTo])⟩
  | releaseAck =>
    refine Or.inr (Or.inr (Or.inr (Or.inr ⟨.snapshot, rfl, ?_⟩)))
    exact ⟨rfl, rfl, rfl, quiet_of_eq rfl, _, rfl, rfl, forall_ne_snapshot (by simp [stepsTo])⟩
  | clearPending k =>
    refine Or.inr (Or.inr (Or.inr (Or.inr ⟨k, rfl, rfl, rfl, rfl, quiet_of_eq rfl, _, rfl, rfl, ?_⟩)))
    intro k' _
    cases k' <;> simp [stepsTo]

/-! ### The invariant -/

/-- How often the flag was set, and the transfer begun and ended. -/
def sets (k : Kind) (s : St) : ℕ := s.trace.count (.set k)

def begins (k : Kind) (s : St) : ℕ := s.trace.count (.begin k)

def finishes (k : Kind) (s : St) : ℕ := s.trace.count (.finish k)

/-- The task comes to the check of the flag before it waits again. -/
def XferPc.ahead : Kind → XferPc → Bool
  | _, .check .model => true
  | .snapshot, .check .snapshot => true
  | .snapshot, pc => pc.executes == some .model
  | .model, _ => false

/-- Inside a model push the check of the snapshot flag is ahead, inside a snapshot no check is. -/
theorem XferPc.ahead_within {pc : XferPc} {k k' : Kind} (h : pc.executes = some k) (hne : k' ≠ k) :
    pc.ahead k' = decide (k' = .snapshot) := by
  cases k' with
  | model =>
    cases pc with
    | check k' => simp [executes] at h
    | _ => rfl
  | snapshot =>
    cases k with
    | model => cases pc <;> simp_all [executes, ahead]
    | snapshot => exact absurd rfl hne

/-- A model push and its end come before the check of the snapshot flag, and behind that no check is ahead. -/
theorem XferPc.ahead_past {pc pc' : XferPc} {k k' : Kind} (hne : k ≠ k')
    (hpc : pc = .check k ∨ pc = .clear k) (hpc' : pc' = execute k ∨ pc' = afterTransfer k)
    (h : pc.ahead k' = true) : pc'.ahead k' = true := by
  cases k with
  | model =>
    cases k' with
    | model => exact absurd rfl hne
    | snapshot => obtain rfl | rfl := hpc' <;> rfl
  | snapshot =>
    cases k' with
    | model => obtain rfl | rfl := hpc <;> exact absurd h (by decide)
    | snapshot => exact absurd rfl hne

/-- The transfer task will come to the flag: it is ahead of its check, or has a notification, or is about
to get one. -/
def Found (k : Kind) (s : St) : Prop :=
  ∃ pc, s.xfer = some pc ∧ (s.net = .give k ∨ pc.ahead k = true ∨ s.notified ≠ 0)

/-- The flag is set and has not led to an execution yet. -/
structure Waiting (k : Kind) (s : St) : Prop where
  set : sets k s = begins k s + 1
  finished : finishes k s = begins k s
  found : Found k s

structure Sched (s : St) : Prop where
  knows : Knows s
  active : ∀ {k}, executing s = some k →
    s.running k = true ∧ begins k s = sets k s ∧ sets k s = finishes k s + 1
  idle : ∀ {k}, s.running k = false → begins k s = sets k s ∧ finishes k s = sets k s
  waiting : ∀ {k}, s.running k = true → executing s ≠ some k → Waiting k s

theorem boot_sched : Sched boot where
  knows := trivial
  active h := by simp [executing, boot] at h
  idle _ := ⟨rfl, rfl⟩
  waiting h := by simp [boot] at h

theorem Quiet.counts {s s' : St} (h : Quiet .transfer s s') (k : Kind) :
    sets k s' = sets k s ∧ begins k s' = begins k s ∧ finishes k s' = finishes k s :=
  ⟨h.count rfl, h.count rfl, h.count rfl⟩

/-- It stays due when nothing is recorded of its flag. -/
theorem Waiting.of_counts {k : Kind} {s s' : St} (hw : Waiting k s)
    (h : sets k s' = sets k s ∧ begins k s' = begins k s ∧ finishes k s' = finishes k s)
    (hfound : Found k s') : Waiting k s' := by
  obtain ⟨hset, hbegin, hfinish⟩ := h
  exact ⟨by rw [hset, hbegin, hw.set], by rw [hfinish, hbegin, hw.finished], hfound⟩

/-- A step that changes no flag and stays in the same transfer. -/
theorem Sched.same {s s' : St} (hs : Sched s) (hknows : Knows s') (hrun : s'.running = s.running)
    (hexec : executing s' = executing s) (hquiet : Quiet .transfer s s')
    (hfound : ∀ k, s.running k = true → executing s ≠ some k → Found k s → Found k s') :
    Sched s' := by
  constructor
  · exact hknows
  · intro k hk
    obtain ⟨hset, hbegin, hfinish⟩ := hquiet.counts k
    rw [hrun, hset, hbegin, hfinish]
    exact hs.active (hexec ▸ hk)
  · intro k hk
    obtain ⟨hset, hbegin, hfinish⟩ := hquiet.counts k
    rw [hset, hbegin, hfinish]
    exact hs.idle (hrun ▸ hk)
  · intro k hk hnot
    have hw := hs.waiting (hrun ▸ hk) (hexec ▸ hnot)
    exact hw.of_counts (hquiet.counts k) (hfound k (hrun ▸ hk) (hexec ▸ hnot) hw.found)

theorem counts_set {s t : St} {k : Kind} (h : t.trace = s.trace ++ [.set k]) (k' : Kind) :
    sets k' t = sets k' s + (if k = k' then 1 else 0) ∧ begins k' t = begins k' s ∧
      finishes k' t = finishes k' s := by
  simp [sets, begins, finishes, h, List.count_singleton]

theorem counts_begin {s t : St} {k : Kind} (h : t.trace = s.trace ++ [.begin k]) (k' : Kind) :
    sets k' t = sets k' s ∧ begins k' t = begins k' s + (if k = k' then 1 else 0) ∧
      finishes k' t = finishes k' s := by
  simp [sets, begins, finishes, h, List.count_singleton]

theorem counts_finish {s t : St} {k : Kind} (h : t.trace = s.trace ++ [.finish k]) (k' : Kind) :
    sets k' t = sets k' s ∧ begins k' t = begins k' s ∧
      finishes k' t = finishes k' s + (if k = k' then 1 else 0) := by
  simp [sets, begins, finishes, h, List.count_singleton]

/-- `*p_running = true`: the notification is still to come. -/
theorem Sched.set {s s' : St} (hs : Sched s) {k : Kind} (hnet : s.net = .set k)
    (hs' : s' = { s with running := Function.update s.running k true, net := .give k,
                         trace := s.trace ++ [.set k] }) : Sched s' := by
  obtain ⟨hrun, hxfer⟩ : s.running k = false ∧ s.xfer ≠ none := by
    have h := hs.knows
    simpa only [Knows, hnet] using h
  obtain ⟨pc, hpc⟩ := Option.ne_none_iff_exists'.mp hxfer
  have hexec : executing s' = executing s := by rw [hs']; rfl
  have hcounts := counts_set (s := s) (t := s') (k := k) (by rw [hs'])
  have hself : s'.running k = true := by rw [hs']; exact Function.update_self _ _ _
  have hother {k' : Kind} (hk : k' ≠ k) : s'.running k' = s.running k' := by
    rw [hs']
    exact Function.update_of_ne hk _ _
  constructor
  · rw [hs']
    exact hxfer
  · intro k' hk'
    obtain ⟨hset, hbegin, hfinish⟩ := hcounts k'
    have hactive := hs.active (hexec ▸ hk')
    have hne : k' ≠ k := fun h => absurd hactive.1 (by rw [h, hrun]; decide)
    rw [hother hne, hset, hbegin, hfinish, if_neg (Ne.symm hne)]
    exact hactive
  · intro k' hk'
    obtain ⟨hset, hbegin, hfinish⟩ := hcounts k'
    have hne : k' ≠ k := fun h => absurd hk' (by rw [h, hself]; decide)
    rw [hset, hbegin, hfinish, if_neg (Ne.symm hne)]
    exact hs.idle (hother hne ▸ hk')
  · intro k' hk' hnot
    obtain ⟨hset, hbegin, hfinish⟩ := hcounts k'
    by_cases hne : k' = k
    · subst hne
      have hidle := hs.idle hrun
      rw [if_pos rfl] at hset
      exact ⟨by omega, by omega, pc, by rw [hs']; exact hpc, Or.inl (by rw [hs'])⟩
    · have hw := hs.waiting (hother hne ▸ hk') (hexec ▸ hnot)
      obtain ⟨pc', hpc', hfound⟩ := hw.found
      rw [if_neg (Ne.symm hne)] at hset
      refine hw.of_counts ⟨hset, hbegin, hfinish⟩ ⟨pc', by rw [hs']; exact hpc', ?_⟩
      rw [hnet] at hfound
      rw [hs']
      exact Or.inr (hfound.resolve_left (by simp))

/-- The net thread. -/
theorem net_sched {s : St} (hs : Sched s) (yes : Bool) : Sched (netStep s yes) := by
  have hknows := netStep_knows hs.knows yes
  obtain ⟨k, hnet, h⟩ | ⟨k, hnet, h⟩ | ⟨k, hnet, hx, h⟩ | ⟨hgive, h⟩ := netStep_cases s yes
  · exact hs.set hnet h
  · rw [h] at hknows ⊢
    exact hs.same hknows rfl rfl (quiet_of_eq rfl) fun k' _ _ ⟨pc, hpc, _⟩ =>
      ⟨pc, hpc, Or.inr (Or.inr (Nat.succ_ne_zero _))⟩
  · rw [h] at hknows ⊢
    refine hs.same hknows rfl (by simp [executing, hx, XferPc.executes]) (quiet_of_eq rfl) ?_
    rintro k' - - ⟨pc, hpc, -⟩
    rw [hx] at hpc
    contradiction
  · refine hs.same hknows h.running (by rw [executing, executing, h.xfer]) h.quiet ?_
    rintro k - - ⟨pc, hpc, hfound⟩
    refine ⟨pc, h.xfer.trans hpc, Or.inr ?_⟩
    rw [h.notified]
    exact hfound.resolve_left (hgive k)

/-- The callbacks and the CLI. -/
theorem Sched.callback {s s' : St} (hs : Sched s) (h : Still s s') (hnet : s'.net = s.net) :
    Sched s' := by
  refine hs.same (hs.knows.other hnet (fun k hk => h.running ▸ hk) fun hx => h.xfer ▸ hx) h.running
    (by rw [executing, executing, h.xfer]) h.quiet ?_
  rintro k - - ⟨pc, hpc, hfound⟩
  refine ⟨pc, h.xfer.trans hpc, ?_⟩
  rw [h.notified, hnet]
  exact hfound

/-- The transfer task finds a flag set. -/
theorem Sched.begin {s s' : St} (hs : Sched s) {k : Kind} (hx : s.xfer = some (.check k))
    (hrun : s.running k = true)
    (hs' : s' = { s with xfer := some (execute k), trace := s.trace ++ [.begin k] }) : Sched s' := by
  have hnone : executing s = none := by simp [executing, hx, XferPc.executes]
  have hexec : executing s' = some k := by
    rw [hs']
    cases k <;> rfl
  have hcounts := counts_begin (s := s) (t := s') (k := k) (by rw [hs'])
  have hw := hs.waiting hrun (by simp [hnone])
  have hrun' : s'.running = s.running := by rw [hs']
  constructor
  · exact hs.knows.other (by rw [hs']) (fun k hk => hrun' ▸ hk) fun _ => by simp [hs']
  · intro k' hk'
    obtain rfl : k = k' := Option.some.inj (hexec.symm.trans hk')
    obtain ⟨hset, hbegin, hfinish⟩ := hcounts k
    rw [if_pos rfl] at hbegin
    have hset' := hw.set
    have hfin' := hw.finished
    exact ⟨hrun' ▸ hrun, by omega, by omega⟩
  · intro k' hk'
    obtain ⟨hset, hbegin, hfinish⟩ := hcounts k'
    have hne : k ≠ k' := fun h => absurd hk' (by rw [hrun', ← h, hrun]; decide)
    rw [hset, hbegin, hfinish, if_neg hne]
    exact hs.idle (hrun' ▸ hk')
  · intro k' hk' hnot
    obtain ⟨hset, hbegin, hfinish⟩ := hcounts k'
    have hne : k ≠ k' := fun h => hnot (h ▸ hexec)
    have hw' := hs.waiting (hrun' ▸ hk') (by simp [hnone])
    rw [if_neg hne] at hbegin
    refine hw'.of_counts ⟨hset, hbegin, hfinish⟩ ?_
    obtain ⟨pc, hpc, hfound⟩ := hw'.found
    obtain rfl := Option.some.inj (hx.symm.trans hpc)
    refine ⟨execute k, by rw [hs'], ?_⟩
    rw [hs']
    exact hfound.imp_right (Or.imp_left (XferPc.ahead_past hne (Or.inl rfl) (Or.inl rfl)))

/-- The transfer task ends a transfer. -/
theorem Sched.finish {s s' : St} (hs : Sched s) {k : Kind} (hx : s.xfer = some (.clear k))
    (hs' : s' = { s with running := Function.update s.running k false, xfer := some (afterTransfer k),
                         trace := s.trace ++ [.finish k] }) : Sched s' := by
  have hexec : executing s = some k := by simp [executing, hx, XferPc.executes]
  have hnone : executing s' = none := by
    rw [hs']
    cases k <;> rfl
  have hcounts := counts_finish (s := s) (t := s') (k := k) (by rw [hs'])
  have hself : s'.running k = false := by rw [hs']; exact Function.update_self _ _ _
  have hother {k' : Kind} (hk : k' ≠ k) : s'.running k' = s.running k' := by
    rw [hs']
    exact Function.update_of_ne hk _ _
  have hmono (k' : Kind) (hk' : s'.running k' = true) : s.running k' = true := by
    by_cases hk : k' = k
    · rw [hk, hself] at hk'
      contradiction
    · rw [← hother hk, hk']
  constructor
  · exact hs.knows.other (by rw [hs']) hmono fun _ => by simp [hs']
  · intro k' hk'
    rw [hnone] at hk'
    contradiction
  · intro k' hk'
    obtain ⟨hset, hbegin, hfinish⟩ := hcounts k'
    by_cases hne : k = k'
    · subst hne
      have hactive := hs.active hexec
      rw [if_pos rfl] at hfinish
      exact ⟨by omega, by omega⟩
    · rw [hset, hbegin, hfinish, if_neg hne]
      exact hs.idle (hother (Ne.symm hne) ▸ hk')
  · intro k' hk' hnot
    obtain ⟨hset, hbegin, hfinish⟩ := hcounts k'
    have hne : k ≠ k' := fun h => absurd hk' (by rw [← h, hself]; decide)
    have hw := hs.waiting (hmono k' hk') (by rw [hexec]; exact fun h => hne (Option.some.inj h))
    rw [if_neg hne] at hfinish
    refine hw.of_counts ⟨hset, hbegin, hfinish⟩ ?_
    obtain ⟨pc, hpc, hfound⟩ := hw.found
    obtain rfl := Option.some.inj (hx.symm.trans hpc)
    refine ⟨afterTransfer k, by rw [hs'], ?_⟩
    rw [hs']
    exact hfound.imp_right (Or.imp_left (XferPc.ahead_past hne (Or.inr rfl) (Or.inr rfl)))

/-- The transfer task. -/
theorem xfer_sched {s : St} (hs : Sched s) {pc : XferPc} (hx : s.xfer = some pc) (yes : Bool) :
    Sched (xferStep s pc yes) := by
  obtain ⟨rfl, h⟩ | ⟨k, rfl, hrun, h⟩ | ⟨k, rfl, hrun, h⟩ | ⟨k, rfl, h⟩ | ⟨k, hpc, h⟩ :=
    xferStep_cases s pc yes
  · rw [h]
    refine hs.same (hs.knows.other rfl (fun _ hk => hk) fun _ => by simp) rfl ?_ (quiet_of_eq rfl) ?_
    · simp [executing, hx, XferPc.executes]
    · rintro k - - -
      exact ⟨.check .model, rfl, Or.inr (Or.inl (by cases k <;> rfl))⟩
  · exact hs.begin hx hrun h
  · rw [h]
    refine hs.same (hs.knows.other rfl (fun _ hk => hk) fun _ => by simp) rfl ?_ (quiet_of_eq rfl) ?_
    · cases k <;> simp [executing, hx, XferPc.executes, afterTransfer]
    · intro k' hk' _ hfound
      obtain ⟨pc, hpc, hfound⟩ := hfound
      obtain rfl := Option.some.inj (hx.symm.trans hpc)
      have hne : k ≠ k' := fun h => absurd hk' (by rw [← h, hrun]; decide)
      refine ⟨afterTransfer k, rfl, ?_⟩
      exact hfound.imp_right (Or.imp_left (XferPc.ahead_past hne (Or.inl rfl) (Or.inr rfl)))
  · exact hs.finish hx h
  · obtain ⟨pc', hx', hpc', -⟩ := h.xfer
    have hexec : executing s = some k := by rw [executing, hx, Option.bind_some, hpc]
    have hexec' : executing (xferStep s pc yes) = some k := by
      rw [executing, hx', Option.bind_some, hpc']
    refine hs.same (hs.knows.other h.net (fun _ hk => h.running ▸ hk) fun _ => by simp [hx'])
      h.running (hexec'.trans hexec.symm) h.quiet ?_
    rintro k' - hk' ⟨pc0, hpc0, hfound⟩
    obtain rfl := Option.some.inj (hx.symm.trans hpc0)
    have hne : k' ≠ k := fun he => hk' (he ▸ hexec)
    refine ⟨pc', hx', ?_⟩
    rw [h.net, h.notified]
    rw [XferPc.ahead_within hpc hne] at hfound
    rw [XferPc.ahead_within hpc' hne]
    exact hfound

/-! ### Every task -/

/-- A callback or the CLI: neither the tasks nor the running flags change. -/
structure Asked (s s' : St) : Prop where
  still : Still s s'
  net : s'.net = s.net
  appState : s'.appState = s.appState

theorem otaEvents_message (s : St) (ack : Bool) (verdict : OtaVerdict) (status : OtaStatus) :
    ∀ e ∈ otaEvents s ack verdict status, e.topic = .message := by
  cases ack <;> simp [otaEvents, Event.topic]

theorem quiet_of_messages {topic : Topic} (ht : topic ≠ .message) {s s' : St} {events : List Event}
    (h : s'.trace = s.trace ++ events) (he : ∀ e ∈ events, e.topic = .message) :
    Quiet topic s s' :=
  ⟨events, h, fun e hmem => by rw [he e hmem]; exact Ne.symm ht⟩

theorem prvOnOta_asked (s : St) (url ack : Bool) : Asked s (prvOnOta s url ack) := by
  have hq {s' : St} {verdict : OtaVerdict} {status : OtaStatus}
      (h : s'.trace = s.trace ++ otaEvents s ack verdict status) : Quiet .transfer s s' :=
    quiet_of_messages (by decide) h (otaEvents_message s ack verdict status)
  rw [prvOnOta]
  split_ifs
  · exact ⟨⟨rfl, rfl, rfl, hq rfl⟩, rfl, rfl⟩
  · exact ⟨⟨rfl, rfl, rfl, hq rfl⟩, rfl, rfl⟩
  · exact ⟨⟨rfl, rfl, rfl, hq rfl⟩, rfl, rfl⟩

theorem prvOnCommand_asked (s : St) (ack : Bool) : Asked s (prvOnCommand s ack) := by
  rw [prvOnCommand]
  split_ifs
  · refine ⟨⟨rfl, rfl, rfl, quiet_of_messages (by decide) rfl ?_⟩, rfl, rfl⟩
    simp [Event.topic]
  · refine ⟨⟨rfl, rfl, rfl, quiet_of_messages (by decide) rfl ?_⟩, rfl, rfl⟩
    simp [Event.topic]
  · exact ⟨⟨rfl, rfl, rfl, quiet_of_one rfl (by simp [Event.topic])⟩, rfl, rfl⟩

theorem requestSnapshot_asked (s : St) : Asked s (requestSnapshot s) :=
  ⟨⟨rfl, rfl, rfl, quiet_of_eq rfl⟩, rfl, rfl⟩

theorem requestRestart_asked (s : St) : Asked s (requestRestart s) :=
  ⟨⟨rfl, rfl, rfl, quiet_of_one rfl (by decide)⟩, rfl, rfl⟩

theorem step_cases {s s' : St} {a : Action} (h : step s a = some s') :
    (∃ yes, a = .net yes ∧ s' = netStep s yes) ∨
    (∃ yes pc, a = .xfer yes ∧ s.xfer = some pc ∧ s' = xferStep s pc yes) ∨
    ((∀ yes, a ≠ .xfer yes) ∧ Asked s s') := by
  cases a with
  | net yes => exact Or.inl ⟨yes, rfl, (Option.some.inj h).symm⟩
  | xfer yes =>
    obtain ⟨pc, hx, -, hs'⟩ := step_xfer h
    exact Or.inr (Or.inl ⟨yes, pc, rfl, hx, hs'⟩)
  | ota url ack => exact Or.inr (Or.inr ⟨by simp, Option.some.inj h ▸ prvOnOta_asked s url ack⟩)
  | command ack => exact Or.inr (Or.inr ⟨by simp, Option.some.inj h ▸ prvOnCommand_asked s ack⟩)
  | cliSnapshot => exact Or.inr (Or.inr ⟨by simp, Option.some.inj h ▸ requestSnapshot_asked s⟩)
  | cliApply => exact Or.inr (Or.inr ⟨by simp, Option.some.inj h ▸ requestRestart_asked s⟩)

theorem step_sched {s s' : St} {a : Action} (hs : Sched s) (h : step s a = some s') : Sched s' := by
  obtain ⟨yes, -, rfl⟩ | ⟨yes, pc, -, hx, rfl⟩ | ⟨-, h⟩ := step_cases h
  · exact net_sched hs yes
  · exact xfer_sched hs hx yes
  · exact hs.callback h.still h.net

/-- The trace only grows. -/
theorem step_trace {s s' : St} {a : Action} (h : step s a = some s') :
    ∃ events, s'.trace = s.trace ++ events := by
  have hquiet {t : St} (hq : Quiet .transfer s t) : ∃ events, t.trace = s.trace ++ events := by
    obtain ⟨events, htrace, -⟩ := hq
    exact ⟨events, htrace⟩
  obtain ⟨yes, -, rfl⟩ | ⟨yes, pc, -, hx, rfl⟩ | ⟨-, h⟩ := step_cases h
  · obtain ⟨k, -, h⟩ | ⟨k, -, h⟩ | ⟨k, -, -, h⟩ | ⟨-, h⟩ := netStep_cases s yes
    · exact ⟨_, by rw [h]⟩
    · exact ⟨[], by rw [h, List.append_nil]⟩
    · exact ⟨[], by rw [h, List.append_nil]⟩
    · exact hquiet h.quiet
  · obtain ⟨-, h⟩ | ⟨k, -, -, h⟩ | ⟨k, -, -, h⟩ | ⟨k, -, h⟩ | ⟨k, -, h⟩ := xferStep_cases s pc yes
    · exact ⟨[], by rw [h, List.append_nil]⟩
    · exact ⟨_, by rw [h]⟩
    · exact ⟨[], by rw [h, List.append_nil]⟩
    · exact ⟨_, by rw [h]⟩
    · exact hquiet h.quiet
  · exact hquiet h.still.quiet

theorem runs_begins {as : List Action} {s t : St} (hrun : runs step as s = some t) (k : Kind) :
    begins k s ≤ begins k t := by
  induction as generalizing s with
  | nil => exact (Option.some.inj hrun) ▸ Nat.le_refl _
  | cons a as ih =>
    obtain ⟨u, hu, hrest⟩ := runs_cons_eq_some.mp hrun
    obtain ⟨events, htrace⟩ := step_trace hu
    refine Nat.le_trans ?_ (ih hrest)
    rw [begins, begins, htrace, List.count_append]
    exact Nat.le_add_right _ _

/-! ### Progress -/

def Action.isXfer : Action → Bool
  | .xfer _ => true
  | _ => false

/-- How many of its own instructions the transfer task is away. -/
def rank (k : Kind) (s : St) : ℕ :=
  match s.xfer with
  | none => 0
  | some pc => stepsTo k pc

theorem stepsTo_le (k : Kind) (pc : XferPc) : stepsTo k pc ≤ 13 := by
  cases k with
  | model =>
    cases pc with
    | check k' => cases k' <;> simp [stepsTo]
    | _ => simp [stepsTo]
  | snapshot =>
    cases pc with
    | check k' => cases k' <;> simp [stepsTo]
    | download attempt p =>
      simp only [stepsTo]
      omega
    | _ => simp [stepsTo]

/-- The flag is set more often than the transfer has begun. -/
structure Due (k : Kind) (n : ℕ) (s : St) : Prop where
  sched : Sched s
  set : sets k s = n + 1
  begun : begins k s = n

theorem Due.waiting {k : Kind} {n : ℕ} {s : St} (h : Due k n s) :
    s.running k = true ∧ executing s ≠ some k ∧ Waiting k s := by
  have hset := h.set
  have hbegun := h.begun
  have hrun : s.running k = true := by
    cases hr : s.running k with
    | true => rfl
    | false =>
      have hidle := h.sched.idle hr
      omega
  have hexec : executing s ≠ some k := by
    intro he
    have hactive := h.sched.active he
    omega
  exact ⟨hrun, hexec, h.sched.waiting hrun hexec⟩

/-- A set flag that has led to no execution: the next step begins it, or it stays due, and the transfer
task comes closer with each instruction. -/
theorem due_step {k : Kind} {n : ℕ} {s s' : St} {a : Action} (hs : Due k n s)
    (h : step s a = some s') :
    begins k s' = n + 1 ∨
      Due k n s' ∧ rank k s' + (if a.isXfer = true then 1 else 0) ≤ rank k s := by
  have hsched := step_sched hs.sched h
  obtain ⟨hrun, hexec, hw⟩ := hs.waiting
  obtain ⟨pc, hx, -⟩ := hw.found
  -- what stays due when the counts do
  have hdue {t : St} (hsched : Sched t) (hset : sets k t = sets k s) (hbegin : begins k t = begins k s) :
      Due k n t := ⟨hsched, hset.trans hs.set, hbegin.trans hs.begun⟩
  obtain ⟨yes, rfl, rfl⟩ | ⟨yes, pc', rfl, hx', rfl⟩ | ⟨hnot, h⟩ := step_cases h
  · right
    obtain ⟨k', hnet, h⟩ | ⟨k', -, h⟩ | ⟨k', -, hnone, -⟩ | ⟨-, h⟩ := netStep_cases s yes
    · have hne : k' ≠ k := by
        rintro rfl
        have hknows := hs.sched.knows
        simp only [Knows, hnet] at hknows
        exact absurd hrun (by rw [hknows.1]; decide)
      obtain ⟨hset, hbegin, -⟩ := counts_set (s := s) (t := netStep s yes) (by rw [h]) k
      rw [if_neg hne] at hset
      refine ⟨hdue hsched hset hbegin, ?_⟩
      rw [h]
      exact Nat.le_refl _
    · obtain ⟨hset, hbegin, -⟩ := (quiet_of_eq (by rw [h]) : Quiet .transfer s (netStep s yes)).counts k
      refine ⟨hdue hsched hset hbegin, ?_⟩
      rw [h]
      exact Nat.le_refl _
    · rw [hx] at hnone
      contradiction
    · obtain ⟨hset, hbegin, -⟩ := h.quiet.counts k
      refine ⟨hdue hsched hset hbegin, ?_⟩
      rw [rank, rank, h.xfer]
      exact Nat.le_refl _
  · obtain rfl := Option.some.inj (hx.symm.trans hx')
    have hrank {pc' : XferPc} (hpc' : (xferStep s pc yes).xfer = some pc')
        (hle : stepsTo k pc' + 1 ≤ stepsTo k pc) :
        rank k (xferStep s pc yes) + (if (Action.xfer yes).isXfer = true then 1 else 0) ≤ rank k s := by
      simp only [rank, hpc', hx]
      exact hle
    obtain ⟨rfl, h⟩ | ⟨k', rfl, hk', h⟩ | ⟨k', rfl, hk', h⟩ | ⟨k', rfl, h⟩ | ⟨k', hpc, h⟩ :=
      xferStep_cases s pc yes
    · obtain ⟨hset, hbegin, -⟩ :=
        (quiet_of_eq (by rw [h]) : Quiet .transfer s (xferStep s .take yes)).counts k
      exact Or.inr ⟨hdue hsched hset hbegin, hrank (by rw [h]) (by cases k <;> simp [stepsTo])⟩
    · obtain ⟨hset, hbegin, -⟩ := counts_begin (s := s) (t := xferStep s (.check k') yes) (by rw [h]) k
      by_cases hne : k' = k
      · rw [if_pos hne, hs.begun] at hbegin
        exact Or.inl hbegin
      · rw [if_neg hne] at hbegin
        refine Or.inr ⟨hdue hsched hset hbegin, hrank (by rw [h]) ?_⟩
        cases k <;> cases k' <;> simp_all [stepsTo, execute]
    · obtain ⟨hset, hbegin, -⟩ :=
        (quiet_of_eq (by rw [h]) : Quiet .transfer s (xferStep s (.check k') yes)).counts k
      have hne : k' ≠ k := by
        rintro rfl
        exact absurd hrun (by rw [hk']; decide)
      refine Or.inr ⟨hdue hsched hset hbegin, hrank (by rw [h]) ?_⟩
      cases k <;> cases k' <;> simp_all [stepsTo, afterTransfer]
    · obtain ⟨hset, hbegin, -⟩ := counts_finish (s := s) (t := xferStep s (.clear k') yes) (by rw [h]) k
      have hne : k' ≠ k := by
        rintro rfl
        exact hexec (by simp [executing, hx, XferPc.executes])
      refine Or.inr ⟨hdue hsched hset hbegin, hrank (by rw [h]) ?_⟩
      cases k <;> cases k' <;> simp_all [stepsTo, afterTransfer]
    · obtain ⟨hset, hbegin, -⟩ := h.quiet.counts k
      obtain ⟨pc', hpc', -, hsteps⟩ := h.xfer
      have hne : k ≠ k' := by
        rintro rfl
        exact hexec (by rw [executing, hx, Option.bind_some, hpc])
      exact Or.inr ⟨hdue hsched hset hbegin, hrank hpc' (hsteps k hne)⟩
  · obtain ⟨hset, hbegin, -⟩ := h.still.quiet.counts k
    refine Or.inr ⟨hdue hsched hset hbegin, ?_⟩
    have hno : a.isXfer = false := by
      cases a with
      | xfer yes => exact absurd rfl (hnot yes)
      | _ => rfl
    rw [rank, rank, h.still.xfer, hno]
    exact Nat.le_refl _

/-- Fourteen instructions of the transfer task are enough. -/
theorem due_begins {k : Kind} {n : ℕ} {s t : St} {as : List Action} (hs : Due k n s)
    (hrun : runs step as s = some t) (hticks : 14 ≤ as.countP Action.isXfer) :
    n < begins k t := by
  have hrank : rank k s ≤ 13 := by
    rw [rank]
    cases s.xfer with
    | none => exact Nat.zero_le _
    | some pc => exact stepsTo_le k pc
  have hlt : rank k s < as.countP Action.isXfer := by omega
  obtain ⟨bs, cs, u, rfl, hbs, hu⟩ := reaches_of_rank (W := Due k n)
    (Q := fun u => begins k u = n + 1) (rank k) Action.isXfer due_step hs hrun hlt
  rw [runs_append, hbs, Option.bind_some] at hrun
  have hle := runs_begins hrun k
  omega

/-- The transfer task has an instruction to take, or the net thread is about to notify it. -/
def Awake (s : St) : Prop := (∃ k, s.net = .give k) ∨ ∀ yes, (step s (.xfer yes)).isSome = true

theorem Due.awake {k : Kind} {n : ℕ} {s : St} (h : Due k n s) : Awake s := by
  obtain ⟨pc, hx, hgive | hahead | hnotified⟩ := h.waiting.2.2.found
  · exact Or.inl ⟨k, hgive⟩
  · refine Or.inr fun yes => ?_
    have hready : xferReady s pc = true := by
      cases pc with
      | take => cases k <;> exact absurd hahead (by decide)
      | _ => rfl
    simp [step, hx, hready]
  · refine Or.inr fun yes => ?_
    have hready : xferReady s pc = true := by
      cases pc with
      | take => simpa [xferReady] using hnotified
      | _ => rfl
    simp [step, hx, hready]

/-! ### Every run -/

/-- How often `iotconnect_sdk_deinit` was called. -/
def deinits (s : St) : ℕ := s.trace.count .deinit

/-- A step keeps to one transfer at a time and one execution for each setting of a flag. -/
structure Scheduled (s : St) (s' : St) : Prop where
  /-- at most one transfer is executed -/
  one : begins .model s' + begins .snapshot s' ≤ finishes .model s' + finishes .snapshot s' + 1
  /-- no execution without its own setting of the flag -/
  atMost : ∀ k, finishes k s' ≤ begins k s' ∧ begins k s' ≤ sets k s'
  /-- a flag is set when every setting before has had its execution -/
  once : ∀ k, sets k s' ≠ sets k s →
    sets k s' = sets k s + 1 ∧ begins k s = sets k s ∧ finishes k s = sets k s
  /-- a setting without an execution gets it, whatever the other tasks do -/
  woken : ∀ k, begins k s' < sets k s' → Awake s' ∧
    ∀ as t, runs step as s' = some t → 14 ≤ as.countP Action.isXfer → begins k s' < begins k t
  /-- no transfer is under way at a deinit -/
  deinit : deinits s' ≠ deinits s → ∀ k, s.running k = false ∧ finishes k s = sets k s

/-- The state of one flag by its counts. -/
theorem Sched.counts {s : St} (hs : Sched s) (k : Kind) :
    (executing s = some k ∧ begins k s = sets k s ∧ sets k s = finishes k s + 1) ∨
    (executing s ≠ some k ∧ begins k s = finishes k s ∧
      (sets k s = begins k s ∨ sets k s = begins k s + 1)) := by
  by_cases he : executing s = some k
  · exact Or.inl ⟨he, (hs.active he).2⟩
  · refine Or.inr ⟨he, ?_⟩
    cases hrun : s.running k with
    | false =>
      have hidle := hs.idle hrun
      omega
    | true =>
      have hw := hs.waiting hrun he
      have hset := hw.set
      have hfinished := hw.finished
      omega

theorem Sched.one {s : St} (hs : Sched s) :
    begins .model s + begins .snapshot s ≤ finishes .model s + finishes .snapshot s + 1 := by
  obtain ⟨hm, hm1, hm2⟩ | ⟨-, hm, -⟩ := hs.counts .model
  · obtain ⟨hn, -⟩ | ⟨-, hn, -⟩ := hs.counts .snapshot
    · exact absurd (hm.symm.trans hn) (by decide)
    · omega
  · obtain ⟨-, hn1, hn2⟩ | ⟨-, hn, -⟩ := hs.counts .snapshot
    · omega
    · omega

theorem Sched.woken {s : St} (hs : Sched s) {k : Kind} (hdue : begins k s < sets k s) :
    Due k (begins k s) s := by
  refine ⟨hs, ?_, rfl⟩
  obtain ⟨-, hbegin, -⟩ | ⟨-, -, hset | hset⟩ := hs.counts k
  · omega
  · omega
  · exact hset

/-- Only `prv_xfer_start` sets a flag, and it has read it false. -/
theorem sets_changed {s s' : St} {a : Action} (hs : Sched s) (h : step s a = some s') {k : Kind}
    (hne : sets k s' ≠ sets k s) : sets k s' = sets k s + 1 ∧ s.running k = false := by
  obtain ⟨yes, -, rfl⟩ | ⟨yes, pc, -, hx, rfl⟩ | ⟨-, h⟩ := step_cases h
  · obtain ⟨k', hnet, h⟩ | ⟨k', -, h⟩ | ⟨k', -, -, h⟩ | ⟨-, h⟩ := netStep_cases s yes
    · obtain ⟨hset, -, -⟩ := counts_set (s := s) (t := netStep s yes) (by rw [h]) k
      have hknows := hs.knows
      simp only [Knows, hnet] at hknows
      split_ifs at hset with hk
      · exact ⟨hset, hk ▸ hknows.1⟩
      · exact absurd hset hne
    · exact absurd (by rw [h]; rfl) hne
    · exact absurd (by rw [h]; rfl) hne
    · exact absurd (h.quiet.counts k).1 hne
  · obtain ⟨-, h⟩ | ⟨k', -, -, h⟩ | ⟨k', -, -, h⟩ | ⟨k', -, h⟩ | ⟨k', -, h⟩ := xferStep_cases s pc yes
    · exact absurd (by rw [h]; rfl) hne
    · exact absurd (counts_begin (by rw [h]) k).1 hne
    · exact absurd (by rw [h]; rfl) hne
    · exact absurd (counts_finish (by rw [h]) k).1 hne
    · exact absurd (h.quiet.counts k).1 hne
  · exact absurd (h.still.quiet.counts k).1 hne

/-- The transfer task records nothing of the session. -/
theorem xferStep_session (s : St) (pc : XferPc) (yes : Bool) :
    Quiet .session s (xferStep s pc yes) := by
  cases pc with
  | check k =>
    rw [xferStep]
    split_ifs
    · exact quiet_of_one rfl (by simp [Event.topic])
    · exact quiet_of_eq rfl
  | download attempt p =>
    rw [xferStep]
    split_ifs <;> exact quiet_of_eq rfl
  | ack p status =>
    rw [xferStep]
    cases p.ack with
    | some message => exact quiet_of_one rfl (by simp [Event.topic])
    | none => exact quiet_of_eq rfl
  | sendAck start ok =>
    rw [xferStep]
    cases hack : s.snapshotAck with
    | some message => exact quiet_of_one rfl (by simp [Event.topic])
    | none => exact quiet_of_eq rfl
  | capture => exact quiet_of_one rfl (by simp [Event.topic])
  | clear k => exact quiet_of_one rfl (by simp [Event.topic])
  | _ => exact quiet_of_eq rfl

/-- Nor do the callbacks and the snapshot request of the CLI. -/
theorem asked_session {s s' : St} {a : Action} (h : step s a = some s') (hnet : ∀ yes, a ≠ .net yes)
    (happly : a ≠ .cliApply) : Quiet .session s s' := by
  cases a with
  | net yes => exact absurd rfl (hnet yes)
  | xfer yes =>
    obtain ⟨pc, -, -, rfl⟩ := step_xfer h
    exact xferStep_session s pc yes
  | ota url ack =>
    obtain rfl := Option.some.inj h
    have hq {t : St} {verdict : OtaVerdict} {status : OtaStatus}
        (h : t.trace = s.trace ++ otaEvents s ack verdict status) : Quiet .session s t :=
      quiet_of_messages (by decide) h (otaEvents_message s ack verdict status)
    rw [prvOnOta]
    split_ifs <;> exact hq rfl
  | command ack =>
    obtain rfl := Option.some.inj h
    rw [prvOnCommand]
    split_ifs
    · exact quiet_of_messages (by decide) rfl (by simp [Event.topic])
    · exact quiet_of_messages (by decide) rfl (by simp [Event.topic])
    · exact quiet_of_one rfl (by simp [Event.topic])
  | cliSnapshot => exact Option.some.inj h ▸ quiet_of_eq rfl
  | cliApply => exact absurd rfl happly

/-- A deinit is called with both flags read false. -/
theorem deinits_changed {s s' : St} {a : Action} (hs : Sched s) (h : step s a = some s')
    (hne : deinits s' ≠ deinits s) (k : Kind) : s.running k = false := by
  by_cases hnet : ∃ yes, a = .net yes
  · obtain ⟨yes, rfl⟩ := hnet
    obtain rfl := Option.some.inj h
    have hknows := hs.knows
    cases hpc : s.net with
    | restartDeinit | retryDeinit =>
      simp only [Knows, hpc] at hknows
      exact hknows k
    | restartBusy k' | runningTest k' | retryBusy k' =>
      cases k' <;> exact absurd (by simp [deinits, netStep, hpc]) hne
    | switch =>
      cases happ : s.appState <;> exact absurd (by simp [deinits, netStep, hpc, happ]) hne
    | create k' =>
      cases hx : s.xfer <;> exact absurd (by simp [deinits, netStep, hpc, hx]) hne
    | timeSync | init | connect | connected =>
      cases yes <;> exact absurd (by simp [deinits, netStep, hpc]) hne
    | _ => exact absurd (by simp [deinits, netStep, hpc]) hne
  · by_cases happly : a = .cliApply
    · subst happly
      obtain rfl := Option.some.inj h
      exact absurd (by simp [deinits, requestRestart]) hne
    · have hq := asked_session h (fun yes hyes => hnet ⟨yes, hyes⟩) happly
      exact absurd (hq.count rfl) hne

theorem step_scheduled {s s' : St} {a : Action} (hs : Sched s) (h : step s a = some s') :
    Scheduled s s' := by
  have hs' := step_sched hs h
  constructor
  · exact hs'.one
  · intro k
    obtain ⟨-, hbegin, hset⟩ | ⟨-, hbegin, hset⟩ := hs'.counts k
    · omega
    · omega
  · intro k hne
    obtain ⟨hset, hrun⟩ := sets_changed hs h hne
    exact ⟨hset, hs.idle hrun⟩
  · intro k hdue
    have hd := hs'.woken hdue
    exact ⟨hd.awake, fun as t hrun hticks => due_begins hd hrun hticks⟩
  · intro hne k
    have hrun := deinits_changed hs h hne k
    exact ⟨hrun, (hs.idle hrun).2⟩

end IotcRa8p1.App.Poll
