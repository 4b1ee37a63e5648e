import IotcRa8p1.App.Scheduling
import IotcRa8p1.Lib.Ledger

/-!
# Acknowledgements

Each transfer has one slot for an ack id.  A callback fills it when the pending flag is clear, the transfer
answers and clears it before it clears the pending flag, and requests in between are refused on the spot.
That is a ledger for the OTA messages and one for the snapshot commands, as long as a transfer only runs
while its pending flag is set.

The net thread reads the pending flag and then the running flag, and the transfer task may clear both in
between.  The transfer it then starts has no request: what arrives while that runs is taken for its own.
`SetsPending` is the condition that this does not happen.
-/

namespace IotcRa8p1.App.Poll

open Machine

/-! ### What the trace says about a request -/

/-- The push is over. -/
def OtaStatus.terminal : OtaStatus → Bool
  | .downloading => false
  | _ => true

/-- A terminal ack for the OTA message. -/
def Event.endsOta (message : ℕ) : Event → Bool
  | .otaAck m status => m == message && status.terminal
  | _ => false

/-- An ack for the command. -/
def Event.acksCommand (message : ℕ) : Event → Bool
  | .commandAck m _ => m == message
  | _ => false

/-- How many terminal acks an OTA message has. -/
def otaAcks (s : St) (message : ℕ) : ℕ := s.trace.countP (Event.endsOta message)

def commandAcks (s : St) (message : ℕ) : ℕ := s.trace.countP (Event.acksCommand message)

/-- The event is an accepted OTA message with an ack id. -/
def AcceptedOta (s : St) (message : ℕ) : Prop := s.trace[message]? = some (.ota true .accepted)

def AcceptedCommand (s : St) (message : ℕ) : Prop := s.trace[message]? = some (.command true true)

/-- An ack of a command is its refusal, or the result of a capture that started after it was accepted. -/
def CommandAnswered (s : St) (message : ℕ) : CommandResult → Prop
  | .refused => s.trace[message]? = some (.command true false)
  | .captured start _ =>
    AcceptedCommand s message ∧ message < start ∧ s.trace[start]? = some .capture

/-- Every accepted message has its one ack by the time its work is over, and each ack answers a message. -/
structure Acked (s s' : St) : Prop where
  /-- at most one terminal ack, and only for a message with an ack id -/
  ota : ∀ message, otaAcks s' message ≤ 1
  otaOwn : ∀ message status, .otaAck message status ∈ s'.trace →
    ∃ verdict, s'.trace[message]? = some (.ota true verdict)
  /-- no push is over without its terminal ack -/
  otaDone : s.pending .model = true → s'.pending .model = false →
    ∀ message, AcceptedOta s' message → otaAcks s' message = 1
  command : ∀ message, commandAcks s' message ≤ 1
  commandOwn : ∀ message result, .commandAck message result ∈ s'.trace →
    CommandAnswered s' message result
  commandDone : s.pending .snapshot = true → s'.pending .snapshot = false →
    ∀ message, AcceptedCommand s' message → commandAcks s' message = 1

/-- Where the net thread sets a running flag, the pending flag is set. -/
def SetsPending (s : St) : Action → Prop
  | .net _ => ∀ k, s.net = .set k → s.pending k = true
  | _ => True

/-! ### Growing traces -/

theorem getElem?_grow {s s' : St} {events : List Event} (h : s'.trace = s.trace ++ events)
    {e : Event} (he : e ∉ events) (i : ℕ) : s'.trace[i]? = some e ↔ s.trace[i]? = some e := by
  rw [h]
  rcases Nat.lt_or_ge i s.trace.length with hi | hi
  · rw [List.getElem?_append_left hi]
  · rw [List.getElem?_append_right hi, List.getElem?_eq_none hi]
    exact ⟨fun hmem => absurd (List.mem_of_getElem? hmem) he, fun hmem => by contradiction⟩

/-- What stood in the trace stands there still. -/
theorem getElem?_kept {s s' : St} {events : List Event} (h : s'.trace = s.trace ++ events)
    {e : Event} {i : ℕ} (hi : s.trace[i]? = some e) : s'.trace[i]? = some e := by
  rw [h, List.getElem?_append_left (List.getElem?_eq_some_iff.mp hi).1, hi]

/-- An event recorded once stands there now, or stood there before. -/
theorem getElem?_new {s s' : St} {e : Event} {events : List Event}
    (h : s'.trace = s.trace ++ e :: events) (he : e ∉ events) (i : ℕ) :
    s'.trace[i]? = some e ↔ s.trace[i]? = some e ∨ i = s.trace.length := by
  rw [h]
  rcases Nat.lt_trichotomy i s.trace.length with hi | rfl | hi
  · rw [List.getElem?_append_left hi]
    exact ⟨Or.inl, fun h => h.resolve_right (Nat.ne_of_lt hi)⟩
  · simp
  · have hsucc : i - s.trace.length = (i - s.trace.length - 1) + 1 := by omega
    rw [List.getElem?_append_right (Nat.le_of_lt hi), List.getElem?_eq_none (Nat.le_of_lt hi), hsucc,
      List.getElem?_cons_succ]
    refine iff_of_false (fun hmem => he (List.mem_of_getElem? hmem)) fun hor => ?_
    exact Nat.ne_of_gt hi (hor.resolve_left (by simp))

theorem countP_grow {s s' : St} {events : List Event} (h : s'.trace = s.trace ++ events)
    {p : Event → Bool} (hp : ∀ e ∈ events, p e = false) : s'.trace.countP p = s.trace.countP p := by
  have hzero : events.countP p = 0 := List.countP_eq_zero.mpr fun e he => by simp [hp e he]
  rw [h, List.countP_append, hzero, Nat.add_zero]

/-! ### Pending while running -/

/-- A transfer that is to run or runs is pending until it clears its flags. -/
def StaysPending (s : St) : Prop :=
  ∀ k, s.running k = true → s.xfer = some (.clear k) ∨ s.pending k = true

theorem StaysPending.executes {s : St} (hp : StaysPending s) (hs : Sched s) {k : Kind} {pc : XferPc}
    (hx : s.xfer = some pc) (hk : pc.executes = some k) (hclear : pc ≠ .clear k) :
    s.pending k = true := by
  have hexec : executing s = some k := by rw [executing, hx, Option.bind_some, hk]
  refine (hp k (hs.active hexec).1).resolve_left fun h => hclear ?_
  exact Option.some.inj (hx.symm.trans h)

/-- A transfer that is over is at none of its instructions. -/
theorem not_at_of_idle {s : St} {k : Kind}
    (hidle : ∀ pc, s.xfer = some pc → pc.executes = some k → pc = .clear k) {pc : XferPc}
    (hk : pc.executes = some k) (hclear : pc ≠ .clear k) : (s.xfer == some pc) = false := by
  cases hx : s.xfer with
  | none => rfl
  | some pc' =>
    rw [Option.some_beq_some, beq_eq_false_iff_ne]
    intro heq
    subst heq
    exact hclear (hidle _ hx hk)

/-- The net thread touches neither the pending flags nor the slots. -/
structure NetFrame (s s' : St) : Prop where
  pending : s'.pending = s.pending
  modelAck : s'.modelAck = s.modelAck
  snapshotAck : s'.snapshotAck = s.snapshotAck
  quiet : Quiet .message s s'
  xfer : s'.xfer = s.xfer ∨ s.xfer = none ∧ s'.xfer = some .take

theorem netStep_frame (s : St) (yes : Bool) : NetFrame s (netStep s yes) := by
  have hsame {s' : St} (hp : s'.pending = s.pending) (hm : s'.modelAck = s.modelAck)
      (hc : s'.snapshotAck = s.snapshotAck) (hx : s'.xfer = s.xfer) (ht : s'.trace = s.trace) :
      NetFrame s s' := ⟨hp, hm, hc, quiet_of_eq ht, Or.inl hx⟩
  have hone {s' : St} {e : Event} (hp : s'.pending = s.pending) (hm : s'.modelAck = s.modelAck)
      (hc : s'.snapshotAck = s.snapshotAck) (hx : s'.xfer = s.xfer) (ht : s'.trace = s.trace ++ [e])
      (he : e.topic ≠ .message) : NetFrame s s' := ⟨hp, hm, hc, quiet_of_one ht he, Or.inl hx⟩
  cases hpc : s.net with
  | poll | restartClear | restartIdle | setStarting | setRunning | pendingTest k | heapTest
  | give k | retry | retryIdle =>
    rw [netStep, hpc]
    exact hsame rfl rfl rfl rfl rfl
  | restartBusy k | runningTest k | retryBusy k =>
    rw [netStep, hpc]
    cases k <;> exact hsame rfl rfl rfl rfl rfl
  | restartDeinit | load | retryDeinit =>
    rw [netStep, hpc]
    exact hone rfl rfl rfl rfl rfl (by simp [Event.topic])
  | set k =>
    rw [netStep, hpc]
    exact hone rfl rfl rfl rfl rfl (by simp [Event.topic])
  | timeSync | init | connected =>
    rw [netStep, hpc]
    dsimp only
    split_ifs <;> exact hsame rfl rfl rfl rfl rfl
  | connect =>
    rw [netStep, hpc]
    dsimp only
    split_ifs
    · exact hone rfl rfl rfl rfl rfl (by simp [Event.topic])
    · exact hsame rfl rfl rfl rfl rfl
  | switch =>
    rw [netStep, hpc]
    cases s.appState <;> exact hsame rfl rfl rfl rfl rfl
  | create k =>
    rw [netStep, hpc]
    cases hx : s.xfer with
    | none => exact ⟨rfl, rfl, rfl, quiet_of_eq rfl, Or.inr ⟨hx, rfl⟩⟩
    | some pc => exact hsame rfl rfl rfl hx.symm rfl

theorem boot_staysPending : StaysPending boot := fun k hk => by simp [boot] at hk

/-- The other tasks only set the pending flags. -/
theorem StaysPending.asked {s s' : St} (hp : StaysPending s) (h : Asked s s')
    (hpending : ∀ k, s.pending k = true → s'.pending k = true) : StaysPending s' := by
  intro k hk
  rw [h.still.running] at hk
  rw [h.still.xfer]
  exact (hp k hk).imp_right (hpending k)

theorem net_staysPending {s : St} (hp : StaysPending s) (hok : ∀ k, s.net = .set k → s.pending k = true)
    (yes : Bool) : StaysPending (netStep s yes) := by
  intro k hk
  rw [(netStep_frame s yes).pending]
  obtain ⟨k', hnet, h⟩ | ⟨k', -, h⟩ | ⟨k', -, hx, h⟩ | ⟨-, h⟩ := netStep_cases s yes
  · rw [h] at hk ⊢
    by_cases hne : k = k'
    · exact Or.inr (hok k (hne ▸ hnet))
    · dsimp only at hk
      rw [Function.update_of_ne hne] at hk
      exact hp k hk
  · rw [h] at hk ⊢
    exact hp k hk
  · rw [h] at hk
    exact Or.inr ((hp k hk).resolve_left (by simp [hx]))
  · rw [h.running] at hk
    rw [h.xfer]
    exact hp k hk

theorem xferStep_pending {s : St} {pc : XferPc} (yes : Bool) (hpc : ∀ k, pc ≠ .clearPending k) :
    (xferStep s pc yes).pending = s.pending := by
  cases pc with
  | clearPending k => exact absurd rfl (hpc k)
  | check k | download attempt p =>
    rw [xferStep]
    split_ifs <;> rfl
  | ack p status =>
    rw [xferStep]
    cases p.ack <;> rfl
  | sendAck start ok =>
    rw [xferStep]
    cases hack : s.snapshotAck <;> rfl
  | _ => rfl

theorem xfer_staysPending {s : St} (hp : StaysPending s) {pc : XferPc} (hx : s.xfer = some pc)
    (yes : Bool) : StaysPending (xferStep s pc yes) := by
  intro k hk
  by_cases hpc : ∃ k', pc = .clearPending k'
  · obtain ⟨k', rfl⟩ := hpc
    have hpend := (hp k hk).resolve_left (by simp [hx])
    by_cases hne : k = k'
    · exact Or.inl (by rw [hne]; rfl)
    · refine Or.inr ?_
      change Function.update s.pending k' false k = true
      rwa [Function.update_of_ne hne]
  · rw [xferStep_pending yes fun k' h => hpc ⟨k', h⟩]
    by_cases hclear : ∃ k', pc = .clear k'
    · obtain ⟨k', rfl⟩ := hclear
      have hne : k ≠ k' := by
        rintro rfl
        simp [xferStep] at hk
      have hk' : s.running k = true := by
        change Function.update s.running k' false k = true at hk
        rwa [Function.update_of_ne hne] at hk
      refine Or.inr ((hp k hk').resolve_left fun h => hne ?_)
      rw [hx] at h
      exact (XferPc.clear.inj (Option.some.inj h)).symm
    · have hrun : s.running k = true := by
        obtain ⟨-, h⟩ | ⟨k', -, -, h⟩ | ⟨k', -, -, h⟩ | ⟨k', rfl, -⟩ | ⟨k', -, h⟩ :=
          xferStep_cases s pc yes
        · rwa [h] at hk
        · rwa [h] at hk
        · rwa [h] at hk
        · exact absurd ⟨k', rfl⟩ hclear
        · rwa [h.running] at hk
      refine Or.inr ((hp k hrun).resolve_left fun h => hclear ⟨k, ?_⟩)
      exact Option.some.inj (hx.symm.trans h)

/-! ### OTA messages -/

/-- An OTA message or an ack of one. -/
def Event.isOta : Event → Bool
  | .ota _ _ => true
  | .otaAck _ _ => true
  | _ => false

/-- What the locals of a push say about the slot. -/
def PushLocals (slot : Option ℕ) : XferPc → Prop
  | .download _ p => p.ack = slot
  | .lostHeap p => p.ack = slot
  | .unwrap p => p.ack = slot
  | .swap p => p.ack = slot
  | .ack p status => p.ack = slot ∧ status.terminal = true
  | _ => True

structure OtaInv (s : St) : Prop where
  ledger : Ledger (AcceptedOta s) (otaAcks s) s.modelAck (s.xfer == some .release)
  own : ∀ {message status}, .otaAck message status ∈ s.trace →
    ∃ verdict, s.trace[message]? = some (.ota true verdict)
  empty : s.pending .model = false ∨ s.xfer = some (.clearPending .model) → s.modelAck = none
  locals : ∀ {pc}, s.xfer = some pc → PushLocals s.modelAck pc

theorem boot_ota : OtaInv boot where
  ledger := ⟨fun i hi => by simp [AcceptedOta, boot] at hi, fun i hi => by simp [boot] at hi,
    fun i => by simp [otaAcks, boot]⟩
  own h := by simp [boot] at h
  empty _ := rfl
  locals h := by simp [boot] at h

theorem endsOta_of_not_isOta {e : Event} (he : e.isOta = false) (message : ℕ) :
    e.endsOta message = false := by
  cases e with
  | otaAck m status => exact absurd he (by simp [Event.isOta])
  | _ => rfl

/-- Events of other kinds change neither what was accepted nor how it was answered. -/
theorem ota_grow {s s' : St} {events : List Event} (h : s'.trace = s.trace ++ events)
    (hev : ∀ e ∈ events, e.isOta = false) :
    (∀ message, AcceptedOta s' message ↔ AcceptedOta s message) ∧
    (∀ message, otaAcks s' message = otaAcks s message) ∧
    ((∀ {message status}, .otaAck message status ∈ s.trace →
        ∃ verdict, s.trace[message]? = some (.ota true verdict)) →
      ∀ {message status}, .otaAck message status ∈ s'.trace →
        ∃ verdict, s'.trace[message]? = some (.ota true verdict)) := by
  refine ⟨fun message => getElem?_grow h ?_ message, fun message => countP_grow h ?_, ?_⟩
  · exact fun hmem => absurd (hev _ hmem) (by simp [Event.isOta])
  · exact fun e he => endsOta_of_not_isOta (hev e he) message
  · intro hown message status hmem
    rw [h] at hmem
    rcases List.mem_append.mp hmem with hmem | hmem
    · obtain ⟨verdict, hv⟩ := hown hmem
      exact ⟨verdict, getElem?_kept h hv⟩
    · exact absurd (hev _ hmem) (by simp [Event.isOta])

/-- A step that does not touch the slot. -/
theorem OtaInv.frame {s s' : St} (hs : OtaInv s) {events : List Event}
    (h : s'.trace = s.trace ++ events) (hev : ∀ e ∈ events, e.isOta = false)
    (hslot : s'.modelAck = s.modelAck)
    (hsent : (s'.xfer == some .release) = (s.xfer == some .release))
    (hempty : s'.pending .model = false ∨ s'.xfer = some (.clearPending .model) →
      s.modelAck = none)
    (hlocals : ∀ {pc}, s'.xfer = some pc → PushLocals s.modelAck pc) : OtaInv s' := by
  obtain ⟨haccepted, hacks, hown⟩ := ota_grow h hev
  constructor
  · rw [hslot, hsent]
    exact hs.ledger.congr haccepted hacks
  · exact hown hs.own
  · rw [hslot]
    exact hempty
  · rw [hslot]
    exact hlocals

theorem quiet_ota {s s' : St} (h : Quiet .message s s') :
    ∃ events, s'.trace = s.trace ++ events ∧ ∀ e ∈ events, e.isOta = false := by
  obtain ⟨events, htrace, hquiet⟩ := h
  refine ⟨events, htrace, fun e he => ?_⟩
  cases e with
  | ota ack verdict => exact absurd rfl (hquiet _ he)
  | otaAck message status => exact absurd rfl (hquiet _ he)
  | _ => rfl

theorem net_ota {s : St} (hs : OtaInv s) (yes : Bool) : OtaInv (netStep s yes) := by
  have hf := netStep_frame s yes
  obtain ⟨events, htrace, hev⟩ := quiet_ota hf.quiet
  obtain hx | ⟨hnone, hx⟩ := hf.xfer
  · refine hs.frame htrace hev hf.modelAck (by rw [hx]) ?_ ?_
    · rw [hf.pending, hx]
      exact hs.empty
    · rw [hx]
      exact hs.locals
  · refine hs.frame htrace hev hf.modelAck (by rw [hx, hnone]; rfl) ?_ ?_
    · rw [hf.pending, hx]
      exact fun h => hs.empty (h.imp_right fun h => absurd h (by simp))
    · intro pc hpc
      obtain rfl := Option.some.inj (hx.symm.trans hpc)
      trivial

/-- The transfer task outside of the ack and its release. -/
theorem xfer_ota_frame {s : St} (hs : OtaInv s) {pc : XferPc} (hx : s.xfer = some pc) (yes : Bool)
    (hack : ∀ p status, pc ≠ .ack p status) (hrelease : pc ≠ .release)
    (hclear : ∀ k, pc ≠ .clearPending k) : OtaInv (xferStep s pc yes) := by
  have hgo {s' : St} {pc' : XferPc} {events : List Event} (hx' : s'.xfer = some pc')
      (hne : pc' ≠ .release ∧ pc' ≠ .clearPending .model) (h : s'.trace = s.trace ++ events)
      (hev : ∀ e ∈ events, e.isOta = false) (hslot : s'.modelAck = s.modelAck)
      (hpending : s'.pending = s.pending) (hlocals : PushLocals s.modelAck pc') : OtaInv s' := by
    refine hs.frame h hev hslot ?_ ?_ ?_
    · simp [hx', hx, hne.1, hrelease]
    · rw [hpending, hx']
      exact fun h => hs.empty (Or.inl (h.resolve_right fun he => hne.2 (Option.some.inj he)))
    · intro pc1 hpc1
      obtain rfl := Option.some.inj (hx'.symm.trans hpc1)
      exact hlocals
  have hold := hs.locals hx
  have hnil : s.trace = s.trace ++ [] := (List.append_nil _).symm
  have hno : ∀ e ∈ ([] : List Event), e.isOta = false := List.forall_mem_nil _
  have hone {e : Event} (he : e.isOta = false) : ∀ e' ∈ [e], e'.isOta = false :=
    List.forall_mem_singleton.mpr he
  cases pc with
  | ack p status => exact absurd rfl (hack p status)
  | release => exact absurd rfl hrelease
  | clearPending k => exact absurd rfl (hclear k)
  | take => exact hgo rfl (by simp) hnil hno rfl rfl trivial
  | check k =>
    rw [xferStep]
    split_ifs
    · cases k <;> exact hgo rfl (by simp [execute]) rfl (hone rfl) rfl rfl trivial
    · cases k <;> exact hgo rfl (by simp [afterTransfer]) hnil hno rfl rfl trivial
  | read => exact hgo rfl (by simp) hnil hno rfl rfl rfl
  | download attempt p =>
    rw [xferStep]
    split_ifs <;> exact hgo rfl (by simp) hnil hno rfl rfl hold
  | lostHeap p =>
    rw [xferStep]
    cases yes with
    | true => exact hgo rfl (by simp) hnil hno rfl rfl trivial
    | false => exact hgo rfl (by simp) hnil hno rfl rfl ⟨hold, rfl⟩
  | unwrap p =>
    rw [xferStep]
    cases yes with
    | true => exact hgo rfl (by simp) hnil hno rfl rfl hold
    | false => exact hgo rfl (by simp) hnil hno rfl rfl ⟨hold, rfl⟩
  | swap p => exact hgo rfl (by simp) hnil hno rfl rfl ⟨hold, by cases yes <;> rfl⟩
  | capture => exact hgo rfl (by simp) rfl (hone rfl) rfl rfl trivial
  | upload start => exact hgo rfl (by simp) hnil hno rfl rfl trivial
  | ackTest start ok =>
    rw [xferStep]
    cases s.snapshotAck <;> exact hgo rfl (by simp) hnil hno rfl rfl trivial
  | sendAck start ok =>
    rw [xferStep]
    cases hsnap : s.snapshotAck with
    | some message => exact hgo rfl (by simp) rfl (hone rfl) rfl rfl trivial
    | none => exact hgo rfl (by simp) hnil hno rfl rfl trivial
  | releaseAck => exact hgo rfl (by simp) hnil hno rfl rfl trivial
  | clear k => cases k <;> exact hgo rfl (by simp [afterTransfer]) rfl (hone rfl) rfl rfl trivial

/-- The ack of a push is for the message in the slot. -/
theorem xfer_ota_ack {s : St} (hs : OtaInv s) {p : Push} {status : OtaStatus}
    (hx : s.xfer = some (.ack p status)) (yes : Bool) : OtaInv (xferStep s (.ack p status) yes) := by
  obtain ⟨hslot, hterminal⟩ := hs.locals hx
  have hledger := hs.ledger
  rw [hx, show (some (XferPc.ack p status) == some .release) = false from rfl] at hledger
  rw [xferStep]
  cases hack : p.ack with
  | none =>
    have hnone : s.modelAck = none := hslot.symm.trans hack
    rw [hnone] at hledger
    exact ⟨by rw [hnone]; exact hledger.empty true, hs.own, fun _ => hnone, fun h => by
      obtain rfl := Option.some.inj h
      trivial⟩
  | some message =>
    have hsome : s.modelAck = some message := hslot.symm.trans hack
    rw [hsome] at hledger
    dsimp only
    set s' : St := { s with xfer := some .release, trace := s.trace ++ [.otaAck message status] }
      with hs'
    have htrace : s'.trace = s.trace ++ [.otaAck message status] := rfl
    have hcount (m : ℕ) : otaAcks s' m = otaAcks s m + if message = m then 1 else 0 := by
      simp [otaAcks, htrace, List.countP_append, Event.endsOta, hterminal]
    have haccepted (m : ℕ) : AcceptedOta s' m ↔ AcceptedOta s m :=
      getElem?_grow htrace (by simp) m
    constructor
    · have hsent : Ledger (AcceptedOta s) (otaAcks s') (some message) true := by
        refine hledger.send (by rw [hcount, if_pos rfl]) fun m hm => ?_
        rw [hcount, if_neg (Ne.symm hm), Nat.add_zero]
      rw [show s'.modelAck = some message from hsome]
      exact hsent.congr haccepted fun _ => rfl
    · intro m st hmem
      rw [htrace] at hmem
      rcases List.mem_append.mp hmem with hmem | hmem
      · obtain ⟨verdict, hv⟩ := hs.own hmem
        exact ⟨verdict, getElem?_kept htrace hv⟩
      · obtain ⟨rfl, -⟩ := Event.otaAck.inj (List.mem_singleton.mp hmem)
        exact ⟨.accepted, getElem?_kept htrace (hledger.current m rfl).1⟩
    · intro h
      exact hs.empty (Or.inl (h.resolve_right (by simp [hs'])))
    · intro pc hpc
      obtain rfl := Option.some.inj hpc
      trivial

theorem xfer_ota {s : St} (hs : OtaInv s) {pc : XferPc} (hx : s.xfer = some pc) (yes : Bool) :
    OtaInv (xferStep s pc yes) := by
  cases hpc : pc with
  | ack p status => exact xfer_ota_ack hs (hpc ▸ hx) yes
  | release =>
    have hledger := hs.ledger
    rw [hx, hpc] at hledger
    refine ⟨hledger.release (Or.inr rfl) _, hs.own, fun _ => rfl, fun h => ?_⟩
    obtain rfl := Option.some.inj h
    trivial
  | clearPending k =>
    refine hs.frame (List.append_nil _).symm (List.forall_mem_nil _) rfl ?_ ?_ ?_
    · rw [hx, hpc]
      rfl
    · cases k with
      | model => exact fun _ => hs.empty (Or.inr (hpc ▸ hx))
      | snapshot =>
        intro h
        exact hs.empty (Or.inl (h.resolve_right (by simp [xferStep])))
    · intro pc1 hpc1
      obtain rfl := Option.some.inj hpc1
      trivial
  | _ => exact hpc ▸ xfer_ota_frame hs hx yes (by simp [hpc]) (by simp [hpc]) (by simp [hpc])

/-- A message that has not come yet has no ack. -/
theorem OtaInv.fresh {s : St} (hs : OtaInv s) {message : ℕ} (h : s.trace.length ≤ message) :
    otaAcks s message = 0 := by
  refine List.countP_eq_zero.mpr fun e he hends => ?_
  cases e with
  | otaAck m status =>
    obtain ⟨verdict, hv⟩ := hs.own he
    have hm : m = message := by
      simp only [Event.endsOta, Bool.and_eq_true, beq_iff_eq] at hends
      exact hends.1
    have hlt := (List.getElem?_eq_some_iff.mp hv).1
    omega
  | _ => exact absurd hends (by simp [Event.endsOta])

/-- The ack sent from the callback is for the message that is being handled. -/
theorem otaEvents_own {s s' : St} {ack : Bool} {verdict : OtaVerdict} {status : OtaStatus}
    (hs : OtaInv s) (htrace : s'.trace = s.trace ++ otaEvents s ack verdict status)
    {message : ℕ} {st : OtaStatus} (hmem : .otaAck message st ∈ s'.trace) :
    ∃ verdict, s'.trace[message]? = some (.ota true verdict) := by
  rw [htrace] at hmem
  rcases List.mem_append.mp hmem with hmem | hmem
  · obtain ⟨v, hv⟩ := hs.own hmem
    exact ⟨v, getElem?_kept htrace hv⟩
  · cases ack with
    | false => simp [otaEvents] at hmem
    | true =>
      have hm : message = s.trace.length := by
        simp [otaEvents] at hmem
        exact hmem.1
      exact ⟨verdict, by simp [htrace, hm, otaEvents]⟩

theorem otaEvents_acks {s s' : St} {ack : Bool} {verdict : OtaVerdict} {status : OtaStatus}
    (htrace : s'.trace = s.trace ++ otaEvents s ack verdict status) (message : ℕ) :
    otaAcks s' message = otaAcks s message +
      if ack = true ∧ s.trace.length = message ∧ status.terminal = true then 1 else 0 := by
  rw [otaAcks, htrace, List.countP_append]
  cases ack with
  | false => simp [otaEvents, Event.endsOta, otaAcks]
  | true => simp [otaEvents, Event.endsOta, otaAcks, List.countP_cons]

/-- A refused message. -/
theorem OtaInv.refused {s s' : St} (hs : OtaInv s) {ack : Bool} {verdict : OtaVerdict}
    (hverdict : verdict ≠ .accepted)
    (hs' : s' = { s with trace := s.trace ++ otaEvents s ack verdict .failed }) : OtaInv s' := by
  have htrace : s'.trace = s.trace ++ otaEvents s ack verdict .failed := by rw [hs']
  have hslot : s'.modelAck = s.modelAck := by rw [hs']
  have hxfer : s'.xfer = s.xfer := by rw [hs']
  have hpending : s'.pending = s.pending := by rw [hs']
  have haccepted (m : ℕ) : AcceptedOta s' m ↔ AcceptedOta s m := by
    refine getElem?_grow htrace ?_ m
    cases ack <;> simp [otaEvents, Ne.symm hverdict]
  have hacks := otaEvents_acks htrace
  refine ⟨?_, otaEvents_own hs htrace, by rw [hpending, hxfer, hslot]; exact hs.empty,
    by rw [hxfer, hslot]; exact hs.locals⟩
  rw [hslot, hxfer]
  cases ack with
  | false => exact hs.ledger.congr haccepted fun m => by simp [hacks]
  | true =>
    have hnew : ¬ AcceptedOta s s.trace.length := fun h =>
      absurd (List.getElem?_eq_some_iff.mp h).1 (Nat.lt_irrefl _)
    have hrefused : Ledger (AcceptedOta s) (otaAcks s') s.modelAck (s.xfer == some .release) := by
      refine hs.ledger.refuse hnew (hs.fresh (Nat.le_refl _)) ?_ fun m hm => ?_
      · simp [hacks, OtaStatus.terminal]
      · simp [hacks, Ne.symm hm]
    exact hrefused.congr haccepted fun _ => rfl

/-- An accepted message, while no push runs. -/
theorem OtaInv.accepted {s s' : St} (hs : OtaInv s) {ack : Bool} (hpending : s.pending .model = false)
    (hidle : ∀ pc, s.xfer = some pc → pc.executes = some .model → pc = .clear .model)
    (hs' : s' = { s with modelUrl := some s.trace.length, modelAck := ackId s ack,
                         pending := Function.update s.pending .model true,
                         trace := s.trace ++ otaEvents s ack .accepted .downloading }) :
    OtaInv s' := by
  have htrace : s'.trace = s.trace ++ otaEvents s ack .accepted .downloading := by rw [hs']
  have hslot : s'.modelAck = ackId s ack := by rw [hs']
  have hxfer : s'.xfer = s.xfer := by rw [hs']
  have hacks (m : ℕ) : otaAcks s' m = otaAcks s m := by
    rw [otaEvents_acks htrace]
    simp [OtaStatus.terminal]
  have hledger := hs.ledger
  have hsent : (s.xfer == some .release) = false := not_at_of_idle hidle rfl (by simp)
  rw [hs.empty (Or.inl hpending), hsent] at hledger
  refine ⟨?_, otaEvents_own hs htrace, ?_, ?_⟩
  · rw [hslot, hxfer, hsent]
    cases ack with
    | false =>
      refine hledger.congr (fun m => getElem?_grow htrace ?_ m) hacks
      simp [otaEvents]
    | true =>
      refine hledger.accept (hs.fresh (Nat.le_refl _)) (fun m => ?_) hacks
      exact getElem?_new htrace (by simp) m
  · rintro (h | h)
    · rw [hs'] at h
      simp at h
    · rw [hxfer] at h
      exact absurd (hidle _ h rfl) (by simp)
  · intro pc hpc
    rw [hxfer] at hpc
    cases hk : pc with
    | download _ _ | lostHeap _ | unwrap _ | swap _ | ack _ _ =>
      exact absurd (hidle pc hpc (by rw [hk]; rfl)) (by simp [hk])
    | _ => trivial

/-! ### Snapshot commands -/

/-- A snapshot command, its ack, or a capture. -/
def Event.isCommand : Event → Bool
  | .command _ _ => true
  | .commandAck _ _ => true
  | .capture => true
  | _ => false

/-- What the locals of a snapshot say about the slot: its command came before the capture. -/
def CaptureLocals (s : St) : XferPc → Prop
  | .upload start => s.trace[start]? = some .capture ∧ ∀ m, s.snapshotAck = some m → m < start
  | .ackTest start _ => s.trace[start]? = some .capture ∧ ∀ m, s.snapshotAck = some m → m < start
  | .sendAck start _ => s.trace[start]? = some .capture ∧ ∀ m, s.snapshotAck = some m → m < start
  | _ => True

structure CommandInv (s : St) : Prop where
  ledger : Ledger (AcceptedCommand s) (commandAcks s) s.snapshotAck (s.xfer == some .releaseAck)
  own : ∀ {message result}, .commandAck message result ∈ s.trace → CommandAnswered s message result
  empty : s.pending .snapshot = false ∨ s.xfer = some (.clearPending .snapshot) →
    s.snapshotAck = none
  locals : ∀ {pc}, s.xfer = some pc → CaptureLocals s pc

theorem boot_command : CommandInv boot where
  ledger := ⟨fun i hi => by simp [AcceptedCommand, boot] at hi, fun i hi => by simp [boot] at hi,
    fun i => by simp [commandAcks, boot]⟩
  own h := by simp [boot] at h
  empty _ := rfl
  locals h := by simp [boot] at h

theorem CaptureLocals.grow {s s' : St} {pc : XferPc} (h : CaptureLocals s pc) {events : List Event}
    (htrace : s'.trace = s.trace ++ events) (hslot : s'.snapshotAck = s.snapshotAck) :
    CaptureLocals s' pc := by
  cases pc with
  | upload _ | ackTest _ _ | sendAck _ _ =>
    exact ⟨getElem?_kept htrace h.1, fun m hm => h.2 m (hslot.symm.trans hm)⟩
  | _ => trivial

theorem CommandAnswered.grow {s s' : St} {events : List Event} (h : s'.trace = s.trace ++ events)
    {message : ℕ} {result : CommandResult} (ha : CommandAnswered s message result) :
    CommandAnswered s' message result := by
  cases result with
  | refused => exact getElem?_kept h ha
  | captured start ok => exact ⟨getElem?_kept h ha.1, ha.2.1, getElem?_kept h ha.2.2⟩

/-- A step that does not touch the slot and records no command or ack. -/
theorem CommandInv.frame {s s' : St} (hs : CommandInv s) {events : List Event}
    (h : s'.trace = s.trace ++ events) (hev : ∀ e ∈ events, e.isCommand = true → e = .capture)
    (hslot : s'.snapshotAck = s.snapshotAck)
    (hsent : (s'.xfer == some .releaseAck) = (s.xfer == some .releaseAck))
    (hempty : s'.pending .snapshot = false ∨ s'.xfer = some (.clearPending .snapshot) →
      s.snapshotAck = none)
    (hlocals : ∀ {pc}, s'.xfer = some pc → CaptureLocals s' pc) : CommandInv s' := by
  have haccepted (m : ℕ) : AcceptedCommand s' m ↔ AcceptedCommand s m :=
    getElem?_grow h (fun hmem => by simpa using hev _ hmem rfl) m
  have hacks (m : ℕ) : commandAcks s' m = commandAcks s m := by
    refine countP_grow h fun e he => ?_
    cases e with
    | commandAck m' result => exact absurd (hev _ he rfl) (by simp)
    | _ => rfl
  constructor
  · rw [hslot, hsent]
    exact hs.ledger.congr haccepted hacks
  · intro message result hmem
    rw [h] at hmem
    rcases List.mem_append.mp hmem with hmem | hmem
    · exact (hs.own hmem).grow h
    · exact absurd (hev _ hmem rfl) (by simp)
  · rw [hslot]
    exact hempty
  · exact hlocals

theorem quiet_command {s s' : St} (h : Quiet .message s s') :
    ∃ events, s'.trace = s.trace ++ events ∧ ∀ e ∈ events, e.isCommand = true → e = .capture := by
  obtain ⟨events, htrace, hquiet⟩ := h
  refine ⟨events, htrace, fun e he hcommand => ?_⟩
  cases e with
  | command ack accepted => exact absurd rfl (hquiet _ he)
  | commandAck message result => exact absurd rfl (hquiet _ he)
  | capture => rfl
  | _ => exact absurd hcommand (by simp [Event.isCommand])

theorem net_command {s : St} (hs : CommandInv s) (yes : Bool) : CommandInv (netStep s yes) := by
  have hf := netStep_frame s yes
  obtain ⟨events, htrace, hev⟩ := quiet_command hf.quiet
  obtain hx | ⟨hnone, hx⟩ := hf.xfer
  · refine hs.frame htrace hev hf.snapshotAck (by rw [hx]) ?_ fun hpc => ?_
    · rw [hf.pending, hx]
      exact hs.empty
    · exact (hs.locals (hx ▸ hpc)).grow htrace hf.snapshotAck
  · refine hs.frame htrace hev hf.snapshotAck (by rw [hx, hnone]; rfl) ?_ fun hpc => ?_
    · rw [hf.pending, hx]
      exact fun h => hs.empty (h.imp_right fun h => absurd h (by simp))
    · obtain rfl := Option.some.inj (hx.symm.trans hpc)
      trivial

/-- The transfer task outside of the ack and its release. -/
theorem xfer_command_frame {s : St} (hs : CommandInv s) {pc : XferPc} (hx : s.xfer = some pc)
    (yes : Bool) (hsend : ∀ start ok, pc ≠ .sendAck start ok) (hrelease : pc ≠ .releaseAck)
    (hclear : ∀ k, pc ≠ .clearPending k) : CommandInv (xferStep s pc yes) := by
  have hgo {s' : St} {pc' : XferPc} {events : List Event} (hx' : s'.xfer = some pc')
      (hne : pc' ≠ .releaseAck ∧ (pc' = .clearPending .snapshot → s.snapshotAck = none))
      (h : s'.trace = s.trace ++ events) (hev : ∀ e ∈ events, e.isCommand = true → e = .capture)
      (hslot : s'.snapshotAck = s.snapshotAck) (hpending : s'.pending = s.pending)
      (hlocals : CaptureLocals s' pc') : CommandInv s' := by
    refine hs.frame h hev hslot ?_ ?_ fun hpc1 => ?_
    · simp [hx', hx, hne.1, hrelease]
    · rw [hpending, hx']
      rintro (h | h)
      · exact hs.empty (Or.inl h)
      · exact hne.2 (Option.some.inj h)
    · obtain rfl := Option.some.inj (hx'.symm.trans hpc1)
      exact hlocals
  have hold := hs.locals hx
  have hnil : s.trace = s.trace ++ [] := (List.append_nil _).symm
  have hno : ∀ e ∈ ([] : List Event), e.isCommand = true → e = .capture := List.forall_mem_nil _
  have hone {e : Event} (he : e.isCommand = true → e = .capture) :
      ∀ e' ∈ [e], e'.isCommand = true → e' = .capture := List.forall_mem_singleton.mpr he
  cases pc with
  | sendAck start ok => exact absurd rfl (hsend start ok)
  | releaseAck => exact absurd rfl hrelease
  | clearPending k => exact absurd rfl (hclear k)
  | take => exact hgo rfl (by simp) hnil hno rfl rfl trivial
  | check k =>
    rw [xferStep]
    split_ifs
    · cases k <;> exact hgo rfl (by simp [execute]) rfl (hone (by simp [Event.isCommand])) rfl rfl trivial
    · cases k <;> exact hgo rfl (by simp [afterTransfer]) hnil hno rfl rfl trivial
  | read => exact hgo rfl (by simp) hnil hno rfl rfl trivial
  | download attempt p =>
    rw [xferStep]
    split_ifs <;> exact hgo rfl (by simp) hnil hno rfl rfl trivial
  | lostHeap p =>
    rw [xferStep]
    cases yes <;> exact hgo rfl (by simp) hnil hno rfl rfl trivial
  | unwrap p =>
    rw [xferStep]
    cases yes <;> exact hgo rfl (by simp) hnil hno rfl rfl trivial
  | swap p => exact hgo rfl (by simp) hnil hno rfl rfl trivial
  | ack p status =>
    rw [xferStep]
    cases p.ack with
    | some message => exact hgo rfl (by simp) rfl (hone (by simp [Event.isCommand])) rfl rfl trivial
    | none => exact hgo rfl (by simp) hnil hno rfl rfl trivial
  | release => exact hgo rfl (by simp) hnil hno rfl rfl trivial
  | capture =>
    refine hgo rfl (by simp) rfl (hone fun _ => rfl) rfl rfl ⟨by simp [xferStep], fun m hm => ?_⟩
    -- the command in the slot has come before
    exact (List.getElem?_eq_some_iff.mp (hs.ledger.current m hm).1).1
  | upload start => exact hgo rfl (by simp) hnil hno rfl rfl hold
  | ackTest start ok =>
    rw [xferStep]
    cases hsnap : s.snapshotAck with
    | some message => exact hgo rfl (by simp) hnil hno hsnap.symm rfl ⟨hold.1, hsnap ▸ hold.2⟩
    | none => exact hgo rfl (by simp [hsnap]) hnil hno hsnap.symm rfl trivial
  | clear k =>
    cases k <;>
      exact hgo rfl (by simp [afterTransfer]) rfl (hone (by simp [Event.isCommand])) rfl rfl trivial

/-- The result of a capture goes to the command in the slot. -/
theorem xfer_command_send {s : St} (hs : CommandInv s) {start : ℕ} {ok : Bool}
    (hx : s.xfer = some (.sendAck start ok)) (yes : Bool) :
    CommandInv (xferStep s (.sendAck start ok) yes) := by
  obtain ⟨hcapture, hbefore⟩ := hs.locals hx
  have hledger := hs.ledger
  rw [hx, show (some (XferPc.sendAck start ok) == some .releaseAck) = false from rfl] at hledger
  rw [xferStep]
  cases hsnap : s.snapshotAck with
  | none =>
    rw [hsnap] at hledger
    exact ⟨hledger.empty true, hs.own, fun _ => rfl, fun h => by
      obtain rfl := Option.some.inj h
      trivial⟩
  | some message =>
    rw [hsnap] at hledger
    dsimp only
    rw [← hsnap]
    set s' : St := { s with
      xfer := some .releaseAck
      trace := s.trace ++ [.commandAck message (.captured start ok)] } with hs'
    have htrace : s'.trace = s.trace ++ [.commandAck message (.captured start ok)] := rfl
    have hcount (m : ℕ) : commandAcks s' m = commandAcks s m + if message = m then 1 else 0 := by
      simp [commandAcks, htrace, List.countP_append, Event.acksCommand]
    have haccepted (m : ℕ) : AcceptedCommand s' m ↔ AcceptedCommand s m :=
      getElem?_grow htrace (by simp) m
    constructor
    · have hsent : Ledger (AcceptedCommand s) (commandAcks s') (some message) true := by
        refine hledger.send (by rw [hcount, if_pos rfl]) fun m hm => ?_
        rw [hcount, if_neg (Ne.symm hm), Nat.add_zero]
      rw [show s'.snapshotAck = some message from hsnap]
      exact hsent.congr haccepted fun _ => rfl
    · intro m result hmem
      rw [htrace] at hmem
      rcases List.mem_append.mp hmem with hmem | hmem
      · exact (hs.own hmem).grow htrace
      · obtain ⟨rfl, rfl⟩ := Event.commandAck.inj (List.mem_singleton.mp hmem)
        have hanswered : CommandAnswered s m (.captured start ok) :=
          ⟨(hledger.current m rfl).1, hbefore m hsnap, hcapture⟩
        exact hanswered.grow htrace
    · intro h
      exact hs.empty (Or.inl (h.resolve_right (by simp [hs'])))
    · intro pc hpc
      obtain rfl := Option.some.inj hpc
      trivial

theorem xfer_command {s : St} (hs : CommandInv s) {pc : XferPc} (hx : s.xfer = some pc)
    (yes : Bool) : CommandInv (xferStep s pc yes) := by
  cases hpc : pc with
  | sendAck start ok => exact xfer_command_send hs (hpc ▸ hx) yes
  | releaseAck =>
    have hledger := hs.ledger
    rw [hx, hpc] at hledger
    refine ⟨hledger.release (Or.inr rfl) _, fun h => hs.own h, fun _ => rfl, fun h => ?_⟩
    obtain rfl := Option.some.inj h
    trivial
  | clearPending k =>
    refine hs.frame (List.append_nil _).symm (List.forall_mem_nil _) rfl ?_ ?_
      fun hpc1 => ?_
    · rw [hx, hpc]
      rfl
    · cases k with
      | model =>
        intro h
        exact hs.empty (Or.inl (h.resolve_right (by simp [xferStep])))
      | snapshot => exact fun _ => hs.empty (Or.inr (hpc ▸ hx))
    · obtain rfl := Option.some.inj hpc1
      trivial
  | _ => exact hpc ▸ xfer_command_frame hs hx yes (by simp [hpc]) (by simp [hpc]) (by simp [hpc])

theorem CommandInv.fresh {s : St} (hs : CommandInv s) {message : ℕ} (h : s.trace.length ≤ message) :
    commandAcks s message = 0 := by
  refine List.countP_eq_zero.mpr fun e he hacks => ?_
  cases e with
  | commandAck m result =>
    have hm : m = message := by simpa [Event.acksCommand] using hacks
    have hlt : m < s.trace.length := by
      have hanswered := hs.own he
      cases result with
      | refused => exact (List.getElem?_eq_some_iff.mp hanswered).1
      | captured start ok => exact (List.getElem?_eq_some_iff.mp hanswered.1).1
    omega
  | _ => exact absurd hacks (by simp [Event.acksCommand])

/-- A refused command. -/
theorem CommandInv.refused {s s' : St} (hs : CommandInv s) {ack : Bool}
    (hs' : s' = { s with trace := s.trace ++ .command ack false ::
      (if ack = true then [.commandAck s.trace.length .refused] else []) }) : CommandInv s' := by
  have htrace : s'.trace = s.trace ++ .command ack false ::
      (if ack = true then [.commandAck s.trace.length .refused] else []) := by rw [hs']
  have hslot : s'.snapshotAck = s.snapshotAck := by rw [hs']
  have hxfer : s'.xfer = s.xfer := by rw [hs']
  have hpending : s'.pending = s.pending := by rw [hs']
  have haccepted (m : ℕ) : AcceptedCommand s' m ↔ AcceptedCommand s m := by
    refine getElem?_grow htrace ?_ m
    cases ack <;> simp
  have hacks (m : ℕ) : commandAcks s' m = commandAcks s m +
      if ack = true ∧ s.trace.length = m then 1 else 0 := by
    rw [commandAcks, htrace, List.countP_append]
    cases ack <;> simp [Event.acksCommand, commandAcks, List.countP_cons]
  refine ⟨?_, ?_, by rw [hpending, hxfer, hslot]; exact hs.empty, fun hpc => ?_⟩
  · rw [hslot, hxfer]
    cases ack with
    | false => exact hs.ledger.congr haccepted fun m => by simp [hacks]
    | true =>
      have hnew : ¬ AcceptedCommand s s.trace.length := fun h =>
        absurd (List.getElem?_eq_some_iff.mp h).1 (Nat.lt_irrefl _)
      have hrefused : Ledger (AcceptedCommand s) (commandAcks s') s.snapshotAck
          (s.xfer == some .releaseAck) := by
        refine hs.ledger.refuse hnew (hs.fresh (Nat.le_refl _)) ?_ fun m hm => ?_
        · simp [hacks]
        · simp [hacks, Ne.symm hm]
      exact hrefused.congr haccepted fun _ => rfl
  · intro m result hmem
    rw [htrace] at hmem
    rcases List.mem_append.mp hmem with hmem | hmem
    · exact (hs.own hmem).grow htrace
    · cases ack with
      | false => simp at hmem
      | true =>
        simp only [if_true, List.mem_cons, List.not_mem_nil, or_false, reduceCtorEq, false_or,
          Event.commandAck.injEq] at hmem
        obtain ⟨rfl, rfl⟩ := hmem
        simp [CommandAnswered, htrace]
  · exact (hs.locals (hxfer ▸ hpc)).grow htrace hslot

/-- An accepted command, while no snapshot runs. -/
theorem CommandInv.accepted {s s' : St} (hs : CommandInv s) {ack : Bool}
    (hpending : s.pending .snapshot = false)
    (hidle : ∀ pc, s.xfer = some pc → pc.executes = some .snapshot → pc = .clear .snapshot)
    (hs' : s' = { s with snapshotAck := ackId s ack,
                         pending := Function.update s.pending .snapshot true,
                         trace := s.trace ++ [.command ack true] }) : CommandInv s' := by
  have htrace : s'.trace = s.trace ++ [.command ack true] := by rw [hs']
  have hslot : s'.snapshotAck = ackId s ack := by rw [hs']
  have hxfer : s'.xfer = s.xfer := by rw [hs']
  have hacks (m : ℕ) : commandAcks s' m = commandAcks s m :=
    countP_grow htrace (by simp [Event.acksCommand])
  have hledger := hs.ledger
  have hsent : (s.xfer == some .releaseAck) = false := not_at_of_idle hidle rfl (by simp)
  rw [hs.empty (Or.inl hpending), hsent] at hledger
  refine ⟨?_, ?_, ?_, ?_⟩
  · rw [hslot, hxfer, hsent]
    cases ack with
    | false => exact hledger.congr (fun m => getElem?_grow htrace (by simp) m) hacks
    | true =>
      refine hledger.accept (hs.fresh (Nat.le_refl _)) (fun m => ?_) hacks
      exact getElem?_new htrace List.not_mem_nil m
  · intro m result hmem
    rw [htrace] at hmem
    exact (hs.own (by simpa using hmem)).grow htrace
  · rintro (h | h)
    · rw [hs'] at h
      simp at h
    · rw [hxfer] at h
      exact absurd (hidle _ h rfl) (by simp)
  · intro pc hpc
    rw [hxfer] at hpc
    cases hk : pc with
    | upload _ | ackTest _ _ | sendAck _ _ =>
      exact absurd (hidle pc hpc (by rw [hk]; rfl)) (by simp [hk])
    | _ => trivial

/-! ### Every run -/

structure AckInv (s : St) : Prop where
  sched : Sched s
  stays : StaysPending s
  ota : OtaInv s
  command : CommandInv s

theorem boot_acks : AckInv boot := ⟨boot_sched, boot_staysPending, boot_ota, boot_command⟩

/-- While a transfer is not pending, the transfer task is outside of it or about to leave. -/
theorem AckInv.idle {s : St} (hs : AckInv s) {k : Kind} (hpending : s.pending k = false) (pc : XferPc)
    (hx : s.xfer = some pc) (hk : pc.executes = some k) : pc = .clear k := by
  by_contra hclear
  exact absurd (hs.stays.executes hs.sched hx hk hclear) (by rw [hpending]; decide)

theorem ota_acks {s : St} (hs : AckInv s) (url ack : Bool) : AckInv (prvOnOta s url ack) := by
  have hasked := prvOnOta_asked s url ack
  have hslot : (prvOnOta s url ack).snapshotAck = s.snapshotAck := by
    rw [prvOnOta]
    split_ifs <;> rfl
  have hpending : (prvOnOta s url ack).pending .snapshot = s.pending .snapshot := by
    rw [prvOnOta]
    split_ifs <;> rfl
  have hmono (k : Kind) (hk : s.pending k = true) : (prvOnOta s url ack).pending k = true := by
    rw [prvOnOta]
    split_ifs
    · exact hk
    · exact hk
    · cases k with
      | model => rfl
      | snapshot => exact hk
  obtain ⟨events, htrace, hev⟩ : ∃ events, (prvOnOta s url ack).trace = s.trace ++ events ∧
      ∀ e ∈ events, e.isCommand = true → e = .capture := by
    have hevents (verdict : OtaVerdict) (status : OtaStatus) :
        ∀ e ∈ otaEvents s ack verdict status, e.isCommand = true → e = .capture := by
      cases ack <;> simp [otaEvents, Event.isCommand]
    rw [prvOnOta]
    split_ifs
    · exact ⟨_, rfl, hevents _ _⟩
    · exact ⟨_, rfl, hevents _ _⟩
    · exact ⟨_, rfl, hevents _ _⟩
  refine ⟨hs.sched.callback hasked.still hasked.net, hs.stays.asked hasked hmono, ?_, ?_⟩
  · by_cases hurl : url = false
    · have hverdict : OtaVerdict.noUrl ≠ .accepted := by decide
      exact hs.ota.refused hverdict (by rw [prvOnOta, if_pos hurl])
    · by_cases hbusy : s.pending .model = true
      · have hverdict : OtaVerdict.busy ≠ .accepted := by decide
        exact hs.ota.refused hverdict (by rw [prvOnOta, if_neg hurl, if_pos hbusy])
      · have hfree : s.pending .model = false := Bool.eq_false_iff.mpr hbusy
        exact hs.ota.accepted hfree (hs.idle hfree) (by rw [prvOnOta, if_neg hurl, if_neg hbusy])
  · refine hs.command.frame htrace hev hslot (by rw [hasked.still.xfer]) ?_ fun hpc => ?_
    · rw [hpending, hasked.still.xfer]
      exact hs.command.empty
    · exact (hs.command.locals (hasked.still.xfer ▸ hpc)).grow htrace hslot

theorem command_acks {s : St} (hs : AckInv s) (ack : Bool) : AckInv (prvOnCommand s ack) := by
  have hasked := prvOnCommand_asked s ack
  have hslot : (prvOnCommand s ack).modelAck = s.modelAck := by
    rw [prvOnCommand]
    split_ifs <;> rfl
  have hpending : (prvOnCommand s ack).pending .model = s.pending .model := by
    rw [prvOnCommand]
    split_ifs <;> rfl
  have hmono (k : Kind) (hk : s.pending k = true) : (prvOnCommand s ack).pending k = true := by
    rw [prvOnCommand]
    split_ifs
    · exact hk
    · exact hk
    · cases k with
      | model => exact hk
      | snapshot => rfl
  obtain ⟨events, htrace, hev⟩ : ∃ events, (prvOnCommand s ack).trace = s.trace ++ events ∧
      ∀ e ∈ events, e.isOta = false := by
    rw [prvOnCommand]
    split_ifs
    · exact ⟨_, rfl, by simp [Event.isOta]⟩
    · exact ⟨_, rfl, by simp [Event.isOta]⟩
    · exact ⟨_, rfl, by simp [Event.isOta]⟩
  refine ⟨hs.sched.callback hasked.still hasked.net, hs.stays.asked hasked hmono, ?_, ?_⟩
  · refine hs.ota.frame htrace hev hslot (by rw [hasked.still.xfer]) ?_ fun hpc => ?_
    · rw [hpending, hasked.still.xfer]
      exact hs.ota.empty
    · exact hs.ota.locals (hasked.still.xfer ▸ hpc)
  · by_cases hbusy : s.pending .snapshot = true
    · exact hs.command.refused (by rw [prvOnCommand, if_pos hbusy])
    · have hfree : s.pending .snapshot = false := Bool.eq_false_iff.mpr hbusy
      exact hs.command.accepted hfree (hs.idle hfree) (by rw [prvOnCommand, if_neg hbusy])

/-- The CLI asks for a snapshot without an ack. -/
theorem requestSnapshot_acks {s : St} (hs : AckInv s) : AckInv (requestSnapshot s) := by
  have hasked := requestSnapshot_asked s
  have hnil : (requestSnapshot s).trace = s.trace ++ [] := (List.append_nil _).symm
  have hmono (k : Kind) (hk : s.pending k = true) : (requestSnapshot s).pending k = true := by
    cases k with
    | model => exact hk
    | snapshot => rfl
  refine ⟨hs.sched.callback hasked.still hasked.net, hs.stays.asked hasked hmono, ?_, ?_⟩
  · exact hs.ota.frame hnil (List.forall_mem_nil _) rfl rfl hs.ota.empty hs.ota.locals
  · refine hs.command.frame hnil (List.forall_mem_nil _) rfl rfl (fun h => ?_)
      hs.command.locals
    exact hs.command.empty (h.imp_left fun h => absurd h (by simp [requestSnapshot]))

theorem requestRestart_acks {s : St} (hs : AckInv s) : AckInv (requestRestart s) := by
  have hasked := requestRestart_asked s
  have htrace : (requestRestart s).trace = s.trace ++ [.request] := rfl
  refine ⟨hs.sched.callback hasked.still hasked.net, hs.stays.asked hasked fun _ hk => hk, ?_, ?_⟩
  · exact hs.ota.frame htrace (by simp [Event.isOta]) rfl rfl hs.ota.empty
      hs.ota.locals
  · exact hs.command.frame htrace (by simp [Event.isCommand]) rfl rfl
      hs.command.empty fun hpc => (hs.command.locals hpc).grow htrace rfl

theorem step_acks {s s' : St} {a : Action} (hs : AckInv s) (hok : SetsPending s a)
    (h : step s a = some s') : AckInv s' := by
  have hsched := step_sched hs.sched h
  cases a with
  | net yes =>
    obtain rfl := Option.some.inj h
    exact ⟨hsched, net_staysPending hs.stays hok yes, net_ota hs.ota yes, net_command hs.command yes⟩
  | xfer yes =>
    obtain ⟨pc, hx, -, rfl⟩ := step_xfer h
    exact ⟨hsched, xfer_staysPending hs.stays hx yes, xfer_ota hs.ota hx yes,
      xfer_command hs.command hx yes⟩
  | ota url ack => exact Option.some.inj h ▸ ota_acks hs url ack
  | command ack => exact Option.some.inj h ▸ command_acks hs ack
  | cliSnapshot => exact Option.some.inj h ▸ requestSnapshot_acks hs
  | cliApply => exact Option.some.inj h ▸ requestRestart_acks hs

theorem AckInv.acked {s s' : St} (hs' : AckInv s') : Acked s s' where
  ota := hs'.ota.ledger.once
  otaOwn _ _ h := hs'.ota.own h
  otaDone _ hpending message haccepted := by
    refine hs'.ota.ledger.settled message haccepted ?_
    rw [hs'.ota.empty (Or.inl hpending)]
    simp
  command := hs'.command.ledger.once
  commandOwn _ _ h := hs'.command.own h
  commandDone _ hpending message haccepted := by
    refine hs'.command.ledger.settled message haccepted ?_
    rw [hs'.command.empty (Or.inl hpending)]
    simp

instance (s : St) (a : Action) : Decidable (SetsPending s a) :=
  match a with
  | .net _ => decidable_of_iff _
      (forall_kind (P := fun k => s.net = .set k → s.pending k = true)).symm
  | .xfer _ => .isTrue trivial
  | .ota _ _ => .isTrue trivial
  | .command _ => .isTrue trivial
  | .cliSnapshot => .isTrue trivial
  | .cliApply => .isTrue trivial

/-- From the start to a push whose transfer is started. -/
def pushStarted : List Action :=
  List.replicate 8 (.net true) ++ .ota true true :: List.replicate 9 (.net true)

/-- The push is done, and a snapshot command is served. -/
def servedRun : List Action :=
  pushStarted ++ List.replicate 10 (.xfer true) ++ .command true :: List.replicate 5 (.net true) ++
    List.replicate 8 (.xfer true)

/-- The net thread reads the pending flag, the push ends, and the running flag is read false: a transfer
without a push starts.  The next message comes when that has read its slot. -/
def staleRun : List Action :=
  pushStarted ++ List.replicate 7 (.xfer true) ++ List.replicate 5 (.net true) ++
    List.replicate 3 (.xfer true) ++ List.replicate 5 (.net true) ++ List.replicate 4 (.xfer true) ++
    .ota true true :: List.replicate 6 (.xfer false)

end IotcRa8p1.App.Poll
