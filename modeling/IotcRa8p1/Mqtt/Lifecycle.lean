import IotcRa8p1.Mqtt.Client
import Mathlib.Data.Fintype.Basic

/-!
# One pump, one caller

The API mutex serialises pumps and publishers among themselves.  Connect and disconnect do not take
it, and they do not wait for the pump: it stops when it next looks at `s_stop`, which the next connect
clears again.

`Orderly` says when a disconnect, a connect and a publish may start.  Under it at most one pump is
alive, no two tasks are inside coreMQTT, the session and the `MQTTContext_t` change under nobody, and a
disconnect silences the pump until the next connect; `lifecycle_of_orderly` proves this of every
interleaving.
-/

namespace IotcRa8p1.Mqtt

open Machine RecMutex

variable {τ : Type*}

/-- Inside a coreMQTT call on `s_mqtt`. -/
def NetPc.inCall : NetPc → Bool
  | .init => true
  | .initQos => true
  | .mqttConnect => true
  | .subscribe => true
  | .mqttDisconnect => true
  | .publish .inPublish => true
  | _ => false

/-- Inside `MQTT_ProcessLoop`, callbacks included. -/
def PumpPc.processing : PumpPc → Bool
  | .inLoop => true
  | .callback _ => true
  | _ => false

def Cfg.inCall (c : Cfg τ) : Tid τ → Prop
  | .net => c.net.inCall = true
  | .pump i => ∃ p, c.pumps[i]? = some p ∧ p.processing = true
  | .task t => c.tasks t = some .inPublish

/-- The net thread replaces `s_tls_params`, the session or `s_mqtt`. -/
def NetPc.changes : NetPc → Bool
  | .clear => true
  | .tlsConnect => true
  | .init => true
  | .tlsAbort => true
  | .tlsDisconnect => true
  | _ => false

/-- At most one pump has not been deleted. -/
def Cfg.onePump (c : Cfg τ) : Prop :=
  ∀ (i j : ℕ) (p q : PumpPc), c.pumps[i]? = some p → c.pumps[j]? = some q → p ≠ .dead → q ≠ .dead →
    i = j

/-- What must hold of one configuration. -/
structure Lifecycle (c : Cfg τ) : Prop where
  onePump : c.onePump
  oneCall : ∀ x y, c.inCall x → c.inCall y → x = y
  undisturbed : c.net.changes = true → ∀ x, c.inCall x → x = .net
  quiet : c.quiet = true → ∀ p ∈ c.pumps, p.processing = false

def Cfg.allDead (c : Cfg τ) : Prop := ∀ p ∈ c.pumps, p = .dead

def Cfg.allOutside (c : Cfg τ) : Prop := ∀ p ∈ c.pumps, p.outside = true

def Cfg.noTask (c : Cfg τ) : Prop := ∀ t, c.tasks t = none

/-- Disconnect is about to call coreMQTT or the transport. -/
def Cfg.disconnecting (c : Cfg τ) : Prop :=
  c.net = .test ∨ c.net = .mqttDisconnect ∨ c.net = .tlsDisconnect

/-- Connect goes on only when every pump has ended and no other task is publishing; disconnect sets
`s_stop` only while no pump is between its test of it and the end of its process loop, and, if there
is a session to close, while no other task is publishing; no other task finds `s_connected` set
during a disconnect. -/
def Orderly (c : Cfg τ) : Action τ → Prop
  | .net (.connect _) => c.connected = false → c.allDead ∧ c.noTask
  | .net (.go _) => c.net = .stop → c.allOutside ∧ (c.connected = true → c.noTask)
  | .task t => c.tasks t = none → c.connected = true → ¬ c.disconnecting
  | _ => True

/-! ### The invariant -/

/-- No pump goes past its next test of `s_stop`. -/
structure Stopped (c : Cfg τ) : Prop where
  stop : c.stop = true
  outside : c.allOutside

/-- What the net thread's place says about the others. -/
structure Stage (c : Cfg τ) : Prop where
  offline : c.net.offline = true → c.noTask ∧ c.connected = false
  starting : c.net.offline = true ∨ c.net = .create → c.allDead ∧ c.quiet = false
  stopping : c.disconnecting ∨ c.net = .clearConnected → Stopped c
  drained : c.net = .test ∧ c.connected = true ∨ c.net = .mqttDisconnect ∨ c.net = .tlsDisconnect →
    c.noTask

variable {c c' : Cfg τ}

theorem PumpPc.processing_of_outside {p : PumpPc} (h : p.outside = true) : p.processing = false := by
  cases p <;> first | rfl | contradiction

/-- A caller holds the mutex, or it is the net thread inside connect or disconnect. -/
theorem inCall_cases {x : Tid τ} (h : c.inCall x) :
    0 < c.held x ∨ x = .net ∧ (c.net.offline = true ∨ c.net = .mqttDisconnect) := by
  cases x with
  | net =>
    have hcall : c.net.inCall = true := h
    cases hn : c.net <;> rw [hn] at hcall <;> simp only [NetPc.inCall, Bool.false_eq_true] at hcall
    case publish p =>
      cases p with
      | ready => contradiction
      | inPublish => exact Or.inl (by rw [Cfg.held, hn]; exact Nat.one_pos)
    case mqttDisconnect => exact Or.inr ⟨rfl, Or.inr rfl⟩
    all_goals exact Or.inr ⟨rfl, Or.inl rfl⟩
  | pump i =>
    obtain ⟨p, hp, hproc⟩ := h
    left
    rw [Cfg.held, hp]
    cases p <;> first | exact Nat.succ_pos _ | contradiction
  | task t =>
    left
    rw [Cfg.held, show c.tasks t = some .inPublish from h]
    exact Nat.one_pos

theorem NetPc.changes_cases {n : NetPc} (h : n.changes = true) :
    n.offline = true ∨ n = .mqttDisconnect ∨ n = .tlsDisconnect := by
  cases n <;> first | exact Or.inl rfl | exact Or.inr (Or.inr rfl) | contradiction

/-- The net thread is outside connect and disconnect, or about to set `s_stop`. -/
def NetPc.free : NetPc → Bool
  | .idle => true
  | .publish _ => true
  | .stop => true
  | _ => false

theorem stage_free (h : c.net.free = true) : Stage c := by
  refine ⟨fun ho => ?_, fun ho => ?_, fun ho => ?_, fun ho => ?_⟩ <;>
    cases hn : c.net <;> rw [hn] at h <;> simp [NetPc.free, NetPc.offline, Cfg.disconnecting, hn] at h ho

/-- Inside connect, and where it returns. -/
theorem stage_connecting (hoff : c.noTask ∧ c.connected = false) (hst : c.allDead ∧ c.quiet = false)
    (hnet : c.net.offline = true ∨ c.net = .idle) : Stage c := by
  rcases hnet with hnet | hnet
  · refine ⟨fun _ => hoff, fun _ => hst, fun ho => ?_, fun _ => hoff.1⟩
    cases hn : c.net <;> rw [hn] at hnet <;> simp [NetPc.offline, Cfg.disconnecting, hn] at hnet ho
  · exact stage_free (by rw [hnet]; rfl)

/-- While the session is being closed. -/
theorem stage_closing (hst : Stopped c) (hnone : c.noTask)
    (hnet : c.net = .mqttDisconnect ∨ c.net = .tlsDisconnect) : Stage c := by
  refine ⟨fun ho => ?_, fun ho => ?_, fun _ => hst, fun _ => hnone⟩ <;>
    rcases hnet with hn | hn <;> simp [hn, NetPc.offline] at ho

/-- What connect and disconnect leave alone; a pump is created behind the last one. -/
theorem netGo_frame {ok : Bool} (h : netGo c ok = some c') :
    c'.tasks = c.tasks ∧ c'.mutex = c.mutex ∧ c'.net.held = c.net.held ∧
      (c'.pumps = c.pumps ∨ c.net = .create ∧ c'.pumps = c.pumps ++ [.loop]) := by
  cases hn : c.net <;> simp only [netGo, hn, reduceCtorEq] at h <;>
    (try split_ifs at h) <;> obtain rfl := Option.some.inj h <;>
    first
    | exact ⟨rfl, rfl, rfl, Or.inl rfl⟩
    | exact ⟨rfl, rfl, rfl, Or.inr ⟨rfl, rfl⟩⟩

variable [DecidableEq τ]

structure Serial (c : Cfg τ) : Prop where
  held : ∀ x, c.mutex.depth x = c.held x
  onePump : c.onePump
  stage : Stage c
  quiet : c.quiet = true → Stopped c

/-- While the net thread connects or closes the session nobody else is in a call. -/
theorem Serial.alone (hs : Serial c)
    (hnet : c.net.offline = true ∨ c.net = .mqttDisconnect ∨ c.net = .tlsDisconnect) {x : Tid τ}
    (hx : c.inCall x) : x = .net := by
  have hout : c.allOutside := by
    rcases hnet with hoff | hm | ht
    · intro p hp
      rw [(hs.stage.starting (Or.inl hoff)).1 p hp]
      rfl
    · exact (hs.stage.stopping (Or.inl (Or.inr (Or.inl hm)))).outside
    · exact (hs.stage.stopping (Or.inl (Or.inr (Or.inr ht)))).outside
  have hnone : c.noTask := by
    rcases hnet with hoff | hclose
    · exact (hs.stage.offline hoff).1
    · exact hs.stage.drained (Or.inr hclose)
  cases x with
  | net => rfl
  | pump i =>
    obtain ⟨p, hp, hproc⟩ := hx
    rw [PumpPc.processing_of_outside (hout p (List.mem_of_getElem? hp))] at hproc
    contradiction
  | task t =>
    have ht : c.tasks t = some .inPublish := hx
    rw [hnone t] at ht
    contradiction

theorem lifecycle_of_serial (hs : Serial c) : Lifecycle c := by
  refine ⟨hs.onePump, fun x y hx hy => ?_, fun hch x hx => hs.alone (NetPc.changes_cases hch) hx,
    fun hq p hp => PumpPc.processing_of_outside ((hs.quiet hq).outside p hp)⟩
  rcases inCall_cases hx with hxh | ⟨rfl, hnet⟩
  · rcases inCall_cases hy with hyh | ⟨rfl, hnet⟩
    · rw [← hs.held] at hxh hyh
      exact RecMutex.depth_unique hxh hyh
    · exact hs.alone (hnet.imp_right Or.inl) hx
  · exact (hs.alone (hnet.imp_right Or.inl) hy).symm

/-! ### Steps of connect and disconnect -/

/-- **Connect and disconnect** by their stages. -/
theorem netGo_stage {ok : Bool} (hs : Serial c)
    (hok : c.net = .stop → c.allOutside ∧ (c.connected = true → c.noTask)) (h : netGo c ok = some c') :
    Stage c' ∧ (c'.quiet = true → Stopped c') := by
  obtain ⟨-, -, ⟨hoffline, hstarting, hstopping, hdrained⟩, hquiet⟩ := hs
  cases hn : c.net <;> simp only [netGo, hn, reduceCtorEq] at h <;>
    rw [hn] at hoffline hstarting hdrained hok
  case clear | tlsConnect | init | initQos | mqttConnect | tlsAbort | subscribe | resume =>
    have hoff := hoffline rfl
    have hst := hstarting (Or.inl rfl)
    have hloud (d : Cfg τ) (hd : d.quiet = c.quiet) (hq : d.quiet = true) : Stopped d := by
      rw [hd, hst.2] at hq
      contradiction
    try split_ifs at h
    all_goals
      obtain rfl := Option.some.inj h
      refine ⟨stage_connecting hoff hst ?_, hloud _ rfl⟩
      first | exact Or.inr rfl | exact Or.inl rfl
  case setConnected =>
    obtain rfl := Option.some.inj h
    have hst := hstarting (Or.inl rfl)
    refine ⟨⟨fun ho => (nomatch ho), fun _ => hst, fun ho => ?_, fun ho => ?_⟩, fun hq => ?_⟩
    · simp [Cfg.disconnecting] at ho
    · simp at ho
    · exact absurd (hst.2.symm.trans hq) (by decide)
  case create =>
    have hst := hstarting (Or.inr rfl)
    split_ifs at h <;> obtain rfl := Option.some.inj h <;>
      exact ⟨stage_free rfl, fun hq => absurd (hst.2.symm.trans hq) (by decide)⟩
  case stop =>
    obtain rfl := Option.some.inj h
    obtain ⟨hout, hnone⟩ := hok rfl
    refine ⟨⟨fun ho => (nomatch ho), fun ho => ?_, fun _ => ⟨rfl, hout⟩, fun ho => hnone ?_⟩,
      fun _ => ⟨rfl, hout⟩⟩
    · simp [NetPc.offline] at ho
    · simpa using ho
  case test =>
    obtain ⟨hstop, hout⟩ := hstopping (Or.inl (Or.inl hn))
    split_ifs at h with hc <;> obtain rfl := Option.some.inj h
    · exact ⟨stage_closing ⟨hstop, hout⟩ (hdrained (Or.inl ⟨rfl, hc⟩)) (Or.inl rfl),
        fun _ => ⟨hstop, hout⟩⟩
    · exact ⟨stage_free rfl, fun _ => ⟨hstop, hout⟩⟩
  case mqttDisconnect =>
    obtain ⟨hstop, hout⟩ := hstopping (Or.inl (Or.inr (Or.inl hn)))
    obtain rfl := Option.some.inj h
    exact ⟨stage_closing ⟨hstop, hout⟩ (hdrained (Or.inr (Or.inl rfl))) (Or.inr rfl),
      fun _ => ⟨hstop, hout⟩⟩
  case tlsDisconnect =>
    obtain ⟨hstop, hout⟩ := hstopping (Or.inl (Or.inr (Or.inr hn)))
    obtain rfl := Option.some.inj h
    refine ⟨⟨fun ho => (nomatch ho), fun ho => ?_, fun _ => ⟨hstop, hout⟩, fun ho => ?_⟩,
      fun _ => ⟨hstop, hout⟩⟩
    · simp [NetPc.offline] at ho
    · simp at ho
  case clearConnected =>
    obtain ⟨hstop, hout⟩ := hstopping (Or.inr hn)
    obtain rfl := Option.some.inj h
    exact ⟨stage_free rfl, fun _ => ⟨hstop, hout⟩⟩

/-- A step of the net thread that takes or gives nothing. -/
theorem held_of_net (hs : ∀ x, c.mutex.depth x = c.held x) (hm : c'.mutex = c.mutex)
    (hn : c'.net.held = c.net.held) (hp : c'.pumps = c.pumps) (ht : c'.tasks = c.tasks) (x : Tid τ) :
    c'.mutex.depth x = c'.held x := by
  rw [hm, hs x]
  cases x with
  | net => exact hn.symm
  | pump i => rw [Cfg.held, Cfg.held, hp]
  | task t => rw [Cfg.held, Cfg.held, ht]

theorem netGo_serial {ok : Bool} (hs : Serial c)
    (hok : c.net = .stop → c.allOutside ∧ (c.connected = true → c.noTask)) (h : netGo c ok = some c') :
    Serial c' := by
  obtain ⟨hstage, hquiet⟩ := netGo_stage hs hok h
  obtain ⟨htasks, hmutex, hnet, hpumps⟩ := netGo_frame h
  rcases hpumps with hp | ⟨hcreate, hp⟩
  · refine ⟨held_of_net hs.held hmutex hnet hp htasks, ?_, hstage, hquiet⟩
    rw [Cfg.onePump, hp]
    exact hs.onePump
  · -- every older pump has been deleted
    have hdead := (hs.stage.starting (Or.inr hcreate)).1
    have hlast (i : ℕ) (p : PumpPc) (hi : (c.pumps ++ [.loop])[i]? = some p) (hlive : p ≠ .dead) :
        i = c.pumps.length := by
      by_cases hlt : i < c.pumps.length
      · rw [List.getElem?_append_left hlt] at hi
        exact absurd (hdead p (List.mem_of_getElem? hi)) hlive
      · have := (List.getElem?_eq_some_iff.mp hi).1
        rw [List.length_append, List.length_singleton] at this
        omega
    refine ⟨fun x => ?_, fun i j p q hi hj hpl hql => ?_, hstage, hquiet⟩
    · rw [hmutex, hs.held x]
      cases x with
      | net => exact hnet.symm
      | pump i =>
        rw [Cfg.held, Cfg.held, hp, List.getElem?_append]
        split_ifs with hlt
        · rfl
        · rw [List.getElem?_eq_none (by omega)]
          cases i - c.pumps.length <;> rfl
      | task t => rw [Cfg.held, Cfg.held, htasks]
    · rw [hp] at hi hj
      rw [hlast i p hi hpl, hlast j q hj hql]

/-! ### One step -/

/-- A step of the net thread's own publish. -/
theorem held_publish {p p' : Option PubPc} {m : RecMutex (Tid τ)} (hn : c.net = .ofPub p)
    (hm : Moves c.mutex m .net (pubHeld p) (pubHeld p')) (hs : ∀ x, c.mutex.depth x = c.held x) :
    ∀ x, m.depth x = ({ c with net := .ofPub p', mutex := m } : Cfg τ).held x := by
  have hpub (q : Option PubPc) : (NetPc.ofPub q).held = pubHeld q := by cases q <;> rfl
  refine Moves.depth_eq (x := .net) ?_ hs fun y hy => ?_
  · show Moves c.mutex m .net c.net.held (NetPc.ofPub p').held
    rw [hn, hpub, hpub]
    exact hm
  · cases y with
    | net => exact absurd rfl hy
    | pump i => rfl
    | task t => rfl

theorem net_serial {a : NetAct} (hs : Serial c) (hok : Orderly c (.net a))
    (h : netStep c a = some c') : Serial c' := by
  obtain ⟨ok, rfl, hgo⟩ | ⟨sub, rfl, hn, ⟨hc, rfl⟩ | ⟨hc, rfl⟩⟩ | ⟨-, hn, rfl⟩ |
    ⟨-, p, p', m, hn, rfl, hm⟩ := netStep_cases h
  · exact netGo_serial hs hok hgo
  · -- connected already
    exact ⟨hs.held, hs.onePump, stage_free (by rw [hn]; rfl), fun hq => (nomatch hq)⟩
  · obtain ⟨hdead, hnone⟩ := hok hc
    exact ⟨held_of_net hs.held rfl (by rw [hn]; rfl) rfl rfl, hs.onePump,
      stage_connecting ⟨hnone, hc⟩ ⟨hdead, rfl⟩ (Or.inl rfl), fun hq => (nomatch hq)⟩
  · exact ⟨held_of_net hs.held rfl (by rw [hn]; rfl) rfl rfl, hs.onePump, stage_free rfl,
      fun hq => ⟨(hs.quiet hq).stop, (hs.quiet hq).outside⟩⟩
  · exact ⟨held_publish hn hm hs.held, hs.onePump, stage_free (by cases p' <;> rfl),
      fun hq => ⟨(hs.quiet hq).stop, (hs.quiet hq).outside⟩⟩

section Pump

variable {i : ℕ} {p p' : PumpPc}

theorem held_pump (hp : PumpStep c c' i p p') (hs : ∀ x, c.mutex.depth x = c.held x) :
    ∀ x, c'.mutex.depth x = c'.held x := by
  have hlt : i < c.pumps.length := (List.getElem?_eq_some_iff.mp hp.pump).1
  refine Moves.depth_eq (x := .pump i) ?_ hs fun y hy => ?_
  · rw [Cfg.held, Cfg.held, hp.pump, hp.pumps, List.getElem?_set_self hlt]
    exact hp.mutex
  · cases y with
    | net => rw [Cfg.held, Cfg.held, hp.net]
    | pump j =>
      have hij : i ≠ j := fun hij => hy (hij ▸ rfl)
      rw [Cfg.held, Cfg.held, hp.pumps, List.getElem?_set_ne hij]
    | task t => rw [Cfg.held, Cfg.held, hp.tasks]

/-- The pump that moves was alive before. -/
theorem onePump_pump (hp : PumpStep c c' i p p') (hs : c.onePump) : c'.onePump := by
  have hback (j : ℕ) (q : PumpPc) (hj : c'.pumps[j]? = some q) (hq : q ≠ .dead) :
      ∃ q', c.pumps[j]? = some q' ∧ q' ≠ .dead := by
    rw [hp.pumps] at hj
    by_cases hij : i = j
    · subst hij
      exact ⟨p, hp.pump, hp.live⟩
    · rw [List.getElem?_set_ne hij] at hj
      exact ⟨q, hj, hq⟩
  intro j k q r hj hk hq hr
  obtain ⟨q', hj', hq'⟩ := hback j q hj hq
  obtain ⟨r', hk', hr'⟩ := hback k r hk hr
  exact hs j k q' r' hj' hk' hq' hr'

/-- A pump that finds `s_stop` set stays outside. -/
theorem stopped_pump (hp : PumpStep c c' i p p') (hs : Stopped c) : Stopped c' := by
  refine ⟨hp.stop.trans hs.stop, fun q hq => ?_⟩
  rw [hp.pumps] at hq
  rcases List.mem_or_eq_of_mem_set hq with hq | rfl
  · exact hs.outside q hq
  · exact hp.outside hs.stop (hs.outside p (List.mem_of_getElem? hp.pump))

theorem stage_pump (hp : PumpStep c c' i p p') (hs : Stage c) : Stage c' := by
  have hconn (hc : c'.connected = true) : c.connected = true := by
    rcases hp.connected with he | ⟨-, hf⟩
    · exact he ▸ hc
    · exact absurd (hf.symm.trans hc) (by decide)
  have hnone (hall : c.noTask) : c'.noTask := by
    intro t
    rw [hp.tasks]
    exact hall t
  refine ⟨fun ho => ?_, fun ho => ?_, fun ho => ?_, fun ho => ?_⟩
  · rw [hp.net] at ho
    obtain ⟨hall, hoff⟩ := hs.offline ho
    exact ⟨hnone hall, eq_false_of_ne_true fun hc => absurd (hoff.symm.trans (hconn hc)) (by decide)⟩
  · -- no pump is alive here, so none moves
    rw [hp.net] at ho
    exact absurd ((hs.starting ho).1 p (List.mem_of_getElem? hp.pump)) hp.live
  · rw [Cfg.disconnecting, hp.net] at ho
    exact stopped_pump hp (hs.stopping ho)
  · rw [hp.net] at ho
    exact hnone (hs.drained (ho.imp_left fun ⟨hn, hc⟩ => ⟨hn, hconn hc⟩))

theorem pump_serial {a : PumpAct} (hs : Serial c) (h : pumpStep c i a = some c') : Serial c' := by
  obtain ⟨p, p', hp⟩ := pumpStep_cases h
  exact ⟨held_pump hp hs.held, onePump_pump hp hs.onePump, stage_pump hp hs.stage,
    fun hq => stopped_pump hp (hs.quiet (hp.quiet ▸ hq))⟩

end Pump

section Task

variable {t : τ} {p : Option PubPc} {m : RecMutex (Tid τ)}

theorem held_task (ht : TaskStep c c' t p m) (hs : ∀ x, c.mutex.depth x = c.held x) :
    ∀ x, c'.mutex.depth x = c'.held x := by
  obtain ⟨rfl, hm, -⟩ := ht
  refine Moves.depth_eq (x := .task t) ?_ hs fun y hy => ?_
  · show Moves c.mutex m (.task t) (pubHeld (c.tasks t)) (pubHeld (Function.update c.tasks t p t))
    rw [Function.update_self]
    exact hm
  · cases y with
    | net => rfl
    | pump i => rfl
    | task u =>
      have hu : u ≠ t := fun hu => hy (hu ▸ rfl)
      show pubHeld (Function.update c.tasks t p u) = pubHeld (c.tasks u)
      rw [Function.update_of_ne hu]

/-- A publish begins only when connected, and not while the session is being closed. -/
theorem stage_task (ht : TaskStep c c' t p m) (hok : Orderly c (.task t)) (hs : Stage c) :
    Stage c' := by
  obtain ⟨rfl, -, hstart⟩ := ht
  have hnone (hall : c.noTask) (hc : c.connected = false) (u : τ) :
      Function.update c.tasks t p u = none := by
    by_cases hu : u = t
    · subst hu
      rw [Function.update_self]
      exact hstart (hall u) hc
    · rw [Function.update_of_ne hu]
      exact hall u
  refine ⟨fun ho => ?_, hs.starting, fun ho => ?_, fun ho => ?_⟩
  · obtain ⟨hall, hoff⟩ := hs.offline ho
    exact ⟨hnone hall hoff, hoff⟩
  · obtain ⟨hstop, hout⟩ := hs.stopping ho
    exact ⟨hstop, hout⟩
  · have hall := hs.drained ho
    cases hc : c.connected with
    | false => exact hnone hall hc
    | true => exact absurd (ho.imp_left And.left) (hok (hall t) hc)

theorem task_serial (hs : Serial c) (hok : Orderly c (.task t)) (h : taskStep c t = some c') :
    Serial c' := by
  obtain ⟨p, m, ht⟩ := taskStep_cases h
  have hstage := stage_task ht hok hs.stage
  have hheld := held_task ht hs.held
  obtain ⟨rfl, -, -⟩ := ht
  exact ⟨hheld, hs.onePump, hstage, fun hq => ⟨(hs.quiet hq).stop, (hs.quiet hq).outside⟩⟩

end Task

/-- **One orderly step keeps the invariant.** -/
theorem step_serial {a : Action τ} (hs : Serial c) (hok : Orderly c a) (h : step c a = some c') :
    Serial c' := by
  cases a with
  | net a => exact net_serial hs hok h
  | pump i a => exact pump_serial hs h
  | task t => exact task_serial hs hok h

theorem boot_serial : Serial (boot : Cfg τ) := by
  refine ⟨fun x => ?_, fun i j p q hi => ?_, stage_free rfl, fun hq => (nomatch hq)⟩
  · cases x <;> rfl
  · simp [boot] at hi

/-- **The life of the pump.**  In every orderly interleaving of the net thread, the pumps and any
publishers, with any outcome of every call: at most one pump is alive, at most one task is inside
coreMQTT, the session and `s_mqtt` change under nobody, and after a disconnect no pump processes
anything until the next connect. -/
theorem lifecycle_of_orderly (actions : List (Action τ)) (c : Cfg τ)
    (hok : Meets step Orderly actions boot) (hrun : runs step actions boot = some c) :
    Lifecycle c :=
  lifecycle_of_serial (runs_invariant step_serial boot_serial hok hrun)

/-! ### Both sides on runs -/

instance [Fintype τ] : (c : Cfg τ) → (a : Action τ) → Decidable (Orderly c a)
  | c, .net (.connect _) => inferInstanceAs
    (Decidable (c.connected = false → (∀ p ∈ c.pumps, p = .dead) ∧ ∀ t, c.tasks t = none))
  | c, .net (.go _) => inferInstanceAs (Decidable (c.net = .stop →
      (∀ p ∈ c.pumps, p.outside = true) ∧ (c.connected = true → ∀ t, c.tasks t = none)))
  | c, .task t => inferInstanceAs (Decidable (c.tasks t = none → c.connected = true →
      ¬ (c.net = .test ∨ c.net = .mqttDisconnect ∨ c.net = .tlsDisconnect)))
  | _, .net .disconnect => .isTrue trivial
  | _, .net .publish => .isTrue trivial
  | _, .pump _ _ => .isTrue trivial

/-- The pump handles a command, another task publishes, and the pump has ended between a disconnect
and the next connect. -/
def orderlyActions : List (Action Unit) :=
  connectActions Unit true ++
    [.pump 0 (.go true), .pump 0 (.go true), .pump 0 .event, .task (), .pump 0 .publish,
      .pump 0 .publish, .pump 0 .publish, .pump 0 (.go true), .pump 0 (.go true), .pump 0 (.go true),
      .task (), .task (), .net .disconnect] ++
    List.replicate 5 (.net (.go true)) ++ List.replicate 3 (.pump 0 (.go true)) ++
    connectActions Unit false

theorem lifecycle_of_orderly_sample :
    Lifecycle ((runs step orderlyActions boot).get (by decide +kernel)) :=
  lifecycle_of_orderly orderlyActions _ (by decide +kernel) (Option.some_get _).symm

/-- The SDK is deinitialised while the pump is in its process loop. -/
def restartActions : List (Action Unit) :=
  connectActions Unit true ++
    [.pump 0 (.go true), .pump 0 (.go true), .net .disconnect, .net (.go true), .net (.go true)]

/-- Then the net thread disconnects on the same context. -/
theorem disconnect_during_process_loop :
    ¬ ∀ (actions : List (Action Unit)) (c : Cfg Unit),
      runs step actions boot = some c → Lifecycle c := by
  intro h
  have hobs : (runs step restartActions (boot : Cfg Unit)).map (fun c => (c.net, c.pumps)) =
      some (.mqttDisconnect, [.inLoop]) := by decide +kernel
  obtain ⟨c, hrun, hc⟩ := Option.map_eq_some_iff.mp hobs
  obtain ⟨hnet, hpumps⟩ := Prod.mk.inj hc
  have hdisconnect : c.inCall .net := by
    show c.net.inCall = true
    rw [hnet]
    rfl
  have hpump : c.inCall (.pump 0) := ⟨.inLoop, by rw [hpumps]; rfl, rfl⟩
  exact absurd ((h restartActions c hrun).oneCall _ _ hdisconnect hpump) (by decide)

end IotcRa8p1.Mqtt
