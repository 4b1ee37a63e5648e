import IotcRa8p1.Lib.Machine
import IotcRa8p1.Lib.RecMutex
import Mathlib.Logic.Function.Basic

/-!
# The MQTT client and its tasks (`iotc_mqtt_client.c`)

The net thread connects, disconnects (`iotconnect_sdk_deinit` is a disconnect and frees the SDK's own
strings) and publishes telemetry; every successful connect creates a pump task; any other task may
publish.  They share `s_connected`, `s_stop`, the recursive API mutex and the one TLS session and
`MQTTContext_t`.

Each task is a program counter; a pc named after a call stands inside that call.  An action names the
task that moves and what coreMQTT, mbedTLS or the kernel answers.  `τ` is the type of the other
tasks.  The ghosts are the log of what happened to `s_net` and whether a disconnect was the last thing
asked for.  `s_pump_task` is written and never read, the status callback is null in this application;
both are left out.
-/

namespace IotcRa8p1.Mqtt

open Machine RecMutex

/-- `iotc_mqtt_client_publish` behind its test of `s_connected`. -/
inductive PubPc where
  | ready
  | inPublish
  deriving DecidableEq, Repr

/-- The net thread: `iotc_mqtt_client_connect` from `clear` to `create`, then
`iotc_mqtt_client_disconnect`.  `tlsAbort` is the teardown on the error paths of connect. -/
inductive NetPc where
  | idle
  | publish (p : PubPc)
  | clear
  | tlsConnect
  | init
  | initQos
  | mqttConnect
  | tlsAbort
  | subscribe
  | resume
  | setConnected
  | create
  | stop
  | test
  | mqttDisconnect
  | tlsDisconnect
  | clearConnected
  deriving DecidableEq, Repr

/-- `prv_pump`; `callback` is `prv_event_cb` inside `MQTT_ProcessLoop`, with the publish of a command
handler in it. -/
inductive PumpPc where
  | loop
  | take
  | inLoop
  | callback (p : Option PubPc)
  | give (ok : Bool)
  | failed
  | delay
  | exit
  | dead
  deriving DecidableEq, Repr

inductive Tid (τ : Type*) where
  | net
  | pump (i : ℕ)
  | task (t : τ)
  deriving DecidableEq, Repr

/-- What happens to `s_net` and `s_tls_params`. -/
inductive TlsEvent where
  | cleared
  | connected
  | disconnected
  deriving DecidableEq, Repr

/-- `pumps` holds every pump task ever created, `tls` the latest event first. -/
structure Cfg (τ : Type*) where
  connected : Bool
  stop : Bool
  sub : Bool
  net : NetPc
  pumps : List PumpPc
  tasks : τ → Option PubPc
  mutex : RecMutex (Tid τ)
  tls : List TlsEvent
  quiet : Bool

/-- `sub` is `cfg->sub_c2d != NULL`; `go ok` goes on, with the answer of the call where there is one. -/
inductive NetAct where
  | connect (sub : Bool)
  | disconnect
  | publish
  | go (ok : Bool)
  deriving DecidableEq, Repr

/-- `event` is an inbound packet in `MQTT_ProcessLoop`, `publish` a step of its handler's publish. -/
inductive PumpAct where
  | go (ok : Bool)
  | event
  | publish
  deriving DecidableEq, Repr

inductive Action (τ : Type*) where
  | net (a : NetAct)
  | pump (i : ℕ) (a : PumpAct)
  | task (t : τ)
  deriving DecidableEq, Repr

section

variable {α : Type*} [DecidableEq α]

/-- One step of a publish by `x`, of a topic and a payload that are not null: the test of
`s_connected`, the take, the return. -/
def pubStep (connected : Bool) (x : α) (m : RecMutex α) :
    Option PubPc → Option (Option PubPc × RecMutex α)
  | none => some (if connected then some .ready else none, m)
  | some .ready => (m.take x).map fun m => (some .inPublish, m)
  | some .inPublish => some (none, m.give x)

end

variable {τ : Type*}

def Cfg.setPump (c : Cfg τ) (i : ℕ) (p : PumpPc) : Cfg τ := { c with pumps := c.pumps.set i p }

/-- One step of `iotc_mqtt_client_connect` or `iotc_mqtt_client_disconnect`. -/
def netGo (c : Cfg τ) (ok : Bool) : Option (Cfg τ) :=
  match c.net with
  | .clear => some { c with tls := .cleared :: c.tls, net := .tlsConnect }
  | .tlsConnect =>
    if ok then some { c with tls := .connected :: c.tls, net := .init }
    else some { c with net := .idle }
  | .init => some { c with net := if ok then .initQos else .tlsAbort }
  | .initQos => some { c with net := if ok then .mqttConnect else .tlsAbort }
  | .mqttConnect =>
    some { c with net := if ok then (if c.sub then .subscribe else .resume) else .tlsAbort }
  | .tlsAbort => some { c with tls := .disconnected :: c.tls, net := .idle }
  | .subscribe => some { c with net := .resume } -- a failed subscribe is only logged
  | .resume => some { c with stop := false, net := .setConnected }
  | .setConnected => some { c with connected := true, net := .create }
  | .create =>
    if ok then some { c with pumps := c.pumps ++ [.loop], net := .idle }
    else some { c with net := .stop }
  | .stop => some { c with stop := true, net := .test }
  | .test =>
    if c.connected then some { c with net := .mqttDisconnect }
    else some { c with net := .idle, quiet := true }
  | .mqttDisconnect => some { c with net := .tlsDisconnect }
  | .tlsDisconnect => some { c with tls := .disconnected :: c.tls, net := .clearConnected }
  | .clearConnected => some { c with connected := false, net := .idle, quiet := true }
  | .idle => none
  | .publish _ => none

/-- The local state of the net thread's own publish, between its calls. -/
def NetPc.pub : NetPc → Option (Option PubPc)
  | .idle => some none
  | .publish p => some (some p)
  | _ => none

def NetPc.ofPub : Option PubPc → NetPc
  | none => .idle
  | some p => .publish p

section

variable [DecidableEq τ]

def netStep (c : Cfg τ) : NetAct → Option (Cfg τ)
  | .connect sub =>
    if c.net = .idle then
      if c.connected then some { c with quiet := false }
      else some { c with sub := sub, net := .clear, quiet := false }
    else none
  | .disconnect => if c.net = .idle then some { c with net := .stop } else none
  | .publish =>
    match c.net.pub with
    | none => none
    | some p => (pubStep c.connected .net c.mutex p).map fun r =>
      { c with net := .ofPub r.1, mutex := r.2 }
  | .go ok => netGo c ok

/-- `prv_pump`, by the pc and the action. -/
def pumpGo (c : Cfg τ) (i : ℕ) : PumpPc → PumpAct → Option (Cfg τ)
  | .loop, .go _ => some (c.setPump i (if c.stop then .exit else .take))
  | .take, .go _ => (c.mutex.take (.pump i)).map fun m => { c.setPump i .inLoop with mutex := m }
  | .inLoop, .event => some (c.setPump i (.callback none))
  | .inLoop, .go ok => some (c.setPump i (.give ok))
  | .callback none, .go _ => some (c.setPump i .inLoop)
  | .callback p, .publish => (pubStep c.connected (.pump i) c.mutex p).map fun r =>
    { c.setPump i (.callback r.1) with mutex := r.2 }
  | .give ok, .go _ =>
    some { c.setPump i (if ok then .delay else .failed) with mutex := c.mutex.give (.pump i) }
  | .failed, .go _ => some { c.setPump i .exit with connected := false }
  | .delay, .go _ => some (c.setPump i .loop)
  | .exit, .go _ => some (c.setPump i .dead)
  | _, _ => none

def pumpStep (c : Cfg τ) (i : ℕ) (a : PumpAct) : Option (Cfg τ) :=
  c.pumps[i]?.bind fun p => pumpGo c i p a

/-- A publish by another task. -/
def taskStep (c : Cfg τ) (t : τ) : Option (Cfg τ) :=
  (pubStep c.connected (.task t) c.mutex (c.tasks t)).map fun r =>
    { c with tasks := Function.update c.tasks t r.1, mutex := r.2 }

def step (c : Cfg τ) : Action τ → Option (Cfg τ)
  | .net a => netStep c a
  | .pump i a => pumpStep c i a
  | .task t => taskStep c t

end

/-- After a reset. -/
def boot : Cfg τ where
  connected := false
  stop := false
  sub := false
  net := .idle
  pumps := []
  tasks := fun _ => none
  mutex := .free
  tls := []
  quiet := false

/-- A connect in which every call succeeds, with or without a C2D topic. -/
def connectActions (τ : Type*) (sub : Bool) : List (Action τ) :=
  .net (.connect sub) :: List.replicate (if sub then 9 else 8) (.net (.go true))

/-! ### Who holds the mutex -/

/-- How often a publish at this point holds the mutex. -/
def pubHeld : Option PubPc → ℕ
  | some .inPublish => 1
  | _ => 0

def NetPc.held : NetPc → ℕ
  | .publish p => pubHeld (some p)
  | _ => 0

def PumpPc.held : PumpPc → ℕ
  | .inLoop => 1
  | .callback p => pubHeld p + 1
  | .give _ => 1
  | _ => 0

def Cfg.held (c : Cfg τ) : Tid τ → ℕ
  | .net => c.net.held
  | .pump i => (c.pumps[i]?.map PumpPc.held).getD 0
  | .task t => pubHeld (c.tasks t)

section

variable {α : Type*} [DecidableEq α] {m : RecMutex α} {x : α}

/-- **Publish spec.**  The mutex follows the pc, and a publish begins only when connected. -/
theorem pubStep_spec {connected : Bool} {p : Option PubPc} {r : Option PubPc × RecMutex α}
    (h : pubStep connected x m p = some r) :
    Moves m r.2 x (pubHeld p) (pubHeld r.1) ∧ (p = none → connected = false → r.1 = none) := by
  rcases p with _ | p
  · obtain rfl := Option.some.inj h
    refine ⟨?_, fun _ hc => by simp [hc]⟩
    cases connected <;> exact Moves.same m x 0
  · cases p with
    | ready =>
      obtain ⟨m', hm, rfl⟩ := Option.map_eq_some_iff.mp h
      exact ⟨moves_take hm 0, fun hp => (nomatch hp)⟩
    | inPublish =>
      obtain rfl := Option.some.inj h
      exact ⟨moves_give m x 0, fun hp => (nomatch hp)⟩

end

/-! ### What a pump and a publisher can do -/

/-- Before its test of `s_stop` or past its loop: what a pump that sees `s_stop` does not leave. -/
def PumpPc.outside : PumpPc → Bool
  | .loop => true
  | .delay => true
  | .failed => true
  | .exit => true
  | .dead => true
  | _ => false

section

variable [DecidableEq τ]

/-- A step of pump `i` from `p` to `p'`. -/
structure PumpStep (c c' : Cfg τ) (i : ℕ) (p p' : PumpPc) : Prop where
  pump : c.pumps[i]? = some p
  pumps : c'.pumps = c.pumps.set i p'
  live : p ≠ .dead
  outside : c.stop = true → p.outside = true → p'.outside = true
  connected : c'.connected = c.connected ∨ p = .failed ∧ c'.connected = false
  mutex : Moves c.mutex c'.mutex (.pump i) p.held p'.held
  net : c'.net = c.net
  stop : c'.stop = c.stop
  tasks : c'.tasks = c.tasks
  tls : c'.tls = c.tls
  quiet : c'.quiet = c.quiet

/-- A pump step that only moves the pc. -/
theorem pumpStep_setPump {c : Cfg τ} {i : ℕ} {p p' : PumpPc} (hp : c.pumps[i]? = some p)
    (hlive : p ≠ .dead) (hout : c.stop = true → p.outside = true → p'.outside = true)
    (hheld : p.held = p'.held) : PumpStep c (c.setPump i p') i p p' :=
  ⟨hp, rfl, hlive, hout, Or.inl rfl, hheld ▸ Moves.same _ _ _, rfl, rfl, rfl, rfl, rfl⟩

/-- **Pump spec.** -/
theorem pumpStep_cases {c c' : Cfg τ} {i : ℕ} {a : PumpAct} (h : pumpStep c i a = some c') :
    ∃ p p', PumpStep c c' i p p' := by
  obtain ⟨p, hp, h⟩ := Option.bind_eq_some_iff.mp h
  cases p with
  | loop =>
    cases a <;> simp only [pumpGo, reduceCtorEq] at h
    obtain rfl := Option.some.inj h
    refine ⟨_, _, pumpStep_setPump hp (by decide) (fun hs _ => by simp [hs, PumpPc.outside]) ?_⟩
    cases c.stop <;> rfl
  | take =>
    cases a <;> simp only [pumpGo, reduceCtorEq] at h
    obtain ⟨m, hm, rfl⟩ := Option.map_eq_some_iff.mp h
    exact ⟨_, .inLoop, hp, rfl, by decide, fun _ ho => (nomatch ho), Or.inl rfl, moves_take hm 0,
      rfl, rfl, rfl, rfl, rfl⟩
  | inLoop =>
    cases a <;> simp only [pumpGo, reduceCtorEq] at h <;> obtain rfl := Option.some.inj h <;>
      exact ⟨_, _, pumpStep_setPump hp (by decide) (fun _ ho => (nomatch ho)) rfl⟩
  | callback q =>
    cases a with
    | go ok =>
      cases q <;> simp only [pumpGo, reduceCtorEq] at h
      obtain rfl := Option.some.inj h
      exact ⟨_, _, pumpStep_setPump hp (by decide) (fun _ ho => (nomatch ho)) rfl⟩
    | event => cases q <;> simp only [pumpGo, reduceCtorEq] at h
    | publish =>
      simp only [pumpGo] at h
      obtain ⟨r, hr, rfl⟩ := Option.map_eq_some_iff.mp h
      exact ⟨_, .callback r.1, hp, rfl, by simp, fun _ ho => (nomatch ho), Or.inl rfl,
        (pubStep_spec hr).1.add 1, rfl, rfl, rfl, rfl, rfl⟩
  | give ok =>
    cases a <;> simp only [pumpGo, reduceCtorEq] at h
    obtain rfl := Option.some.inj h
    refine ⟨_, (if ok then .delay else .failed), hp, rfl, by simp, fun _ ho => (nomatch ho),
      Or.inl rfl, ?_, rfl, rfl, rfl, rfl, rfl⟩
    cases ok <;> exact moves_give _ _ 0
  | failed =>
    cases a <;> simp only [pumpGo, reduceCtorEq] at h
    obtain rfl := Option.some.inj h
    exact ⟨_, .exit, hp, rfl, by decide, fun _ _ => rfl, Or.inr ⟨rfl, rfl⟩, Moves.same _ _ _,
      rfl, rfl, rfl, rfl, rfl⟩
  | delay =>
    cases a <;> simp only [pumpGo, reduceCtorEq] at h
    obtain rfl := Option.some.inj h
    exact ⟨_, _, pumpStep_setPump hp (by decide) (fun _ _ => rfl) rfl⟩
  | exit =>
    cases a <;> simp only [pumpGo, reduceCtorEq] at h
    obtain rfl := Option.some.inj h
    exact ⟨_, _, pumpStep_setPump hp (by decide) (fun _ _ => rfl) rfl⟩
  | dead => cases a <;> simp only [pumpGo, reduceCtorEq] at h

/-- A step of another task's publish. -/
structure TaskStep (c c' : Cfg τ) (t : τ) (p : Option PubPc) (m : RecMutex (Tid τ)) : Prop where
  eq : c' = { c with tasks := Function.update c.tasks t p, mutex := m }
  mutex : Moves c.mutex m (.task t) (pubHeld (c.tasks t)) (pubHeld p)
  start : c.tasks t = none → c.connected = false → p = none

theorem taskStep_cases {c c' : Cfg τ} {t : τ} (h : taskStep c t = some c') :
    ∃ p m, TaskStep c c' t p m := by
  obtain ⟨r, hr, rfl⟩ := Option.map_eq_some_iff.mp h
  exact ⟨r.1, r.2, rfl, (pubStep_spec hr).1, (pubStep_spec hr).2⟩

/-- A step of the net thread outside connect and disconnect: it starts one of them, or publishes. -/
theorem netStep_cases {c c' : Cfg τ} {a : NetAct} (h : netStep c a = some c') :
    (∃ ok, a = .go ok ∧ netGo c ok = some c') ∨
    (∃ sub, a = .connect sub ∧ c.net = .idle ∧
      ((c.connected = true ∧ c' = { c with quiet := false }) ∨
        (c.connected = false ∧ c' = { c with sub := sub, net := .clear, quiet := false }))) ∨
    (a = .disconnect ∧ c.net = .idle ∧ c' = { c with net := .stop }) ∨
    (a = .publish ∧ ∃ p p' m, c.net = .ofPub p ∧ c' = { c with net := .ofPub p', mutex := m } ∧
      Moves c.mutex m .net (pubHeld p) (pubHeld p')) := by
  cases a with
  | connect sub =>
    simp only [netStep] at h
    split_ifs at h with hidle hc <;> obtain rfl := Option.some.inj h
    · exact Or.inr (Or.inl ⟨sub, rfl, hidle, Or.inl ⟨hc, rfl⟩⟩)
    · exact Or.inr (Or.inl ⟨sub, rfl, hidle, Or.inr ⟨eq_false_of_ne_true hc, rfl⟩⟩)
  | disconnect =>
    simp only [netStep] at h
    split_ifs at h with hidle
    obtain rfl := Option.some.inj h
    exact Or.inr (Or.inr (Or.inl ⟨rfl, hidle, rfl⟩))
  | publish =>
    cases hn : c.net.pub with
    | none =>
      simp only [netStep, hn] at h
      contradiction
    | some p =>
      simp only [netStep, hn] at h
      obtain ⟨r, hr, rfl⟩ := Option.map_eq_some_iff.mp h
      have hnet : c.net = .ofPub p := by
        cases hc : c.net <;> rw [hc] at hn <;> simp only [NetPc.pub, reduceCtorEq] at hn <;>
          obtain rfl := Option.some.inj hn <;> rfl
      exact Or.inr (Or.inr (Or.inr ⟨rfl, p, r.1, r.2, hnet, rfl, (pubStep_spec hr).1⟩))
  | go ok => exact Or.inl ⟨ok, rfl, h⟩

end

/-! ### Where connect has not announced the session yet -/

/-- Inside connect, before `s_connected = true`. -/
def NetPc.offline : NetPc → Bool
  | .clear => true
  | .tlsConnect => true
  | .init => true
  | .initQos => true
  | .mqttConnect => true
  | .tlsAbort => true
  | .subscribe => true
  | .resume => true
  | .setConnected => true
  | _ => false

end IotcRa8p1.Mqtt
