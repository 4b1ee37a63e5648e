import IotcRa8p1.Mqtt.Client
import Mathlib.Data.Int.Notation

/-!
# The configuration behind `s_cfg` (`iotc_mqtt_client.c`, `iotconnect.c`)

`iotconnect_sdk_connect` builds the `iotc_mqtt_config_t` in a local and passes its address to
`iotc_mqtt_client_connect`, which keeps it in `s_cfg`.  A publish reads `s_cfg->qos` between its test of
`s_connected` and the take of the mutex.

A call of `iotconnect_sdk_connect` stands for the local it owns: the object is live until the call returns,
and what a read through the pointer gives behind that is the choice of the action.
-/

namespace IotcRa8p1.Mqtt

open Machine RecMutex

/-- `MQTTQoS_t`, what of it a publish uses. -/
inductive Qos where
  | qos0
  | qos1
  deriving DecidableEq, Repr

def Qos.value : Qos → ℤ
  | .qos0 => 0
  | .qos1 => 1

/-- `(s_cfg && s_cfg->qos == 0) ? MQTTQoS0 : MQTTQoS1` -/
def pubQos (cfgQos : Option ℤ) : Qos := if cfgQos = some 0 then .qos0 else .qos1

/-- `pub.qos` of a publish behind its read, and which connection was open there. -/
structure Pub where
  qos : Qos
  connection : Option ℕ
  deriving DecidableEq, Repr

/-- `calls` holds `cfg.qos` of every call of `iotconnect_sdk_connect` so far, the rest names calls by their
index. -/
structure Conf (τ : Type*) where
  base : Cfg τ
  calls : List ℤ
  /-- `s_cfg` -/
  sCfg : Option ℕ
  /-- the call that has not returned -/
  live : Option ℕ
  /-- the call that opened the connection -/
  opened : Option ℕ
  pub : Tid τ → Option Pub

def confBoot (τ : Type*) : Conf τ := ⟨boot, [], none, none, none, fun _ => none⟩

variable {τ : Type*}

/-- `cfg.qos` of the call that opened the connection. -/
def Conf.configured (c : Conf τ) : Option ℤ := c.opened.bind fun call => c.calls[call]?

/-- What a read of `s_cfg->qos` gives. -/
def Conf.readQos (c : Conf τ) (stale : ℤ) : Option ℤ :=
  c.sCfg.map fun call => if c.live = some call then c.calls.getD call stale else stale

/-- Where the publish of a task stands. -/
def Cfg.pubPc (c : Cfg τ) : Tid τ → Option PubPc
  | .net => c.net.pub.join
  | .pump i =>
    match c.pumps[i]? with
    | some (.callback p) => p
    | _ => none
  | .task t => c.tasks t

/-- Whose publish moves. -/
def Action.mover : Action τ → Option (Tid τ)
  | .net .publish => some .net
  | .pump i .publish => some (.pump i)
  | .task t => some (.task t)
  | _ => none

inductive ConfAction (τ : Type*) where
  /-- `iotconnect_sdk_connect` up to the test of `s_connected` -/
  | connect (sub : Bool) (qos : ℤ)
  /-- it returns, with the session open or closed again -/
  | ret
  | read (x : Tid τ) (stale : ℤ)
  | base (a : Action τ)
  deriving DecidableEq, Repr

/-- The net thread is on its way out of `iotconnect_sdk_connect`. -/
def Conf.returning (c : Conf τ) : Bool := c.live.isSome && decide (c.base.net = .idle)

/-- The call that opened the connection, behind `s_connected = true`. -/
def Conf.openedBy (c : Conf τ) : Action τ → Option ℕ
  | .net (.go _) => if c.base.net = .setConnected then c.live else c.opened
  | _ => c.opened

/-- An error path of `iotc_mqtt_client_connect` returns at once. -/
def Conf.liveAt (c : Conf τ) (b : Cfg τ) : Option ℕ :=
  if c.base.net.offline = true ∧ b.net = .idle then none else c.live

section

variable [DecidableEq τ]

/-- A publish that has not read `s_cfg` yet does not take the mutex. -/
def Conf.unread (c : Conf τ) (a : Action τ) : Bool :=
  match a.mover with
  | some x => decide (c.base.pubPc x = some .ready) && (c.pub x).isNone
  | none => false

/-- `connect` has an action of its own, and the net thread returns from it before it goes on. -/
def Conf.blocked (c : Conf τ) : Action τ → Bool
  | .net (.connect _) => true
  | .net _ => c.returning
  | _ => false

/-- The locals of the publishes: a publish that returns has none. -/
def Conf.pubAfter (c : Conf τ) (a : Action τ) : Tid τ → Option Pub :=
  match a.mover with
  | some x => if c.base.pubPc x = some .inPublish then Function.update c.pub x none else c.pub
  | none => c.pub

def confStep (c : Conf τ) : ConfAction τ → Option (Conf τ)
  | .connect sub qos =>
    if c.live.isSome = true then none
    else (step c.base (.net (.connect sub))).map fun b =>
      if c.base.connected = true then { c with base := b, calls := c.calls ++ [qos] }
      else
        { c with
          base := b
          calls := c.calls ++ [qos]
          sCfg := some c.calls.length
          live := some c.calls.length }
  | .ret => if c.returning = true then some { c with live := none } else none
  | .read x stale =>
    if c.base.pubPc x = some .ready ∧ c.pub x = none then
      some { c with pub := Function.update c.pub x (some ⟨pubQos (c.readQos stale), c.opened⟩) }
    else none
  | .base a =>
    if c.blocked a = true ∨ c.unread a = true then none
    else (step c.base a).map fun b =>
      { c with base := b, live := c.liveAt b, opened := c.openedBy a, pub := c.pubAfter a }

end

/-! ### The property and the condition -/

/-- A read finds the configuration of the open connection, and it is live; a PUBLISH carries the qos of the
connection it goes to. -/
def UsesConfig (c : Conf τ) (a : ConfAction τ) (_ : Conf τ) : Prop :=
  match a with
  | .read _ _ => c.sCfg.isSome = true ∧ c.live = c.sCfg ∧ c.opened = c.sCfg
  | .base a => ∀ x ∈ a.mover, c.base.pubPc x = some .ready →
      c.configured.isSome = true ∧ (c.pub x).map (fun p => p.qos.value) = c.configured
  | _ => True

/-- A read comes behind `s_connected = true` and before `iotconnect_sdk_connect` returns; a PUBLISH goes to
the connection that was open at its read; the configured qos is one that a publish has. -/
def Direct (c : Conf τ) (a : ConfAction τ) : Prop :=
  match a with
  | .connect _ qos => qos = 0 ∨ qos = 1
  | .ret => True
  | .read _ _ => c.live.isSome = true ∧ c.base.net.offline = false
  | .base a => ∀ x ∈ a.mover, c.base.pubPc x = some .ready →
      (c.pub x).map Pub.connection = some c.opened

instance decidableUsesConfig (c : Conf τ) (a : ConfAction τ) (c' : Conf τ) :
    Decidable (UsesConfig c a c') :=
  match a with
  | .connect _ _ => .isTrue trivial
  | .ret => .isTrue trivial
  | .read _ _ => inferInstanceAs (Decidable (_ ∧ _))
  | .base a => inferInstanceAs (Decidable (∀ x ∈ a.mover, _ → _))

instance decidableDirect (c : Conf τ) (a : ConfAction τ) : Decidable (Direct c a) :=
  match a with
  | .connect _ _ => inferInstanceAs (Decidable (_ ∨ _))
  | .ret => .isTrue trivial
  | .read _ _ => inferInstanceAs (Decidable (_ ∧ _))
  | .base a => inferInstanceAs (Decidable (∀ x ∈ a.mover, _ → _))

/-! ### The invariant -/

/-- While the call that owns it has not returned, `s_cfg` points to its configuration, and behind
`s_connected = true` that call has opened the connection. -/
structure ConfInv (c : Conf τ) : Prop where
  cfg : ∀ call, c.live = some call → c.sCfg = some call ∧ call < c.calls.length ∧
    (c.base.net.offline = false → c.opened = some call)
  qos : ∀ qos ∈ c.calls, qos = 0 ∨ qos = 1
  pub : ∀ x p, c.pub x = some p → ∃ call qos, p.connection = some call ∧
    c.calls[call]? = some qos ∧ p.qos.value = qos

theorem confInv_boot : ConfInv (confBoot τ) where
  cfg _ h := by simp [confBoot] at h
  qos _ h := by simp [confBoot] at h
  pub _ _ h := by simp [confBoot] at h

theorem pubQos_value {qos : ℤ} (h : qos = 0 ∨ qos = 1) : (pubQos (some qos)).value = qos := by
  obtain rfl | rfl := h <;> rfl

/-- A read under the condition. -/
theorem ConfInv.read {c : Conf τ} (h : ConfInv c) (hlive : c.live.isSome = true)
    (honline : c.base.net.offline = false) (stale : ℤ) :
    ∃ call qos, c.live = some call ∧ c.sCfg = some call ∧ c.opened = some call ∧
      c.calls[call]? = some qos ∧ (pubQos (c.readQos stale)).value = qos := by
  obtain ⟨call, hcall⟩ := Option.isSome_iff_exists.mp hlive
  obtain ⟨hcfg, hlt, hopened⟩ := h.cfg call hcall
  have hget : c.calls[call]? = some c.calls[call] := List.getElem?_eq_getElem hlt
  refine ⟨call, c.calls[call], hcall, hcfg, hopened honline, hget, ?_⟩
  rw [Conf.readQos, hcfg, Option.map_some, if_pos hcall, List.getD_eq_getElem?_getD, hget,
    Option.getD_some]
  exact pubQos_value (h.qos _ (List.getElem_mem hlt))

/-- Another call leaves the configurations of the earlier ones alone. -/
theorem getElem?_calls {calls : List ℤ} {call : ℕ} {qos : ℤ} (h : calls[call]? = some qos) (q : ℤ) :
    (calls ++ [q])[call]? = some qos := by
  rw [List.getElem?_append_left (List.getElem?_eq_some_iff.mp h).1]
  exact h

/-- Connect gets past `s_connected = true`, or returns with an error. -/
theorem netGo_online {c b : Cfg τ} {ok : Bool} (h : netGo c ok = some b) (hoff : c.net.offline = true)
    (hon : b.net.offline = false) : b.net = .idle ∨ c.net = .setConnected := by
  cases hpc : c.net with
  | setConnected => exact Or.inr rfl
  | clear | resume =>
    simp only [netGo, hpc] at h
    obtain rfl := Option.some.inj h
    contradiction
  | tlsConnect =>
    cases ok <;> simp only [netGo, hpc] at h <;> obtain rfl := Option.some.inj h
    · exact Or.inl rfl
    · contradiction
  | init | initQos =>
    cases ok <;> simp only [netGo, hpc] at h <;> obtain rfl := Option.some.inj h <;> contradiction
  | mqttConnect =>
    cases ok <;> cases hsub : c.sub <;> simp only [netGo, hpc, hsub] at h <;>
      obtain rfl := Option.some.inj h <;> contradiction
  | tlsAbort =>
    simp only [netGo, hpc] at h
    obtain rfl := Option.some.inj h
    exact Or.inl rfl
  | subscribe =>
    simp only [netGo, hpc] at h
    obtain rfl := Option.some.inj h
    contradiction
  | _ =>
    rw [hpc] at hoff
    contradiction

theorem openedBy_of_online {c : Conf τ} (h : c.base.net.offline = false) (a : Action τ) :
    c.openedBy a = c.opened := by
  have hne : c.base.net ≠ .setConnected := by
    intro heq
    rw [heq] at h
    contradiction
  cases a with
  | net a =>
    cases a with
    | go ok => rw [Conf.openedBy, if_neg hne]
    | _ => rfl
  | _ => rfl

section

variable [DecidableEq τ]

theorem step_online {c b : Cfg τ} {a : Action τ} (h : step c a = some b) (hoff : c.net.offline = true)
    (hon : b.net.offline = false) :
    b.net = .idle ∨ c.net = .setConnected ∧ ∃ ok, a = .net (.go ok) := by
  have hsame {b : Cfg τ} (hnet : b.net = c.net) (hon : b.net.offline = false) : False := by
    rw [hnet, hoff] at hon
    contradiction
  cases a with
  | net a =>
    obtain ⟨ok, rfl, hgo⟩ | ⟨sub, -, hidle, -⟩ | ⟨-, hidle, -⟩ | ⟨-, p, p', m, hp, -⟩ := netStep_cases h
    · obtain hb | hc := netGo_online hgo hoff hon
      · exact Or.inl hb
      · exact Or.inr ⟨hc, ok, rfl⟩
    · rw [hidle] at hoff
      contradiction
    · rw [hidle] at hoff
      contradiction
    · rw [hp] at hoff
      cases p <;> contradiction
  | pump i a =>
    obtain ⟨p, p', hpump⟩ := pumpStep_cases h
    exact (hsame hpump.net hon).elim
  | task t =>
    obtain ⟨p, m, htask⟩ := taskStep_cases h
    exact (hsame (by rw [htask.eq]) hon).elim

/-- A publish keeps what it has read until it returns. -/
theorem pubAfter_some {c : Conf τ} {a : Action τ} {x : Tid τ} {p : Pub}
    (h : c.pubAfter a x = some p) : c.pub x = some p := by
  rw [Conf.pubAfter] at h
  cases hmover : a.mover with
  | none => simpa only [hmover] using h
  | some y =>
    simp only [hmover] at h
    split_ifs at h with hin
    · by_cases hxy : x = y
      · rw [hxy, Function.update_self] at h
        contradiction
      · rwa [Function.update_of_ne hxy] at h
    · exact h

/-- Connect goes on behind its test of `s_connected`. -/
theorem step_connect {c b : Cfg τ} {sub : Bool} (h : step c (.net (.connect sub)) = some b)
    (hnot : ¬ c.connected = true) : b.net = .clear := by
  simp only [step, netStep] at h
  split_ifs at h
  obtain rfl := Option.some.inj h
  rfl

/-- An instruction of the client. -/
theorem confInv_base {c : Conf τ} {b : Cfg τ} {a : Action τ} (h : ConfInv c)
    (hstep : step c.base a = some b) :
    ConfInv { c with base := b, live := c.liveAt b, opened := c.openedBy a, pub := c.pubAfter a } := by
  constructor
  · intro call hcall
    dsimp only [Conf.liveAt] at hcall ⊢
    split_ifs at hcall with hret
    obtain ⟨hcfg, hlt, hopened⟩ := h.cfg call hcall
    refine ⟨hcfg, hlt, fun hon => ?_⟩
    cases hoff : c.base.net.offline with
    | false => exact (openedBy_of_online hoff a).trans (hopened hoff)
    | true =>
      obtain hidle | ⟨hset, ok, rfl⟩ := step_online hstep hoff hon
      · exact absurd ⟨hoff, hidle⟩ hret
      · exact (if_pos hset).trans hcall
  · exact h.qos
  · exact fun x p hp => h.pub x p (pubAfter_some hp)

/-- **Step lemma.** -/
theorem confInv_step {c c' : Conf τ} {a : ConfAction τ} (h : ConfInv c) (hok : Direct c a)
    (hstep : confStep c a = some c') : ConfInv c' := by
  cases a with
  | connect sub qos =>
    have hqos : ∀ q ∈ c.calls ++ [qos], q = 0 ∨ q = 1 := by
      intro q hq
      obtain hq | hq := List.mem_append.mp hq
      · exact h.qos q hq
      · exact List.mem_singleton.mp hq ▸ hok
    have hpub : ∀ x p, c.pub x = some p → ∃ call q, p.connection = some call ∧
        (c.calls ++ [qos])[call]? = some q ∧ p.qos.value = q := by
      intro x p hp
      obtain ⟨call, q, hconn, hget, hvalue⟩ := h.pub x p hp
      exact ⟨call, q, hconn, getElem?_calls hget qos, hvalue⟩
    rw [confStep] at hstep
    split_ifs at hstep with hlive hconnected
    · obtain ⟨b, hb, rfl⟩ := Option.map_eq_some_iff.mp hstep
      exact ⟨fun call hcall => absurd (Option.isSome_of_mem hcall) hlive, hqos, hpub⟩
    · obtain ⟨b, hb, rfl⟩ := Option.map_eq_some_iff.mp hstep
      refine ⟨fun call hcall => ?_, hqos, hpub⟩
      obtain rfl := Option.some.inj hcall
      refine ⟨rfl, by simp, fun hon => ?_⟩
      have hclear : b.net = .clear := step_connect hb hconnected
      rw [hclear] at hon
      contradiction
  | ret =>
    rw [confStep] at hstep
    split_ifs at hstep
    obtain rfl := Option.some.inj hstep
    exact ⟨fun call hcall => by simp at hcall, h.qos, h.pub⟩
  | read x stale =>
    rw [confStep] at hstep
    split_ifs at hstep with hready
    obtain rfl := Option.some.inj hstep
    obtain ⟨call, qos, -, -, hopened, hget, hvalue⟩ := h.read hok.1 hok.2 stale
    refine ⟨h.cfg, h.qos, fun y p hp => ?_⟩
    dsimp only at hp ⊢
    by_cases hxy : y = x
    · rw [hxy, Function.update_self] at hp
      obtain rfl := Option.some.inj hp
      exact ⟨call, qos, hopened, hget, hvalue⟩
    · rw [Function.update_of_ne hxy] at hp
      exact h.pub y p hp
  | base a =>
    rw [confStep] at hstep
    split_ifs at hstep
    obtain ⟨b, hb, rfl⟩ := Option.map_eq_some_iff.mp hstep
    exact confInv_base h hb

/-! ### Every run -/

/-- **Publishes use the configured qos.**  In every run in which each publish reads `s_cfg` before the
`iotconnect_sdk_connect` that opened the connection returns, and goes to that connection. -/
theorem publishes_useConfig (as : List (ConfAction τ)) (h : Meets confStep Direct as (confBoot τ)) :
    AllSteps confStep UsesConfig as (confBoot τ) := by
  refine allSteps_of_invariant (I := ConfInv) confInv_step ?_ confInv_boot h
  intro c a c' hinv hok hstep
  cases a with
  | connect sub qos => trivial
  | ret => trivial
  | read x stale =>
    obtain ⟨call, qos, hlive, hcfg, hopened, -, -⟩ := hinv.read hok.1 hok.2 stale
    exact ⟨by rw [hcfg]; rfl, hlive.trans hcfg.symm, hopened.trans hcfg.symm⟩
  | base a =>
    intro x hx hready
    obtain ⟨p, hp, hconn⟩ := Option.map_eq_some_iff.mp (hok x hx hready)
    obtain ⟨call, qos, hcall, hget, hvalue⟩ := hinv.pub x p hp
    have hconfigured : c.configured = some qos := by
      rw [Conf.configured, ← hconn, hcall]
      exact hget
    rw [hconfigured, hp]
    exact ⟨rfl, congrArg some hvalue⟩

end

/-- A connect with a qos up to `s_connected = true`. -/
def connectRun (qos : ℤ) : List (ConfAction Unit) :=
  .connect false qos :: List.replicate 7 (.base (.net (.go true)))

/-- A publish of a task, read before the connect returns. -/
theorem publishes_useConfig_inside :
    AllSteps confStep UsesConfig (connectRun 0 ++ [.base (.task ()), .read (.task ()) 1,
      .base (.task ()), .base (.task ()), .base (.net (.go true)), .ret]) (confBoot Unit) :=
  publishes_useConfig _ (by decide +kernel)

/-- One behind its return reads what is there now. -/
theorem publish_readsStale :
    ¬ ∀ as : List (ConfAction Unit), AllSteps confStep UsesConfig as (confBoot Unit) := by
  intro h
  have hrun := h (connectRun 0 ++ [.base (.net (.go true)), .ret, .base (.task ()),
    .read (.task ()) 1, .base (.task ())])
  exact absurd hrun (by decide +kernel)

end IotcRa8p1.Mqtt
