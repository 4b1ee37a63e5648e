import IotcRa8p1.Mqtt.Client

/-!
# The TLS session and its owner

Who has to tear the session down is recorded in `s_connected` only.  Every exit of connect and of
disconnect keeps that record; the error exit of the pump clears it and leaves the session open, and
the next connect clears `s_tls_params` over it.

`session_balance_of_lateErrors` proves the balance for every interleaving in which no pump takes that
exit while `s_connected` is set, unless a disconnect is already past its test of it.
-/

namespace IotcRa8p1.Mqtt

open Machine

/-- Each session opened on `s_net` is torn down exactly once before the parameters are cleared for the
next one.  The latest event stands first. -/
def SessionBalance (log : List TlsEvent) : Prop :=
  ∀ post mid pre, log = post ++ .cleared :: (mid ++ .connected :: pre) → .cleared ∉ mid →
    mid.count .disconnected = 1

/-- The events since the parameters were last cleared. -/
def since (log : List TlsEvent) : List TlsEvent := log.takeWhile (· ≠ .cleared)

def Opened (log : List TlsEvent) : Prop := since log = [.connected]

def Closed (log : List TlsEvent) : Prop :=
  since log = [] ∨ since log = [.disconnected, .connected]

/-! ### The log grows by one event -/

theorem since_cleared (log : List TlsEvent) : since (.cleared :: log) = [] := by
  simp [since]

theorem since_connected (log : List TlsEvent) :
    since (.connected :: log) = .connected :: since log := by
  simp [since]

theorem since_disconnected (log : List TlsEvent) :
    since (.disconnected :: log) = .disconnected :: since log := by
  simp [since]

/-- Behind a session that was opened since the last clear stand the events since then. -/
theorem since_append {mid pre : List TlsEvent} (hmid : .cleared ∉ mid) :
    since (mid ++ .connected :: pre) = mid ++ .connected :: since pre := by
  rw [since, List.takeWhile_append_of_pos, ← since, since_connected]
  intro e he
  simpa using ne_of_mem_of_not_mem he hmid

/-- Only a clear can break the balance. -/
theorem SessionBalance.cons {log : List TlsEvent} {e : TlsEvent} (h : SessionBalance log)
    (he : e ≠ .cleared) : SessionBalance (e :: log) := by
  intro post mid pre hlog hmid
  cases post with
  | nil => exact absurd (List.cons.inj hlog).1 he
  | cons e' post => exact h post mid pre (List.cons.inj hlog).2 hmid

/-- And it does not over a session that is closed. -/
theorem SessionBalance.clear {log : List TlsEvent} (h : SessionBalance log) (hclosed : Closed log) :
    SessionBalance (.cleared :: log) := by
  intro post mid pre hlog hmid
  cases post with
  | cons e' post => exact h post mid pre (List.cons.inj hlog).2 hmid
  | nil =>
    have hsince : since log = mid ++ .connected :: since pre := by
      rw [(List.cons.inj hlog).2]
      exact since_append hmid
    rcases hclosed with hnil | htwo
    · rw [hnil] at hsince
      exact absurd hsince.symm (List.append_ne_nil_of_right_ne_nil _ (List.cons_ne_nil _ _))
    · rw [htwo] at hsince
      cases mid with
      | nil => exact absurd (List.cons.inj hsince).1 (by decide)
      | cons e mid =>
        obtain ⟨rfl, hrest⟩ := List.cons.inj hsince
        cases mid with
        | nil => rfl
        | cons e' mid =>
          exact absurd (List.cons.inj hrest).2.symm
            (List.append_ne_nil_of_right_ne_nil _ (List.cons_ne_nil _ _))

theorem Opened.disconnected {log : List TlsEvent} (h : Opened log) :
    Closed (.disconnected :: log) := by
  rw [Closed, since_disconnected, show since log = [.connected] from h]
  exact Or.inr rfl

/-! ### The session and the program counters -/

variable {τ : Type*}

/-- What the net thread's place and `s_connected` say about the session. -/
def Cfg.session (c : Cfg τ) : Prop :=
  match c.net with
  | .clear => Closed c.tls
  | .tlsConnect => since c.tls = []
  | .init => Opened c.tls
  | .initQos => Opened c.tls
  | .mqttConnect => Opened c.tls
  | .tlsAbort => Opened c.tls
  | .subscribe => Opened c.tls
  | .resume => Opened c.tls
  | .setConnected => Opened c.tls
  | .mqttDisconnect => Opened c.tls
  | .tlsDisconnect => Opened c.tls
  | .clearConnected => Closed c.tls
  | .idle => if c.connected then Opened c.tls else Closed c.tls
  | .publish _ => if c.connected then Opened c.tls else Closed c.tls
  | .create => if c.connected then Opened c.tls else Closed c.tls
  | .stop => if c.connected then Opened c.tls else Closed c.tls
  | .test => if c.connected then Opened c.tls else Closed c.tls

structure Balanced (c : Cfg τ) : Prop where
  balance : SessionBalance c.tls
  offline : c.net.offline = true → c.connected = false
  session : c.session

/-- Disconnect has seen `s_connected` set. -/
def NetPc.pastTest : NetPc → Bool
  | .mqttDisconnect => true
  | .tlsDisconnect => true
  | .clearConnected => true
  | _ => false

/-- A pump takes its error exit only when `s_connected` is clear already, or a disconnect is past its
test. -/
def LateErrors (c : Cfg τ) : Action τ → Prop
  | .pump i _ => c.pumps[i]? = some .failed → c.connected = true → c.net.pastTest = true
  | _ => True

theorem session_ofPub (c : Cfg τ) (p : Option PubPc) (h : c.net = .ofPub p) :
    c.session ↔ if c.connected then Opened c.tls else Closed c.tls := by
  cases p <;> rw [Cfg.session, h] <;> rfl

theorem boot_balanced : Balanced (boot : Cfg τ) :=
  ⟨fun post _ _ h => absurd h (by cases post <;> simp [boot]), fun h => (nomatch h), Or.inl rfl⟩

/-- **Connect and disconnect**, one call after the other. -/
theorem netGo_balanced {c c' : Cfg τ} {ok : Bool} (hs : Balanced c) (h : netGo c ok = some c') :
    Balanced c' := by
  obtain ⟨hbal, hoff, hsess⟩ := hs
  cases hn : c.net <;> simp only [netGo, hn, reduceCtorEq] at h <;>
    simp only [Cfg.session, hn] at hsess <;> rw [hn] at hoff
  case clear =>
    obtain rfl := Option.some.inj h
    exact ⟨hbal.clear hsess, fun _ => hoff rfl, since_cleared _⟩
  case tlsConnect =>
    cases ok with
    | true =>
      obtain rfl := Option.some.inj h
      refine ⟨hbal.cons (by decide), fun _ => hoff rfl, ?_⟩
      show since (.connected :: c.tls) = [.connected]
      rw [since_connected, hsess]
    | false =>
      obtain rfl := Option.some.inj h
      refine ⟨hbal, fun ho => (nomatch ho), ?_⟩
      show if c.connected then Opened c.tls else Closed c.tls
      rw [hoff rfl]
      exact Or.inl hsess
  case init | initQos =>
    obtain rfl := Option.some.inj h
    cases ok <;> exact ⟨hbal, fun _ => hoff rfl, hsess⟩
  case mqttConnect =>
    obtain rfl := Option.some.inj h
    cases ok
    · exact ⟨hbal, fun _ => hoff rfl, hsess⟩
    · cases c.sub <;> exact ⟨hbal, fun _ => hoff rfl, hsess⟩
  case tlsAbort =>
    obtain rfl := Option.some.inj h
    refine ⟨hbal.cons (by decide), fun ho => (nomatch ho), ?_⟩
    show if c.connected then Opened (.disconnected :: c.tls) else Closed (.disconnected :: c.tls)
    rw [hoff rfl]
    exact hsess.disconnected
  case subscribe | resume =>
    obtain rfl := Option.some.inj h
    exact ⟨hbal, fun _ => hoff rfl, hsess⟩
  case setConnected =>
    obtain rfl := Option.some.inj h
    exact ⟨hbal, fun ho => (nomatch ho), hsess⟩
  case create =>
    cases ok <;> obtain rfl := Option.some.inj h <;>
      exact ⟨hbal, fun ho => (nomatch ho), hsess⟩
  case stop =>
    obtain rfl := Option.some.inj h
    exact ⟨hbal, fun ho => (nomatch ho), hsess⟩
  case test =>
    cases hc : c.connected <;> rw [hc] at h hsess <;> obtain rfl := Option.some.inj h <;>
      exact ⟨hbal, fun ho => (nomatch ho), hsess⟩
  case mqttDisconnect =>
    obtain rfl := Option.some.inj h
    exact ⟨hbal, fun ho => (nomatch ho), hsess⟩
  case tlsDisconnect =>
    obtain rfl := Option.some.inj h
    exact ⟨hbal.cons (by decide), fun ho => (nomatch ho), hsess.disconnected⟩
  case clearConnected =>
    obtain rfl := Option.some.inj h
    exact ⟨hbal, fun ho => (nomatch ho), hsess⟩

variable [DecidableEq τ]

theorem net_balanced {c c' : Cfg τ} {a : NetAct} (hs : Balanced c) (h : netStep c a = some c') :
    Balanced c' := by
  obtain ⟨ok, -, hgo⟩ | ⟨sub, -, hn, ⟨hc, rfl⟩ | ⟨hc, rfl⟩⟩ | ⟨-, hn, rfl⟩ |
    ⟨-, p, p', m, hn, rfl, -⟩ := netStep_cases h
  · exact netGo_balanced hs hgo
  · exact ⟨hs.balance, hs.offline, hs.session⟩
  · -- connect goes on only over a closed session
    refine ⟨hs.balance, fun _ => hc, ?_⟩
    have hsess := (session_ofPub c none hn).mp hs.session
    rw [hc] at hsess
    exact hsess
  · exact ⟨hs.balance, fun ho => (nomatch ho), (session_ofPub c none hn).mp hs.session⟩
  · refine ⟨hs.balance, ?_, (session_ofPub _ p' rfl).mpr ((session_ofPub c p hn).mp hs.session)⟩
    cases p' <;> exact fun ho => nomatch ho

/-- A pump step under the condition. -/
theorem pump_balanced {c c' : Cfg τ} {i : ℕ} {a : PumpAct} (hs : Balanced c)
    (hok : LateErrors c (.pump i a)) (h : pumpStep c i a = some c') : Balanced c' := by
  obtain ⟨p, p', hp⟩ := pumpStep_cases h
  have hsame : c'.connected = c.connected ∨ c.net.pastTest = true ∧ c'.connected = false := by
    rcases hp.connected with hc | ⟨rfl, hc⟩
    · exact Or.inl hc
    · cases hconn : c.connected with
      | false => exact Or.inl hc
      | true => exact Or.inr ⟨hok hp.pump hconn, hc⟩
  refine ⟨hp.tls ▸ hs.balance, ?_, ?_⟩
  · intro ho
    rw [hp.net] at ho
    rcases hp.connected with hc | ⟨-, hc⟩
    · rw [hc, hs.offline ho]
    · exact hc
  · have hsess := hs.session
    rw [Cfg.session, hp.net, hp.tls]
    rcases hsame with hc | ⟨hpast, -⟩
    · rw [hc]
      exact hsess
    · -- past its test, disconnect does not look at `s_connected` again
      rw [Cfg.session] at hsess
      cases hn : c.net <;> rw [hn] at hsess hpast <;> first | exact hsess | exact nomatch hpast

/-- **One step keeps the balance.** -/
theorem step_balanced {c c' : Cfg τ} {a : Action τ} (hs : Balanced c) (hok : LateErrors c a)
    (h : step c a = some c') : Balanced c' := by
  cases a with
  | net a => exact net_balanced hs h
  | pump i a => exact pump_balanced hs hok h
  | task t =>
    obtain ⟨p, m, ht⟩ := taskStep_cases h
    rw [ht.eq]
    exact ⟨hs.balance, hs.offline, hs.session⟩

/-- **Session balance.**  In every interleaving of the net thread, any number of pumps and any other
tasks, with any outcome of every call, in which pump errors come late, each session is torn down
exactly once before the next connect clears its parameters. -/
theorem session_balance_of_lateErrors (actions : List (Action τ)) (c : Cfg τ)
    (hok : Meets step LateErrors actions boot) (hrun : runs step actions boot = some c) :
    SessionBalance c.tls :=
  (runs_invariant step_balanced boot_balanced hok hrun).balance

/-! ### Both sides on runs -/

instance : (c : Cfg τ) → (a : Action τ) → Decidable (LateErrors c a)
  | c, .pump i _ => inferInstanceAs
    (Decidable (c.pumps[i]? = some .failed → c.connected = true → c.net.pastTest = true))
  | _, .net _ => .isTrue trivial
  | _, .task _ => .isTrue trivial

/-- The pump reaches `MQTT_ProcessLoop`, which reports an error. -/
def pumpErrorActions (τ : Type*) (i : ℕ) : List (Action τ) :=
  [.pump i (.go true), .pump i (.go true), .pump i (.go false), .pump i (.go false)]

/-- The error comes while the net thread disconnects; then a new connect. -/
def lateErrorActions : List (Action Empty) :=
  connectActions Empty true ++ [.pump 0 (.go true), .pump 0 (.go true), .net .disconnect] ++
    List.replicate 4 (.net (.go true)) ++
    [.pump 0 (.go false), .pump 0 (.go false), .pump 0 (.go false), .net (.go true)] ++
    connectActions Empty false

theorem session_balance_of_lateErrors_sample :
    SessionBalance ((runs step lateErrorActions boot).get (by decide +kernel)).tls :=
  session_balance_of_lateErrors lateErrorActions _ (by decide +kernel) (Option.some_get _).symm

/-- The error comes while `s_connected` is set; then the SDK is deinitialised and connects again. -/
def earlyErrorActions : List (Action Empty) :=
  connectActions Empty true ++ pumpErrorActions Empty 0 ++ [.pump 0 (.go false), .net .disconnect] ++
    List.replicate 2 (.net (.go true)) ++ [.net (.connect true), .net (.go true)]

/-- The first session is never torn down. -/
theorem session_leaks_on_pump_error :
    ¬ ∀ (actions : List (Action Empty)) (c : Cfg Empty),
      runs step actions boot = some c → SessionBalance c.tls := by
  intro h
  have hobs : (runs step earlyErrorActions (boot : Cfg Empty)).map Cfg.tls =
      some [.cleared, .connected, .cleared] := by decide +kernel
  obtain ⟨c, hrun, hc⟩ := Option.map_eq_some_iff.mp hobs
  have hcount := h earlyErrorActions c hrun [] [] [.cleared] hc List.not_mem_nil
  exact absurd hcount (by decide)

end IotcRa8p1.Mqtt
