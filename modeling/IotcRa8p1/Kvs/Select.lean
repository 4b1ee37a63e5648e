import IotcRa8p1.Kvs.Interest
import IotcRa8p1.Lib.Machine

/-!
# One task's `select` and the other task

Both loops of `select` visit every slot in use below their bound, the other task's slots too, and clear what
they did not ask for.  `Ok` says when that does no harm, and `select_isolated` that it then does none;
`select_clears_interest` is the run in which one `select` clears what the other task waits for.
-/

namespace IotcRa8p1.Kvs.Shim

open Machine

/-! ### Isolation -/

/-- The slot whose handle the next FreeRTOS call is on. -/
def Pc.callOn : Pc → Option ℕ
  | .clrAll i _ => some i
  | .closesocket i => some i
  | .io i _ => some i
  | .select _ (.setOrClr i) => some i
  | .select _ (.isSet i) => some i
  | .select _ (.clr i) => some i
  | _ => none

/-- What a step has to do with the other task: a `select` leaves the interest alone that the other task
registered, calls are made on open sockets, and a `select` returns the requested fds that were ready when
its wait ended. -/
structure Isolated (s : State) (a : Action) (s' : State) : Prop where
  interest : ∀ t f p k set u, a = .run t → (s.task t).pc = .select f p →
    (s.socks k).socketSet = some set → s.selectSets[set]? = some u → u ≠ t →
      (s'.socks k).socketSet = some set ∧ (s'.socks k).selectBits = (s.socks k).selectBits
  calls : ∀ t i, a = .run t → (s.task t).pc.callOn = some i →
    ∃ k, (s.slots i).sock = some k ∧ s.IsOpen k
  returns : ∀ t f i, a = .run t → (s.task t).pc = .select f (.checkOut i) → f.req.upper ≤ i →
    f.out = f.wanted ∧ f.nready = ((List.range f.req.upper).map fun j => (f.out j).count).sum

/-- The socket of the slot is up, whoever uses it. -/
def State.isUp (s : State) (t : TaskId) (i : ℕ) : Prop :=
  (s.task t).stage i = .up ∨ (s.task t.other).stage i = .up

instance (s : State) (t : TaskId) (i : ℕ) : Decidable (s.isUp t i) :=
  inferInstanceAs (Decidable (_ ∨ _))

/-- The locals of a `select` that has still to look at the slot after its wait. -/
def Pc.unread : Pc → ℕ → Option Frame
  | .select f (.checkOut j), i => if j ≤ i then some f else none
  | .select f (.isSet j), i => if j ≤ i then some f else none
  | .select f (.clr j), i => if j < i then some f else none
  | _, _ => none

/-- An event of the stack comes between the end of the wait of a task and its look at the socket. -/
def Late (s : State) (k : ℕ) (ev : Bits) (t : TaskId) : Prop :=
  ∃ i < maxSockets, (s.slots i).sock = some k ∧
    ∃ f ∈ (s.task t).pc.unread i, (ev.and (f.req.asks i)).clear (f.wanted i) ≠ .none

instance (s : State) (k : ℕ) (ev : Bits) (t : TaskId) : Decidable (Late s k ev t) :=
  inferInstanceAs (Decidable (∃ i < maxSockets, _ ∧ _))

/-- The slot in whose socket the next FreeRTOS call of a `select` changes the interest. -/
def Pc.changes : Pc → Option ℕ
  | .select _ (.setOrClr i) => some i
  | .select _ (.clr i) => some i
  | _ => none

/-- The slot that loses its handle. -/
def Pc.nulls : Pc → Option ℕ
  | .sockNull i => some i
  | _ => none

/-- A `select` calls FreeRTOS only on sockets that are up, and changes none in which the other task has
registered interest; no `close` stores its NULL over the handle of a new socket; no event is late. -/
def Ok (s : State) : Action → Prop
  | .call _ _ => True
  | .run t =>
    (∀ i ∈ (s.task t).pc.visits, s.isUp t i) ∧
    (∀ i ∈ (s.task t).pc.changes, (s.task t.other).waits i = false) ∧
    ∀ i ∈ (s.task t).pc.nulls, (s.task t.other).stage i ≠ .up
  | .stack k _ ev => (s.socks k).isTcp = true → ¬ Late s k ev .wslay ∧ ¬ Late s k ev .ice

instance (s : State) : (a : Action) → Decidable (Ok s a)
  | .call _ _ => inferInstanceAs (Decidable True)
  | .run _ => inferInstanceAs (Decidable (_ ∧ _ ∧ _))
  | .stack k _ ev =>
    inferInstanceAs (Decidable ((s.socks k).isTcp = true → ¬ Late s k ev .wslay ∧ ¬ Late s k ev .ice))

variable {s s' : State} {t : TaskId}

/-! ### Steps of a `select` -/

variable {f g : Frame} {p q : SelectPc}

/-- A step within a `select`: what it must keep of the other task, and what it must say of its own. -/
theorem Inv.within (h : Inv s) (hother : ∀ {u}, u ≠ t → s'.task u = s.task u)
    (hslots : s'.slots = s.slots) (hsets : s'.selectSets = s.selectSets)
    (hmarks : ∀ {u i k}, u ≠ t → (s.task u).held i = true → (s.slots i).sock = some k →
      (s'.socks k).marks = (s.socks k).marks)
    (htable : Table s')
    (hself : ∀ {f p}, (s'.task t).pc = .select f p → Registered s' t f p ∧ Found s' t f p)
    (hio : ∀ i ready, (s'.task t).pc ≠ .io i ready)
    (hquiet : ∀ {k}, (∀ u, ¬ s'.WaitsOn u k) → (s'.socks k).Quiet) : Inv s' where
  table := htable
  registered {u f p} hpc := by
    by_cases hu : u = t
    · subst hu
      exact (hself hpc).1
    · have hlocal := hother hu
      rw [hlocal] at hpc
      exact (h.registered hpc).frame hlocal (fun hset => by rwa [hsets])
        (fun _ _ hi => by rwa [hslots]) (fun _ _ => by rw [hslots]) fun i k => hmarks hu
  found {u f p} hpc := by
    by_cases hu : u = t
    · subst hu
      exact (hself hpc).2
    · have hlocal := hother hu
      rw [hlocal] at hpc
      exact (h.found hpc).frame hlocal (fun _ _ => by rw [hslots]) fun i k => hmarks hu
  io {u i ready} hpc := by
    by_cases hu : u = t
    · subst hu
      exact absurd hpc (hio i ready)
    · rw [hother hu] at hpc ⊢
      exact h.io hpc
  quiet := hquiet

/-- A step of a `select` that changes only its own locals. -/
theorem Inv.move (h : Inv s) (hpc : (s.task t).pc = .select f p) (hreq : g.req = f.req)
    (hsel : g.sel = f.sel)
    (hwaits : ∀ i, (s.task t).held i = true → (Pc.select g q).waits i = (s.task t).pc.waits i)
    (hvisits : ∀ {i}, (Pc.select g q).visits = some i →
      i < f.req.upper ∧ (f.req.names i = true → (s.task t).held i = true))
    (hfound : Found s t g q) : Inv (s.goto t (.select g q)) := by
  have hreg := h.registered hpc
  refine h.within (goto_ne _ _ _) rfl rfl (fun _ _ _ => rfl) (h.table.goto (by rw [hpc]; rfl))
    (fun {f₁ p₁} hp => ?_) (by simp) fun {k} hk =>
      h.quiet_of_moved (goto_ne _ _ _) rfl hk fun {i} _ hi => ?_
  · rw [goto_self] at hp
    obtain ⟨rfl, rfl⟩ := Pc.select.inj hp
    refine ⟨⟨hsel ▸ hreg.set, fun {i} hi hheld => ?_, fun {i} hi => ?_, fun {i k} hheld hi hk => ?_⟩, ?_⟩
    · rw [goto_held] at hheld
      exact hreg.stale (hreq ▸ hi) hheld
    · rw [goto_held, hreq]
      exact hvisits hi
    · rw [goto_held] at hheld
      rw [hwaits i hheld, hpc] at hi
      rw [hreq, hsel]
      exact hreg.marks hheld hi hk
    · refine ⟨hfound.before, hfound.upper, hfound.out, hfound.nready,
        fun {n i k} hn hi hheld hk => ?_, fun {n i} hn hi => ?_⟩
      · rw [goto_held] at hheld
        exact hfound.unread hn hi hheld hk
      · rw [goto_held] at hi
        exact hfound.unasked hn hi
  · have hheld := held_of_waits hi
    rw [Local.waits, hheld] at hi
    rw [goto_self, Local.waits, hheld, hwaits i hheld]
    exact hi

theorem Found.of_before (h : Found s t f p) (hp : p.looked = none) (hq : q.looked = none) :
    Found s t f q := found_of_before hq (h.before hp)

theorem Found.of_looked (h : Found s t f p) (hq : q.looked = p.looked) : Found s t f q :=
  ⟨hq ▸ h.before, hq ▸ h.upper, hq ▸ h.out, hq ▸ h.nready, hq ▸ h.unread, hq ▸ h.unasked⟩

/-- A `select` looks at one more slot. -/
theorem Found.next (h : Found s t f p) {i : ℕ} (hp : p.looked = some i) (hq : q.looked = some (i + 1))
    (hi : i < f.req.upper) (hout : g.out = Function.update f.out i (f.wanted i)) (hreq : g.req = f.req)
    (hwanted : g.wanted = f.wanted) (hnready : g.nready = f.nready + (f.wanted i).count) :
    Found s t g q := by
  have hup {n : ℕ} (hn : q.looked = some n) : n = i + 1 := Option.some.inj (hn.symm.trans hq)
  have hold (j : ℕ) (hj : j < i) : g.out j = f.out j := by
    rw [hout, Function.update_of_ne (Nat.ne_of_lt hj)]
  have hnew : g.out i = f.wanted i := by rw [hout, Function.update_self]
  refine ⟨fun hn => ?_, fun {n} hn => ?_, fun {n} hn j => ?_, fun {n} hn => ?_,
    fun {n j k} hn hj hheld hk => ?_, fun {n j} hn hj => ?_⟩
  · rw [hq] at hn
    exact nomatch hn
  · rw [hup hn, hreq]
    exact hi
  · rw [hup hn, hwanted]
    by_cases hji : j = i
    · subst hji
      rw [hnew, if_pos (Nat.lt_succ_self _)]
    · rw [hout, Function.update_of_ne hji, h.out hp j]
      split_ifs with h₁ h₂ h₂ <;> first | rfl | omega
  · rw [hup hn, hnready, h.nready hp, List.range_succ, List.map_append, List.sum_append]
    have hsame : (List.range i).map (fun j => (g.out j).count) =
        (List.range i).map fun j => (f.out j).count := by
      refine List.map_congr_left fun j hj => ?_
      rw [hold j (List.mem_range.mp hj)]
    rw [hsame]
    simp [hnew]
  · rw [hup hn] at hj
    rw [hreq, hwanted]
    exact h.unread hp (Nat.le_of_succ_le hj) hheld hk
  · rw [hreq] at hj
    rw [hwanted]
    exact h.unasked hp hj

/-- What a `select` touches is open. -/
theorem Inv.open_of_isUp (h : Inv s) {i : ℕ} (hup : s.isUp t i) :
    ∃ k, (s.slots i).sock = some k ∧ s.IsOpen k := by
  rcases hup with hup | hup
  · exact h.table.up hup
  · exact h.table.up hup

/-- A socket that another task holds is not in the set of this one. -/
theorem Inv.not_in_set (h : Inv s) (hpc : (s.task t).pc = .select f p) {u : TaskId} (hu : u ≠ t)
    {i k : ℕ} (hheld : (s.task u).held i = true) (hk : (s.slots i).sock = some k) :
    (s.socks k).socketSet ≠ some f.sel := by
  intro hset
  cases hwaits : (s.task u).waits i with
  | true =>
    obtain ⟨-, hp⟩ := Bool.and_eq_true_iff.mp hwaits
    obtain ⟨f₁, p₁, hpu⟩ := select_of_waits hp
    have hreg := h.registered hpu
    rw [hpu] at hp
    rw [(hreg.marks hheld hp hk).2] at hset
    have hsets := hreg.set
    rw [Option.some.inj hset, (h.registered hpc).set] at hsets
    exact hu (Option.some.inj hsets).symm
  | false =>
    have hquiet : (s.socks k).Quiet := h.quiet_of_slot hk fun v => by
      by_cases hv : v = u
      · rw [hv, hwaits]
      · by_contra hvi
        have hvheld := held_of_waits (Bool.of_not_eq_false hvi)
        exact hv (h.table.one (Local.stage_ne_none hvheld) (Local.stage_ne_none hheld))
    rw [hquiet.2] at hset
    exact nomatch hset

/-- Two tasks hold no slot in common. -/
theorem Inv.held_ne (h : Inv s) {u : TaskId} (hu : u ≠ t) {i j : ℕ} (hi : (s.task t).held i = true)
    (hj : (s.task u).held j = true) : j ≠ i := by
  intro hji
  rw [hji] at hj
  exact hu (h.table.one (Local.stage_ne_none hj) (Local.stage_ne_none hi))

/-- A slot that a `select` clears without having asked for it has no interest registered. -/
theorem Inv.quiet_of_unasked (h : Inv s) (hpc : (s.task t).pc = .select f p) {i k : ℕ}
    (hk : (s.slots i).sock = some k) (hi : f.req.names i = false)
    (hother : (s.task t.other).waits i = false) : (s.socks k).Quiet := by
  refine h.quiet_of_slot hk fun u => ?_
  by_cases hu : u = t
  · subst hu
    rw [Local.waits, hpc]
    cases p <;> simp [Pc.waits, hi]
  · rw [TaskId.eq_other hu, hother]

theorem setSock_self (s : State) (k : ℕ) : s.setSock k (s.socks k) = s := by
  rw [State.setSock, Function.update_eq_self]

/-- A `select` changes no marks on the sockets of the other task. -/
theorem Inv.select_marks (h : Inv s) (hpc : (s.task t).pc = .select f p)
    (hup : ∀ i, (s.task t).pc.visits = some i → s.isUp t i)
    (hwaits : ∀ i, (s.task t).pc.changes = some i → (s.task t.other).waits i = false)
    {u : TaskId} {j m : ℕ} (hu : u ≠ t) (hj : (s.task u).held j = true)
    (hm : (s.slots j).sock = some m) : ((selectStep s t f p).socks m).marks = (s.socks m).marks := by
  rw [hpc] at hup hwaits
  have hreg := h.registered hpc
  -- a slot that the `select` has asked for is its own, and not the one of this socket
  have hne {i k : ℕ} (hv : (Pc.select f p).visits = some i) (hk : (s.slots i).sock = some k)
      (hnames : f.req.names i = true) : m ≠ k := by
    rintro rfl
    exact h.held_ne hu ((hreg.visits hv).2 hnames) hj (h.table.distinct hm hk)
  cases p with
  | check i =>
    simp only [selectStep]
    split_ifs <;> rfl
  | setOrClr i =>
    obtain ⟨k, hk, -⟩ := h.open_of_isUp (hup i rfl)
    have hbits : (f.req.bits i).any = f.req.names i := by
      rw [Request.names, Request.asks_of_lt (hreg.visits rfl).1]
    cases hnames : f.req.names i with
    | false =>
      simp only [selectStep, hbits, hnames, onSock_of_some _ hk,
        fdClr_of_quiet (h.quiet_of_unasked hpc hk hnames (hwaits i rfl)), setSock_self]
      rfl
    | true =>
      simp only [selectStep, hbits, hnames, if_true, onSock_of_some _ hk]
      have hsock : ((s.setSock k (fdSet f.sel (f.req.bits i) (s.socks k))).socks m) = s.socks m :=
        Function.update_of_ne (hne rfl hk hnames) ..
      show (socketSelect f.sel _).marks = _
      rw [hsock, socketSelect_of_ne (h.not_in_set hpc hu hj hm)]
  | wait =>
    show (socketSelect f.sel (s.socks m)).marks = _
    rw [socketSelect_of_ne (h.not_in_set hpc hu hj hm)]
  | checkOut i =>
    simp only [selectStep]
    split_ifs <;> rfl
  | isSet i =>
    simp only [selectStep]
    split <;> rfl
  | clr i =>
    obtain ⟨k, hk, -⟩ := h.open_of_isUp (hup i rfl)
    cases hnames : f.req.names i with
    | false =>
      simp only [selectStep, onSock_of_some _ hk,
        fdClr_of_quiet (h.quiet_of_unasked hpc hk hnames (hwaits i rfl)), setSock_self]
      rfl
    | true =>
      simp only [selectStep, onSock_of_some _ hk, goto_socks, setSock_socks]
      rw [Function.update_of_ne (hne rfl hk hnames)]

section cases

variable (h : Inv s)
include h

theorem check_inv {i : ℕ} (hpc : (s.task t).pc = .select f (.check i)) :
    Inv (selectStep s t f (.check i)) := by
  have hreg := h.registered hpc
  have hfound := h.found hpc
  simp only [selectStep]
  split_ifs with hi huse
  · refine h.move hpc rfl rfl (fun j _ => by rw [hpc]; rfl) (fun {j} hj => ?_) (hfound.of_before rfl rfl)
    obtain rfl : i = j := Option.some.inj hj
    exact ⟨hi, fun hnames => hreg.held_of_inUse hnames huse⟩
  · refine h.move hpc rfl rfl (fun j hj => ?_) (by simp [Pc.visits]) (hfound.of_before rfl rfl)
    have hne : j ≠ i := by
      rintro rfl
      exact huse (h.table.inUse_of_held hj)
    rw [hpc]
    simp only [Pc.waits]
    have hlt : j < i + 1 ↔ j < i := by omega
    simp only [hlt]
  · refine h.move hpc rfl rfl (fun j _ => ?_) (by simp [Pc.visits]) (hfound.of_before rfl rfl)
    rw [hpc]
    simp only [Pc.waits]
    cases hj : f.req.names j with
    | false => rfl
    | true =>
      have hlt : j < i := Nat.lt_of_lt_of_le (Request.lt_of_names hj) (Nat.le_of_not_lt hi)
      simp [hlt]

theorem isSet_inv {i : ℕ} (hpc : (s.task t).pc = .select f (.isSet i)) (hup : s.isUp t i) :
    Inv (selectStep s t f (.isSet i)) := by
  have hreg := h.registered hpc
  have hfound := h.found hpc
  obtain ⟨hi, hmine⟩ := hreg.visits (i := i) rfl
  obtain ⟨k, hk, -⟩ := h.open_of_isUp hup
  have hgot : (f.req.bits i).and (fdIsSet f.sel (s.socks k)) = f.wanted i := by
    rw [← Request.asks_of_lt hi]
    cases hnames : f.req.names i with
    | true =>
      have hheld := hmine hnames
      have hwaits : (Pc.select f (.isSet i)).waits i = true := by simp [Pc.waits, hnames]
      rw [fdIsSet, if_pos (hreg.marks hheld hwaits hk).2]
      exact hfound.unread rfl (Nat.le_refl i) hheld hk
    | false =>
      have hnone := Request.asks_eq_none_iff.mpr hnames
      rw [hnone, Bits.and_none_left, hfound.unasked rfl (Or.inr hnone)]
  simp only [selectStep, hk, hgot]
  refine h.move hpc rfl rfl (fun j _ => by rw [hpc]; rfl) (fun {j} hj => ?_)
    (hfound.next rfl rfl hi rfl rfl rfl rfl)
  obtain rfl : i = j := Option.some.inj hj
  exact ⟨hi, hmine⟩

theorem checkOut_inv {i : ℕ} (hpc : (s.task t).pc = .select f (.checkOut i)) :
    Inv (selectStep s t f (.checkOut i)) := by
  have hreg := h.registered hpc
  have hfound := h.found hpc
  simp only [selectStep]
  split_ifs with hi huse
  · refine h.move hpc rfl rfl (fun j _ => by rw [hpc]; rfl) (fun {j} hj => ?_) (hfound.of_looked rfl)
    obtain rfl : i = j := Option.some.inj hj
    exact ⟨hi, fun hnames => hreg.held_of_inUse hnames huse⟩
  · -- a slot that is not in use is not held, and was not ready
    have hheld : (s.task t).held i = false := by
      by_contra hheld
      exact huse (h.table.inUse_of_held (Bool.of_not_eq_false hheld))
    have hnone : f.wanted i = .none := hfound.unasked rfl (Or.inl hheld)
    have hout : f.out i = .none := by rw [hfound.out rfl i, if_neg (Nat.lt_irrefl i)]
    refine h.move hpc rfl rfl (fun j hj => ?_) (by simp [Pc.visits])
      (hfound.next rfl rfl hi ?_ rfl rfl ?_)
    · have hne : j ≠ i := by
        rintro rfl
        rw [hheld] at hj
        exact Bool.noConfusion hj
      rw [hpc]
      simp only [Pc.waits]
      have hle : i + 1 ≤ j ↔ i ≤ j := by omega
      simp only [hle]
    · rw [hnone, ← hout, Function.update_eq_self]
    · rw [hnone]
      rfl
  · refine h.within (goto_ne _ _ _) rfl rfl (fun _ _ _ => rfl) (h.table.goto (by rw [hpc]; rfl))
      (by simp) (by simp) fun {k} hk => h.quiet_of_moved (goto_ne _ _ _) rfl hk fun {j} _ hj => ?_
    -- it has cleared every slot it asked for
    rw [Local.waits, hpc] at hj
    simp only [Pc.waits, Bool.and_eq_true, decide_eq_true_eq] at hj
    have hlt : j < i := Nat.lt_of_lt_of_le (Request.lt_of_names hj.2.1) (Nat.le_of_not_lt hi)
    exact absurd hj.2.2 (Nat.not_le.mpr hlt)

theorem wait_inv (hpc : (s.task t).pc = .select f .wait) : Inv (selectStep s t f .wait) := by
  have hreg := h.registered hpc
  obtain ⟨hout, hnready⟩ := (h.found hpc).before rfl
  have hsocks (k : ℕ) : (selectStep s t f .wait).socks k = socketSelect f.sel (s.socks k) := rfl
  have hother {u : TaskId} (hu : u ≠ t) : (selectStep s t f .wait).task u = s.task u :=
    goto_ne _ _ _ hu
  have hself : (selectStep s t f .wait).task t =
      ⟨(s.task t).held, .select { f with wanted := s.readyOf f.req } (.checkOut 0)⟩ := goto_self ..
  refine h.within hother rfl rfl (h.select_marks hpc (by simp [hpc, Pc.visits])
    (by simp [hpc, Pc.changes])) (h.table.select hpc) (fun {g q} hg => ?_)
    (fun i ready => by rw [hself]; exact Pc.noConfusion) (fun {k} hk => ?_)
  · rw [hself] at hg
    obtain ⟨rfl, rfl⟩ := Pc.select.inj hg
    refine ⟨⟨hreg.set, ?_, by simp [Pc.visits], fun {i k} hheld hi hk => ?_⟩,
      ⟨by simp [SelectPc.looked], ?_, ?_, ?_, fun {n i k} hn _ hheld hk => ?_, fun {n i} hn hi => ?_⟩⟩
    · rw [hself]
      exact hreg.stale
    · rw [hself] at hheld
      rw [hsocks, socketSelect_selectBits, socketSelect_socketSet]
      exact hreg.marks hheld (by simpa [Pc.waits] using hi) hk
    · intro n hn
      obtain rfl : 0 = n := Option.some.inj hn
      exact Nat.zero_le _
    · intro n hn i
      obtain rfl : 0 = n := Option.some.inj hn
      exact hout i
    · intro n hn
      obtain rfl : 0 = n := Option.some.inj hn
      exact hnready
    · rw [hself] at hheld
      have hwanted : s.readyOf f.req i = (f.req.asks i).and (s.socks k).readyBits := by
        have hk' : (s.slots i).sock = some k := hk
        simp only [State.readyOf, hk', h.table.inUse_of_held hheld, if_true]
      show (f.req.asks i).and _ = s.readyOf f.req i
      rw [hwanted]
      cases hnames : f.req.names i with
      | false => rw [Request.asks_eq_none_iff.mpr hnames, Bits.and_none_left, Bits.and_none_left]
      | true =>
        obtain ⟨hbits, hset⟩ := hreg.marks hheld (by simpa [Pc.waits] using hnames) hk
        obtain ⟨m, hm, hopen⟩ := h.table.up_of_held hheld
        obtain rfl : m = k := Option.some.inj (hm.symm.trans hk)
        rw [hsocks, socketSelect, if_pos ⟨hopen.2, hset⟩, hbits, Bits.and_and_self]
    · rw [hself] at hi
      show s.readyOf f.req i = .none
      cases hnames : f.req.names i with
      | false =>
        rw [State.readyOf, Request.asks_eq_none_iff.mpr hnames]
        split_ifs
        · split
          · exact Bits.and_none_left _
          · rfl
        · rfl
      | true =>
        have hheld := hi.resolve_right fun hnone => by
          rw [Request.asks_eq_none_iff, hnames] at hnone
          exact Bool.noConfusion hnone
        rw [State.readyOf, hreg.stale hnames hheld]
        rfl
  · have hold : (s.socks k).Quiet := h.quiet_of_moved hother rfl hk fun {i} _ hi => by
      rw [Local.waits, hpc] at hi
      rw [hself]
      simpa [Local.waits, Pc.waits] using hi
    rw [hsocks, Sock.Quiet, socketSelect_selectBits, socketSelect_socketSet]
    exact hold

theorem clr_inv {i : ℕ} (hpc : (s.task t).pc = .select f (.clr i)) (hup : s.isUp t i)
    (hwaits : (s.task t.other).waits i = false) : Inv (selectStep s t f (.clr i)) := by
  have hmarks {u : TaskId} {j m : ℕ} := h.select_marks (u := u) (j := j) (m := m) hpc
    (by simpa [hpc, Pc.visits] using hup) (by simpa [hpc, Pc.changes] using hwaits)
  have hreg := h.registered hpc
  have hfound := h.found hpc
  obtain ⟨hi, hmine⟩ := hreg.visits (i := i) rfl
  obtain ⟨k, hk, -⟩ := h.open_of_isUp hup
  cases hnames : f.req.names i with
  | false =>
    have hquiet := h.quiet_of_unasked hpc hk hnames hwaits
    simp only [selectStep, onSock_of_some _ hk, fdClr_of_quiet hquiet, setSock_self]
    refine h.move hpc rfl rfl (fun j _ => ?_) (by simp [Pc.visits]) (hfound.of_looked rfl)
    rw [hpc]
    simp only [Pc.waits]
    by_cases hj : j = i
    · rw [hj, hnames]
      rfl
    · have hle : i + 1 ≤ j ↔ i ≤ j := by omega
      simp only [hle]
  | true =>
    have hheld := hmine hnames
    have htable := h.table.select hpc
    simp only [selectStep, onSock_of_some _ hk] at htable hmarks ⊢
    set s' := (s.setSock k (fdClr f.sel .all (s.socks k))).goto t (.select f (.checkOut (i + 1)))
    have hself : s'.task t = ⟨(s.task t).held, .select f (.checkOut (i + 1))⟩ := goto_self ..
    have hother {u : TaskId} (hu : u ≠ t) : s'.task u = s.task u := goto_ne _ _ _ hu
    have hcleared : s'.socks k = fdClr f.sel .all (s.socks k) := Function.update_self ..
    have hsocks {m : ℕ} (hm : m ≠ k) : s'.socks m = s.socks m := Function.update_of_ne hm ..
    have hne {j m : ℕ} (hj : j ≠ i) (hm : (s.slots j).sock = some m) : m ≠ k := by
      rintro rfl
      exact hj (h.table.distinct hm hk)
    refine h.within hother rfl rfl hmarks htable (fun {g q} hg => ?_)
      (fun j ready => by rw [hself]; exact Pc.noConfusion) (fun {m} hm => ?_)
    · rw [hself] at hg
      obtain ⟨rfl, rfl⟩ := Pc.select.inj hg
      refine ⟨⟨hreg.set, ?_, by simp [Pc.visits], fun {j m} hj hw hm => ?_⟩,
        ⟨by simp [SelectPc.looked], hfound.upper, hfound.out, hfound.nready,
          fun {n j m} hn hnj hj hm => ?_, ?_⟩⟩
      · rw [hself]
        exact hreg.stale
      · rw [hself] at hj
        simp only [Pc.waits, Bool.and_eq_true, decide_eq_true_eq] at hw
        rw [hsocks (hne (by omega) hm)]
        exact hreg.marks hj (by simp [Pc.waits, hw.1, Nat.le_of_succ_le hw.2]) hm
      · rw [hself] at hj
        obtain rfl : i + 1 = n := Option.some.inj hn
        rw [hsocks (hne (by omega) hm)]
        exact hfound.unread rfl hnj hj hm
      · rw [hself]
        exact hfound.unasked
    · by_cases hmk : m = k
      · rw [hmk, hcleared]
        exact quiet_fdClr _ _
      · rw [hsocks hmk]
        refine h.quiet_of_moved hother rfl hm fun {j} hsock hj => ?_
        have hji : j ≠ i := by
          intro hji
          rw [hji] at hsock
          exact hmk (Option.some.inj (hsock.symm.trans hk))
        rw [Local.waits, hpc] at hj
        rw [hself]
        simp only [Local.waits, Pc.waits, Bool.and_eq_true, decide_eq_true_eq] at hj ⊢
        exact ⟨hj.1, hj.2.1, by omega⟩

theorem setOrClr_inv {i : ℕ} (hpc : (s.task t).pc = .select f (.setOrClr i)) (hup : s.isUp t i)
    (hwaits : (s.task t.other).waits i = false) : Inv (selectStep s t f (.setOrClr i)) := by
  have hmarks {u : TaskId} {j m : ℕ} := h.select_marks (u := u) (j := j) (m := m) hpc
    (by simpa [hpc, Pc.visits] using hup) (by simpa [hpc, Pc.changes] using hwaits)
  have hreg := h.registered hpc
  have hfound := h.found hpc
  obtain ⟨hi, hmine⟩ := hreg.visits (i := i) rfl
  obtain ⟨k, hk, -⟩ := h.open_of_isUp hup
  have hbits : (f.req.bits i).any = f.req.names i := by rw [Request.names, Request.asks_of_lt hi]
  cases hnames : f.req.names i with
  | false =>
    have hquiet := h.quiet_of_unasked hpc hk hnames hwaits
    simp only [selectStep, hbits, hnames, onSock_of_some _ hk, fdClr_of_quiet hquiet, setSock_self]
    refine h.move hpc rfl rfl (fun j _ => ?_) (by simp [Pc.visits]) (hfound.of_before rfl rfl)
    rw [hpc]
    simp only [Pc.waits]
    by_cases hj : j = i
    · rw [hj, hnames]
      rfl
    · have hlt : j < i + 1 ↔ j < i := by omega
      simp only [hlt]
  | true =>
    have hheld := hmine hnames
    have htable := h.table.select hpc
    simp only [selectStep, hbits, hnames, if_true, onSock_of_some _ hk] at htable hmarks ⊢
    set s' := ((s.setSock k (fdSet f.sel (f.req.bits i) (s.socks k))).vSocketSelect f.sel).goto t
      (.select f (.check (i + 1)))
    have hself : s'.task t = ⟨(s.task t).held, .select f (.check (i + 1))⟩ := goto_self ..
    have hother {u : TaskId} (hu : u ≠ t) : s'.task u = s.task u := goto_ne _ _ _ hu
    have hmarked : s'.socks k = socketSelect f.sel (fdSet f.sel (f.req.bits i) (s.socks k)) :=
      congrArg (socketSelect f.sel) (Function.update_self ..)
    have hsocks {m : ℕ} (hm : m ≠ k) : s'.socks m = socketSelect f.sel (s.socks m) :=
      congrArg (socketSelect f.sel) (Function.update_of_ne hm ..)
    have hne {j m : ℕ} (hj : j ≠ i) (hm : (s.slots j).sock = some m) : m ≠ k := by
      rintro rfl
      exact hj (h.table.distinct hm hk)
    -- nobody has registered interest in the slot yet
    have hquiet : (s.socks k).Quiet := h.quiet_of_slot hk fun u => by
      by_cases hu : u = t
      · subst hu
        rw [Local.waits, hpc]
        simp [Pc.waits]
      · rw [TaskId.eq_other hu, hwaits]
    refine h.within hother rfl rfl hmarks htable (fun {g q} hg => ?_)
      (fun j ready => by rw [hself]; exact Pc.noConfusion) (fun {m} hm => ?_)
    · rw [hself] at hg
      obtain ⟨rfl, rfl⟩ := Pc.select.inj hg
      refine ⟨⟨hreg.set, ?_, by simp [Pc.visits], fun {j m} hj hw hm => ?_⟩,
        found_of_before rfl (hfound.before rfl)⟩
      · rw [hself]
        exact hreg.stale
      · rw [hself] at hj
        by_cases hji : j = i
        · subst hji
          obtain rfl : k = m := Option.some.inj (hk.symm.trans hm)
          rw [hmarked, socketSelect_selectBits, socketSelect_socketSet, Request.asks_of_lt hi]
          exact fdSet_quiet hquiet (hbits.trans hnames)
        · simp only [Pc.waits, Bool.and_eq_true, decide_eq_true_eq] at hw
          rw [hsocks (hne hji hm), socketSelect_selectBits, socketSelect_socketSet]
          exact hreg.marks hj (by simp [Pc.waits, hw.1]; omega) hm
    · have hmk : m ≠ k := by
        rintro rfl
        refine hm t ⟨i, ?_, hk⟩
        rw [hself]
        simp [Local.waits, Pc.waits, hheld, hnames]
      rw [hsocks hmk, Sock.Quiet, socketSelect_selectBits, socketSelect_socketSet]
      refine h.quiet_of_moved hother rfl hm fun {j} _ hj => ?_
      rw [Local.waits, hpc] at hj
      rw [hself]
      simp only [Local.waits, Pc.waits, Bool.and_eq_true, decide_eq_true_eq] at hj ⊢
      exact ⟨hj.1, hj.2.1, Nat.lt_succ_of_lt hj.2.2⟩

end cases

/-! ### Runs -/

theorem waits_of_looked {n i : ℕ} (hn : p.looked = some n) (hi : n ≤ i)
    (hnames : f.req.names i = true) : (Pc.select f p).waits i = true := by
  cases p with
  | checkOut j =>
    obtain rfl : j = n := Option.some.inj hn
    simp [Pc.waits, hnames, hi]
  | isSet j =>
    obtain rfl : j = n := Option.some.inj hn
    simp [Pc.waits, hnames, hi]
  | clr j =>
    obtain rfl : j + 1 = n := Option.some.inj hn
    simp [Pc.waits, hnames, Nat.le_of_succ_le hi]
  | _ => simp [SelectPc.looked] at hn

theorem unread_of_looked {n i : ℕ} (hn : p.looked = some n) (hi : n ≤ i) :
    (Pc.select f p).unread i = some f := by
  cases p with
  | checkOut j =>
    obtain rfl : j = n := Option.some.inj hn
    exact if_pos hi
  | isSet j =>
    obtain rfl : j = n := Option.some.inj hn
    exact if_pos hi
  | clr j =>
    obtain rfl : j + 1 = n := Option.some.inj hn
    exact if_pos hi
  | _ => simp [SelectPc.looked] at hn

theorem stackEvent_socketBits (ready ev : Bits) (v : Sock) :
    (stackEvent ready ev v).socketBits = v.socketBits ∨
      v.isTcp = true ∧ (stackEvent ready ev v).socketBits = v.socketBits.or (ev.and v.selectBits) := by
  unfold stackEvent
  split_ifs with h
  · exact Or.inr ⟨h.1, rfl⟩
  · exact Or.inl rfl

theorem Inv.stack (h : Inv s) {k : ℕ} {ready ev : Bits}
    (hlate : (s.socks k).isTcp = true → ∀ t, ¬ Late s k ev t)
    (htable : Table (s.setSock k (stackEvent ready ev (s.socks k)))) :
    Inv (s.setSock k (stackEvent ready ev (s.socks k))) := by
  set s' := s.setSock k (stackEvent ready ev (s.socks k))
  have hself : s'.socks k = stackEvent ready ev (s.socks k) := Function.update_self ..
  have hne {m : ℕ} (hm : m ≠ k) : s'.socks m = s.socks m := Function.update_of_ne hm ..
  have hinterest (m : ℕ) : (s'.socks m).selectBits = (s.socks m).selectBits ∧
      (s'.socks m).socketSet = (s.socks m).socketSet := by
    by_cases hm : m = k
    · rw [hm, hself, stackEvent_selectBits, stackEvent_socketSet]
      exact ⟨rfl, rfl⟩
    · rw [hne hm]
      exact ⟨rfl, rfl⟩
  refine ⟨htable, fun hpc => ?_, fun {t f p} hpc => ?_, h.io, fun {m} hm => ?_⟩
  · have hreg := h.registered hpc
    refine ⟨hreg.set, hreg.stale, hreg.visits, fun {i m} hheld hi hm => ?_⟩
    rw [(hinterest m).1, (hinterest m).2]
    exact hreg.marks hheld hi hm
  · have hfound := h.found hpc
    refine ⟨hfound.before, hfound.upper, hfound.out, hfound.nready,
      fun {n i m} hn hi hheld hm => ?_, hfound.unasked⟩
    have hold := hfound.unread hn hi hheld hm
    by_cases hmk : m = k
    · subst hmk
      rw [hself]
      rcases stackEvent_socketBits ready ev (s.socks m) with hbits | ⟨htcp, hbits⟩
      · rw [hbits, hold]
      · cases hnames : f.req.names i with
        | false =>
          have hnone := Request.asks_eq_none_iff.mpr hnames
          rw [hnone, Bits.and_none_left, hfound.unasked hn (Or.inr hnone)]
        | true =>
          have hasks := ((h.registered hpc).marks hheld (waits_of_looked hn hi hnames) hm).1
          have hlt := Nat.lt_of_lt_of_le (Request.lt_of_names hnames) (Nat.min_le_right _ _)
          rw [hbits, hasks]
          refine Bits.and_or_of_clear hold ?_
          by_contra hclear
          refine hlate htcp t ⟨i, hlt, hm, f, ?_, hclear⟩
          rw [show (s.task t).pc = .select f p from hpc, unread_of_looked hn hi]
          rfl
    · rw [hne hmk, hold]
  · rw [Sock.Quiet, (hinterest m).1, (hinterest m).2]
    exact h.quiet hm

theorem Inv.run (h : Inv s) (hok : Ok s (.run t)) (hs : Shim.run s t = some s') : Inv s' := by
  obtain ⟨hvisits, hchanges, hnulls⟩ := hok
  cases hpc : (s.task t).pc with
  | select f p =>
    rw [hpc] at hvisits hchanges
    have hs' : s' = selectStep s t f p := by
      simp only [Shim.run, hpc] at hs
      exact (Option.some.inj hs).symm
    rw [hs']
    cases p with
    | check i => exact check_inv h hpc
    | setOrClr i => exact setOrClr_inv h hpc (hvisits i rfl) (hchanges i rfl)
    | wait => exact wait_inv h hpc
    | checkOut i => exact checkOut_inv h hpc
    | isSet i => exact isSet_inv h hpc (hvisits i rfl)
    | clr i => exact clr_inv h hpc (hvisits i rfl) (hchanges i rfl)
  | _ =>
    refine h.run_other (fun f p => ?_) (fun i hi => hnulls i (by rw [hi]; rfl)) hs
    rw [hpc]
    exact Pc.noConfusion

theorem step_call {c : Call} (hs : step s (.call t c) = some s') :
    (s.task t).pc = .idle ∧ call s t c = some s' := by
  unfold step at hs
  split_ifs at hs
  cases hpc : (s.task t).pc with
  | idle =>
    simp only [hpc] at hs
    exact ⟨rfl, hs⟩
  | _ => simp [hpc] at hs

theorem step_run (hs : step s (.run t) = some s') : run s t = some s' := by
  unfold step at hs
  split_ifs at hs
  exact hs

theorem step_stack {k : ℕ} {ready ev : Bits} (hs : step s (.stack k ready ev) = some s') :
    s' = s.setSock k (stackEvent ready ev (s.socks k)) := by
  unfold step at hs
  split_ifs at hs
  simp only [Option.ite_none_right_eq_some, Option.some.injEq] at hs
  exact hs.2.symm

theorem step_inv {a : Action} (h : Inv s) (hok : Ok s a) (hs : step s a = some s') : Inv s' := by
  cases a with
  | call t c => exact h.call (step_call hs).1 (step_call hs).2
  | run t => exact h.run hok (step_run hs)
  | stack k ready ev =>
    have htable := h.table.step (fun _ _ ha => Action.noConfusion ha) hs
    obtain rfl := step_stack hs
    refine h.stack (fun htcp t => ?_) htable
    cases t with
    | wslay => exact (hok htcp).1
    | ice => exact (hok htcp).2

/-- The slot of every call has an open socket. -/
theorem Inv.calls (h : Inv s) (hok : Ok s (.run t)) {i : ℕ} (hi : (s.task t).pc.callOn = some i) :
    ∃ k, (s.slots i).sock = some k ∧ s.IsOpen k := by
  obtain ⟨hvisits, -, -⟩ := hok
  have hplace (hslot : (s.task t).pc.place.slot = some i) (hup : (s.task t).pc.place.stage i = .up) :
      ∃ k, (s.slots i).sock = some k ∧ s.IsOpen k :=
    h.table.up ((h.place_stage hslot).trans hup)
  cases hpc : (s.task t).pc with
  | clrAll j n =>
    rw [hpc] at hi hplace
    obtain rfl : j = i := Option.some.inj hi
    exact hplace rfl (if_pos rfl)
  | closesocket j =>
    rw [hpc] at hi hplace
    obtain rfl : j = i := Option.some.inj hi
    exact hplace rfl (if_pos rfl)
  | io j ready =>
    rw [hpc] at hi
    obtain rfl : j = i := Option.some.inj hi
    exact h.table.up_of_held (h.io hpc)
  | select f p =>
    rw [hpc] at hi hvisits
    refine h.open_of_isUp (hvisits i ?_)
    cases p <;> exact hi
  | _ =>
    rw [hpc] at hi
    exact nomatch hi

theorem isolated_of_inv {a : Action} (h : Inv s) (hok : Ok s a) (hs : step s a = some s') :
    Isolated s a s' where
  interest := by
    rintro t f p k set u rfl hpc hset hsets hu
    have hs' : s' = selectStep s t f p := by
      have hrun := step_run hs
      simp only [Shim.run, hpc] at hrun
      exact (Option.some.inj hrun).symm
    -- some task waits for the socket, and it is the owner of the set
    obtain ⟨v, j, hw, hk⟩ : ∃ v, s.WaitsOn v k := by
      by_contra hnone
      rw [(h.quiet (not_exists.mp hnone)).2] at hset
      exact nomatch hset
    obtain ⟨hheld, hp⟩ := Bool.and_eq_true_iff.mp hw
    obtain ⟨fv, pv, hpv⟩ := select_of_waits hp
    have hreg := h.registered hpv
    rw [hpv] at hp
    have hsel : fv.sel = set := Option.some.inj ((hreg.marks hheld hp hk).2.symm.trans hset)
    have hv : v = u := Option.some.inj ((hsel ▸ hreg.set).symm.trans hsets)
    subst hv
    have hmarks := h.select_marks hpc (fun i hi => hok.1 i hi) (fun i hi => hok.2.1 i hi) hu hheld hk
    simp only [Sock.marks, Prod.mk.injEq] at hmarks
    rw [hs', hmarks.1, hmarks.2.1]
    exact ⟨hset, rfl⟩
  calls := by
    rintro t i rfl hi
    exact h.calls hok hi
  returns := by
    rintro t f i rfl hpc hi
    have hfound := h.found hpc
    obtain rfl : i = f.req.upper := Nat.le_antisymm (hfound.upper rfl) hi
    refine ⟨funext fun j => ?_, hfound.nready rfl⟩
    rw [hfound.out rfl j]
    split_ifs with hj
    · rfl
    · refine (hfound.unasked rfl (Or.inr ?_)).symm
      exact if_neg hj

/-- **`select` and the other task.**  In every run of the two tasks and the stack whose steps all meet `Ok`, a
`select` leaves the interest of the other task alone, every call is made on an open socket, and a `select`
returns the requested fds that were ready when its wait ended. -/
theorem select_isolated (as : List Action) (h : Meets step Ok as boot) :
    AllSteps step Isolated as boot :=
  allSteps_of_invariant step_inv isolated_of_inv boot_inv h

/-- `socket`, for a TCP socket that gets the slot. -/
def opening (t : TaskId) (i : ℕ) : List Action :=
  .call t (.socket true true) :: List.replicate (i + 3) (.run t)

/-- Data to read on the fd of a slot. -/
def reading (i : ℕ) : Request := ⟨fdBase + i + 1, fun fd => fd == fdBase + i, fun _ => false⟩

/-- A `select` that the other task, which has a socket of its own and is not in a `select`, does not see. -/
theorem select_isolated_sample :
    AllSteps step Isolated
      (opening .wslay 0 ++ opening .ice 1 ++ [.call .ice (.select (reading 1) true)] ++
        List.replicate 5 (.run .ice) ++ [.stack 1 ⟨true, false⟩ ⟨true, false⟩] ++
        List.replicate 4 (.run .ice)) boot :=
  select_isolated _ (by decide)

/-- `wslay` has registered interest in its fd and waits; the `select` of `ice` visits the slot. -/
def clearing : List Action :=
  opening .wslay 0 ++ opening .ice 1 ++
    [.call .wslay (.select (reading 0) true), .run .wslay, .run .wslay, .run .wslay] ++
    [.call .ice (.select (reading 1) true), .run .ice]

/-- The `select` of `ice` clears what `wslay` waits for. -/
theorem select_clears_interest : ¬ ∀ as : List Action, AllSteps step Isolated as boot := by
  intro h
  have hbad : ∃ s s', runs step clearing boot = some s ∧ step s (.run .ice) = some s' ∧
      (∃ f p, (s.task .ice).pc = .select f p) ∧ (s.socks 0).socketSet = some 0 ∧
      s.selectSets[0]? = some .wslay ∧ (s'.socks 0).socketSet = none :=
    ⟨_, _, rfl, rfl, ⟨_, _, rfl⟩, rfl, rfl, rfl⟩
  obtain ⟨s, s', hrun, hstep, ⟨f, p, hpc⟩, hset, howner, hcleared⟩ := hbad
  have hkeeps := (h (clearing ++ [.run .ice])).at hrun hstep
  have hsame := (hkeeps.interest .ice f p 0 0 .wslay rfl hpc hset howner (by decide)).1
  rw [hcleared] at hsame
  exact nomatch hsame

end IotcRa8p1.Kvs.Shim
