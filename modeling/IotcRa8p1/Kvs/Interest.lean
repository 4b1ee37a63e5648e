import IotcRa8p1.Kvs.SlotTable

/-!
# The interest of a `select`

`Inv` says what holds between the steps of the two tasks: a task in its `select` has its bits and its set on
the sockets that it asked for and its loop has passed, no other socket has any, and what it has found behind
its wait is what was ready when the wait ended.  Here it is kept by the steps outside a `select`, which
change nothing that a `select` of the other task relies on (`Aside`).
-/

namespace IotcRa8p1.Kvs.Shim

/-! ### Bits and requests -/

namespace Bits

theorem any_eq_false_iff {b : Bits} : b.any = false ↔ b = .none := by
  rcases b with ⟨_ | _, _ | _⟩ <;> decide

theorem or_none_left (b : Bits) : Bits.none.or b = b := rfl

theorem and_none_left (b : Bits) : Bits.none.and b = .none := rfl

theorem clear_all (b : Bits) : b.clear .all = .none := by
  rcases b with ⟨_ | _, _ | _⟩ <;> rfl

theorem and_and_self (a b : Bits) : a.and (a.and b) = a.and b := by
  rcases a with ⟨_ | _, _ | _⟩ <;> rfl

/-- Events that bring nothing new change nothing that is asked. -/
theorem and_or_of_clear {a b ev w : Bits} (h : a.and b = w) (hev : (ev.and a).clear w = .none) :
    a.and (b.or (ev.and a)) = w := by
  subst h
  rcases a with ⟨_ | _, _ | _⟩ <;> rcases b with ⟨_ | _, _ | _⟩ <;> rcases ev with ⟨_ | _, _ | _⟩ <;>
    first | rfl | exact absurd hev (by decide)

end Bits

namespace Request

variable {q : Request} {i : ℕ}

theorem lt_of_names (h : q.names i = true) : i < q.upper := by
  by_contra hi
  rw [names, asks, if_neg hi] at h
  exact Bool.noConfusion h

theorem asks_of_lt (h : i < q.upper) : q.asks i = q.bits i := if_pos h

theorem asks_eq_none_iff : q.asks i = .none ↔ q.names i = false := Bits.any_eq_false_iff.symm

end Request

/-! ### Sockets nobody waits for -/

def Sock.Quiet (v : Sock) : Prop := v.selectBits = .none ∧ v.socketSet = none

/-- What `select` and the stack mark on a socket. -/
def Sock.marks (v : Sock) : Bits × Option ℕ × Bits := (v.selectBits, v.socketSet, v.socketBits)

theorem fdSet_quiet {set : ℕ} {bits : Bits} {v : Sock} (hv : v.Quiet) (hbits : bits.any = true) :
    (fdSet set bits v).selectBits = bits ∧ (fdSet set bits v).socketSet = some set := by
  rw [fdSet, hv.1, Bits.or_none_left, if_pos hbits]
  exact ⟨rfl, rfl⟩

theorem quiet_fdClr (set : ℕ) (v : Sock) : (fdClr set .all v).Quiet := by
  rw [fdClr, Bits.clear_all]
  exact ⟨rfl, rfl⟩

theorem fdClr_of_quiet {set : ℕ} {v : Sock} (hv : v.Quiet) : fdClr set .all v = v := by
  obtain ⟨hbits, hset⟩ := hv
  cases v
  subst hbits hset
  rfl

theorem socketSelect_of_ne {set : ℕ} {v : Sock} (hv : v.socketSet ≠ some set) :
    socketSelect set v = v := if_neg fun h => hv h.2

theorem socketSelect_selectBits (set : ℕ) (v : Sock) :
    (socketSelect set v).selectBits = v.selectBits := by
  unfold socketSelect
  split <;> rfl

theorem socketSelect_socketSet (set : ℕ) (v : Sock) :
    (socketSelect set v).socketSet = v.socketSet := by
  unfold socketSelect
  split <;> rfl

theorem stackEvent_selectBits (ready ev : Bits) (v : Sock) :
    (stackEvent ready ev v).selectBits = v.selectBits := by
  unfold stackEvent
  split <;> rfl

theorem stackEvent_socketSet (ready ev : Bits) (v : Sock) :
    (stackEvent ready ev v).socketSet = v.socketSet := by
  unfold stackEvent
  split <;> rfl

/-! ### The invariant -/

/-- The task has registered interest in its socket: between `FreeRTOS_FD_SET` and `FreeRTOS_FD_CLR`. -/
def Pc.waits : Pc → ℕ → Bool
  | .select f (.check j), i => f.req.names i && i < j
  | .select f (.setOrClr j), i => f.req.names i && i < j
  | .select f .wait, i => f.req.names i
  | .select f (.checkOut j), i => f.req.names i && j ≤ i
  | .select f (.isSet j), i => f.req.names i && j ≤ i
  | .select f (.clr j), i => f.req.names i && j ≤ i
  | _, _ => false

def Local.waits (l : Local) (i : ℕ) : Bool := l.held i && l.pc.waits i

/-- The slot that the next FreeRTOS call of a `select` is on. -/
def Pc.visits : Pc → Option ℕ
  | .select _ (.setOrClr i) => some i
  | .select _ (.isSet i) => some i
  | .select _ (.clr i) => some i
  | _ => none

/-- The task waits for the socket. -/
def State.WaitsOn (s : State) (t : TaskId) (k : ℕ) : Prop :=
  ∃ i, (s.task t).waits i = true ∧ (s.slots i).sock = some k

/-- How many slots a `select` has looked at behind its wait. -/
def SelectPc.looked : SelectPc → Option ℕ
  | .checkOut i => some i
  | .isSet i => some i
  | .clr i => some (i + 1)
  | _ => none

/-- A task in a `select` has its interest registered, and no other. -/
structure Registered (s : State) (t : TaskId) (f : Frame) (p : SelectPc) : Prop where
  set : s.selectSets[f.sel]? = some t
  stale : ∀ {i}, f.req.names i = true → (s.task t).held i = false → (s.slots i).inUse = false
  visits : ∀ {i}, (Pc.select f p).visits = some i →
    i < f.req.upper ∧ (f.req.names i = true → (s.task t).held i = true)
  marks : ∀ {i k}, (s.task t).held i = true → (Pc.select f p).waits i = true →
    (s.slots i).sock = some k →
    (s.socks k).selectBits = f.req.asks i ∧ (s.socks k).socketSet = some f.sel

/-- What a `select` has found so far, and what it will find. -/
structure Found (s : State) (t : TaskId) (f : Frame) (p : SelectPc) : Prop where
  before : p.looked = none → (∀ i, f.out i = .none) ∧ f.nready = 0
  upper : ∀ {n}, p.looked = some n → n ≤ f.req.upper
  out : ∀ {n}, p.looked = some n → ∀ i, f.out i = if i < n then f.wanted i else .none
  nready : ∀ {n}, p.looked = some n → f.nready = ((List.range n).map fun j => (f.out j).count).sum
  unread : ∀ {n i k}, p.looked = some n → n ≤ i → (s.task t).held i = true →
    (s.slots i).sock = some k → (f.req.asks i).and (s.socks k).socketBits = f.wanted i
  unasked : ∀ {n i}, p.looked = some n → (s.task t).held i = false ∨ f.req.asks i = .none →
    f.wanted i = .none

structure Inv (s : State) : Prop where
  table : Table s
  registered : ∀ {t f p}, (s.task t).pc = .select f p → Registered s t f p
  found : ∀ {t f p}, (s.task t).pc = .select f p → Found s t f p
  io : ∀ {t i ready}, (s.task t).pc = .io i ready → (s.task t).held i = true
  quiet : ∀ {k}, (∀ t, ¬ s.WaitsOn t k) → (s.socks k).Quiet

theorem boot_inv : Inv boot where
  table := boot_table
  registered h := nomatch h
  found h := nomatch h
  io h := nomatch h
  quiet _ := ⟨rfl, rfl⟩

/-! ### Steps outside a `select` -/

variable {s s' : State} {t : TaskId}

/-- A slot that a task holds is one it uses. -/
theorem Local.stage_ne_none {l : Local} {i : ℕ} (hi : l.held i = true) : l.stage i ≠ .none := by
  have hup : l.stage i = .up := if_pos hi
  rw [hup]
  exact Stage.noConfusion

theorem Table.up_of_held (h : Table s) {i : ℕ} (hi : (s.task t).held i = true) :
    ∃ k, (s.slots i).sock = some k ∧ s.IsOpen k := h.up (if_pos hi)

theorem Table.inUse_of_held (h : Table s) {i : ℕ} (hi : (s.task t).held i = true) :
    (s.slots i).inUse = true := h.inUse (Local.stage_ne_none hi)

/-- A slot in use that the `select` asks for is one its task holds. -/
theorem Registered.held_of_inUse {f : Frame} {p : SelectPc} (h : Registered s t f p) {i : ℕ}
    (hnames : f.req.names i = true) (huse : (s.slots i).inUse = true) : (s.task t).held i = true := by
  by_contra hheld
  rw [h.stale hnames (Bool.of_not_eq_true hheld)] at huse
  exact Bool.noConfusion huse

theorem held_of_waits {l : Local} {i : ℕ} (h : l.waits i = true) : l.held i = true :=
  (Bool.and_eq_true_iff.mp h).1

/-- Before its wait a `select` has found nothing. -/
theorem found_of_before {f : Frame} {p : SelectPc} (hp : p.looked = none)
    (h : (∀ i, f.out i = .none) ∧ f.nready = 0) : Found s t f p where
  before _ := h
  upper hn := by simp [hp] at hn
  out hn := by simp [hp] at hn
  nready hn := by simp [hp] at hn
  unread hn := by simp [hp] at hn
  unasked hn := by simp [hp] at hn

/-- What a task in a `select` relies on: its own slots and their marks. -/
theorem Registered.frame {u : TaskId} {f : Frame} {p : SelectPc} (h : Registered s u f p)
    (hlocal : s'.task u = s.task u)
    (hset : s.selectSets[f.sel]? = some u → s'.selectSets[f.sel]? = some u)
    (hstale : ∀ i, f.req.names i = true → (s.slots i).inUse = false → (s'.slots i).inUse = false)
    (hsock : ∀ i, (s.task u).held i = true → (s'.slots i).sock = (s.slots i).sock)
    (hmarks : ∀ i k, (s.task u).held i = true → (s.slots i).sock = some k →
      (s'.socks k).marks = (s.socks k).marks) : Registered s' u f p where
  set := hset h.set
  stale {i} hi hheld := by
    rw [hlocal] at hheld
    exact hstale i hi (h.stale hi hheld)
  visits hi := by
    rw [hlocal]
    exact h.visits hi
  marks {i k} hheld hi hk := by
    rw [hlocal] at hheld
    rw [hsock i hheld] at hk
    have hold := h.marks hheld hi hk
    have hm := hmarks i k hheld hk
    simp only [Sock.marks, Prod.mk.injEq] at hm
    rw [hm.1, hm.2.1]
    exact hold

theorem Found.frame {u : TaskId} {f : Frame} {p : SelectPc} (h : Found s u f p)
    (hlocal : s'.task u = s.task u)
    (hsock : ∀ i, (s.task u).held i = true → (s'.slots i).sock = (s.slots i).sock)
    (hmarks : ∀ i k, (s.task u).held i = true → (s.slots i).sock = some k →
      (s'.socks k).marks = (s.socks k).marks) : Found s' u f p where
  before := h.before
  upper := h.upper
  out := h.out
  nready := h.nready
  unread {n i k} hn hi hheld hk := by
    rw [hlocal] at hheld
    rw [hsock i hheld] at hk
    have hm := hmarks i k hheld hk
    simp only [Sock.marks, Prod.mk.injEq] at hm
    rw [hm.2.2]
    exact h.unread hn hi hheld hk
  unasked := by
    rw [hlocal]
    exact h.unasked

/-- A step of a task outside its `select`, as a `select` of the other one sees it. -/
structure Aside (s : State) (t : TaskId) (s' : State) : Prop where
  notSelect : ∀ f p, (s.task t).pc ≠ .select f p
  other : ∀ {u}, u ≠ t → s'.task u = s.task u
  sets : ∀ {j : ℕ} {u}, s.selectSets[j]? = some u → s'.selectSets[j]? = some u
  inUse : ∀ {i}, (s.task t.other).pc.names i = true → (s.slots i).inUse = false →
    (s'.slots i).inUse = false
  sock : ∀ {u i}, u ≠ t → (s.task u).held i = true → (s'.slots i).sock = (s.slots i).sock
  marks : ∀ {u i k}, u ≠ t → (s.task u).held i = true → (s.slots i).sock = some k →
    (s'.socks k).marks = (s.socks k).marks
  quiet : ∀ {k}, (s.socks k).Quiet → (s'.socks k).Quiet

/-- Only a task in a `select` waits. -/
theorem select_of_waits {pc : Pc} {i : ℕ} (h : pc.waits i = true) : ∃ f p, pc = .select f p := by
  cases pc with
  | select f p => exact ⟨f, p, rfl⟩
  | _ => exact Bool.noConfusion h

theorem Inv.aside (h : Inv s) (ha : Aside s t s') (ht : Table s')
    (hselect : ∀ {f p}, (s'.task t).pc = .select f p → Registered s' t f p ∧ Found s' t f p)
    (hio : ∀ {i ready}, (s'.task t).pc = .io i ready → (s'.task t).held i = true) : Inv s' where
  table := ht
  registered {u f p} hpc := by
    by_cases hu : u = t
    · subst hu
      exact (hselect hpc).1
    · have hother := ha.other hu
      rw [hother] at hpc
      refine (h.registered hpc).frame hother ha.sets (fun i hi => ha.inUse ?_) (fun i => ha.sock hu)
        fun i k => ha.marks hu
      rw [← TaskId.eq_other hu, hpc]
      exact hi
  found {u f p} hpc := by
    by_cases hu : u = t
    · subst hu
      exact (hselect hpc).2
    · have hother := ha.other hu
      rw [hother] at hpc
      exact (h.found hpc).frame hother (fun i => ha.sock hu) fun i k => ha.marks hu
  io {u i ready} hpc := by
    by_cases hu : u = t
    · subst hu
      exact hio hpc
    · rw [ha.other hu] at hpc ⊢
      exact h.io hpc
  quiet {k} hk := by
    refine ha.quiet (h.quiet fun u hu => ?_)
    obtain ⟨i, hi, hsock⟩ := hu
    have hut : u ≠ t := by
      rintro rfl
      obtain ⟨f, p, hpc⟩ := select_of_waits (Bool.and_eq_true_iff.mp hi).2
      exact ha.notSelect f p hpc
    refine hk u ⟨i, ?_, ?_⟩
    · rw [ha.other hut, hi]
    · rw [ha.sock hut (held_of_waits hi), hsock]

/-- A step that leaves the slots and the sets, and changes no marks. -/
theorem aside_of_same (hpc : ∀ f p, (s.task t).pc ≠ .select f p)
    (hother : ∀ {u}, u ≠ t → s'.task u = s.task u) (hslots : s'.slots = s.slots)
    (hsets : s'.selectSets = s.selectSets)
    (hmarks : ∀ k, (s'.socks k).marks = (s.socks k).marks) : Aside s t s' where
  notSelect := hpc
  other := hother
  sets hj := by rwa [hsets]
  inUse _ hi := by rwa [hslots]
  sock _ _ := by rw [hslots]
  marks _ _ _ := hmarks _
  quiet {k} hk := by
    have hm := hmarks k
    simp only [Sock.marks, Prod.mk.injEq] at hm
    rw [Sock.Quiet, hm.1, hm.2.1]
    exact hk

/-- A step that changes one slot, which the other task does not hold. -/
theorem aside_of_setSlot {i : ℕ} (sl : Slot) (hpc : ∀ f p, (s.task t).pc ≠ .select f p)
    (hother : ∀ {u}, u ≠ t → s'.task u = s.task u) (hslots : s'.slots = Function.update s.slots i sl)
    (hsets : s'.selectSets = s.selectSets) (hsocks : s'.socks = s.socks)
    (hinUse : (s.task t.other).pc.names i = true → (s.slots i).inUse = false → sl.inUse = false)
    (hsock : (s.task t.other).held i = true → sl.sock = (s.slots i).sock) : Aside s t s' where
  notSelect := hpc
  other := hother
  sets hj := by rwa [hsets]
  inUse {j} hj hi := by
    rw [hslots]
    by_cases hji : j = i
    · subst hji
      rw [Function.update_self]
      exact hinUse hj hi
    · rwa [Function.update_of_ne hji]
  sock {u j} hu hheld := by
    rw [hslots]
    by_cases hji : j = i
    · subst hji
      rw [TaskId.eq_other hu] at hheld
      rw [Function.update_self]
      exact hsock hheld
    · rw [Function.update_of_ne hji]
  marks _ _ _ := by rw [hsocks]
  quiet hk := by rwa [hsocks]

theorem setSock_marks {k : ℕ} {v : Sock} (hv : v.marks = (s.socks k).marks) (m : ℕ) :
    ((s.setSock k v).socks m).marks = (s.socks m).marks := by
  rw [setSock_socks]
  by_cases hm : m = k
  · rw [hm, Function.update_self, hv]
  · rw [Function.update_of_ne hm]

/-- The socket of a slot that no task holds and waits for has no interest registered. -/
theorem Inv.quiet_of_slot (h : Inv s) {i k : ℕ} (hk : (s.slots i).sock = some k)
    (hwaits : ∀ u, (s.task u).waits i = false) : (s.socks k).Quiet := by
  refine h.quiet ?_
  rintro u ⟨j, hj, hjk⟩
  obtain rfl := h.table.distinct hjk hk
  rw [hwaits u] at hj
  exact Bool.noConfusion hj

/-- A socket that nobody waits on when a task has moved, and that it did not wait on before, is quiet. -/
theorem Inv.quiet_of_moved (h : Inv s) (hne : ∀ {u}, u ≠ t → s'.task u = s.task u)
    (hslots : s'.slots = s.slots) {k : ℕ} (hk : ∀ u, ¬ s'.WaitsOn u k)
    (hself : ∀ {i}, (s.slots i).sock = some k → (s.task t).waits i = true →
      (s'.task t).waits i = true) : (s.socks k).Quiet := by
  refine h.quiet fun u hu => hk u ?_
  obtain ⟨i, hi, hsock⟩ := hu
  refine ⟨i, ?_, by rw [hslots, hsock]⟩
  by_cases hut : u = t
  · subst hut
    exact hself hsock hi
  · rw [hne hut, hi]

theorem waits_of_not_select {l : Local} (hpc : ∀ f p, l.pc ≠ .select f p) (i : ℕ) :
    l.waits i = false := by
  by_contra hi
  obtain ⟨f, p, hp⟩ := select_of_waits (Bool.and_eq_true_iff.mp (Bool.of_not_eq_false hi)).2
  exact hpc f p hp

/-- Nobody waits for a slot that a task is closing. -/
theorem Inv.waits_of_slot (h : Inv s) {i : ℕ} (hslot : (s.task t).stage i ≠ .none)
    (hpc : ∀ f p, (s.task t).pc ≠ .select f p) (u : TaskId) : (s.task u).waits i = false := by
  by_contra hi
  have hheld := held_of_waits (Bool.of_not_eq_false hi)
  obtain rfl : u = t := h.table.one (Local.stage_ne_none hheld) hslot
  exact hi (waits_of_not_select hpc i)

/-- The stage of the slot that a `socket` or a `close` works on. -/
theorem Inv.place_stage (h : Inv s) {i : ℕ} (hi : (s.task t).pc.place.slot = some i) :
    (s.task t).stage i = (s.task t).pc.place.stage i := by
  rw [Local.stage, h.table.released hi]
  rfl

theorem run_aside (h : Inv s) (hpc : ∀ f p, (s.task t).pc ≠ .select f p)
    (hnull : ∀ i, (s.task t).pc = .sockNull i → (s.task t.other).stage i ≠ .up)
    (hs : run s t = some s') : Aside s t s' ∧ (∀ f p, (s'.task t).pc ≠ .select f p) ∧
      ∀ i ready, (s'.task t).pc ≠ .io i ready := by
  unfold run at hs
  cases hp : (s.task t).pc with
  | idle => simp [hp] at hs
  | take k =>
    simp only [hp, Option.ite_none_right_eq_some, Option.some.injEq] at hs
    obtain ⟨-, rfl⟩ := hs
    exact ⟨aside_of_same hpc (goto_ne _ _ _) rfl rfl fun _ => rfl, by simp⟩
  | scan k i =>
    simp only [hp] at hs
    split_ifs at hs with hi huse hnames
    · obtain rfl := Option.some.inj hs
      exact ⟨aside_of_same hpc (goto_ne _ _ _) rfl rfl fun _ => rfl, by simp⟩
    · obtain rfl := Option.some.inj hs
      exact ⟨aside_of_setSlot { s.slots i with inUse := true } hpc (goto_ne _ _ _) rfl rfl rfl
        (fun hn => absurd hn hnames) fun _ => rfl, by simp⟩
    · obtain rfl := Option.some.inj hs
      exact ⟨aside_of_same hpc (goto_ne _ _ _) rfl rfl fun _ => rfl, by simp⟩
  | store k i =>
    simp only [hp] at hs
    obtain rfl := Option.some.inj hs
    have hstage : (s.task t).stage i ≠ .none := by
      rw [h.place_stage (by rw [hp]; rfl), hp]
      simp [Pc.place, Place.stage]
    refine ⟨aside_of_setSlot { s.slots i with sock := some k } hpc
      (fun hu => (setHeld_ne _ _ _ _ hu).trans (goto_ne _ _ _ hu)) rfl rfl rfl (fun _ hi => hi)
      fun hheld => ?_, by simp⟩
    -- the other task does not hold a slot that is taken
    exact absurd (h.table.one (Local.stage_ne_none hheld) hstage) t.other_ne
  | drop k =>
    simp only [hp] at hs
    obtain rfl := Option.some.inj hs
    exact ⟨aside_of_same hpc (goto_ne _ _ _) rfl rfl (setSock_marks rfl), by simp⟩
  | clrAll i j =>
    simp only [hp] at hs
    have hstage : (s.task t).stage i = .up := by
      rw [h.place_stage (by rw [hp]; rfl), hp]
      simp [Pc.place, Place.stage]
    obtain ⟨k, hk, -⟩ := h.table.up hstage
    have hquiet := h.quiet_of_slot hk (h.waits_of_slot (by rw [hstage]; exact Stage.noConfusion) hpc)
    split_ifs at hs
    · obtain rfl := Option.some.inj hs
      rw [onSock_of_some _ hk, fdClr_of_quiet hquiet]
      exact ⟨aside_of_same hpc (goto_ne _ _ _) rfl rfl (setSock_marks rfl), by simp⟩
    · obtain rfl := Option.some.inj hs
      exact ⟨aside_of_same hpc (goto_ne _ _ _) rfl rfl fun _ => rfl, by simp⟩
    · obtain rfl := Option.some.inj hs
      exact ⟨aside_of_same hpc (goto_ne _ _ _) rfl rfl fun _ => rfl, by simp⟩
  | closesocket i =>
    simp only [hp] at hs
    obtain rfl := Option.some.inj hs
    refine ⟨aside_of_same hpc (fun hu => ?_) (by simp) (by simp)
      (onValid_keeps i Sock.marks fun _ => rfl), by simp⟩
    rw [goto_ne _ _ _ hu, onValid_task]
  | notInUse i =>
    simp only [hp] at hs
    obtain rfl := Option.some.inj hs
    exact ⟨aside_of_setSlot { s.slots i with inUse := false } hpc (goto_ne _ _ _) rfl rfl rfl
      (fun _ _ => rfl) fun _ => rfl, by simp⟩
  | sockNull i =>
    simp only [hp] at hs
    obtain rfl := Option.some.inj hs
    refine ⟨aside_of_setSlot { s.slots i with sock := none } hpc (goto_ne _ _ _) rfl rfl rfl
      (fun _ hi => hi) fun hheld => ?_, by simp⟩
    exact absurd (if_pos hheld) (hnull i hp)
  | io i ready =>
    simp only [hp] at hs
    obtain rfl := Option.some.inj hs
    refine ⟨aside_of_same hpc (fun hu => ?_) (by simp) (by simp)
      (onValid_keeps i Sock.marks fun _ => rfl), by simp⟩
    rw [goto_ne _ _ _ hu, onValid_task]
  | select f p => exact absurd hp (hpc f p)

theorem Inv.run_other (h : Inv s) (hpc : ∀ f p, (s.task t).pc ≠ .select f p)
    (hnull : ∀ i, (s.task t).pc = .sockNull i → (s.task t.other).stage i ≠ .up)
    (hs : run s t = some s') : Inv s' := by
  obtain ⟨haside, hselect, hio⟩ := run_aside h hpc hnull hs
  exact h.aside haside (h.table.run hnull hs) (fun hp => absurd hp (hselect _ _))
    fun hp => absurd hp (hio _ _)

/-- The set of a task stays its own. -/
theorem prvTaskSelectSet_some {sets sets' : List TaskId} {created : Bool} {sel : ℕ}
    (h : prvTaskSelectSet sets t created = (sets', some sel)) :
    sets'[sel]? = some t ∧ ∀ (j : ℕ) (u : TaskId), sets[j]? = some u → sets'[j]? = some u := by
  unfold prvTaskSelectSet at h
  split at h
  · rename_i i hi
    simp only [Prod.mk.injEq, Option.some.injEq] at h
    obtain ⟨rfl, rfl⟩ := h
    obtain ⟨hlt, hget, -⟩ := List.findIdx?_eq_some_iff_getElem.mp hi
    refine ⟨?_, fun _ _ hj => hj⟩
    rw [List.getElem?_eq_getElem hlt, eq_of_beq hget]
  · split_ifs at h with hnew
    · simp only [Prod.mk.injEq, Option.some.injEq] at h
      obtain ⟨rfl, rfl⟩ := h
      refine ⟨by simp, fun j u hj => ?_⟩
      rw [List.getElem?_append_left (List.getElem?_eq_some_iff.mp hj).1, hj]
    · simp at h

theorem Inv.call (h : Inv s) (hidle : (s.task t).pc = .idle) {c : Call}
    (hs : Shim.call s t c = some s') : Inv s' := by
  have haway : (s.task t).pc.place = .away := by rw [hidle]; rfl
  have hpc (f : Frame) (p : SelectPc) : (s.task t).pc ≠ .select f p := by
    rw [hidle]
    exact Pc.noConfusion
  have htable := h.table.call hidle hs
  obtain rfl | ⟨isTcp, -, rfl⟩ | ⟨fd, i, -, -, -, rfl⟩ | ⟨fd, i, ready, -, hi, hmay, rfl⟩ |
    ⟨q, created, sets, sel, -, -, hmay, hsets, rfl⟩ := call_cases hs
  · exact h
  · refine h.aside ⟨hpc, goto_ne _ _ _, fun hj => hj, fun _ hi => hi, fun _ _ => rfl,
      fun {u i k} _ _ hk => ?_, fun {k} hk => ?_⟩ htable (by simp) (by simp)
    · simp only [goto_socks]
      rw [Function.update_of_ne (Nat.ne_of_lt (h.table.made hk))]
    · simp only [goto_socks]
      by_cases hkm : k = s.made
      · rw [hkm, Function.update_self]
        exact ⟨rfl, rfl⟩
      · rwa [Function.update_of_ne hkm]
  · exact h.aside (aside_of_same hpc (fun hu => (setHeld_ne _ _ _ _ hu).trans (goto_ne _ _ _ hu)) rfl
      rfl fun _ => rfl) htable (by simp) (by simp)
  · refine h.aside (aside_of_same hpc (goto_ne _ _ _) rfl rfl fun _ => rfl) htable (by simp)
      fun {j r} hp => ?_
    rw [goto_self] at hp ⊢
    obtain ⟨rfl, -⟩ := Pc.io.inj hp
    exact h.table.mine haway (prvSlot_some hi) hmay
  · obtain ⟨hself, hkeep⟩ := prvTaskSelectSet_some hsets
    refine h.aside ⟨hpc, goto_ne _ _ _, fun {j u} => hkeep j u, fun _ hi => hi, fun _ _ => rfl,
      fun _ _ _ => rfl, fun hk => hk⟩ htable (fun {f p} hp => ?_) (by simp)
    rw [goto_self] at hp
    obtain ⟨rfl, rfl⟩ := Pc.select.inj hp
    refine ⟨⟨hself, fun {i} hi hheld => ?_, by simp [Pc.visits], fun _ hi => ?_⟩,
      found_of_before rfl ⟨fun _ => rfl, rfl⟩⟩
    · rw [goto_held] at hheld
      by_contra huse
      have hlt := Nat.lt_of_lt_of_le (Request.lt_of_names hi) (Nat.min_le_right _ _)
      have hmine := h.table.mine haway (Bool.of_not_eq_false huse) (hmay i hlt hi)
      rw [hheld] at hmine
      exact Bool.noConfusion hmine
    · simp [Pc.waits] at hi

end IotcRa8p1.Kvs.Shim
