import IotcRa8p1.Kvs.Shim

/-!
# The slots, their sockets and their users

`Table` says who uses which slot: a slot is marked in use exactly while one task is between taking it in
`socket` and giving it up in `close`, the socket of a slot that is up is open, and no socket is in two
slots.  Every step keeps it, except a `close` that stores its NULL over the handle of a new socket.
-/

namespace IotcRa8p1.Kvs.Shim

def State.IsOpen (s : State) (k : ℕ) : Prop := k < s.made ∧ (s.socks k).closed = false

theorem TaskId.eq_other {t u : TaskId} (h : u ≠ t) : u = t.other := by
  cases t <;> cases u <;> first | rfl | exact absurd rfl h

theorem TaskId.other_ne (t : TaskId) : t.other ≠ t := by
  cases t <;> exact TaskId.noConfusion

/-! ### The table -/

/-- The socket that a running `socket` has made and not stored. -/
def Place.carried : Place → Option ℕ
  | .carrying k => some k
  | .taken k _ => some k
  | _ => none

/-- The slot that a running `socket` or `close` changes. -/
def Place.slot : Place → Option ℕ
  | .taken _ i => some i
  | .up i => some i
  | .down i => some i
  | .nulling i => some i
  | _ => none

/-- A slot is in use while one task uses it. -/
structure Users (s : State) : Prop where
  inUse : ∀ {t i}, (s.task t).stage i ≠ .none → (s.slots i).inUse = true
  used : ∀ {i}, (s.slots i).inUse = true → i < maxSockets ∧ ∃ t, (s.task t).stage i ≠ .none
  one : ∀ {t u i}, (s.task t).stage i ≠ .none → (s.task u).stage i ≠ .none → t = u

/-- A slot that is up has an open socket, and a socket is in one place. -/
structure Handles (s : State) : Prop where
  up : ∀ {t i}, (s.task t).stage i = .up → ∃ k, (s.slots i).sock = some k ∧ s.IsOpen k
  made : ∀ {i k}, (s.slots i).sock = some k → k < s.made
  distinct : ∀ {i j k}, (s.slots i).sock = some k → (s.slots j).sock = some k → i = j
  carried : ∀ {t k}, (s.task t).pc.place.carried = some k →
    s.IsOpen k ∧ ∀ i, (s.slots i).sock ≠ some k
  oneCarries : ∀ {t u k}, (s.task t).pc.place.carried = some k →
    (s.task u).pc.place.carried = some k → t = u

structure Table (s : State) : Prop extends Users s, Handles s where
  released : ∀ {t i}, (s.task t).pc.place.slot = some i → (s.task t).held i = false

theorem boot_table : Table boot where
  inUse h := absurd rfl h
  used h := Bool.noConfusion h
  one h := absurd rfl h
  up h := Stage.noConfusion h
  made h := absurd h (by simp [boot])
  distinct h := absurd h (by simp [boot])
  carried h := absurd h (by simp [boot, Pc.place, Place.carried])
  oneCarries h := absurd h (by simp [boot, Pc.place, Place.carried])
  released h := absurd h (by simp [boot, Pc.place, Place.slot])

variable {s s' : State} {t : TaskId}

theorem prvSlot_some {fd i : ℕ} (h : prvSlot s fd = some i) : (s.slots i).inUse = true := by
  simp only [prvSlot, Option.ite_none_right_eq_some, Option.some.injEq] at h
  obtain ⟨⟨-, -, hi⟩, rfl⟩ := h
  exact hi

/-- **Call.**  It returns at once and leaves everything as it is, or it starts. -/
theorem call_cases {c : Call} (h : Shim.call s t c = some s') :
    s' = s ∨
    (∃ isTcp, c = .socket isTcp true ∧
      s' = { s with socks := Function.update s.socks s.made (.new isTcp), made := s.made + 1 }.goto t
        (.take s.made)) ∨
    (∃ fd i, c = .close fd ∧ prvSlot s fd = some i ∧ s.mayName t i = true ∧
      s' = (s.goto t (.clrAll i 0)).setHeld t i false) ∨
    (∃ fd i ready, c = .io fd ready ∧ prvSlot s fd = some i ∧ s.mayName t i = true ∧
      s' = s.goto t (.io i ready)) ∨
    (∃ q created sets sel, c = .select q created ∧ s.lock = none ∧
      (∀ i < maxSockets, q.names i = true → s.mayName t i = true) ∧
      prvTaskSelectSet s.selectSets t created = (sets, some sel) ∧
      s' = { s with selectSets := sets }.goto t
        (.select ⟨q, sel, fun _ => .none, 0, fun _ => .none⟩ (.check 0))) := by
  cases c with
  | socket isTcp made =>
    simp only [Shim.call] at h
    split_ifs at h with hmade
    · exact Or.inr (Or.inl ⟨isTcp, by rw [hmade], (Option.some.inj h).symm⟩)
    · exact Or.inl (Option.some.inj h).symm
  | close fd =>
    simp only [Shim.call] at h
    split at h
    · rename_i i hi
      simp only [Option.ite_none_right_eq_some, Option.some.injEq] at h
      exact Or.inr (Or.inr (Or.inl ⟨fd, i, rfl, hi, h.1, h.2.symm⟩))
    · exact Or.inl (Option.some.inj h).symm
  | io fd ready =>
    simp only [Shim.call] at h
    split at h
    · rename_i i hi
      simp only [Option.ite_none_right_eq_some, Option.some.injEq] at h
      exact Or.inr (Or.inr (Or.inr (Or.inl ⟨fd, i, ready, rfl, hi, h.1, h.2.symm⟩)))
    · exact Or.inl (Option.some.inj h).symm
  | select q created =>
    simp only [Shim.call, Option.ite_none_right_eq_some] at h
    obtain ⟨⟨hlock, hmay⟩, h⟩ := h
    split at h
    · rename_i sets sel hsets
      exact Or.inr (Or.inr (Or.inr (Or.inr
        ⟨q, created, sets, sel, rfl, hlock, hmay, hsets, (Option.some.inj h).symm⟩)))
    · exact Or.inl (Option.some.inj h).symm

theorem State.IsOpen.setSock {k m : ℕ} {v : Sock} (hmo : s.IsOpen m) (hm : m ≠ k) :
    (s.setSock k v).IsOpen m := by
  refine ⟨hmo.1, ?_⟩
  rw [setSock_socks, Function.update_of_ne hm]
  exact hmo.2

/-- A slot that one task uses is not the other's. -/
theorem Users.alone (h : Users s) {u : TaskId} {i : ℕ} (ht : (s.task t).stage i ≠ .none) (hu : u ≠ t) :
    (s.task u).stage i = .none := by
  by_contra hun
  exact hu (h.one hun ht)

/-- A slot that is up is not one that nobody has up. -/
theorem ne_of_up {u : TaskId} {i j : ℕ} (hat : (s.task t).stage i ≠ .up)
    (helse : ∀ {v}, v ≠ t → (s.task v).stage i = .none) (hu : (s.task u).stage j = .up) : j ≠ i := by
  intro hj
  rw [hj] at hu
  by_cases hut : u = t
  · exact hat (hut ▸ hu)
  · rw [helse hut] at hu
    exact Stage.noConfusion hu

/-! ### One task moves -/

section Moved

variable (hne : ∀ {u : TaskId}, u ≠ t → s'.task u = s.task u)
include hne

theorem stages_of_moved (hself : (s'.task t).stage = (s.task t).stage) (u : TaskId) :
    (s'.task u).stage = (s.task u).stage := by
  by_cases hu : u = t
  · rw [hu, hself]
  · rw [hne hu]

theorem stage_of_moved {i : ℕ} (hself : ∀ {j}, j ≠ i → (s'.task t).stage j = (s.task t).stage j)
    (u : TaskId) {j : ℕ} (hj : j ≠ i) : (s'.task u).stage j = (s.task u).stage j := by
  by_cases hu : u = t
  · rw [hu, hself hj]
  · rw [hne hu]

/-- The task that moved carries nothing any more. -/
theorem carried_of_moved (hself : (s'.task t).pc.place.carried = none) {u : TaskId} {k : ℕ}
    (hk : (s'.task u).pc.place.carried = some k) : u ≠ t ∧ (s.task u).pc.place.carried = some k := by
  by_cases hu : u = t
  · rw [hu, hself] at hk
    exact nomatch hk
  · rw [hne hu] at hk
    exact ⟨hu, hk⟩

theorem Table.released_of_moved (h : Table s)
    (hself : ∀ {i}, (s'.task t).pc.place.slot = some i → (s'.task t).held i = false) {u : TaskId} {i : ℕ}
    (hi : (s'.task u).pc.place.slot = some i) : (s'.task u).held i = false := by
  by_cases hu : u = t
  · rw [hu] at hi ⊢
    exact hself hi
  · rw [hne hu] at hi ⊢
    exact h.released hi

end Moved

/-- One slot changes hands: only the task that moves uses it then, if any. -/
theorem Users.hand (h : Users s) {i : ℕ} (hi : i < maxSockets)
    (hother : ∀ u {j}, j ≠ i → (s'.task u).stage j = (s.task u).stage j)
    (helse : ∀ {u}, u ≠ t → (s'.task u).stage i = .none)
    (hinUse : ∀ {j}, j ≠ i → (s'.slots j).inUse = (s.slots j).inUse)
    (hself : (s'.slots i).inUse = true ↔ (s'.task t).stage i ≠ .none) : Users s' := by
  have hmover {u : TaskId} (hu : (s'.task u).stage i ≠ .none) : u = t := by
    by_contra hut
    exact hu (helse hut)
  refine ⟨fun {u j} hu => ?_, fun {j} hj => ?_, fun {u v j} hu hv => ?_⟩
  · by_cases hj : j = i
    · subst hj
      obtain rfl := hmover hu
      exact hself.mpr hu
    · rw [hother u hj] at hu
      rw [hinUse hj]
      exact h.inUse hu
  · by_cases hji : j = i
    · subst hji
      exact ⟨hi, t, hself.mp hj⟩
    · rw [hinUse hji] at hj
      obtain ⟨hlt, u, hu⟩ := h.used hj
      exact ⟨hlt, u, by rwa [hother u hji]⟩
  · by_cases hj : j = i
    · subst hj
      rw [hmover hu, hmover hv]
    · rw [hother u hj] at hu
      rw [hother v hj] at hv
      exact h.one hu hv

/-- No handle moves, and a socket that is up or carried behind the step was so before and stays open. -/
theorem Handles.mono (h : Handles s) (hsock : ∀ i, (s'.slots i).sock = (s.slots i).sock)
    (hmade : s'.made = s.made)
    (hup : ∀ {u i}, (s'.task u).stage i = .up →
      (s.task u).stage i = .up ∧ ∀ k, (s.slots i).sock = some k → s.IsOpen k → s'.IsOpen k)
    (hcarried : ∀ {u k}, (s'.task u).pc.place.carried = some k →
      (s.task u).pc.place.carried = some k ∧ (s.IsOpen k → s'.IsOpen k)) : Handles s' where
  up {u i} hu := by
    obtain ⟨hold, hopen⟩ := hup hu
    obtain ⟨k, hk, hko⟩ := h.up hold
    exact ⟨k, by rw [hsock, hk], hopen k hk hko⟩
  made {i k} hk := by
    rw [hsock] at hk
    exact hmade ▸ h.made hk
  distinct {i j k} hi hj := by
    rw [hsock] at hi hj
    exact h.distinct hi hj
  carried {u k} hk := by
    obtain ⟨hold, hopen⟩ := hcarried hk
    exact ⟨hopen (h.carried hold).1, fun i => hsock i ▸ (h.carried hold).2 i⟩
  oneCarries hu hv := h.oneCarries (hcarried hu).1 (hcarried hv).1

namespace Table

/-- The stages and the sockets carried stay; a slot that is not up may lose its handle. -/
theorem of_stage (h : Table s) (hstage : ∀ u, (s'.task u).stage = (s.task u).stage)
    (hcarried : ∀ u, (s'.task u).pc.place.carried = (s.task u).pc.place.carried)
    (hreleased : ∀ {u i}, (s'.task u).pc.place.slot = some i → (s'.task u).held i = false)
    (hinUse : ∀ i, (s'.slots i).inUse = (s.slots i).inUse)
    (hsock : ∀ {i k}, (s'.slots i).sock = some k → (s.slots i).sock = some k)
    (hup : ∀ {u i}, (s.task u).stage i = .up → (s'.slots i).sock = (s.slots i).sock)
    (hopen : ∀ k, s'.IsOpen k ↔ s.IsOpen k) (hmade : s'.made = s.made) : Table s' where
  inUse {u i} hu := by
    rw [hstage] at hu
    rw [hinUse]
    exact h.inUse hu
  used {i} hi := by
    rw [hinUse] at hi
    simp only [hstage]
    exact h.used hi
  one {u v i} hu hv := by
    rw [hstage] at hu hv
    exact h.one hu hv
  up {u i} hu := by
    rw [hstage] at hu
    simp only [hup hu, hopen]
    exact h.up hu
  made hk := hmade ▸ h.made (hsock hk)
  distinct hi hj := h.distinct (hsock hi) (hsock hj)
  carried {u k} hk := by
    rw [hcarried] at hk
    exact ⟨(hopen k).mpr (h.carried hk).1, fun i hi => (h.carried hk).2 i (hsock hi)⟩
  oneCarries {u v k} hu hv := by
    rw [hcarried] at hu hv
    exact h.oneCarries hu hv
  released := hreleased

/-- The table looks at the slots, at which sockets are open, and at where the tasks are with them. -/
theorem congr (h : Table s) (hslots : s'.slots = s.slots) (hmade : s'.made = s.made)
    (hclosed : ∀ k, (s'.socks k).closed = (s.socks k).closed)
    (hheld : ∀ u, (s'.task u).held = (s.task u).held)
    (hplace : ∀ u, (s'.task u).pc.place = (s.task u).pc.place) : Table s' := by
  refine h.of_stage (fun u => ?_) (fun u => by rw [hplace]) (fun {u i} hi => ?_)
    (fun i => by rw [hslots]) (fun {i k} hk => by rwa [hslots] at hk) (fun _ => by rw [hslots])
    (fun k => by rw [State.IsOpen, State.IsOpen, hmade, hclosed]) hmade
  · funext i
    rw [Local.stage, Local.stage, hheld, hplace]
  · rw [hplace] at hi
    rw [hheld]
    exact h.released hi

/-- A task goes on within its call. -/
theorem goto (h : Table s) {pc : Pc} (hpc : pc.place = (s.task t).pc.place) : Table (s.goto t pc) := by
  refine h.congr rfl rfl (fun _ => rfl) (fun u => goto_held s t pc u) fun u => ?_
  by_cases hu : u = t
  · rw [hu, goto_self, hpc]
  · rw [goto_ne s t pc hu]

/-- `FreeRTOS_socket` -/
theorem socket (h : Table s) (hidle : (s.task t).pc.place = .away) (isTcp : Bool) :
    Table ({ s with socks := Function.update s.socks s.made (.new isTcp), made := s.made + 1 }.goto t
      (.take s.made)) := by
  set s' := { s with socks := Function.update s.socks s.made (.new isTcp), made := s.made + 1 }.goto t
    (.take s.made)
  have hself : s'.task t = ⟨(s.task t).held, .take s.made⟩ := goto_self ..
  have hne {u : TaskId} (hu : u ≠ t) : s'.task u = s.task u := goto_ne _ _ _ hu
  have hstage (u : TaskId) : (s'.task u).stage = (s.task u).stage := by
    refine stages_of_moved hne ?_ u
    funext i
    rw [hself, Local.stage, Local.stage, hidle]
    rfl
  have hopen {k : ℕ} (hk : s.IsOpen k) : s'.IsOpen k := by
    refine ⟨Nat.lt_succ_of_lt hk.1, ?_⟩
    have hold : s'.socks k = s.socks k := Function.update_of_ne (Nat.ne_of_lt hk.1) ..
    rw [hold, hk.2]
  have hcarried {u : TaskId} {k : ℕ} (hk : (s'.task u).pc.place.carried = some k) :
      u = t ∧ k = s.made ∨ (s.task u).pc.place.carried = some k := by
    by_cases hu : u = t
    · subst hu
      rw [hself] at hk
      exact Or.inl ⟨rfl, (Option.some.inj hk).symm⟩
    · rw [hne hu] at hk
      exact Or.inr hk
  refine ⟨⟨?_, ?_, ?_⟩, ⟨?_, ?_, ?_, ?_, ?_⟩, ?_⟩
  · intro u i
    rw [hstage]
    exact h.inUse
  · intro i
    simp only [hstage]
    exact h.used
  · intro u v i
    rw [hstage, hstage]
    exact h.one
  · intro u i hu
    rw [hstage] at hu
    obtain ⟨k, hk, hko⟩ := h.up hu
    exact ⟨k, hk, hopen hko⟩
  · intro i k hk
    exact Nat.lt_succ_of_lt (h.made hk)
  · intro i j k
    exact h.distinct
  · intro u k hk
    obtain ⟨-, rfl⟩ | hk := hcarried hk
    · refine ⟨⟨Nat.lt_succ_self _, ?_⟩, fun i hi => Nat.lt_irrefl _ (h.made hi)⟩
      have hnew : s'.socks s.made = .new isTcp := Function.update_self ..
      rw [hnew]
      rfl
    · exact ⟨hopen (h.carried hk).1, (h.carried hk).2⟩
  · intro u v k hu hv
    obtain ⟨rfl, rfl⟩ | hu := hcarried hu
    · obtain ⟨rfl, -⟩ | hv := hcarried hv
      · rfl
      · exact absurd (h.carried hv).1.1 (Nat.lt_irrefl _)
    · obtain ⟨-, rfl⟩ | hv := hcarried hv
      · exact absurd (h.carried hu).1.1 (Nat.lt_irrefl _)
      · exact h.oneCarries hu hv
  · apply h.released_of_moved hne
    intro i hi
    rw [hself] at hi
    exact nomatch hi

/-- `close` finds its slot. -/
theorem close (h : Table s) (hidle : (s.task t).pc.place = .away) {i : ℕ}
    (hi : (s.task t).held i = true) : Table ((s.goto t (.clrAll i 0)).setHeld t i false) := by
  set s' := (s.goto t (.clrAll i 0)).setHeld t i false
  have hself : s'.task t = ⟨Function.update (s.task t).held i false, .clrAll i 0⟩ := by
    rw [setHeld_self, goto_self]
  have hne {u : TaskId} (hu : u ≠ t) : s'.task u = s.task u := by
    rw [setHeld_ne _ _ _ _ hu, goto_ne _ _ _ hu]
  refine h.of_stage (fun u => ?_) (fun u => ?_) (fun {u j} hj => ?_) (fun _ => rfl) (fun hk => hk)
    (fun _ => rfl) (fun _ => Iff.rfl) rfl
  · refine stages_of_moved hne ?_ u
    funext j
    rw [hself, Local.stage, Local.stage, hidle]
    by_cases hj : j = i
    · subst hj
      simp [Function.update_self, hi, Pc.place, Place.stage]
    · simp [Pc.place, Place.stage, hj]
  · by_cases hu : u = t
    · subst hu
      rw [hself, hidle]
      rfl
    · rw [hne hu]
  · refine h.released_of_moved hne (fun {m} hm => ?_) hj
    rw [hself] at hm ⊢
    obtain rfl : i = m := Option.some.inj hm
    exact Function.update_self ..

/-- The last store of `close`, over a handle that is not up. -/
theorem sockNull (h : Table s) {i : ℕ} (hpc : (s.task t).pc = .sockNull i)
    (hup : (s.task t.other).stage i ≠ .up) :
    Table ((s.setSlot i { s.slots i with sock := none }).goto t .idle) := by
  set s' := (s.setSlot i { s.slots i with sock := none }).goto t .idle
  have hslot : s'.slots i = { s.slots i with sock := none } := Function.update_self ..
  have hslots {j : ℕ} (hj : j ≠ i) : s'.slots j = s.slots j := Function.update_of_ne hj ..
  have hself : s'.task t = ⟨(s.task t).held, .idle⟩ := goto_self ..
  have hne {u : TaskId} (hu : u ≠ t) : s'.task u = s.task u := goto_ne _ _ _ hu
  refine h.of_stage (fun u => ?_) (fun u => ?_) (fun {u j} hj => ?_) (fun j => ?_)
    (fun {j k} hk => ?_) (fun {u j} hu => ?_) (fun _ => Iff.rfl) rfl
  · refine stages_of_moved hne ?_ u
    funext j
    rw [hself, Local.stage, Local.stage, hpc]
    rfl
  · by_cases hu : u = t
    · subst hu
      rw [hself, hpc]
      rfl
    · rw [hne hu]
  · refine h.released_of_moved hne (fun {m} hm => ?_) hj
    rw [hself] at hm
    exact nomatch hm
  · by_cases hj : j = i
    · rw [hj, hslot]
    · rw [hslots hj]
  · by_cases hj : j = i
    · rw [hj, hslot] at hk
      exact nomatch hk
    · rwa [hslots hj] at hk
  · -- neither task has the slot up
    have hj : j ≠ i := by
      intro hj
      subst hj
      by_cases hut : u = t
      · subst hut
        have hheld : (s.task u).held j = false := h.released (by rw [hpc]; rfl)
        rw [Local.stage, hheld, hpc] at hu
        exact Stage.noConfusion hu
      · rw [TaskId.eq_other hut] at hu
        exact hup hu
    rw [hslots hj]

/-- `socket` takes a free slot. -/
theorem scan (h : Table s) {k n i : ℕ} (hpc : (s.task t).pc = .scan k n) (hi : i < maxSockets)
    (hfree : (s.slots i).inUse = false) :
    Table ((s.setSlot i { s.slots i with inUse := true }).goto t (.store k i)) := by
  set s' := (s.setSlot i { s.slots i with inUse := true }).goto t (.store k i)
  have hslot : s'.slots i = { s.slots i with inUse := true } := Function.update_self ..
  have hslots {j : ℕ} (hj : j ≠ i) : s'.slots j = s.slots j := Function.update_of_ne hj ..
  have hself : s'.task t = ⟨(s.task t).held, .store k i⟩ := goto_self ..
  have hne {u : TaskId} (hu : u ≠ t) : s'.task u = s.task u := goto_ne _ _ _ hu
  have hnone (u : TaskId) : (s.task u).stage i = .none := by
    by_contra hu
    rw [h.inUse hu] at hfree
    exact Bool.noConfusion hfree
  have hheld : (s.task t).held i = false := by
    by_contra hheld
    have hup : (s.task t).stage i = .up := if_pos (Bool.of_not_eq_false hheld)
    rw [hnone] at hup
    exact Stage.noConfusion hup
  have hother (u : TaskId) {j : ℕ} (hj : j ≠ i) : (s'.task u).stage j = (s.task u).stage j := by
    refine stage_of_moved hne (fun {j} hj => ?_) u hj
    rw [hself, Local.stage, Local.stage, hpc]
    simp [Pc.place, Place.stage, hj]
  have hat : (s'.task t).stage i = .taken := by
    rw [hself, Local.stage, hheld]
    simp [Pc.place, Place.stage]
  have hnew {u : TaskId} (hu : u ≠ t) : (s'.task u).stage i = .none := by rw [hne hu, hnone]
  refine ⟨h.hand hi hother hnew (fun hj => by rw [hslots hj]) (by rw [hslot, hat]; simp),
    h.mono (fun j => ?_) rfl (fun {u j} hu => ⟨?_, fun _ _ hk => hk⟩)
      (fun {u k} hk => ⟨?_, fun hk => hk⟩), fun {u j} hj => ?_⟩
  · by_cases hj : j = i
    · rw [hj, hslot]
    · rw [hslots hj]
  · have hj : j ≠ i := ne_of_up (by rw [hat]; exact Stage.noConfusion) hnew hu
    rwa [hother u hj] at hu
  · by_cases hut : u = t
    · subst hut
      rw [hself] at hk
      rw [hpc]
      exact hk
    · rwa [hne hut] at hk
  · refine h.released_of_moved hne (fun {m} hm => ?_) hj
    rw [hself] at hm ⊢
    obtain rfl : i = m := Option.some.inj hm
    exact hheld

/-- `socket` stores the handle. -/
theorem store (h : Table s) {k i : ℕ} (hpc : (s.task t).pc = .store k i) :
    Table ((({ s with lock := none }.setSlot i { s.slots i with sock := some k }).goto t .idle).setHeld
      t i true) := by
  set s' := (({ s with lock := none }.setSlot i { s.slots i with sock := some k }).goto t .idle).setHeld
    t i true
  have hslot : s'.slots i = { s.slots i with sock := some k } := Function.update_self ..
  have hslots {j : ℕ} (hj : j ≠ i) : s'.slots j = s.slots j := Function.update_of_ne hj ..
  have hself : s'.task t = ⟨Function.update (s.task t).held i true, .idle⟩ := by
    rw [setHeld_self, goto_self]
    rfl
  have hne {u : TaskId} (hu : u ≠ t) : s'.task u = s.task u := by
    rw [setHeld_ne _ _ _ _ hu, goto_ne _ _ _ hu]
    rfl
  have hheld : (s.task t).held i = false := h.released (by rw [hpc]; rfl)
  have htaken : (s.task t).stage i = .taken := by
    rw [Local.stage, hheld, hpc]
    simp [Pc.place, Place.stage]
  have hnot : (s.task t).stage i ≠ .none := by rw [htaken]; exact Stage.noConfusion
  have hother (u : TaskId) {j : ℕ} (hj : j ≠ i) : (s'.task u).stage j = (s.task u).stage j := by
    refine stage_of_moved hne (fun {j} hj => ?_) u hj
    rw [hself, Local.stage, Local.stage, hpc]
    simp [Pc.place, Place.stage, hj]
  have hat : (s'.task t).stage i = .up := by
    rw [hself, Local.stage]
    simp
  have hnew {u : TaskId} (hu : u ≠ t) : (s'.task u).stage i = .none := by
    rw [hne hu]
    exact h.alone hnot hu
  have huse : (s.slots i).inUse = true := h.inUse hnot
  have hcarries : (s.task t).pc.place.carried = some k := by rw [hpc]; rfl
  obtain ⟨hopen, hplaced⟩ := h.carried hcarries
  have hsock {j m : ℕ} (hj : (s'.slots j).sock = some m) :
      j = i ∧ m = k ∨ j ≠ i ∧ (s.slots j).sock = some m := by
    by_cases hji : j = i
    · subst hji
      rw [hslot] at hj
      exact Or.inl ⟨rfl, (Option.some.inj hj).symm⟩
    · rw [hslots hji] at hj
      exact Or.inr ⟨hji, hj⟩
  have hcarried {u : TaskId} {m : ℕ} (hm : (s'.task u).pc.place.carried = some m) :
      u ≠ t ∧ (s.task u).pc.place.carried = some m := carried_of_moved hne (by rw [hself]; rfl) hm
  refine ⟨h.hand (h.used huse).1 hother hnew (fun hj => by rw [hslots hj])
    (by rw [hslot, hat]; simp [huse]), ⟨fun {u j} hu => ?_, fun {j m} hj => ?_,
      fun {j l m} hj hl => ?_, fun {u m} hm => ?_, fun {u v m} hu hv => ?_⟩, fun {u j} hj => ?_⟩
  · by_cases hj : j = i
    · subst hj
      exact ⟨k, by rw [hslot], hopen⟩
    · rw [hother u hj] at hu
      rw [hslots hj]
      exact h.up hu
  · obtain ⟨-, rfl⟩ | ⟨-, hj⟩ := hsock hj
    · exact hopen.1
    · exact h.made hj
  · obtain ⟨rfl, rfl⟩ | ⟨-, hjold⟩ := hsock hj
    · obtain ⟨rfl, -⟩ | ⟨-, hlold⟩ := hsock hl
      · rfl
      · exact absurd hlold (hplaced l)
    · obtain ⟨-, rfl⟩ | ⟨-, hlold⟩ := hsock hl
      · exact absurd hjold (hplaced j)
      · exact h.distinct hjold hlold
  · obtain ⟨hut, hmold⟩ := hcarried hm
    refine ⟨(h.carried hmold).1, fun j hj => ?_⟩
    obtain ⟨-, rfl⟩ | ⟨-, hjold⟩ := hsock hj
    · exact hut (h.oneCarries hmold hcarries)
    · exact (h.carried hmold).2 j hjold
  · exact h.oneCarries (hcarried hu).2 (hcarried hv).2
  · refine h.released_of_moved hne (fun {m} hm => ?_) hj
    rw [hself] at hm
    exact nomatch hm

/-- `socket` finds no slot and closes its socket. -/
theorem drop (h : Table s) {k : ℕ} (hpc : (s.task t).pc = .drop k) :
    Table ((s.setSock k { s.socks k with closed := true }).goto t .idle) := by
  set s' := (s.setSock k { s.socks k with closed := true }).goto t .idle
  have hself : s'.task t = ⟨(s.task t).held, .idle⟩ := goto_self ..
  have hne {u : TaskId} (hu : u ≠ t) : s'.task u = s.task u := goto_ne _ _ _ hu
  have hcarries : (s.task t).pc.place.carried = some k := by rw [hpc]; rfl
  have hopen {m : ℕ} (hm : m ≠ k) (hmo : s.IsOpen m) : s'.IsOpen m := hmo.setSock hm
  have hstage (u : TaskId) : (s'.task u).stage = (s.task u).stage := by
    refine stages_of_moved hne ?_ u
    funext i
    rw [hself, Local.stage, Local.stage, hpc]
    rfl
  refine ⟨⟨fun {u i} hu => ?_, fun {i} hi => ?_, fun {u v i} hu hv => ?_⟩,
    h.mono (fun _ => rfl) rfl (fun {u i} hu => ?_) (fun {u m} hm => ?_), fun {u i} hi => ?_⟩
  · rw [hstage] at hu
    exact h.inUse hu
  · simp only [hstage]
    exact h.used hi
  · rw [hstage] at hu hv
    exact h.one hu hv
  · rw [hstage] at hu
    refine ⟨hu, fun m hm => hopen ?_⟩
    intro hmk
    exact (h.carried hcarries).2 i (hmk ▸ hm)
  · obtain ⟨hut, hmold⟩ := carried_of_moved hne (by rw [hself]; rfl) hm
    refine ⟨hmold, hopen ?_⟩
    intro hmk
    exact hut (h.oneCarries hmold (hmk ▸ hcarries))
  · refine h.released_of_moved hne (fun {m} hm => ?_) hi
    rw [hself] at hm
    exact nomatch hm

/-- `close` closes the socket of its slot. -/
theorem closesocket (h : Table s) {i : ℕ} (hpc : (s.task t).pc = .closesocket i) :
    Table ((s.onValid i fun v => { v with closed := true }).goto t (.notInUse i)) := by
  have hheld : (s.task t).held i = false := h.released (by rw [hpc]; rfl)
  have hup : (s.task t).stage i = .up := by
    rw [Local.stage, hheld, hpc]
    simp [Pc.place, Place.stage]
  have hnot : (s.task t).stage i ≠ .none := by rw [hup]; exact Stage.noConfusion
  obtain ⟨k, hk, hko⟩ := h.up hup
  rw [onValid_of_some _ hk]
  set s' := (s.setSock k { s.socks k with closed := true }).goto t (.notInUse i)
  have hself : s'.task t = ⟨(s.task t).held, .notInUse i⟩ := goto_self ..
  have hne {u : TaskId} (hu : u ≠ t) : s'.task u = s.task u := goto_ne _ _ _ hu
  have hopen {m : ℕ} (hm : m ≠ k) (hmo : s.IsOpen m) : s'.IsOpen m := hmo.setSock hm
  have hother (u : TaskId) {j : ℕ} (hj : j ≠ i) : (s'.task u).stage j = (s.task u).stage j := by
    refine stage_of_moved hne (fun {j} hj => ?_) u hj
    rw [hself, Local.stage, Local.stage, hpc]
    simp [Pc.place, Place.stage, hj]
  have hat : (s'.task t).stage i = .down := by
    rw [hself, Local.stage, hheld]
    simp [Pc.place, Place.stage]
  have hnew {u : TaskId} (hu : u ≠ t) : (s'.task u).stage i = .none := by
    rw [hne hu]
    exact h.alone hnot hu
  have huse : (s.slots i).inUse = true := h.inUse hnot
  refine ⟨h.hand (h.used huse).1 hother hnew (fun _ => rfl) ?_,
    h.mono (fun _ => rfl) rfl (fun {u j} hu => ?_) (fun {u m} hm => ?_), fun {u j} hj => ?_⟩
  · rw [hat]
    exact ⟨fun _ => Stage.noConfusion, fun _ => huse⟩
  · have hj : j ≠ i := ne_of_up (by rw [hat]; exact Stage.noConfusion) hnew hu
    rw [hother u hj] at hu
    refine ⟨hu, fun m hm => hopen ?_⟩
    intro hmk
    exact hj (h.distinct hm (hmk ▸ hk))
  · obtain ⟨-, hmold⟩ := carried_of_moved hne (by rw [hself]; rfl) hm
    refine ⟨hmold, hopen ?_⟩
    intro hmk
    exact (h.carried hmold).2 i (hmk ▸ hk)
  · refine h.released_of_moved hne (fun {m} hm => ?_) hj
    rw [hself] at hm ⊢
    obtain rfl : i = m := Option.some.inj hm
    exact hheld

/-- `close` gives the slot up. -/
theorem notInUse (h : Table s) {i : ℕ} (hpc : (s.task t).pc = .notInUse i) :
    Table ((s.setSlot i { s.slots i with inUse := false }).goto t (.sockNull i)) := by
  set s' := (s.setSlot i { s.slots i with inUse := false }).goto t (.sockNull i)
  have hslot : s'.slots i = { s.slots i with inUse := false } := Function.update_self ..
  have hslots {j : ℕ} (hj : j ≠ i) : s'.slots j = s.slots j := Function.update_of_ne hj ..
  have hself : s'.task t = ⟨(s.task t).held, .sockNull i⟩ := goto_self ..
  have hne {u : TaskId} (hu : u ≠ t) : s'.task u = s.task u := goto_ne _ _ _ hu
  have hheld : (s.task t).held i = false := h.released (by rw [hpc]; rfl)
  have hnot : (s.task t).stage i ≠ .none := by
    rw [Local.stage, hheld, hpc]
    simp [Pc.place, Place.stage]
  have hother (u : TaskId) {j : ℕ} (hj : j ≠ i) : (s'.task u).stage j = (s.task u).stage j := by
    refine stage_of_moved hne (fun {j} hj => ?_) u hj
    rw [hself, Local.stage, Local.stage, hpc]
    simp [Pc.place, Place.stage, hj]
  have hat : (s'.task t).stage i = .none := by
    rw [hself, Local.stage, hheld]
    rfl
  have hnew {u : TaskId} (hu : u ≠ t) : (s'.task u).stage i = .none := by
    rw [hne hu]
    exact h.alone hnot hu
  refine ⟨h.hand (h.used (h.inUse hnot)).1 hother hnew (fun hj => by rw [hslots hj])
    (by rw [hslot, hat]; simp), h.mono (fun j => ?_) rfl (fun {u j} hu => ⟨?_, fun _ _ hk => hk⟩)
      (fun {u k} hk => ⟨?_, fun hk => hk⟩), fun {u j} hj => ?_⟩
  · by_cases hj : j = i
    · rw [hj, hslot]
    · rw [hslots hj]
  · have hj : j ≠ i := ne_of_up (by rw [hat]; exact Stage.noConfusion) hnew hu
    rwa [hother u hj] at hu
  · exact (carried_of_moved hne (by rw [hself]; rfl) hk).2
  · refine h.released_of_moved hne (fun {m} hm => ?_) hj
    rw [hself] at hm ⊢
    obtain rfl : i = m := Option.some.inj hm
    exact hheld

/-- The tasks stay where they are, and the calls only look at sockets or change their interest. -/
theorem away (h : Table s) {s₁ : State} {pc : Pc} (hslots : s₁.slots = s.slots) (hmade : s₁.made = s.made)
    (hclosed : ∀ k, (s₁.socks k).closed = (s.socks k).closed) (htask : s₁.task = s.task)
    (hpc : pc.place = (s.task t).pc.place) : Table (s₁.goto t pc) :=
  (h.congr hslots hmade hclosed (fun u => by rw [htask]) fun u => by rw [htask]).goto (by rw [htask, hpc])

theorem select (h : Table s) {f : Frame} {p : SelectPc} (hpc : (s.task t).pc = .select f p) :
    Table (selectStep s t f p) := by
  have haway : (s.task t).pc.place = .away := by rw [hpc]; rfl
  cases p with
  | check i =>
    simp only [selectStep]
    split_ifs <;> exact h.goto haway.symm
  | setOrClr i =>
    simp only [selectStep]
    split_ifs
    · refine h.away ?_ ?_ (fun k => ?_) ?_ haway.symm
      · simp
      · simp
      · exact (socketSelect_closed ..).trans (onSock_keeps i Sock.closed (fdSet_closed _ _) k)
      · simp
    · exact h.away (by simp) (by simp) (onSock_keeps i Sock.closed (fdClr_closed _ _)) (by simp) haway.symm
  | wait => exact h.away rfl rfl (fun k => socketSelect_closed ..) rfl haway.symm
  | checkOut i =>
    simp only [selectStep]
    split_ifs <;> exact h.goto haway.symm
  | isSet i =>
    simp only [selectStep]
    split
    · exact h.goto haway.symm
    · exact h.congr rfl rfl (fun _ => rfl) (fun _ => rfl) fun _ => rfl
  | clr i =>
    exact h.away (by simp) (by simp) (onSock_keeps i Sock.closed (fdClr_closed _ _)) (by simp) haway.symm

theorem run (h : Table s) (hnull : ∀ i, (s.task t).pc = .sockNull i → (s.task t.other).stage i ≠ .up)
    (hs : Shim.run s t = some s') : Table s' := by
  unfold Shim.run at hs
  cases hpc : (s.task t).pc with
  | idle => simp [hpc] at hs
  | take k =>
    simp only [hpc, Option.ite_none_right_eq_some, Option.some.injEq] at hs
    obtain ⟨-, rfl⟩ := hs
    exact h.away rfl rfl (fun _ => rfl) rfl (by rw [hpc]; rfl)
  | scan k i =>
    simp only [hpc] at hs
    split_ifs at hs with hi huse hnames
    · obtain rfl := Option.some.inj hs
      exact h.goto (by rw [hpc]; rfl)
    · obtain rfl := Option.some.inj hs
      exact h.scan hpc hi (Bool.of_not_eq_true huse)
    · obtain rfl := Option.some.inj hs
      exact h.away rfl rfl (fun _ => rfl) rfl (by rw [hpc]; rfl)
  | store k i =>
    simp only [hpc] at hs
    obtain rfl := Option.some.inj hs
    exact h.store hpc
  | drop k =>
    simp only [hpc] at hs
    obtain rfl := Option.some.inj hs
    exact h.drop hpc
  | clrAll i j =>
    simp only [hpc] at hs
    split_ifs at hs
    · obtain rfl := Option.some.inj hs
      exact h.away (by simp) (by simp) (onSock_keeps i Sock.closed (fdClr_closed _ _)) (by simp)
        (by rw [hpc]; rfl)
    · obtain rfl := Option.some.inj hs
      exact h.goto (by rw [hpc]; rfl)
    · obtain rfl := Option.some.inj hs
      exact h.goto (by rw [hpc]; rfl)
  | closesocket i =>
    simp only [hpc] at hs
    obtain rfl := Option.some.inj hs
    exact h.closesocket hpc
  | notInUse i =>
    simp only [hpc] at hs
    obtain rfl := Option.some.inj hs
    exact h.notInUse hpc
  | sockNull i =>
    simp only [hpc] at hs
    obtain rfl := Option.some.inj hs
    exact h.sockNull hpc (hnull i hpc)
  | io i ready =>
    simp only [hpc] at hs
    obtain rfl := Option.some.inj hs
    exact h.away (by simp) (by simp) (onValid_keeps i Sock.closed fun _ => rfl) (by simp)
      (by rw [hpc]; rfl)
  | select f p =>
    simp only [hpc] at hs
    obtain rfl := Option.some.inj hs
    exact h.select hpc

/-- A slot in use that an idle task may name is its own. -/
theorem mine (h : Table s) (hidle : (s.task t).pc.place = .away) {i : ℕ} (hi : (s.slots i).inUse = true)
    (hmay : s.mayName t i = true) : (s.task t).held i = true := by
  obtain ⟨-, u, hu⟩ := h.used hi
  rw [State.mayName, Bool.or_eq_true] at hmay
  refine hmay.elim id fun hother => ?_
  by_cases hut : u = t
  · subst hut
    rw [Local.stage, hidle] at hu
    by_contra hheld
    rw [if_neg hheld] at hu
    exact hu rfl
  · rw [TaskId.eq_other hut] at hu
    simp [Local.uses, hu] at hother

theorem call (h : Table s) (hidle : (s.task t).pc = .idle) {c : Call} (hs : Shim.call s t c = some s') :
    Table s' := by
  have haway : (s.task t).pc.place = .away := by rw [hidle]; rfl
  obtain rfl | ⟨isTcp, -, rfl⟩ | ⟨fd, i, -, hi, hmay, rfl⟩ | ⟨fd, i, ready, -, -, -, rfl⟩ |
    ⟨q, created, sets, sel, -, -, -, -, rfl⟩ := call_cases hs
  · exact h
  · exact h.socket haway isTcp
  · exact h.close haway (h.mine haway (prvSlot_some hi) hmay)
  · exact h.goto haway.symm
  · exact h.away rfl rfl (fun _ => rfl) rfl haway.symm

/-- Every step keeps the table, but for a NULL stored over the handle of a slot that is up. -/
theorem step (h : Table s) {a : Action}
    (hnull : ∀ t i, a = .run t → (s.task t).pc = .sockNull i → (s.task t.other).stage i ≠ .up)
    (hs : Shim.step s a = some s') : Table s' := by
  unfold Shim.step at hs
  split_ifs at hs
  cases a with
  | call t c =>
    cases hpc : (s.task t).pc with
    | idle =>
      simp only [hpc] at hs
      exact h.call hpc hs
    | _ => simp [hpc] at hs
  | run t => exact h.run (hnull t · rfl) hs
  | stack k ready ev =>
    simp only [Option.ite_none_right_eq_some, Option.some.injEq] at hs
    obtain ⟨-, rfl⟩ := hs
    refine h.congr rfl rfl (fun m => ?_) (fun _ => rfl) fun _ => rfl
    rw [setSock_socks]
    by_cases hm : m = k
    · rw [hm, Function.update_self, stackEvent_closed]
    · rw [Function.update_of_ne hm]

end Table

end IotcRa8p1.Kvs.Shim
