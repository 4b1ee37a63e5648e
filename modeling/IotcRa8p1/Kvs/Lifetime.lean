import IotcRa8p1.Kvs.Identity
import IotcRa8p1.Lib.Machine

/-!
# The identity strings and their consumers

`Kept` says of one step that a published pointer which a consumer reads, and every pointer that one keeps,
refers to a string that a static still owns, and that a call which fails leaves what was published usable.
`Ok` says where the calls may run; `identity_strings_iff` is that a run has the one at every step exactly
when it meets the other.  `second_identity_frees_held` is the reconnect that frees what the controller keeps.
-/

namespace IotcRa8p1.Kvs.Identity

open CString Machine Heaps CJson

variable {J : Type}

/-! ### What the consumers rely on -/

/-- The pointer refers to a string that is owned and not freed. -/
def Refers (s : St) (p : Option ℕ) : Prop :=
  ∃ b, p = some b ∧ Live s.blocks b ∧ ∃ m, s.statics m = some b

/-- The strings published together were all duplicated in one call. -/
def OneCall (s : St) (g : Group) : Prop :=
  ∃ c, ∀ n ∈ g.names, ∃ b, s.published n = some b ∧ s.origin[b]? = some c

/-- The string that a consumer reads through its published pointer. -/
def reading (s : St) : Action J → Option Name
  | .kvs _ =>
    match s.kvs with
    | .cert => some .cert
    | .key => some .key
    | .logChannel => some .channel
    | .logRegion => some .region
    | _ => none
  | .controller =>
    match s.controller with
    | some [] => some .region
    | some ((n, _) :: _) => some n
    | none => none
  | _ => none

/-- A call fails. -/
def fails [Reader J] (s : St) : Action J → Option Group
  | .identityHook json clientId =>
    if (identityHook json clientId).isNone = true then some .identity else none
  | .setCredentials cert key => if (setCredentials cert key).isNone = true then some .credentials else none
  | .net _ => abandons s
  | _ => none

structure Kept [Reader J] (s : St) (a : Action J) (s' : St) : Prop where
  reads : ∀ n, reading s a = some n → Refers s (s.published n)
  held : ∀ n b, s'.held n = some b → Refers s' (some b)
  fails : ∀ g, fails s a = some g → s.ready g = true →
    (∀ n ∈ g.names, s'.published n = s.published n ∧ Refers s' (s'.published n)) ∧ OneCall s' g

/-- The running call has freed the string and not published the new one. -/
def NetPc.pending : NetPc → Name → Bool
  | .idle, _ => false
  | .free c todo, n => decide (n ∈ c.group.names) && decide (n ∉ todo)
  | .dup c _, n => decide (n ∈ c.group.names)
  | .publish _ todo, n => decide (n ∈ todo)

/-- The string that is freed next. -/
def NetPc.frees : NetPc → Option Name
  | .free _ (n :: _) => some n
  | _ => none

/-- No call frees a string that a consumer has taken the pointer of; a call fails behind its frees only while
nothing is published; and no consumer reads a string between its free and its publication. -/
def Ok (s : St) (a : Action J) : Prop :=
  match a with
  | .net _ => (∀ n ∈ s.net.frees, s.held n = none) ∧ ∀ g ∈ abandons s, s.ready g = false
  | _ => ∀ n ∈ reading s a, s.net.pending n = false

/-! ### The invariant -/

/-- What the next instruction of the net thread relies on. -/
def NetInv (s : St) : Prop :=
  match s.net with
  | .idle => True
  | .free c todo => todo <:+ c.group.names ∧ ∀ n ∈ c.group.names, n ∉ todo → s.statics n = none
  | .dup c todo => todo <:+ c.group.names ∧ (∀ n ∈ todo, s.statics n = none) ∧
      ∀ n ∈ c.group.names, ∀ b, s.statics n = some b → s.origin[b]? = some s.calls
  | .publish c todo => todo <:+ c.group.names ∧ ∀ n ∈ c.group.names,
      (∃ b, s.statics n = some b ∧ s.origin[b]? = some s.calls) ∧
      (n ∉ todo → s.published n = s.statics n)

/-- The call stores its pointers. -/
def NetPc.publishes : NetPc → Option Group
  | .publish c _ => some c.group
  | _ => none

structure Inv (s : St) : Prop where
  owns : Owns s.statics s.blocks
  origins : s.origin.length = s.blocks.length
  held : ∀ {n b}, s.held n = some b → s.statics n = some b
  settled : ∀ {g n}, s.ready g = true → n ∈ g.names → s.net.pending n = false →
    ∃ b, s.published n = some b ∧ s.statics n = some b
  lost : ∀ {g n}, s.ready g = true → n ∈ g.names → s.net.pending n = true →
    ∃ b < s.blocks.length, s.published n = some b ∧ ¬ Live s.blocks b
  oneCall : ∀ {g}, s.ready g = true → s.net.publishes ≠ some g → OneCall s g
  net : NetInv s
  awake : s.kvs ≠ .wait ∨ s.controller ≠ none → ∀ g, s.ready g = true

theorem boot_inv : Inv boot where
  owns := ⟨(fun h => nomatch h), fun h => nomatch h⟩
  origins := rfl
  held h := nomatch h
  settled h := Bool.noConfusion h
  lost h := Bool.noConfusion h
  oneCall h := Bool.noConfusion h
  net := trivial
  awake h := by
    rcases h with h | h
    · exact absurd rfl h
    · exact absurd rfl h

variable {s s' : St}

theorem nodup_names (g : Group) : g.names.Nodup := by
  cases g <;> decide

/-- A name is in one group. -/
theorem group_unique {g h : Group} {n : Name} (hg : n ∈ g.names) (hh : n ∈ h.names) : g = h := by
  revert hg hh
  cases g <;> cases h <;> cases n <;> decide

theorem exists_group (n : Name) : ∃ g : Group, n ∈ g.names := by
  cases n
  case cert => exact ⟨.credentials, by decide⟩
  case key => exact ⟨.credentials, by decide⟩
  all_goals exact ⟨.identity, by decide⟩

/-- A pointer that is published and not pending refers to a string. -/
theorem Inv.refers (h : Inv s) {g : Group} {n : Name} (hg : s.ready g = true) (hn : n ∈ g.names)
    (hp : s.net.pending n = false) : Refers s (s.published n) := by
  obtain ⟨b, hpub, hstat⟩ := h.settled hg hn hp
  exact ⟨b, hpub, h.owns.live hstat, n, hstat⟩

/-- One that is pending does not. -/
theorem Inv.not_refers (h : Inv s) {g : Group} {n : Name} (hg : s.ready g = true) (hn : n ∈ g.names)
    (hp : s.net.pending n = true) : ¬ Refers s (s.published n) := by
  rintro ⟨b, hb, hlive, -⟩
  obtain ⟨c, -, hc, hdead⟩ := h.lost hg hn hp
  rw [hc] at hb
  obtain rfl := Option.some.inj hb
  exact hdead hlive

theorem Inv.held_refers (h : Inv s) {n : Name} {b : ℕ} (hb : s.held n = some b) : Refers s (some b) :=
  ⟨b, rfl, h.owns.live (h.held hb), n, h.held hb⟩

/-- A consumer reads only what is ready. -/
theorem Inv.reading_ready (h : Inv s) {a : Action J} {n : Name} (hn : reading s a = some n) (g : Group) :
    s.ready g = true := by
  refine h.awake ?_ g
  cases a with
  | kvs ok =>
    left
    intro hw
    rw [reading, hw] at hn
    exact nomatch hn
  | controller =>
    right
    intro hc
    rw [reading, hc] at hn
    exact nomatch hn
  | _ => exact nomatch hn

/-! ### Steps of the consumers -/

/-- The consumers change only what they hold and where they are. -/
theorem Inv.consume (h : Inv s) {held : Name → Option ℕ} {kvs : KvsPc}
    {controller : Option (List (Name × Access))}
    (hheld : ∀ {n b}, held n = some b → s.statics n = some b)
    (hawake : kvs ≠ .wait ∨ controller ≠ none → ∀ g, s.ready g = true) :
    Inv { s with held := held, kvs := kvs, controller := controller } where
  owns := h.owns
  origins := h.origins
  held := hheld
  settled := h.settled
  lost := h.lost
  oneCall := h.oneCall
  net := h.net
  awake := hawake

/-- A consumer keeps a pointer that refers to a string. -/
theorem Inv.keep (h : Inv s) {n m : Name} {b : ℕ} (hready : ∀ g, s.ready g = true)
    (hn : s.net.pending n = false) (hm : (keep s n).held m = some b) : s.statics m = some b := by
  by_cases hmn : m = n
  · subst hmn
    have hpub : Function.update s.held m (s.published m) m = some b := hm
    rw [Function.update_self] at hpub
    obtain ⟨g, hg⟩ := exists_group m
    obtain ⟨c, hc, hstat⟩ := h.settled (hready g) hg hn
    rw [hpub] at hc
    rw [hstat, ← hc]
  · exact h.held ((Function.update_of_ne hmn ..).symm.trans hm)

theorem kvs_inv (h : Inv s) {ok : Bool} (hok : ∀ n ∈ reading s (.kvs ok : Action J), s.net.pending n = false)
    (hs : kvsStep s ok = some s') : Inv s' := by
  unfold kvsStep at hs
  cases hk : s.kvs with
  | wait =>
    simp only [hk] at hs
    split_ifs at hs with hw
    · obtain rfl := Option.some.inj hs
      refine h.consume h.held fun _ g => ?_
      cases g with
      | identity => exact hw.1
      | credentials => exact hw.2.1
    · exact Option.some.inj hs ▸ h
  | ended => simp [hk] at hs
  | cert =>
    have hready := h.awake (Or.inl (by rw [hk]; exact KvsPc.noConfusion))
    have hread : reading s (.kvs ok : Action J) = some .cert := by rw [reading, hk]
    simp only [hk] at hs
    obtain rfl := Option.some.inj hs
    exact h.consume (h.keep hready (hok _ hread)) fun _ => hready
  | key =>
    have hready := h.awake (Or.inl (by rw [hk]; exact KvsPc.noConfusion))
    have hread : reading s (.kvs ok : Action J) = some .key := by rw [reading, hk]
    simp only [hk] at hs
    obtain rfl := Option.some.inj hs
    exact h.consume (h.keep hready (hok _ hread)) fun _ => hready
  | mediaInit =>
    have hready := h.awake (Or.inl (by rw [hk]; exact KvsPc.noConfusion))
    simp only [hk] at hs
    obtain rfl := Option.some.inj hs
    exact h.consume (fun hn => nomatch hn) fun _ => hready
  | _ =>
    have hready := h.awake (Or.inl (by rw [hk]; exact KvsPc.noConfusion))
    simp only [hk] at hs
    obtain rfl := Option.some.inj hs
    exact h.consume h.held fun _ => hready

theorem controller_inv (h : Inv s) (hok : ∀ n ∈ reading s (.controller : Action J), s.net.pending n = false)
    (hs : controllerStep s = some s') : Inv s' := by
  unfold controllerStep at hs
  cases hc : s.controller with
  | none => simp [hc] at hs
  | some todo =>
    have hready := h.awake (Or.inr (by rw [hc]; exact Option.some_ne_none _))
    cases todo with
    | nil =>
      simp only [hc] at hs
      exact Option.some.inj hs ▸ h
    | cons head todo =>
      obtain ⟨n, access⟩ := head
      have hread : reading s (.controller : Action J) = some n := by rw [reading, hc]
      cases access with
      | keep =>
        simp only [hc] at hs
        obtain rfl := Option.some.inj hs
        exact h.consume (h.keep hready (hok _ hread)) fun _ => hready
      | use =>
        simp only [hc] at hs
        obtain rfl := Option.some.inj hs
        exact h.consume h.held fun _ => hready

/-! ### Steps of the net thread -/

theorem begin_inv (h : Inv s) (hnet : s.net = .idle) (c : Option Call) : Inv (begin s c) := by
  cases c with
  | none => exact h
  | some c =>
    have hpending (n : Name) : (NetPc.free c c.group.names).pending n = s.net.pending n := by
      rw [hnet]
      show (decide (n ∈ c.group.names) && decide (n ∉ c.group.names)) = false
      by_cases hn : n ∈ c.group.names <;> simp [hn]
    refine ⟨h.owns, h.origins, h.held, fun {g n} hg hn hp => ?_, fun {g n} hg hn hp => ?_,
      fun {g} hg _ => h.oneCall hg ?_, ?_, h.awake⟩
    · exact h.settled hg hn ((hpending n).symm.trans hp)
    · exact h.lost hg hn ((hpending n).symm.trans hp)
    · rw [hnet]
      exact nofun
    · exact ⟨List.suffix_refl _, fun n hn hnot => absurd hn hnot⟩

section net

variable {c : Call} {n : Name} {todo : List Name}

/-- The head of what is left to do is a name of the group, and not in the rest. -/
theorem head_of_suffix {g : Group} (h : n :: todo <:+ g.names) :
    n ∈ g.names ∧ n ∉ todo ∧ todo <:+ g.names := by
  refine ⟨h.subset List.mem_cons_self, ?_, (List.suffix_cons n todo).trans h⟩
  exact (List.nodup_cons.mp ((nodup_names g).sublist h.sublist)).1

theorem free_inv (h : Inv s) (hnet : s.net = .free c (n :: todo)) (hheld : s.held n = none) :
    Inv { s with
      blocks := free s.blocks () (s.statics n)
      statics := Function.update s.statics n none
      net := .free c todo } := by
  have hinv := h.net
  rw [NetInv, hnet] at hinv
  obtain ⟨hsuffix, hcleared⟩ := hinv
  obtain ⟨hn, hnot, hrest⟩ := head_of_suffix hsuffix
  have hpending {m : Name} (hm : m ≠ n) : (NetPc.free c todo).pending m = s.net.pending m := by
    rw [hnet]
    simp [NetPc.pending, hm]
  refine ⟨h.owns.free () n, ?_, fun {m b} hm => ?_, fun {g m} hg hm hp => ?_,
    fun {g m} hg hm hp => ?_, fun {g} hg _ => h.oneCall hg ?_, ⟨hrest, fun m hm hmt => ?_⟩, h.awake⟩
  · show s.origin.length = (free s.blocks () (s.statics n)).length
    rw [length_free, h.origins]
  · have hmn : m ≠ n := by
      intro hmn
      rw [hmn] at hm
      exact nomatch hheld.symm.trans hm
    exact (Function.update_of_ne hmn ..).trans (h.held hm)
  · have hmn : m ≠ n := by
      intro hmn
      subst hmn
      have htrue : (NetPc.free c todo).pending m = true := by simp [NetPc.pending, hn, hnot]
      exact Bool.noConfusion (htrue.symm.trans hp)
    obtain ⟨b, hpub, hstat⟩ := h.settled hg hm ((hpending hmn).symm.trans hp)
    exact ⟨b, hpub, (Function.update_of_ne hmn ..).trans hstat⟩
  · show ∃ b < (free s.blocks () (s.statics n)).length, _
    rw [length_free]
    by_cases hmn : m = n
    · subst hmn
      have hfalse : s.net.pending m = false := by
        rw [hnet]
        simp [NetPc.pending]
      obtain ⟨b, hpub, hstat⟩ := h.settled hg hm hfalse
      refine ⟨b, (h.owns.live hstat).lt, hpub, ?_⟩
      show ¬ Live (free s.blocks () (s.statics m)) b
      rw [hstat]
      exact not_live_free s.blocks () b
    · obtain ⟨b, hlt, hpub, hdead⟩ := h.lost hg hm ((hpending hmn).symm.trans hp)
      exact ⟨b, hlt, hpub, fun hlive => hdead hlive.of_free⟩
  · rw [hnet]
    exact nofun
  · show Function.update s.statics n none m = none
    by_cases hmn : m = n
    · rw [hmn, Function.update_self]
    · rw [Function.update_of_ne hmn]
      exact hcleared m hm (by simp [hmn, hmt])

theorem freed_inv (h : Inv s) (hnet : s.net = .free c []) :
    Inv { s with net := .dup c c.group.names } := by
  have hinv := h.net
  rw [NetInv, hnet] at hinv
  obtain ⟨-, hcleared⟩ := hinv
  have hnone {m : Name} (hm : m ∈ c.group.names) : s.statics m = none :=
    hcleared m hm List.not_mem_nil
  have hpending (m : Name) : (NetPc.dup c c.group.names).pending m = s.net.pending m := by
    rw [hnet]
    simp [NetPc.pending]
  refine ⟨h.owns, h.origins, h.held, fun {g m} hg hm hp => ?_, fun {g m} hg hm hp => ?_,
    fun {g} hg _ => h.oneCall hg ?_, ⟨List.suffix_refl _, fun m => hnone, fun m hm b hb => ?_⟩, h.awake⟩
  · exact h.settled hg hm ((hpending m).symm.trans hp)
  · exact h.lost hg hm ((hpending m).symm.trans hp)
  · rw [hnet]
    exact nofun
  · exact nomatch (hnone hm).symm.trans hb

/-- A call that fails behind its frees leaves no trace when nothing was published. -/
theorem abandon_inv (h : Inv s) (hnet : s.net = .dup c todo) (hready : s.ready c.group = false) :
    Inv { s with net := .idle } := by
  refine ⟨h.owns, h.origins, h.held, fun {g m} hg hm _ => h.settled hg hm ?_,
    fun _ _ hp => Bool.noConfusion hp, fun {g} hg _ => h.oneCall hg ?_, trivial, h.awake⟩
  · rw [hnet]
    show decide (m ∈ c.group.names) = false
    refine decide_eq_false fun hmc => ?_
    rw [group_unique hm hmc, hready] at hg
    exact Bool.noConfusion hg
  · rw [hnet]
    exact nofun

/-- A string that is missing, or that there is no memory for. -/
theorem skip_inv (h : Inv s) (hnet : s.net = .dup c (n :: todo)) : Inv { s with net := .dup c todo } := by
  have hinv := h.net
  rw [NetInv, hnet] at hinv
  obtain ⟨hsuffix, hcleared, horigin⟩ := hinv
  obtain ⟨-, -, hrest⟩ := head_of_suffix hsuffix
  have hpending (m : Name) : (NetPc.dup c todo).pending m = s.net.pending m := by
    rw [hnet]
    rfl
  refine ⟨h.owns, h.origins, h.held, fun {g m} hg hm hp => ?_, fun {g m} hg hm hp => ?_,
    fun {g} hg _ => h.oneCall hg ?_, ⟨hrest, fun m hm => ?_, horigin⟩, h.awake⟩
  · exact h.settled hg hm ((hpending m).symm.trans hp)
  · exact h.lost hg hm ((hpending m).symm.trans hp)
  · rw [hnet]
    exact nofun
  · exact hcleared m (List.mem_cons_of_mem _ hm)

theorem strdup_inv (h : Inv s) (hnet : s.net = .dup c (n :: todo)) :
    Inv { strdup s n with net := .dup c todo } := by
  have hinv := h.net
  rw [NetInv, hnet] at hinv
  obtain ⟨hsuffix, hcleared, horigin⟩ := hinv
  obtain ⟨hn, hnot, hrest⟩ := head_of_suffix hsuffix
  have hnone : s.statics n = none := hcleared n List.mem_cons_self
  have hpending (m : Name) : (NetPc.dup c todo).pending m = s.net.pending m := by
    rw [hnet]
    rfl
  have horigins (b : ℕ) (o : ℕ) (hb : s.origin[b]? = some o) :
      (s.origin ++ [s.calls])[b]? = some o := by
    rw [List.getElem?_append_left (List.getElem?_eq_some_iff.mp hb).1, hb]
  refine ⟨h.owns.alloc () n, ?_, fun {m b} hm => ?_, fun {g m} hg hm hp => ?_,
    fun {g m} hg hm hp => ?_, fun {g} hg _ => ?_, ⟨hrest, fun m hm => ?_, fun m hm b hb => ?_⟩, h.awake⟩
  · show (s.origin ++ [s.calls]).length = (alloc s.blocks ()).length
    rw [alloc, List.length_append, List.length_append, h.origins]
    rfl
  · have hmn : m ≠ n := by
      intro hmn
      have hstat := h.held hm
      rw [hmn, hnone] at hstat
      exact absurd hstat (Option.some_ne_none _).symm
    exact (Function.update_of_ne hmn ..).trans (h.held hm)
  · have hmn : m ≠ n := by
      intro hmn
      subst hmn
      have htrue : (NetPc.dup c todo).pending m = true := by simp [NetPc.pending, hn]
      exact Bool.noConfusion (htrue.symm.trans hp)
    obtain ⟨b, hpub, hstat⟩ := h.settled hg hm ((hpending m).symm.trans hp)
    exact ⟨b, hpub, (Function.update_of_ne hmn ..).trans hstat⟩
  · obtain ⟨b, hlt, hpub, hdead⟩ := h.lost hg hm ((hpending m).symm.trans hp)
    refine ⟨b, ?_, hpub, not_live_alloc hlt hdead ()⟩
    show b < (alloc s.blocks ()).length
    rw [alloc, List.length_append]
    exact Nat.lt_add_right _ hlt
  · obtain ⟨o, ho⟩ := h.oneCall hg (by simp [hnet, NetPc.publishes])
    refine ⟨o, fun m hm => ?_⟩
    obtain ⟨b, hpub, hb⟩ := ho m hm
    exact ⟨b, hpub, horigins b o hb⟩
  · have hmn : m ≠ n := fun hmn => hnot (hmn ▸ hm)
    exact (Function.update_of_ne hmn ..).trans (hcleared m (List.mem_cons_of_mem _ hm))
  · show (s.origin ++ [s.calls])[b]? = some s.calls
    by_cases hmn : m = n
    · subst hmn
      have hnew : Function.update s.statics m (some s.blocks.length) m = some b := hb
      rw [Function.update_self] at hnew
      rw [← Option.some.inj hnew, ← h.origins]
      simp
    · exact horigins b _ (horigin m hm b ((Function.update_of_ne hmn ..).symm.trans hb))

/-- Nothing is missing. -/
theorem complete_inv (h : Inv s) (hnet : s.net = .dup c [])
    (hall : ∀ m ∈ c.group.names, s.statics m ≠ none) :
    Inv { s with net := .publish c c.group.names } := by
  have hinv := h.net
  rw [NetInv, hnet] at hinv
  obtain ⟨-, -, horigin⟩ := hinv
  have hpending (m : Name) : (NetPc.publish c c.group.names).pending m = s.net.pending m := by
    rw [hnet]
    rfl
  refine ⟨h.owns, h.origins, h.held, fun {g m} hg hm hp => ?_, fun {g m} hg hm hp => ?_,
    fun {g} hg _ => h.oneCall hg ?_, ⟨List.suffix_refl _, fun m hm => ⟨?_, fun hnot => absurd hm hnot⟩⟩,
    h.awake⟩
  · exact h.settled hg hm ((hpending m).symm.trans hp)
  · exact h.lost hg hm ((hpending m).symm.trans hp)
  · rw [hnet]
    exact nofun
  · obtain ⟨b, hb⟩ := Option.ne_none_iff_exists'.mp (hall m hm)
    exact ⟨b, hb, horigin m hm b hb⟩

theorem publish_inv (h : Inv s) (hnet : s.net = .publish c (n :: todo)) :
    Inv { s with published := Function.update s.published n (s.statics n), net := .publish c todo } := by
  have hinv := h.net
  rw [NetInv, hnet] at hinv
  obtain ⟨hsuffix, hnames⟩ := hinv
  obtain ⟨hn, hnot, hrest⟩ := head_of_suffix hsuffix
  have hpending {m : Name} (hm : m ≠ n) : (NetPc.publish c todo).pending m = s.net.pending m := by
    rw [hnet]
    simp [NetPc.pending, hm]
  refine ⟨h.owns, h.origins, h.held, fun {g m} hg hm hp => ?_, fun {g m} hg hm hp => ?_,
    fun {g} hg hpub => ?_, ⟨hrest, fun m hm => ⟨(hnames m hm).1, fun hmt => ?_⟩⟩, h.awake⟩
  · by_cases hmn : m = n
    · subst hmn
      obtain ⟨⟨b, hb, -⟩, -⟩ := hnames m hn
      exact ⟨b, (Function.update_self ..).trans hb, hb⟩
    · obtain ⟨b, hpub, hstat⟩ := h.settled hg hm ((hpending hmn).symm.trans hp)
      exact ⟨b, (Function.update_of_ne hmn ..).trans hpub, hstat⟩
  · have hmn : m ≠ n := by
      intro hmn
      subst hmn
      have hfalse : (NetPc.publish c todo).pending m = false := by simp [NetPc.pending, hnot]
      exact Bool.noConfusion (hfalse.symm.trans hp)
    obtain ⟨b, hlt, hpub, hdead⟩ := h.lost hg hm ((hpending hmn).symm.trans hp)
    exact ⟨b, hlt, (Function.update_of_ne hmn ..).trans hpub, hdead⟩
  · -- the strings of the other group
    have hgc : c.group ≠ g := fun hgc => hpub (congrArg some hgc)
    obtain ⟨o, ho⟩ := h.oneCall hg (by rw [hnet]; exact hpub)
    refine ⟨o, fun m hm => ?_⟩
    have hmn : m ≠ n := by
      intro hmn
      subst hmn
      exact hgc (group_unique hn hm)
    obtain ⟨b, hb, hor⟩ := ho m hm
    exact ⟨b, (Function.update_of_ne hmn ..).trans hb, hor⟩
  · show Function.update s.published n (s.statics n) m = s.statics m
    by_cases hmn : m = n
    · rw [hmn, Function.update_self]
    · rw [Function.update_of_ne hmn]
      exact (hnames m hm).2 (by simp [hmn, hmt])

theorem ready_inv (h : Inv s) (hnet : s.net = .publish c []) :
    Inv { s with ready := Function.update s.ready c.group true, net := .idle } := by
  have hinv := h.net
  rw [NetInv, hnet] at hinv
  obtain ⟨-, hnames⟩ := hinv
  have hsame {m : Name} (hm : m ∈ c.group.names) :
      ∃ b, s.published m = some b ∧ s.statics m = some b ∧ s.origin[b]? = some s.calls := by
    obtain ⟨⟨b, hb, hor⟩, hpub⟩ := hnames m hm
    exact ⟨b, (hpub List.not_mem_nil).trans hb, hb, hor⟩
  have hold {g : Group} (hg : g ≠ c.group) (hready : Function.update s.ready c.group true g = true) :
      s.ready g = true := (Function.update_of_ne hg ..).symm.trans hready
  refine ⟨h.owns, h.origins, h.held, fun {g m} hg hm _ => ?_, fun _ _ hp => Bool.noConfusion hp,
    fun {g} hg _ => ?_, trivial, fun hw g => ?_⟩
  · by_cases hgc : g = c.group
    · subst hgc
      obtain ⟨b, hpub, hstat, -⟩ := hsame hm
      exact ⟨b, hpub, hstat⟩
    · exact h.settled (hold hgc hg) hm (by rw [hnet]; rfl)
  · by_cases hgc : g = c.group
    · subst hgc
      refine ⟨s.calls, fun m hm => ?_⟩
      obtain ⟨b, hpub, -, hor⟩ := hsame hm
      exact ⟨b, hpub, hor⟩
    · refine h.oneCall (hold hgc hg) ?_
      rw [hnet]
      exact fun heq => hgc (Option.some.inj heq).symm
  · show Function.update s.ready c.group true g = true
    by_cases hgc : g = c.group
    · rw [hgc, Function.update_self]
    · rw [Function.update_of_ne hgc]
      exact h.awake hw g

end net

/-- A call fails at the region or at the last test. -/
theorem abandons_cases {g : Group} (h : abandons s = some g) :
    ∃ c todo, s.net = .dup c todo ∧ c.group = g := by
  unfold abandons at h
  split at h
  · rename_i c todo hnet
    rw [Option.ite_none_right_eq_some] at h
    exact ⟨c, _, hnet, Option.some.inj h.2⟩
  · rename_i c hnet
    rw [Option.ite_none_right_eq_some] at h
    exact ⟨c, _, hnet, Option.some.inj h.2⟩
  · exact nomatch h

/-- The last test finds every string. -/
theorem statics_of_not_abandons {c : Call} (hnet : s.net = .dup c []) (h : (abandons s).isSome = false) :
    ∀ n ∈ c.group.names, s.statics n ≠ none := by
  intro n hn hnone
  have habandons : abandons s = some c.group := by
    simp only [abandons, hnet]
    exact if_pos ⟨n, hn, hnone⟩
  rw [habandons] at h
  exact Bool.noConfusion h

theorem net_inv (h : Inv s) {ok : Bool} (hok : Ok s (.net ok : Action J)) (hs : netStep s ok = some s') :
    Inv s' := by
  obtain ⟨hfrees, habandons⟩ := hok
  have hgive {c : Call} {todo : List Name} (hnet : s.net = .dup c todo)
      (ha : (abandons s).isSome = true) : Inv { s with net := .idle } := by
    obtain ⟨g, hg⟩ := Option.isSome_iff_exists.mp ha
    obtain ⟨c', todo', hnet', rfl⟩ := abandons_cases hg
    obtain ⟨rfl, -⟩ := NetPc.dup.inj (hnet.symm.trans hnet')
    exact abandon_inv h hnet (habandons _ hg)
  unfold netStep at hs
  cases hnet : s.net with
  | idle => simp [hnet] at hs
  | free c todo =>
    cases todo with
    | nil =>
      simp only [hnet] at hs
      obtain rfl := Option.some.inj hs
      exact freed_inv h hnet
    | cons n todo =>
      simp only [hnet] at hs
      obtain rfl := Option.some.inj hs
      exact free_inv h hnet (hfrees n (by rw [hnet]; rfl))
  | dup c todo =>
    cases todo with
    | nil =>
      simp only [hnet] at hs
      split_ifs at hs with ha
      · obtain rfl := Option.some.inj hs
        exact hgive hnet ha
      · obtain rfl := Option.some.inj hs
        exact complete_inv h hnet (statics_of_not_abandons hnet (Bool.of_not_eq_true ha))
    | cons n todo =>
      simp only [hnet] at hs
      split_ifs at hs with ha htext
      · obtain rfl := Option.some.inj hs
        exact hgive hnet ha
      · obtain rfl := Option.some.inj hs
        exact strdup_inv h hnet
      · obtain rfl := Option.some.inj hs
        exact skip_inv h hnet
  | publish c todo =>
    cases todo with
    | nil =>
      simp only [hnet] at hs
      obtain rfl := Option.some.inj hs
      exact ready_inv h hnet
    | cons n todo =>
      simp only [hnet] at hs
      obtain rfl := Option.some.inj hs
      exact publish_inv h hnet

/-! ### Runs -/

variable [Reader J]

theorem step_identityHook {json : Option J} {clientId : Option (List UInt8)}
    (hs : step s (.identityHook json clientId) = some s') :
    s.net = .idle ∧ s' = begin s (identityHook json clientId) := by
  rw [step] at hs
  cases hnet : s.net with
  | idle =>
    simp only [hnet] at hs
    exact ⟨rfl, (Option.some.inj hs).symm⟩
  | _ => simp [hnet] at hs

theorem step_setCredentials {cert key : Option (List UInt8)}
    (hs : step s (.setCredentials cert key : Action J) = some s') :
    s.net = .idle ∧ s' = begin s (setCredentials cert key) := by
  rw [step] at hs
  cases hnet : s.net with
  | idle =>
    simp only [hnet] at hs
    exact ⟨rfl, (Option.some.inj hs).symm⟩
  | _ => simp [hnet] at hs

theorem step_inv {a : Action J} (h : Inv s) (hok : Ok s a) (hs : step s a = some s') : Inv s' := by
  cases a with
  | identityHook json clientId =>
    obtain ⟨hnet, rfl⟩ := step_identityHook hs
    exact begin_inv h hnet _
  | setCredentials cert key =>
    obtain ⟨hnet, rfl⟩ := step_setCredentials hs
    exact begin_inv h hnet _
  | net ok => exact net_inv h hok hs
  | kvs ok => exact kvs_inv h hok hs
  | controller => exact controller_inv h hok hs

/-- A call that returns at its first checks leaves what was published usable. -/
theorem Inv.usable (h : Inv s) (hnet : s.net = .idle) {g : Group} (hg : s.ready g = true) :
    (∀ n ∈ g.names, s.published n = s.published n ∧ Refers s (s.published n)) ∧ OneCall s g := by
  refine ⟨fun n hn => ⟨rfl, h.refers hg hn ?_⟩, h.oneCall hg ?_⟩
  · rw [hnet]
    rfl
  · rw [hnet]
    exact nofun

theorem kept_of_ok {a : Action J} (h : Inv s) (hok : Ok s a) (hs : step s a = some s') : Kept s a s' where
  reads n hn := by
    obtain ⟨g, hg⟩ := exists_group n
    refine h.refers (h.reading_ready hn g) hg ?_
    cases a with
    | kvs ok => exact hok n hn
    | controller => exact hok n hn
    | _ => exact nomatch hn
  held n b hb := (step_inv h hok hs).held_refers hb
  fails g hg hready := by
    cases a with
    | identityHook json clientId =>
      obtain ⟨hnet, rfl⟩ := step_identityHook hs
      simp only [fails, Option.ite_none_right_eq_some, Option.isNone_iff_eq_none] at hg
      rw [hg.1]
      exact h.usable hnet hready
    | setCredentials cert key =>
      obtain ⟨hnet, rfl⟩ := step_setCredentials hs
      simp only [fails, Option.ite_none_right_eq_some, Option.isNone_iff_eq_none] at hg
      rw [hg.1]
      exact h.usable hnet hready
    | net ok =>
      have hnot := hok.2 g hg
      rw [hready] at hnot
      exact Bool.noConfusion hnot
    | _ => exact nomatch hg

theorem ok_of_kept {a : Action J} (h : Inv s) (hk : Kept s a s') (hs : step s a = some s') : Ok s a := by
  have hread (n : Name) (hn : reading s a = some n) : s.net.pending n = false := by
    obtain ⟨g, hg⟩ := exists_group n
    by_contra hp
    exact h.not_refers (h.reading_ready hn g) hg (Bool.of_not_eq_false hp) (hk.reads n hn)
  cases a with
  | net ok =>
    have hstep : netStep s ok = some s' := hs
    refine ⟨fun n hn => ?_, fun g hg => ?_⟩
    · cases hheld : s.held n with
      | none => rfl
      | some b =>
        exfalso
        -- the string that is kept is the one that is freed
        have hstat := h.held hheld
        obtain ⟨c, todo, hnet⟩ : ∃ c todo, s.net = .free c (n :: todo) := by
          cases hnet : s.net with
          | free c todo =>
            rw [hnet] at hn
            cases todo with
            | nil => exact nomatch hn
            | cons m todo =>
              obtain rfl : m = n := Option.some.inj hn
              exact ⟨c, todo, rfl⟩
          | _ =>
            rw [hnet] at hn
            exact nomatch hn
        simp only [netStep, hnet, hstat] at hstep
        obtain rfl := Option.some.inj hstep
        obtain ⟨b', hb', hlive, -⟩ := hk.held n b hheld
        obtain rfl := Option.some.inj hb'
        exact not_live_free s.blocks () b hlive
    · by_contra hready
      obtain ⟨c, todo, hnet, rfl⟩ := abandons_cases hg
      have hsome : (abandons s).isSome = true := by rw [hg]; rfl
      have hidle : s' = { s with net := .idle } := by
        cases todo with
        | nil =>
          simp only [netStep, hnet, hsome, if_true] at hstep
          exact (Option.some.inj hstep).symm
        | cons m todo =>
          simp only [netStep, hnet, hsome, if_true] at hstep
          exact (Option.some.inj hstep).symm
      obtain ⟨n, hn⟩ : ∃ n, n ∈ c.group.names := by
        cases c.group with
        | identity => exact ⟨.region, by decide⟩
        | credentials => exact ⟨.cert, by decide⟩
      have hpending : s.net.pending n = true := by
        rw [hnet]
        exact decide_eq_true hn
      have hrefers := ((hk.fails c.group hg (Bool.of_not_eq_false hready)).1 n hn).2
      rw [hidle] at hrefers
      exact h.not_refers (Bool.of_not_eq_false hready) hn hpending hrefers
  | identityHook json clientId => exact fun n hn => nomatch hn
  | setCredentials cert key => exact fun n hn => nomatch hn
  | kvs ok => exact hread
  | controller => exact hread

/-- **The identity strings stay alive for their consumers** at every step of a run exactly when no call frees
a string that a consumer has taken the pointer of, calls fail behind their frees only while nothing is
published, and no consumer reads a string between its free and its publication. -/
theorem identity_strings_iff (as : List (Action J)) :
    AllSteps step Kept as boot ↔ Meets step Ok as boot :=
  allSteps_iff_meets step_inv (fun h hs => ⟨fun hk => ok_of_kept h hk hs, fun hok => kept_of_ok h hok hs⟩)
    boot_inv

/-! ### A second identity response -/

/-- A response whose `carn` is `a:a:k:r:1:channel/c/1` and whose `url` is
`https://h/role-aliases/x/credentials`. -/
def identity : Json :=
  let text (s : List Char) : Json := .string (ascii s)
  let vs : Json := .object [
    (ascii ['c', 'a', 'r', 'n'], text ['a', ':', 'a', ':', 'k', ':', 'r', ':', '1', ':', 'c', 'h', 'a', 'n',
      'n', 'e', 'l', '/', 'c', '/', '1']),
    (ascii ['u', 'r', 'l'], text ['h', 't', 't', 'p', 's', ':', '/', '/', 'h', '/', 'r', 'o', 'l', 'e', '-',
      'a', 'l', 'i', 'a', 's', 'e', 's', '/', 'x', '/', 'c', 'r', 'e', 'd', 'e', 'n', 't', 'i', 'a', 'l',
      's'])]
  .object [(ascii ['d'], .object [(ascii ['p'], .object [(ascii ['v', 's'], vs)])])]

/-- The device connects, the controller has read what it needs, and the identity response comes again. -/
def reconnect : List (Action Json) :=
  .identityHook (some identity) (some (ascii ['t'])) :: List.replicate 18 (.net true) ++
    .setCredentials (some []) (some []) :: List.replicate 9 (.net true) ++
    List.replicate 8 (.kvs true) ++ List.replicate 10 .controller ++
    [.identityHook (some identity) (some (ascii ['t']))]

/-- The region that the controller keeps is freed. -/
theorem second_identity_frees_held : ¬ ∀ as : List (Action Json), AllSteps step Kept as boot := by
  intro h
  have hbad : ∃ s s', runs step reconnect boot = some s ∧ step s (.net true : Action Json) = some s' ∧
      s'.held .region = some 0 ∧ s'.blocks[0]? = some ⟨(), [()]⟩ := ⟨_, _, rfl, rfl, rfl, rfl⟩
  obtain ⟨s, s', hrun, hstep, hheld, hblock⟩ := hbad
  have hkept := (h (reconnect ++ [.net true])).at hrun hstep
  obtain ⟨b, hb, ⟨block, hget, hfrees⟩, -⟩ := hkept.held .region 0 hheld
  obtain rfl := Option.some.inj hb
  rw [hblock] at hget
  obtain rfl := Option.some.inj hget
  exact nomatch hfrees

end IotcRa8p1.Kvs.Identity
