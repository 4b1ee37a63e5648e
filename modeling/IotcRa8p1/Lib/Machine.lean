import Mathlib.Data.List.Basic
import Mathlib.Data.Option.Basic

/-!
# Runs of a partial step function

A machine is a function `step : σ → α → Option σ`: the action carries every choice the environment
makes (which task moves, what a driver answers) and `none` says that the action is not enabled.
`runs` takes a list of actions in order, `AllSteps P` says that every step of a run satisfies `P`.

A run *meets* a condition when every one of its steps does.  The two induction rules below turn a
one-step lemma under that condition into a fact about the whole run.
-/

namespace IotcRa8p1.Machine

variable {σ α : Type*} (step : σ → α → Option σ)

/-- Take the actions in order. -/
def runs : List α → σ → Option σ
  | [], s => some s
  | a :: as, s => (step s a).bind (runs as)

/-- Every step of the run satisfies `P`. -/
def AllSteps (P : σ → α → σ → Prop) : List α → σ → Prop
  | [], _ => True
  | a :: as, s => ∀ s', step s a = some s' → P s a s' ∧ AllSteps P as s'

/-- Every step of the run is taken in a state and with an action that meet the condition. -/
def Meets (ok : σ → α → Prop) : List α → σ → Prop :=
  AllSteps step fun s a _ => ok s a

variable {step}

@[simp] theorem runs_nil (s : σ) : runs step [] s = some s := rfl

theorem runs_cons (a : α) (as : List α) (s : σ) :
    runs step (a :: as) s = (step s a).bind (runs step as) := rfl

/-- A nonempty run has a first step. -/
theorem runs_cons_eq_some {a : α} {as : List α} {s t : σ} :
    runs step (a :: as) s = some t ↔ ∃ u, step s a = some u ∧ runs step as u = some t := by
  rw [runs_cons, Option.bind_eq_some_iff]

theorem runs_append (as bs : List α) (s : σ) :
    runs step (as ++ bs) s = (runs step as s).bind (runs step bs) := by
  induction as generalizing s with
  | nil => rfl
  | cons a as ih =>
    rw [List.cons_append, runs_cons, runs_cons]
    cases h : step s a with
    | none => rfl
    | some u => exact ih u

/-- Some run leads from `s` to `t`. -/
def Leads (step : σ → α → Option σ) (s t : σ) : Prop := ∃ as, runs step as s = some t

theorem Leads.refl (s : σ) : Leads step s s := ⟨[], rfl⟩

theorem Leads.head {a : α} {s t u : σ} (ha : step s a = some t) (h : Leads step t u) :
    Leads step s u := by
  obtain ⟨as, has⟩ := h
  exact ⟨a :: as, runs_cons_eq_some.mpr ⟨t, ha, has⟩⟩

theorem Leads.trans {s t u : σ} (h : Leads step s t) (h' : Leads step t u) : Leads step s u := by
  obtain ⟨as, has⟩ := h
  obtain ⟨bs, hbs⟩ := h'
  refine ⟨as ++ bs, ?_⟩
  rw [runs_append, has, Option.bind_some, hbs]

theorem AllSteps.mono {P Q : σ → α → σ → Prop} {as : List α} {s : σ}
    (h : AllSteps step P as s) (hPQ : ∀ s a s', P s a s' → Q s a s') :
    AllSteps step Q as s := by
  induction as generalizing s with
  | nil => trivial
  | cons a as ih => exact fun s' hs => ⟨hPQ _ _ _ (h s' hs).1, ih (h s' hs).2⟩

/-- A condition that the actions of a run meet in every state. -/
theorem meets_of_forall {ok : σ → α → Prop} {as : List α} (h : ∀ a ∈ as, ∀ s, ok s a) (s : σ) :
    Meets step ok as s := by
  induction as generalizing s with
  | nil => trivial
  | cons a as ih =>
    exact fun s' _ => ⟨h a List.mem_cons_self s, ih (fun b hb => h b (List.mem_cons_of_mem _ hb)) s'⟩

/-- Evaluate the condition along a run. -/
instance decidableMeets {ok : σ → α → Prop} [∀ s a, Decidable (ok s a)] :
    (as : List α) → (s : σ) → Decidable (Meets step ok as s)
  | [], _ => .isTrue trivial
  | a :: as, s =>
    match h : step s a with
    | none => .isTrue fun u hu => by
      rw [h] at hu
      contradiction
    | some u =>
      have : Decidable (Meets step ok as u) := decidableMeets as u
      decidable_of_iff (ok s a ∧ Meets step ok as u)
        ⟨fun hu v hv => by rwa [← Option.some.inj (h.symm.trans hv)], fun hu => hu u h⟩

/-- Evaluate a property of the steps along a run. -/
instance decidableAllSteps {P : σ → α → σ → Prop} [∀ s a s', Decidable (P s a s')] :
    (as : List α) → (s : σ) → Decidable (AllSteps step P as s)
  | [], _ => .isTrue trivial
  | a :: as, s =>
    match h : step s a with
    | none => .isTrue fun u hu => by
      rw [h] at hu
      contradiction
    | some u =>
      have : Decidable (AllSteps step P as u) := decidableAllSteps as u
      decidable_of_iff (P s a u ∧ AllSteps step P as u)
        ⟨fun hu v hv => by rwa [← Option.some.inj (h.symm.trans hv)], fun hu => hu u h⟩

/-- A run meets a condition when its first part does and the rest does from wherever that ends. -/
theorem meets_append {ok : σ → α → Prop} {as bs : List α} {s : σ} (h : Meets step ok as s)
    (hrest : ∀ t, runs step as s = some t → Meets step ok bs t) : Meets step ok (as ++ bs) s := by
  induction as generalizing s with
  | nil => exact hrest s rfl
  | cons a as ih =>
    intro u hu
    refine ⟨(h u hu).1, ih (h u hu).2 fun t ht => hrest t ?_⟩
    rw [runs_cons, hu]
    exact ht

/-- **Invariant rule.**  What the start state satisfies and every step under the condition keeps
holds in the last state of every run that meets the condition. -/
theorem runs_invariant {I : σ → Prop} {ok : σ → α → Prop}
    (hstep : ∀ {s a s'}, I s → ok s a → step s a = some s' → I s')
    {as : List α} {s t : σ} (hs : I s) (hok : Meets step ok as s)
    (hrun : runs step as s = some t) : I t := by
  induction as generalizing s with
  | nil => exact Option.some.inj hrun ▸ hs
  | cons a as ih =>
    obtain ⟨u, hu, hrest⟩ := runs_cons_eq_some.mp hrun
    exact ih (hstep hs (hok u hu).1 hu) (hok u hu).2 hrest

/-- **Step rule.**  A property of single steps taken from states of an invariant, under the
condition, holds at every step of every run that meets the condition. -/
theorem allSteps_of_invariant {I : σ → Prop} {ok : σ → α → Prop} {P : σ → α → σ → Prop}
    (hstep : ∀ {s a s'}, I s → ok s a → step s a = some s' → I s')
    (hP : ∀ {s a s'}, I s → ok s a → step s a = some s' → P s a s')
    {as : List α} {s : σ} (hs : I s) (hok : Meets step ok as s) :
    AllSteps step P as s := by
  induction as generalizing s with
  | nil => trivial
  | cons a as ih =>
    intro s' hs'
    exact ⟨hP hs (hok s' hs').1 hs', ih (hstep hs (hok s' hs').1 hs') (hok s' hs').2⟩

/-- **Step equivalence rule.**  Where a property of single steps and a condition on them agree in every
state of an invariant that the steps under the condition keep, a run has the one at every step exactly
when it meets the other. -/
theorem allSteps_iff_meets {I : σ → Prop} {ok : σ → α → Prop} {P : σ → α → σ → Prop}
    (hstep : ∀ {s a s'}, I s → ok s a → step s a = some s' → I s')
    (hP : ∀ {s a s'}, I s → step s a = some s' → (P s a s' ↔ ok s a))
    {as : List α} {s : σ} (hs : I s) : AllSteps step P as s ↔ Meets step ok as s := by
  induction as generalizing s with
  | nil => exact Iff.rfl
  | cons a as ih =>
    constructor
    · intro h s' hs'
      have hok := (hP hs hs').mp (h s' hs').1
      exact ⟨hok, (ih (hstep hs hok hs')).mp (h s' hs').2⟩
    · intro h s' hs'
      have hok := (h s' hs').1
      exact ⟨(hP hs hs').mpr hok, (ih (hstep hs hok hs')).mpr (h s' hs').2⟩

/-- The property of a step in the middle of a run, read off `AllSteps`. -/
theorem AllSteps.at {P : σ → α → σ → Prop} {as bs : List α} {a : α} {s t u : σ}
    (h : AllSteps step P (as ++ a :: bs) s) (hrun : runs step as s = some t)
    (hstep : step t a = some u) : P t a u := by
  induction as generalizing s with
  | nil =>
    have hst : s = t := Option.some.inj hrun
    subst hst
    exact (h u hstep).1
  | cons b as ih =>
    obtain ⟨v, hv, hrest⟩ := runs_cons_eq_some.mp hrun
    exact ih (h v hv).2 hrest

/-- **Progress rule.**  Where every step either reaches `Q` or stays in `W` without raising the rank, and
the ticking steps lower it, a run with more ticks than the rank reaches `Q`. -/
theorem reaches_of_rank {W Q : σ → Prop} (rank : σ → ℕ) (tick : α → Bool)
    (hstep : ∀ {s a s'}, W s → step s a = some s' →
      Q s' ∨ W s' ∧ rank s' + (if tick a = true then 1 else 0) ≤ rank s)
    {as : List α} {s t : σ} (hs : W s) (hrun : runs step as s = some t)
    (hticks : rank s < as.countP tick) :
    ∃ bs cs u, as = bs ++ cs ∧ runs step bs s = some u ∧ Q u := by
  induction as generalizing s with
  | nil => exact absurd hticks (Nat.not_lt_zero _)
  | cons a as ih =>
    obtain ⟨u, hu, hrest⟩ := runs_cons_eq_some.mp hrun
    obtain hQ | ⟨hW, hrank⟩ := hstep hs hu
    · exact ⟨[a], as, u, rfl, runs_cons_eq_some.mpr ⟨u, hu, rfl⟩, hQ⟩
    · rw [List.countP_cons] at hticks
      obtain ⟨bs, cs, v, has, hbs, hv⟩ := ih hW hrest (by omega)
      exact ⟨a :: bs, cs, v, by rw [has, List.cons_append],
        runs_cons_eq_some.mpr ⟨u, hu, hbs⟩, hv⟩

/-- **Simulation rule.**  If every step of a coarse machine, taken under the condition, is matched by a
run of a fine one, so is every run. -/
theorem leads_of_simulation {τ β : Type*} {fine : τ → β → Option τ} {R : σ → τ → Prop}
    {ok : σ → α → Prop}
    (hstep : ∀ {s a s' c}, R s c → ok s a → step s a = some s' → ∃ c', Leads fine c c' ∧ R s' c')
    {as : List α} {s s' : σ} {c : τ} (hR : R s c) (hok : Meets step ok as s)
    (hrun : runs step as s = some s') : ∃ c', Leads fine c c' ∧ R s' c' := by
  induction as generalizing s c with
  | nil =>
    obtain rfl := Option.some.inj hrun
    exact ⟨c, .refl c, hR⟩
  | cons a as ih =>
    obtain ⟨u, hu, hrest⟩ := runs_cons_eq_some.mp hrun
    obtain ⟨d, hcd, hd⟩ := hstep hR (hok u hu).1 hu
    obtain ⟨c', hdc, hc'⟩ := ih hd (hok u hu).2 hrest
    exact ⟨c', hcd.trans hdc, hc'⟩

end IotcRa8p1.Machine
