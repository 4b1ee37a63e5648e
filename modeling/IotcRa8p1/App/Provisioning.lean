import IotcRa8p1.App.Config
import IotcRa8p1.App.PemCapture

/-!
# The configuration store against a map

`St.stored` is the map: what was acknowledged last for each field since the last acknowledged erase.  The
files follow it (`Follows`), except that an erase reports success whether the removals worked or not.

`configStore_iff` compares every load of a run with the map.  They agree when the map is complete, the
calls of the load work and the values fit the buffers they are loaded into; the command line takes longer
ones for `env`, `cpid` and `duid`, while a captured PEM always fits.
-/

namespace IotcRa8p1.App.Config

open CString Cli Machine

/-- The files, and what was acknowledged as stored. -/
structure St where
  files : Files
  stored : Files

/-- A fresh file system. -/
def St.start : St := ⟨fun _ => none, fun _ => none⟩

/-- A command that is typed, with all the console sends from its first character on, or a load. -/
inductive Op where
  | command (latch : Bool) (input : List UInt8) (io : CommandAnswer)
  | load (io : Field → ReadAnswer)

/-- One operation; a store or an erase that reports an error is not one of these runs. -/
def step (s : St) : Op → Option St
  | .command latch input io =>
    match prvReadLine cliLineMax true latch input with
    | none => none
    | some r =>
      match prvHandle s.files r io with
      | none => none
      | some (.stored f value rc files) =>
        if rc = 0 then some ⟨files, Function.update s.stored f (some value)⟩ else none
      | some (.erased rc files) => if rc = 0 then some ⟨files, fun _ => none⟩ else none
      | some .nothing => some s
  | .load _ => some s

/-- Every field has a value that is not empty. -/
def Complete (m : Files) : Prop := ∀ f, ∃ v, m f = some v ∧ v ≠ []

/-- A load answers as the map says. -/
structure LoadAgrees (m : Files) (r : ℤ × Identity) : Prop where
  complete : r.1 = 0 ↔ Complete m
  same : r.1 = 0 → ∀ f, r.2.get f = m f

/-- A command leaves the other fields as they are; a load answers as the map says. -/
def StepOk (s : St) (op : Op) (s' : St) : Prop :=
  match op with
  | .command latch input io =>
    ∀ r f value rc files, prvReadLine cliLineMax true latch input = some r →
      prvHandle s.files r io = some (.stored f value rc files) →
      ∀ g, g ≠ f → s'.files g = s.files g
  | .load io => LoadAgrees s.stored (iotcConfigLoad s.files io)

/-- Every value fits the buffer it is loaded into. -/
def Fits (m : Files) : Prop := ∀ f v, m f = some v → v.length < f.max

/-- A load of a complete map has what it needs; a load of any other does not find five files that an
erase has left behind. -/
def OpOk (s : St) : Op → Prop
  | .command _ _ _ => True
  | .load io =>
    (Complete s.stored → (∀ f, (io f).good = true) ∧ Fits s.stored) ∧
    (¬ Complete s.stored → Complete s.files → ∃ f, (io f).good = false)

/-! ### What a command can store -/

theorem prvReadLine_printable {size : ℕ} {echo latch : Bool} {input : List UInt8}
    {r : ReadResult (List UInt8)} (h : prvReadLine size echo latch input = some r) :
    ∀ c ∈ r.result, printable c = true :=
  (readLineLoop_isLine ⟨Nat.zero_le _, fun _ hc => absurd hc List.not_mem_nil⟩ h).printable

theorem printable_ne_zero {l : List UInt8} (h : ∀ c ∈ l, printable c = true) : 0 ∉ l :=
  fun h0 => absurd (h 0 h0) (by decide)

/-- The text in `s_pem` leaves room for its NUL and one more byte. -/
def PemFits (pem : List UInt8) : Prop := pem.length + 2 ≤ iotcConfigPemMax ∧ 0 ∉ pem

/-- What a result of the capture, or the state it goes on from, keeps. -/
def PemKept : PemResult ⊕ PemState → Prop
  | .inl (.captured pem) => PemFits pem
  | .inl _ => True
  | .inr s => PemFits s.pem

theorem pemFits_nil : PemFits [] := ⟨by decide, List.not_mem_nil⟩

theorem pemStore_kept {s : PemState} {line : List UInt8} (hs : PemFits s.pem) (hline : 0 ∉ line) :
    PemKept (pemStore s line) := by
  dsimp only [pemStore]
  split_ifs with h1 h2 h3 h4 h5
  · trivial
  · exact hs
  · trivial
  · exact hs
  all_goals
    -- the line and its LF still fit
    have hlen : s.pem.length + line.length + 2 < iotcConfigPemMax := by omega
    refine ⟨?_, ?_⟩
    · simp only [List.length_append, List.length_singleton]
      omega
    · simp only [List.mem_append, List.mem_singleton]
      rintro ((h0 | h0) | h0)
      · exact hs.2 h0
      · exact hline h0
      · exact absurd h0 (by decide)

theorem pemLine_kept (label : List UInt8) {s : PemState} {line : List UInt8} (hs : PemFits s.pem)
    (hline : 0 ∉ line) : PemKept (pemLine label s line) := by
  dsimp only [pemLine]
  split_ifs
  · trivial
  · exact hs
  · trivial
  · exact pemStore_kept pemFits_nil hline
  · exact hs
  · exact pemStore_kept hs hline

theorem readPemLoop_fits {label : List UInt8} {fuel : ℕ} {s : PemState} {latch : Bool}
    {input : List UInt8} {pem rest : List UInt8} {latch' : Bool} (hs : PemFits s.pem)
    (h : readPemLoop label fuel s latch input = some ⟨.captured pem, latch', rest⟩) :
    PemFits pem := by
  induction fuel generalizing s latch input with
  | zero => contradiction
  | succ fuel ih =>
    rw [readPemLoop] at h
    cases hr : prvReadLine 96 false latch input with
    | none =>
      rw [hr] at h
      contradiction
    | some r =>
      rw [hr] at h
      have hkept := pemLine_kept label hs (printable_ne_zero (prvReadLine_printable hr))
      cases hl : pemLine label s r.result with
      | inl res =>
        simp only [hl, Option.some.injEq, ReadResult.mk.injEq] at h
        rw [hl, h.1] at hkept
        exact hkept
      | inr s' =>
        simp only [hl] at h
        rw [hl] at hkept
        exact ih hkept h

/-- **Capture.**  A captured PEM has no NUL and fits the buffer it is loaded into. -/
theorem prvReadPem_fits {label : List UInt8} {latch : Bool} {input pem rest : List UInt8}
    {latch' : Bool} (h : prvReadPem label latch input = some ⟨.captured pem, latch', rest⟩) :
    PemFits pem :=
  readPemLoop_fits pemFits_nil h

/-- A value a command can store in a field. -/
def Storable (f : Field) (v : List UInt8) : Prop :=
  0 ∉ v ∧ (f = .cert ∨ f = .key → v.length < f.max)

/-- What `prv_handle` stores. -/
theorem prvHandle_stored {files files' : Files} {r : ReadResult (List UInt8)} {io : CommandAnswer}
    {f : Field} {value : List UInt8} {rc : ℤ} (hr : ∀ c ∈ r.result, printable c = true)
    (h : prvHandle files r io = some (.stored f value rc files')) :
    Storable f value ∧ iotcConfigWrite files f value io.write = (rc, files') := by
  have hdrop (n : ℕ) : 0 ∉ r.result.drop n :=
    printable_ne_zero fun c hc => hr c (List.mem_of_mem_drop hc)
  rw [prvHandle] at h
  cases hc : command r.result with
  | setValue g v =>
    simp only [hc, Effect.store, Option.some.injEq, Effect.stored.injEq] at h
    obtain ⟨rfl, rfl, rfl, rfl⟩ := h
    refine ⟨?_, rfl⟩
    rw [command] at hc
    split_ifs at hc <;>
    · obtain ⟨rfl, rfl⟩ := Command.setValue.inj hc
      exact ⟨hdrop _, fun hf => by simp at hf⟩
  | setPem g label =>
    simp only [hc] at h
    cases hp : prvReadPem label r.latch r.rest with
    | none => simp [hp] at h
    | some res =>
      obtain ⟨result, latch, rest⟩ := res
      cases result with
      | captured pem =>
        simp only [hp, Effect.store, Option.some.injEq, Effect.stored.injEq] at h
        obtain ⟨rfl, rfl, rfl, rfl⟩ := h
        have hfits := prvReadPem_fits hp
        refine ⟨⟨hfits.2, fun hf => ?_⟩, rfl⟩
        have hmax : g.max = iotcConfigPemMax := by rcases hf with rfl | rfl <;> rfl
        rw [hmax]
        exact (Nat.lt_add_of_pos_right (by decide)).trans_le hfits.1
      | cancelled => simp [hp] at h
      | wrongType => simp [hp] at h
      | tooLarge => simp [hp] at h
  | erase => simp [hc] at h
  | other => simp [hc] at h

theorem iotcConfigWrite_zero {files files' : Files} {f : Field} {value : List UInt8}
    {io : WriteAnswer} (h : iotcConfigWrite files f value io = (0, files')) :
    files' = Function.update files f (some value) := by
  cases io <;> simp [iotcConfigWrite] at h
  exact h.symm

/-- **Step.**  An acknowledged command stores one value in the files and in the map, or empties the map
and removes some files, or changes nothing. -/
theorem step_command {s s' : St} {latch : Bool} {input : List UInt8} {io : CommandAnswer}
    (h : step s (.command latch input io) = some s') :
    (∃ f v, Storable f v ∧
      s' = ⟨Function.update s.files f (some v), Function.update s.stored f (some v)⟩) ∨
    (∃ files, s' = ⟨files, fun _ => none⟩) ∨ s' = s := by
  rw [step] at h
  cases hr : prvReadLine cliLineMax true latch input with
  | none => simp [hr] at h
  | some r =>
    cases hh : prvHandle s.files r io with
    | none => simp [hr, hh] at h
    | some effect =>
      cases effect with
      | stored f value rc files =>
        simp only [hr, hh, Option.ite_none_right_eq_some, Option.some.injEq] at h
        obtain ⟨rfl, rfl⟩ := h
        obtain ⟨hstorable, hwrite⟩ := prvHandle_stored (prvReadLine_printable hr) hh
        exact Or.inl ⟨f, value, hstorable, by rw [iotcConfigWrite_zero hwrite]⟩
      | erased rc files =>
        simp only [hr, hh, Option.ite_none_right_eq_some, Option.some.injEq] at h
        exact Or.inr (Or.inl ⟨files, h.2.symm⟩)
      | nothing =>
        simp only [hr, hh, Option.some.injEq] at h
        exact Or.inr (Or.inr h.symm)

/-! ### The files follow the map -/

/-- A stored value is the contents of its file, and is one a command can store. -/
def Follows (s : St) : Prop := ∀ f v, s.stored f = some v → s.files f = some v ∧ Storable f v

theorem start_follows : Follows .start := fun _ _ h => by simp [St.start] at h

theorem step_follows {s s' : St} {op : Op} (hs : Follows s) (h : step s op = some s') :
    Follows s' := by
  cases op with
  | command latch input io =>
    obtain ⟨f, v, hv, rfl⟩ | ⟨files, rfl⟩ | rfl := step_command h
    · intro g w hw
      by_cases hg : g = f
      · subst hg
        simp only [Function.update_self, Option.some.injEq] at hw ⊢
        exact ⟨hw, hw ▸ hv⟩
      · simp only [Function.update_of_ne hg] at hw ⊢
        exact hs g w hw
    · intro g w hw
      simp at hw
    · exact hs
  | load io => exact Option.some.inj h ▸ hs

/-! ### One load -/

theorem prvLoadField_eq (files : Files) (f : Field) (io : ReadAnswer) :
    prvLoadField files f io =
      if io.good = true then
        (files f).bind fun v => if v = [] then none else some (cstr (v.take (f.max - 1) ++ [0]))
      else none := by
  have hmax : 2 ≤ f.max := by cases f <;> decide
  obtain ⟨malloc, init, opens, reads⟩ := io
  simp only [prvLoadField, iotcConfigRead, ReadAnswer.good, Nat.not_lt.mpr hmax, if_false]
  cases hf : files f with
  | none => cases malloc <;> cases init <;> simp
  | some v =>
    cases malloc <;> cases init <;> cases opens <;> cases reads <;> simp
    have hnot : f.max - 1 ≠ 0 := by omega
    by_cases hv : v = []
    · simp [hv]
    · simp [hv, hnot]

theorem prvLoadField_isSome (files : Files) (f : Field) (io : ReadAnswer) :
    (prvLoadField files f io).isSome = true ↔
      io.good = true ∧ ∃ v, files f = some v ∧ v ≠ [] := by
  rw [prvLoadField_eq]
  cases files f with
  | none => simp
  | some v => by_cases hv : v = [] <;> simp [hv]

theorem iotcConfigLoad_rc (files : Files) (io : Field → ReadAnswer) :
    (iotcConfigLoad files io).1 = 0 ↔ (∀ f, (io f).good = true) ∧ Complete files := by
  have hsome : (iotcConfigLoad files io).1 = 0 ↔
      ∀ f, (prvLoadField files f (io f)).isSome = true := by
    simp only [iotcConfigLoad]
    split_ifs with h
    · simp only [Bool.and_eq_true] at h
      refine iff_of_true rfl fun f => ?_
      cases f <;> simp [h]
    · refine iff_of_false (by decide) fun hall => h ?_
      simp [hall]
  rw [hsome, Complete, ← forall_and]
  exact forall_congr' fun f => prvLoadField_isSome files f (io f)

theorem iotcConfigLoad_get {files : Files} {io : Field → ReadAnswer}
    (h : (iotcConfigLoad files io).1 = 0) (f : Field) :
    (iotcConfigLoad files io).2.get f = prvLoadField files f (io f) := by
  simp only [iotcConfigLoad] at h ⊢
  split_ifs at h ⊢
  · cases f <;> rfl
  · exact absurd h (by decide)

/-- What is loaded of a value: all of it when it fits. -/
theorem prvLoadField_same {files : Files} {f : Field} {io : ReadAnswer} {v : List UInt8}
    (hio : io.good = true) (hf : files f = some v) (hne : v ≠ []) (hv : 0 ∉ v) :
    prvLoadField files f io = some v ↔ v.length < f.max := by
  have hmax : 0 < f.max := by cases f <;> decide
  have htake : ∀ c ∈ v.take (f.max - 1), c ≠ 0 := fun c hc =>
    ne_of_mem_of_not_mem (List.mem_of_mem_take hc) hv
  rw [prvLoadField_eq, if_pos hio, hf, Option.bind_some, if_neg hne, cstr_append_nul htake,
    Option.some.injEq, List.take_eq_self_iff]
  omega

theorem loadAgrees_iff {s : St} (hs : Follows s) (io : Field → ReadAnswer) :
    LoadAgrees s.stored (iotcConfigLoad s.files io) ↔ OpOk s (.load io) := by
  by_cases hc : Complete s.stored
  · have hfiles : Complete s.files := fun f => by
      obtain ⟨v, hv, hne⟩ := hc f
      exact ⟨v, (hs f v hv).1, hne⟩
    have hsame (hio : ∀ f, (io f).good = true) (f : Field) :
        prvLoadField s.files f (io f) = s.stored f ↔ ∀ v, s.stored f = some v → v.length < f.max := by
      obtain ⟨v, hv, hne⟩ := hc f
      rw [hv, prvLoadField_same (hio f) (hs f v hv).1 hne (hs f v hv).2.1]
      simp
    constructor
    · intro h
      have hrc := h.complete.mpr hc
      have hio := ((iotcConfigLoad_rc _ _).mp hrc).1
      refine ⟨fun _ => ⟨hio, fun f => ?_⟩, fun hn => absurd hc hn⟩
      exact (hsame hio f).mp ((iotcConfigLoad_get hrc f).symm.trans (h.same hrc f))
    · rintro ⟨hok, -⟩
      obtain ⟨hio, hfits⟩ := hok hc
      have hrc := (iotcConfigLoad_rc _ _).mpr ⟨hio, hfiles⟩
      refine ⟨iff_of_true hrc hc, fun _ f => ?_⟩
      exact (iotcConfigLoad_get hrc f).trans ((hsame hio f).mpr (hfits f))
  · have hrc : (iotcConfigLoad s.files io).1 ≠ 0 ↔
        (Complete s.files → ∃ f, (io f).good = false) := by
      rw [Ne, iotcConfigLoad_rc, not_and']
      simp
    constructor
    · intro h
      exact ⟨fun hn => absurd hn hc, fun _ => hrc.mp fun h0 => hc (h.complete.mp h0)⟩
    · rintro ⟨-, hok⟩
      have h0 := hrc.mpr (hok hc)
      exact ⟨iff_of_false h0 hc, fun h => absurd h h0⟩

/-! ### Every run -/

/-- A store leaves the other files as they were. -/
theorem command_frame {s s' : St} {latch : Bool} {input : List UInt8} {io : CommandAnswer}
    (h : step s (.command latch input io) = some s') : StepOk s (.command latch input io) s' := by
  intro r f value rc files hr hh g hg
  rw [step] at h
  simp only [hr, hh, Option.ite_none_right_eq_some, Option.some.injEq] at h
  obtain ⟨rfl, rfl⟩ := h
  obtain ⟨-, hwrite⟩ := prvHandle_stored (prvReadLine_printable hr) hh
  rw [iotcConfigWrite_zero hwrite]
  exact Function.update_of_ne hg _ _

theorem stepOk_iff {s s' : St} {op : Op} (hs : Follows s) (h : step s op = some s') :
    StepOk s op s' ↔ OpOk s op := by
  cases op with
  | command latch input io => exact iff_of_true (command_frame h) trivial
  | load io => exact loadAgrees_iff hs io

/-- **The store refines the map.**  In every run, the loads answer as the map says and a store changes no
other field, if and only if every load of a complete map has what it needs and its values fit, and every
other load finds no complete set of files left behind by an erase. -/
theorem configStore_iff (ops : List Op) :
    AllSteps step StepOk ops .start ↔ Meets step OpOk ops .start :=
  allSteps_iff_meets (fun hs _ h => step_follows hs h) stepOk_iff start_follows

/-! ### A value of 16 characters for `env` -/

def goodCommand : CommandAnswer := ⟨.written, true, fun _ => true⟩

def goodLoad : Field → ReadAnswer := fun _ => ⟨true, true, true, true⟩

def typed (line : List UInt8) : Op := .command false (line ++ [cr]) goodCommand

/-- A PEM block of two lines. -/
def smallPem (label : List UInt8) : List UInt8 :=
  pemBegin ++ [0x20] ++ label ++ dashes ++ [lf] ++ pemEnd ++ [0x20] ++ label ++ dashes ++ [lf]

/-- All five fields, `env` with `n` characters. -/
def provisioning (n : ℕ) : List Op :=
  [typed (setEnv ++ List.replicate n 0x41), typed (setCpid ++ [0x41]), typed (setDuid ++ [0x41]),
    typed (setCert ++ [cr] ++ smallPem certificateLabel),
    typed (setKey ++ [cr] ++ smallPem privateKeyLabel)]

/-- The value is acknowledged; the load reports success and gives 15 of its characters. -/
theorem configStore_cuts_env : ¬ ∀ ops : List Op, AllSteps step StepOk ops .start := by
  intro h
  obtain ⟨s, hrun, hstored, hload⟩ :
      ∃ s, runs step (provisioning 16) .start = some s ∧
        s.stored .env = some (List.replicate 16 0x41) ∧
        (iotcConfigLoad s.files goodLoad).1 = 0 ∧
        (iotcConfigLoad s.files goodLoad).2.env = some (List.replicate 15 0x41) := by
    have hval : (runs step (provisioning 16) .start).map (fun s =>
        (s.stored .env, (iotcConfigLoad s.files goodLoad).1,
          (iotcConfigLoad s.files goodLoad).2.env)) =
        some (some (List.replicate 16 0x41), 0, some (List.replicate 15 0x41)) := by
      decide +kernel
    obtain ⟨s, hs, hval⟩ := Option.map_eq_some_iff.mp hval
    simp only [Prod.mk.injEq] at hval
    exact ⟨s, hs, hval.1, hval.2.1, hval.2.2⟩
  have hagrees : LoadAgrees s.stored (iotcConfigLoad s.files goodLoad) :=
    AllSteps.at (a := .load goodLoad) (h (provisioning 16 ++ [.load goodLoad])) hrun rfl
  have henv := hagrees.same hload.1 .env
  rw [hstored] at henv
  exact absurd (hload.2.symm.trans henv) (by decide)

end IotcRa8p1.App.Config
