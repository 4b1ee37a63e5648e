import IotcRa8p1.Lib.Heaps
import IotcRa8p1.Lib.Machine

/-!
# The strings of the SDK context (`iotconnect.c`)

`iotconnect_sdk_init` duplicates `env`, `cpid` and `duid` with the allocator of the library, which by then is the
FreeRTOS heap; `iotconnect_sdk_deinit` releases them.  `iotc_app_poll` calls both: one poll is
`pollRestart`, when a restart is due, and then `pollSwitch`.

Of the library only what it keeps is here: after `iotcl_init` the pointers of its configuration, until
`iotcl_deinit`.
-/

namespace IotcRa8p1.App.Sdk

open Machine Heaps

/-- The two heaps. -/
inductive Heap where
  | libc
  | freertos
  deriving DecidableEq

/-- The string members of `s_ctx`. -/
inductive Str where
  | env
  | cpid
  | duid
  deriving DecidableEq

/-- `iotc_app_state_t` -/
inductive AppState where
  | idle
  | starting
  | running
  | failed
  deriving DecidableEq

structure St where
  app : AppState
  /-- `s_mem_configured` -/
  memConfigured : Bool
  /-- the heap behind `iotcl_malloc` -/
  installed : Heap
  blocks : Blocks Heap
  /-- `s_ctx.env`, `s_ctx.cpid`, `s_ctx.duid` -/
  ctx : Str → Option ℕ
  /-- `s_ctx.lib_inited` -/
  libInited : Bool
  /-- `device.duid` and `device.cpid`, while the library is initialised -/
  lib : Option (Option ℕ × Option ℕ)

def boot : St := ⟨.idle, false, .libc, [], fun _ => none, false, none⟩

/-! ### `iotconnect_sdk_init` and `iotconnect_sdk_deinit` -/

/-- What works of the calls `iotconnect_sdk_init` makes. -/
structure InitAnswer where
  strdup : Str → Bool
  fs : Bool
  provision : Bool
  lib : Bool
  dra : Bool

/-- `s_ctx.x = iotcl_strdup (..)` -/
def strdupTo (s : St) (x : Str) (ok : Bool) : St :=
  if ok = true then
    { s with blocks := alloc s.blocks s.installed, ctx := Function.update s.ctx x (some s.blocks.length) }
  else { s with ctx := Function.update s.ctx x none }

/-- `iotcl_configure_dynamic_memory`, once. -/
def configureMemory (s : St) : St :=
  if s.memConfigured = true then s else { s with memConfigured := true, installed := .freertos }

/-- The three strings. -/
def dupStrings (s : St) (io : InitAnswer) : St :=
  strdupTo (strdupTo (strdupTo (configureMemory s) .env (io.strdup .env)) .cpid (io.strdup .cpid))
    .duid (io.strdup .duid)

/-- `iotconnect_sdk_init`: whether it succeeds, and what it leaves. -/
def sdkInit (s : St) (io : InitAnswer) : Bool × St :=
  let s := dupStrings s io
  if io.fs = false then (false, s)
  else if io.provision = false then (false, s)
  else if io.lib = false then (false, s)
  else
    let s := { s with libInited := true, lib := some (s.ctx .duid, s.ctx .cpid) }
    if io.dra = false then (false, s) else (true, s)

/-- `iotcl_deinit` -/
def libDeinit (s : St) : St :=
  if s.libInited = true then { s with libInited := false, lib := none } else s

/-- `iotconnect_sdk_deinit` -/
def sdkDeinit (s : St) : St :=
  let s := libDeinit s
  { s with
    blocks := free (free (free s.blocks .libc (s.ctx .env)) .libc (s.ctx .cpid)) .libc (s.ctx .duid)
    ctx := fun _ => none }

/-! ### `iotc_app_poll` -/

/-- What a poll reads and what its calls answer. -/
structure PollAnswer where
  networkUp : Bool
  /-- `use_stored || IOTC_CFG_ENABLED` -/
  identity : Bool
  timeSync : Bool
  init : InitAnswer
  connect : Bool
  connected : Bool
  /-- the backoff is over and no transfer is busy -/
  retry : Bool

/-- `s_restart_req && !prv_xfer_busy ()` at the top of the poll. -/
def pollRestart (s : St) : St := { sdkDeinit s with app := .idle }

def pollStart (s : St) (io : PollAnswer) : St :=
  let r := sdkInit { s with app := .starting } io.init
  if r.1 = false then { r.2 with app := .failed }
  else if io.connect = false then { r.2 with app := .failed }
  else { r.2 with app := .running }

/-- The `switch (s_state)` of the poll. -/
def pollSwitch (s : St) (io : PollAnswer) : St :=
  match s.app with
  | .idle =>
    if io.networkUp = false ∨ io.identity = false ∨ io.timeSync = false then s else pollStart s io
  | .starting => s
  | .running => if io.connected = false then { s with app := .failed } else s
  | .failed => if io.retry = true then { sdkDeinit s with app := .idle } else s

inductive Event where
  | restart
  | switch (io : PollAnswer)

def step (s : St) : Event → Option St
  | .restart => some (pollRestart s)
  | .switch io => some (pollSwitch s io)

/-! ### Ownership -/

/-- Every string is held by the context or was released once and by its own deallocator, and what the
library keeps is not released. -/
structure Owned (s : St) : Prop where
  owns : Owns s.ctx s.blocks
  settled : Settled s.ctx s.blocks
  lib : ∀ p, s.lib = some p → ∀ i, p.1 = some i ∨ p.2 = some i → Live s.blocks i

/-- The deinit of this step, if it comes to one, finds no string. -/
def DeinitFindsNone (s : St) (e : Event) : Prop :=
  (match e with
    | .restart => True
    | .switch io => s.app = .failed ∧ io.retry = true) → ∀ x, s.ctx x = none

/-- What every state of the app has besides. -/
structure Kept (s : St) : Prop where
  owned : Owned s
  idle : s.app = .idle → (∀ x, s.ctx x = none) ∧ s.lib = none
  inited : s.libInited = s.lib.isSome
  libHeld : ∀ p, s.lib = some p → ∀ i, p.1 = some i ∨ p.2 = some i → ∃ x, s.ctx x = some i
  heap : From .freertos s.blocks
  installed : s.memConfigured = true → s.installed = .freertos

theorem boot_kept : Kept boot where
  owned := ⟨⟨by simp [boot], by simp [boot]⟩, by simp [Settled, boot], by simp [boot]⟩
  idle _ := ⟨fun _ => rfl, rfl⟩
  inited := rfl
  libHeld := by simp [boot]
  heap := fun b hb => by simp [boot] at hb
  installed := by simp [boot]

/-! ### Initialisation -/

/-- What an initialisation keeps while it duplicates strings. -/
structure Filling (s : St) : Prop where
  owns : Owns s.ctx s.blocks
  settled : Settled s.ctx s.blocks
  lib : s.lib = none
  inited : s.libInited = false
  heap : From .freertos s.blocks
  installed : s.installed = .freertos

theorem configureMemory_filling {s : St} (hs : Kept s) (hidle : s.app = .idle) (app : AppState) :
    Filling (configureMemory { s with app := app }) ∧
      (configureMemory { s with app := app }).ctx = s.ctx := by
  have hlib := (hs.idle hidle).2
  have hinited : s.libInited = false := by rw [hs.inited, hlib, Option.isSome_none]
  rw [configureMemory]
  split_ifs with hmem
  · exact ⟨⟨hs.owned.owns, hs.owned.settled, hlib, hinited, hs.heap, hs.installed hmem⟩, rfl⟩
  · exact ⟨⟨hs.owned.owns, hs.owned.settled, hlib, hinited, hs.heap, rfl⟩, rfl⟩

theorem strdupTo_filling {s : St} (hs : Filling s) {x : Str} (hx : s.ctx x = none) (ok : Bool) :
    Filling (strdupTo s x ok) := by
  rw [strdupTo]
  split_ifs with hok
  · refine ⟨hs.owns.alloc _ x, hs.settled.alloc _ hx, hs.lib, hs.inited, ?_, hs.installed⟩
    rw [hs.installed]
    exact hs.heap.alloc
  · have hctx : Function.update s.ctx x none = s.ctx := by
      rw [← hx]
      exact Function.update_eq_self x s.ctx
    rw [hctx]
    exact hs

theorem strdupTo_ctx {s : St} {x y : Str} (hxy : y ≠ x) (ok : Bool) :
    (strdupTo s x ok).ctx y = s.ctx y := by
  rw [strdupTo]
  split_ifs
  · exact Function.update_of_ne hxy _ _
  · exact Function.update_of_ne hxy _ _

theorem dupStrings_filling {s : St} (hs : Kept s) (hidle : s.app = .idle) (app : AppState)
    (io : InitAnswer) : Filling (dupStrings { s with app := app } io) := by
  obtain ⟨hfill, hctx⟩ := configureMemory_filling hs hidle app
  have hnone (x : Str) : (configureMemory { s with app := app }).ctx x = none := by
    rw [hctx]
    exact (hs.idle hidle).1 x
  have henv := strdupTo_filling hfill (hnone .env) (io.strdup .env)
  have hcpid := strdupTo_filling henv (x := .cpid)
    (by rw [strdupTo_ctx (by decide), hnone]) (io.strdup .cpid)
  refine strdupTo_filling hcpid ?_ (io.strdup .duid)
  rw [strdupTo_ctx (by decide), strdupTo_ctx (by decide), hnone]

/-- An initialisation that stops early leaves its strings in the context. -/
theorem Filling.kept {s : St} (hs : Filling s) {app : AppState} (happ : app ≠ .idle) :
    Kept { s with app := app } where
  owned := ⟨hs.owns, hs.settled, fun p hp => by simp [hs.lib] at hp⟩
  idle h := absurd h happ
  inited := by simp [hs.inited, hs.lib]
  libHeld p hp := by simp [hs.lib] at hp
  heap := hs.heap
  installed _ := hs.installed

theorem Filling.inited_kept {s : St} (hs : Filling s) {app : AppState} (happ : app ≠ .idle) :
    Kept { s with app := app, libInited := true, lib := some (s.ctx .duid, s.ctx .cpid) } where
  owned := by
    refine ⟨hs.owns, hs.settled, ?_⟩
    rintro p hp i (hi | hi)
    · obtain rfl := Option.some.inj hp
      exact hs.owns.live hi
    · obtain rfl := Option.some.inj hp
      exact hs.owns.live hi
  idle h := absurd h happ
  inited := rfl
  libHeld := by
    rintro p hp i (hi | hi)
    · obtain rfl := Option.some.inj hp
      exact ⟨_, hi⟩
    · obtain rfl := Option.some.inj hp
      exact ⟨_, hi⟩
  heap := hs.heap
  installed _ := hs.installed

theorem sdkInit_kept {s : St} (hs : Kept s) (hidle : s.app = .idle) (io : InitAnswer)
    {app : AppState} (happ : app ≠ .idle) :
    Kept { (sdkInit { s with app := .starting } io).2 with app := app } := by
  have hfill := dupStrings_filling hs hidle .starting io
  rw [sdkInit]
  dsimp only
  split_ifs
  · exact hfill.kept happ
  · exact hfill.kept happ
  · exact hfill.kept happ
  · exact hfill.inited_kept happ
  · exact hfill.inited_kept happ

theorem pollStart_kept {s : St} (hs : Kept s) (hidle : s.app = .idle) (io : PollAnswer) :
    Kept (pollStart s io) := by
  have hinit {app : AppState} (happ : app ≠ .idle) := sdkInit_kept hs hidle io.init happ
  rw [pollStart]
  dsimp only
  split_ifs
  · exact hinit (by decide)
  · exact hinit (by decide)
  · exact hinit (by decide)

/-! ### Release -/

theorem libDeinit_fields (s : St) :
    (libDeinit s).blocks = s.blocks ∧ (libDeinit s).ctx = s.ctx ∧
      (libDeinit s).memConfigured = s.memConfigured ∧ (libDeinit s).installed = s.installed := by
  rw [libDeinit]
  split_ifs <;> exact ⟨rfl, rfl, rfl, rfl⟩

theorem libDeinit_lib {s : St} (hs : s.libInited = s.lib.isSome) :
    (libDeinit s).lib = none ∧ (libDeinit s).libInited = false := by
  rw [libDeinit]
  split_ifs with h
  · exact ⟨rfl, rfl⟩
  · have hinited : s.libInited = false := by simpa using h
    rw [hinited] at hs
    exact ⟨by simpa using hs.symm, hinited⟩

/-- A deinit that finds no string. -/
theorem deinit_kept {s : St} (hs : Kept s) (hnone : ∀ x, s.ctx x = none) :
    Kept { sdkDeinit s with app := .idle } := by
  obtain ⟨hblocks, hctx, hmem, hinst⟩ := libDeinit_fields s
  obtain ⟨hlib, hinited⟩ := libDeinit_lib hs.inited
  have hctx' : s.ctx = fun _ => none := funext hnone
  have hsame : (sdkDeinit s).blocks = s.blocks := by
    simp only [sdkDeinit, hctx, hnone, free_none, hblocks]
  have hown := hs.owned.owns
  have hset := hs.owned.settled
  rw [hctx', ← hsame] at hown hset
  refine ⟨⟨hown, hset, fun p hp => ?_⟩, fun _ => ⟨fun _ => rfl, hlib⟩, ?_, fun p hp => ?_, ?_, ?_⟩
  · exact absurd (hlib.symm.trans hp) (by simp)
  · exact hinited.trans (by rw [show (sdkDeinit s).lib = none from hlib, Option.isSome_none])
  · exact absurd (hlib.symm.trans hp) (by simp)
  · exact hsame ▸ hs.heap
  · exact fun h => hinst.trans (hs.installed (hmem.symm.trans h))

/-- The blocks of the context are released once, by the deallocator of libc. -/
theorem deinit_frees {s : St} (hs : Kept s) {x : Str} {i : ℕ} (hx : s.ctx x = some i) :
    ∃ b, (sdkDeinit s).blocks[i]? = some b ∧ b.heap = .freertos ∧ b.frees = [.libc] := by
  obtain ⟨hblocks, hctx, -, -⟩ := libDeinit_fields s
  obtain ⟨b, hb, hfrees⟩ := hs.owned.owns.live hx
  have hother {y : Str} (hxy : y ≠ x) : s.ctx y ≠ some i := fun hy => hxy (hs.owned.owns.uniq hy hx)
  refine ⟨{ b with frees := [.libc] }, ?_, hs.heap b (List.mem_of_getElem? hb), rfl⟩
  simp only [sdkDeinit, hctx, hblocks, getElem?_free]
  cases x with
  | env => simp [hx, hother (y := .cpid) (by decide), hother (y := .duid) (by decide), hb, hfrees]
  | cpid => simp [hx, hother (y := .env) (by decide), hother (y := .duid) (by decide), hb, hfrees]
  | duid => simp [hx, hother (y := .env) (by decide), hother (y := .cpid) (by decide), hb, hfrees]

theorem deinit_owned_iff {s : St} (hs : Kept s) :
    Owned { sdkDeinit s with app := .idle } ↔ ∀ x, s.ctx x = none := by
  refine ⟨fun h x => ?_, fun h => (deinit_kept hs h).owned⟩
  cases hx : s.ctx x with
  | none => rfl
  | some i =>
    obtain ⟨b, hb, hheap, hfrees⟩ := deinit_frees hs hx
    obtain ⟨y, hy⟩ | hown := h.settled i b hb
    · exact absurd hy (by simp [sdkDeinit])
    · rw [hfrees, hheap] at hown
      exact absurd hown (by decide)

/-! ### Every run -/

theorem pollSwitch_cases (s : St) (io : PollAnswer) :
    (s.app = .failed ∧ io.retry = true ∧ pollSwitch s io = { sdkDeinit s with app := .idle }) ∨
    (¬ (s.app = .failed ∧ io.retry = true) ∧
      ((s.app = .idle ∧ pollSwitch s io = pollStart s io) ∨
        pollSwitch s io = s ∨ (s.app = .running ∧ pollSwitch s io = { s with app := .failed }))) := by
  cases happ : s.app with
  | idle =>
    by_cases h : io.networkUp = false ∨ io.identity = false ∨ io.timeSync = false
    · exact Or.inr ⟨by simp, Or.inr (Or.inl (by rw [pollSwitch, happ]; exact if_pos h))⟩
    · exact Or.inr ⟨by simp, Or.inl ⟨rfl, by rw [pollSwitch, happ]; exact if_neg h⟩⟩
  | starting => exact Or.inr ⟨by simp, Or.inr (Or.inl (by rw [pollSwitch, happ]))⟩
  | running =>
    by_cases h : io.connected = false
    · exact Or.inr ⟨by simp, Or.inr (Or.inr ⟨rfl, by rw [pollSwitch, happ]; exact if_pos h⟩)⟩
    · exact Or.inr ⟨by simp, Or.inr (Or.inl (by rw [pollSwitch, happ]; exact if_neg h))⟩
  | failed =>
    by_cases h : io.retry = true
    · exact Or.inl ⟨rfl, h, by rw [pollSwitch, happ]; exact if_pos h⟩
    · exact Or.inr ⟨fun hf => h hf.2, Or.inr (Or.inl (by rw [pollSwitch, happ]; exact if_neg h))⟩

/-- The connection is lost. -/
theorem Kept.failed {s : St} (hs : Kept s) (app : AppState) (happ : app ≠ .idle) :
    Kept { s with app := app } :=
  ⟨⟨hs.owned.owns, hs.owned.settled, hs.owned.lib⟩, fun h => absurd h happ, hs.inited, hs.libHeld,
    hs.heap, hs.installed⟩

theorem step_kept {s s' : St} {e : Event} (hs : Kept s) (hok : DeinitFindsNone s e)
    (h : step s e = some s') : Kept s' := by
  cases e with
  | restart => exact Option.some.inj h ▸ deinit_kept hs (hok trivial)
  | switch io =>
    obtain rfl := Option.some.inj h
    obtain ⟨hf, hr, heq⟩ | ⟨-, ⟨hidle, heq⟩ | heq | ⟨-, heq⟩⟩ := pollSwitch_cases s io
    · exact heq ▸ deinit_kept hs (hok ⟨hf, hr⟩)
    · exact heq ▸ pollStart_kept hs hidle io
    · rw [heq]
      exact hs
    · exact heq ▸ hs.failed .failed (by decide)

theorem step_owned_iff {s s' : St} {e : Event} (hs : Kept s) (h : step s e = some s') :
    Owned s' ↔ DeinitFindsNone s e := by
  cases e with
  | restart =>
    obtain rfl := Option.some.inj h
    exact (deinit_owned_iff hs).trans ⟨fun hn _ => hn, fun hn => hn trivial⟩
  | switch io =>
    obtain rfl := Option.some.inj h
    obtain ⟨hf, hr, heq⟩ | ⟨hno, hcase⟩ := pollSwitch_cases s io
    · rw [heq, deinit_owned_iff hs]
      exact ⟨fun hn _ => hn, fun hn => hn ⟨hf, hr⟩⟩
    · have hok : DeinitFindsNone s (.switch io) := fun hd => absurd hd hno
      exact iff_of_true (step_kept hs hok h).owned hok

/-- **String ownership.**  In every run of the app every string is released exactly once and by its own
deallocator, and none while the library keeps it, if and only if no deinit of the run finds a string to
release. -/
theorem stringOwnership_iff (events : List Event) :
    AllSteps step (fun _ _ s' => Owned s') events boot ↔
      Meets step DeinitFindsNone events boot :=
  allSteps_iff_meets step_kept step_owned_iff boot_kept

/-! ### A restart of a connected device -/

def goodInit : InitAnswer := ⟨fun _ => true, true, true, true, true⟩

def goodPoll : PollAnswer := ⟨true, true, true, goodInit, true, true, true⟩

/-- The three strings go to the wrong heap. -/
theorem restart_frees_wrong_heap :
    ¬ ∀ events : List Event, AllSteps step (fun _ _ s' => Owned s') events boot := by
  intro h
  have howned : Owned (pollRestart (pollSwitch boot goodPoll)) :=
    ((h [.switch goodPoll, .restart]) _ rfl).2 _ rfl |>.1
  have hblock : (pollRestart (pollSwitch boot goodPoll)).blocks[0]? =
      some ⟨.freertos, [.libc]⟩ := by decide
  obtain ⟨x, hx⟩ | hown := howned.settled 0 _ hblock
  · exact absurd hx (by simp [pollRestart, sdkDeinit])
  · exact absurd hown (by decide)

end IotcRa8p1.App.Sdk
