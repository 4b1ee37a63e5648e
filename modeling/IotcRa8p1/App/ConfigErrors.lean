import IotcRa8p1.App.Config
import IotcRa8p1.Lib.Heaps

/-!
# The configuration when the file system fails (`iotc_config.c`, `iotc_fs.c`)

The fields are files of a littlefs volume.  A file keeps its contents until a handle that replaces it is
closed without an error before; the entry of a new file is made by the open.  A close can commit the file and
fail all the same, since `lfs_dir_commit` reads the commit back.  `iotc_fs_init` mounts the volume in the
first call, and formats it when it does not mount.

`lawful_iff` says for which errors of the file system a failing write keeps every stored value, an erase that
reports success leaves nothing to read, and a failing load leaves nothing behind.
-/

namespace IotcRa8p1.App.ConfigErrors

open CString Config Heaps

/-! ### The volume -/

/-- The files by path. -/
abbrev Volume := List UInt8 → Option (List UInt8)

/-- `lfs_format`; one that fails leaves what it leaves. -/
inductive FormatAnswer where
  | formatted
  | fails (left : Volume)

/-- What the calls of `iotc_fs_init` answer. -/
structure MountAnswer where
  opens : Bool
  mounts : Bool
  format : FormatAnswer
  remounts : Bool

/-- `s_ready`, and the volume. -/
structure Fs where
  ready : Bool
  volume : Volume

/-- `iotc_fs_init` -/
def iotcFsInit (fs : Fs) (io : MountAnswer) : ℤ × Fs :=
  if fs.ready = true then (0, fs)
  else if io.opens = false then (-1, fs)
  else if io.mounts = true then (0, { fs with ready := true })
  else
    match io.format with
    | .fails left => (-1, { fs with volume := left })
    | .formatted =>
      if io.remounts = true then (0, ⟨true, fun _ => none⟩) else (-1, ⟨false, fun _ => none⟩)

/-- A file opened to be replaced: its new contents, and `LFS_F_ERRED`. -/
structure Handle where
  path : List UInt8
  contents : List UInt8
  erred : Bool

/-- The entry of a file, empty when there was none. -/
def enter (v : Volume) (path : List UInt8) : Volume :=
  if v path = none then Function.update v path (some []) else v

/-- `lfs_file_open` with `LFS_O_WRONLY | LFS_O_CREAT | LFS_O_TRUNC`; one that fails has made the entry or
not. -/
def lfsFileOpen (v : Volume) (path : List UInt8) (opens entered : Bool) : Option Handle × Volume :=
  if opens = true then (some ⟨path, [], false⟩, enter v path)
  else (none, if entered = true then enter v path else v)

/-- `lfs_file_write` -/
def lfsFileWrite (h : Handle) (bs : List UInt8) (writes : Bool) : ℤ × Handle :=
  if writes = true then (bs.length, { h with contents := h.contents ++ bs })
  else (-5, { h with erred := true })

/-- `lfs_file_close`; one that fails has committed the file or not. -/
def lfsFileClose (v : Volume) (h : Handle) (closes committed : Bool) : ℤ × Volume :=
  if h.erred = true then (0, v)
  else if closes = true then (0, Function.update v h.path (some h.contents))
  else (-5, if committed = true then Function.update v h.path (some h.contents) else v)

/-- `lfs_remove`, where the file is gone afterwards or not. -/
def lfsRemove (v : Volume) (path : List UInt8) (gone : Bool) : Volume :=
  if gone = true then Function.update v path none else v

/-! ### `prv_path` -/

/-- `valid` -/
def valid : List (List UInt8) := [lit "env", lit "cpid", lit "duid", lit "cert", lit "key"]

/-- `prv_path` -/
def prvPath (name : List UInt8) (size : ℕ) : Option (List UInt8) :=
  if name ∈ valid then some (snprintf size (lit "iotc_cfg_" ++ name)) else none

def name : Field → List UInt8
  | .env => lit "env"
  | .cpid => lit "cpid"
  | .duid => lit "duid"
  | .cert => lit "cert"
  | .key => lit "key"

/-- The file of a field. -/
def file (f : Field) : List UInt8 := lit "iotc_cfg_" ++ name f

/-- The fields, in the order of `valid`. -/
def fields : List Field := [.env, .cpid, .duid, .cert, .key]

/-! ### `iotc_config_write`, `iotc_config_read`, `iotc_config_erase` -/

structure WriteAnswer where
  mount : MountAnswer
  opens : Bool
  entered : Bool
  writes : Bool
  closes : Bool
  committed : Bool

/-- `iotc_config_write`, with the `len` bytes at `value`. -/
def iotcConfigWrite (fs : Fs) (name : List UInt8) (value : Option (List UInt8)) (io : WriteAnswer) :
    ℤ × Fs :=
  match prvPath name 32, value with
  | some path, some value =>
    let init := iotcFsInit fs io.mount
    if init.1 ≠ 0 then (-5, init.2)
    else
      match lfsFileOpen init.2.volume path io.opens io.entered with
      | (none, v) => (-5, { init.2 with volume := v })
      | (some h, v) =>
        let n := lfsFileWrite h value io.writes
        let rc2 := lfsFileClose v n.2 io.closes io.committed
        let rc := if n.1 < 0 then n.1 else if rc2.1 < 0 then rc2.1 else 0
        (if rc < 0 then -5 else 0, { init.2 with volume := rc2.2 })
  | _, _ => (-22, fs)

structure ReadAnswer where
  mount : MountAnswer
  opens : Bool
  reads : Bool

structure ReadRun where
  rc : ℤ
  buf : List UInt8
  fs : Fs

/-- `iotc_config_read`, into a buffer of `size` bytes or NULL. -/
def iotcConfigRead (fs : Fs) (name : List UInt8) (size : Option ℕ) (io : ReadAnswer) : ReadRun :=
  match prvPath name 32, size with
  | some path, some size =>
    if size < 2 then ⟨-22, [], fs⟩
    else
      let init := iotcFsInit fs io.mount
      if init.1 ≠ 0 then ⟨-5, [], init.2⟩
      else
        match init.2.volume path with
        | none => ⟨-2, [], init.2⟩
        | some contents =>
          if io.opens = false then ⟨-2, [], init.2⟩
          else if io.reads = false then ⟨-5, [], init.2⟩
          else
            let n := contents.take (size - 1)
            ⟨n.length, n ++ [0], init.2⟩
  | _, _ => ⟨-22, [], fs⟩

structure EraseAnswer where
  mount : MountAnswer
  gone : List UInt8 → Bool

/-- One round of the loop of `iotc_config_erase`; what `lfs_remove` returns is not looked at. -/
def removeField (io : EraseAnswer) (v : Volume) (name : List UInt8) : Volume :=
  match prvPath name 32 with
  | none => v
  | some path => lfsRemove v path (io.gone path)

/-- `iotc_config_erase` -/
def iotcConfigErase (fs : Fs) (io : EraseAnswer) : ℤ × Fs :=
  let init := iotcFsInit fs io.mount
  if init.1 ≠ 0 then (-5, init.2)
  else (0, { init.2 with volume := valid.foldl (removeField io) init.2.volume })

/-! ### `iotc_config_load` -/

structure LoadAnswer where
  malloc : Bool
  read : ReadAnswer

/-- The members of `*out`, and the memory for them. -/
structure LoadRun where
  fs : Fs
  out : Field → Option (List UInt8)
  mem : Pointers Unit Field

/-- `prv_load_field` -/
def prvLoadField (io : Field → LoadAnswer) (s : LoadRun) (f : Field) : LoadRun :=
  let mem := s.mem.keep () f (io f).malloc
  if (io f).malloc = false then { s with out := Function.update s.out f none, mem := mem }
  else
    let r := iotcConfigRead s.fs (name f) (some f.max) (io f).read
    if r.rc ≤ 0 then ⟨r.fs, Function.update s.out f none, mem.release () f⟩
    else ⟨r.fs, Function.update s.out f (some (cstr r.buf)), mem⟩

/-- One line of `iotc_config_identity_free`. -/
def freeMember (s : LoadRun) (f : Field) : LoadRun :=
  if (s.out f).isSome = true then { s with mem := s.mem.release () f } else s

/-- `iotc_config_identity_free` -/
def iotcConfigIdentityFree (s : LoadRun) : LoadRun :=
  { fields.foldl freeMember s with out := fun _ => none }

/-- `iotc_config_load`; nothing is allocated for `out` before. -/
def iotcConfigLoad (fs : Fs) (io : Field → LoadAnswer) : ℤ × LoadRun :=
  let s := fields.foldl (prvLoadField io) ⟨fs, fun _ => none, .empty⟩
  if fields.all (fun f => (s.out f).isSome) = true then (0, s) else (-2, iotcConfigIdentityFree s)

/-! ### What a call has to keep -/

def ReadAnswer.good : ReadAnswer := ⟨⟨true, true, .formatted, true⟩, true, true⟩

/-- Where everything works, a read into any buffer returns the value. -/
def Returns (fs : Fs) (f : Field) (v : List UInt8) : Prop :=
  ∀ size, 2 ≤ size →
    (iotcConfigRead fs (name f) (some size) .good).rc = (v.take (size - 1)).length ∧
    (iotcConfigRead fs (name f) (some size) .good).buf = v.take (size - 1) ++ [0]

/-- Some read succeeds. -/
def Readable (fs : Fs) (f : Field) : Prop :=
  ∃ size io, 0 ≤ (iotcConfigRead fs (name f) size io).rc

inductive Call where
  | write (name : List UInt8) (value : Option (List UInt8)) (io : WriteAnswer)
  | erase (io : EraseAnswer)
  | load (io : Field → LoadAnswer)

def Lawful (fs : Fs) : Call → Prop
  | .write n value io =>
    (iotcConfigWrite fs n value io).1 ≠ 0 →
      ∀ f v, Returns fs f v → Returns (iotcConfigWrite fs n value io).2 f v
  | .erase io =>
    (iotcConfigErase fs io).1 = 0 → ∀ f, ¬ Readable (iotcConfigErase fs io).2 f
  | .load io =>
    (iotcConfigLoad fs io).1 ≠ 0 →
      (∀ f, (iotcConfigLoad fs io).2.out f = none) ∧
      ∀ b ∈ (iotcConfigLoad fs io).2.mem.blocks, b.frees = [()]

/-! ### `iotc_fs_init` -/

def FormatAnswer.works : FormatAnswer → Bool
  | .formatted => true
  | .fails _ => false

/-- What a format leaves of the files. -/
def FormatAnswer.leaves : FormatAnswer → Volume
  | .formatted => fun _ => none
  | .fails left => left

/-- The volume is mounted behind the call. -/
def MountAnswer.serves (io : MountAnswer) (fs : Fs) : Bool :=
  fs.ready || io.opens && (io.mounts || io.format.works && io.remounts)

/-- The files behind the call: those before it, unless it formats. -/
def MountAnswer.leaves (io : MountAnswer) (fs : Fs) : Volume :=
  if fs.ready = true ∨ io.opens = false ∨ io.mounts = true then fs.volume else io.format.leaves

theorem iotcFsInit_eq (fs : Fs) (io : MountAnswer) :
    iotcFsInit fs io = (if io.serves fs = true then 0 else -1, ⟨io.serves fs, io.leaves fs⟩) := by
  obtain ⟨ready, volume⟩ := fs
  obtain ⟨opens, mounts, format, remounts⟩ := io
  rw [iotcFsInit, MountAnswer.serves, MountAnswer.leaves]
  cases ready with
  | true => simp
  | false =>
    cases opens with
    | false => simp
    | true =>
      cases mounts with
      | true => simp
      | false =>
        cases format with
        | fails left => simp [FormatAnswer.works, FormatAnswer.leaves]
        | formatted => cases remounts <;> simp [FormatAnswer.works, FormatAnswer.leaves]

/-- A mounted volume has the files it had, or was formatted. -/
theorem leaves_of_serves {fs : Fs} {io : MountAnswer} (h : io.serves fs = true) :
    io.leaves fs = fs.volume ∨ io.leaves fs = fun _ => none := by
  rw [MountAnswer.leaves]
  split_ifs with hkeep
  · exact Or.inl rfl
  · right
    push Not at hkeep
    rw [MountAnswer.serves] at h
    cases hformat : io.format with
    | formatted => rfl
    | fails left => simp [hformat, FormatAnswer.works, hkeep] at h

/-! ### The files of the fields -/

theorem prvPath_name (f : Field) : prvPath (name f) 32 = some (file f) := by
  cases f <;> decide

theorem mem_valid {n : List UInt8} : n ∈ valid ↔ ∃ f, n = name f := by
  constructor
  · intro h
    simp only [valid, List.mem_cons, List.not_mem_nil, or_false] at h
    rcases h with h | h | h | h | h
    · exact ⟨.env, h⟩
    · exact ⟨.cpid, h⟩
    · exact ⟨.duid, h⟩
    · exact ⟨.cert, h⟩
    · exact ⟨.key, h⟩
  · intro ⟨f, h⟩
    rw [h]
    cases f <;> decide

theorem prvPath_invalid {n : List UInt8} (h : n ∉ valid) : prvPath n 32 = none := if_neg h

theorem name_injective : Function.Injective name := by
  intro f g
  cases f <;> cases g <;> decide

theorem file_injective : Function.Injective file := fun _ _ h =>
  name_injective (List.append_cancel_left h)

theorem enter_eq_some {v : Volume} {p q bs : List UInt8} :
    enter v p q = some bs ↔ v q = some bs ∨ q = p ∧ v q = none ∧ bs = [] := by
  rw [enter]
  by_cases hq : q = p
  · subst hq
    cases hv : v q with
    | none => simp [eq_comm]
    | some cs => simp [hv]
  · split_ifs with hp
    · rw [Function.update_of_ne hq]
      simp [hq]
    · simp [hq]

/-! ### Reads -/

theorem iotcConfigRead_name (fs : Fs) (f : Field) {size : ℕ} (hsize : 2 ≤ size) (io : ReadAnswer) :
    iotcConfigRead fs (name f) (some size) io =
      if io.mount.serves fs = false then ⟨-5, [], ⟨false, io.mount.leaves fs⟩⟩
      else
        match io.mount.leaves fs (file f) with
        | none => ⟨-2, [], ⟨true, io.mount.leaves fs⟩⟩
        | some contents =>
          if io.opens = false then ⟨-2, [], ⟨true, io.mount.leaves fs⟩⟩
          else if io.reads = false then ⟨-5, [], ⟨true, io.mount.leaves fs⟩⟩
          else ⟨(contents.take (size - 1)).length, contents.take (size - 1) ++ [0],
            ⟨true, io.mount.leaves fs⟩⟩ := by
  unfold iotcConfigRead
  rw [prvPath_name]
  dsimp only
  rw [if_neg (Nat.not_lt.mpr hsize), iotcFsInit_eq]
  cases hserves : io.mount.serves fs with
  | false => rfl
  | true => rfl

theorem serves_good (fs : Fs) : ReadAnswer.good.mount.serves fs = true := by
  rw [MountAnswer.serves]
  exact Bool.or_true _

theorem leaves_good (fs : Fs) : ReadAnswer.good.mount.leaves fs = fs.volume :=
  if_pos (Or.inr (Or.inr rfl))

theorem iotcConfigRead_good (fs : Fs) (f : Field) {size : ℕ} (hsize : 2 ≤ size) {v : List UInt8}
    (hv : fs.volume (file f) = some v) :
    iotcConfigRead fs (name f) (some size) .good =
      ⟨(v.take (size - 1)).length, v.take (size - 1) ++ [0], ⟨true, fs.volume⟩⟩ := by
  rw [iotcConfigRead_name fs f hsize, serves_good, leaves_good, hv]
  rfl

/-- What the reads return is what is stored. -/
theorem returns_iff {fs : Fs} {f : Field} {v : List UInt8} :
    Returns fs f v ↔ fs.volume (file f) = some v := by
  constructor
  · intro h
    cases hstored : fs.volume (file f) with
    | none =>
      have hrc := (h 2 le_rfl).1
      rw [iotcConfigRead_name fs f le_rfl, serves_good, leaves_good, hstored] at hrc
      have hlen : (-2 : ℤ) = (v.take (2 - 1)).length := hrc
      omega
    | some w =>
      -- a buffer that holds both values
      let size := v.length + w.length + 2
      have hsize : 2 ≤ size := Nat.le_add_left 2 _
      have hbuf := (h size hsize).2
      rw [iotcConfigRead_good fs f hsize hstored] at hbuf
      have htake := List.append_cancel_right hbuf
      rw [List.take_of_length_le (by omega), List.take_of_length_le (by omega)] at htake
      rw [htake]
  · intro h size hsize
    rw [iotcConfigRead_good fs f hsize h]
    exact ⟨rfl, rfl⟩

theorem readable_iff {fs : Fs} {f : Field} : Readable fs f ↔ fs.volume (file f) ≠ none := by
  constructor
  · intro ⟨size, io, hrc⟩ hnone
    cases size with
    | none =>
      unfold iotcConfigRead at hrc
      rw [prvPath_name] at hrc
      exact absurd hrc (show ¬ (0 : ℤ) ≤ -22 by decide)
    | some size =>
      by_cases hsize : 2 ≤ size
      · rw [iotcConfigRead_name fs f hsize] at hrc
        cases hserves : io.mount.serves fs with
        | false =>
          rw [hserves] at hrc
          exact absurd hrc (show ¬ (0 : ℤ) ≤ -5 by decide)
        | true =>
          have hgone : io.mount.leaves fs (file f) = none := by
            rcases leaves_of_serves hserves with h | h
            · rw [h, hnone]
            · rw [h]
          rw [hserves, hgone] at hrc
          exact absurd hrc (show ¬ (0 : ℤ) ≤ -2 by decide)
      · unfold iotcConfigRead at hrc
        rw [prvPath_name] at hrc
        dsimp only at hrc
        rw [if_pos (Nat.not_le.mp hsize)] at hrc
        exact absurd hrc (show ¬ (0 : ℤ) ≤ -22 by decide)
  · intro h
    obtain ⟨v, hv⟩ := Option.ne_none_iff_exists'.mp h
    refine ⟨some 2, .good, ?_⟩
    rw [iotcConfigRead_good fs f le_rfl hv]
    exact Int.natCast_nonneg _

/-! ### Writes -/

/-- The write reaches its end. -/
def WriteAnswer.completes (io : WriteAnswer) (fs : Fs) : Bool :=
  io.mount.serves fs && io.opens && io.writes && io.closes

/-- The open is reached and makes the entry of the file. -/
def WriteAnswer.enters (io : WriteAnswer) (fs : Fs) : Bool :=
  io.mount.serves fs && (io.opens || io.entered)

/-- The close is reached and commits the file, whatever it returns. -/
def WriteAnswer.commits (io : WriteAnswer) (fs : Fs) : Bool :=
  io.mount.serves fs && io.opens && io.writes && (io.closes || io.committed)

/-- What a write does to the volume. -/
def WriteAnswer.after (io : WriteAnswer) (fs : Fs) (f : Field) (value : List UInt8) : Volume :=
  if io.commits fs = true then Function.update (io.mount.leaves fs) (file f) (some value)
  else if io.enters fs = true then enter (io.mount.leaves fs) (file f) else io.mount.leaves fs

theorem update_enter (v : Volume) (path value : List UInt8) :
    Function.update (enter v path) path (some value) = Function.update v path (some value) := by
  rw [enter]
  split_ifs with h
  · exact Function.update_idem _ _ _
  · rfl

theorem iotcConfigWrite_name (fs : Fs) (f : Field) (value : List UInt8) (io : WriteAnswer) :
    iotcConfigWrite fs (name f) (some value) io =
      (if io.completes fs = true then 0 else -5, ⟨io.mount.serves fs, io.after fs f value⟩) := by
  unfold iotcConfigWrite
  rw [prvPath_name]
  dsimp only
  rw [iotcFsInit_eq, WriteAnswer.after, WriteAnswer.completes, WriteAnswer.commits, WriteAnswer.enters]
  cases hserves : io.mount.serves fs with
  | false => rfl
  | true =>
    cases hopens : io.opens with
    | false => cases hentered : io.entered <;> rfl
    | true =>
      have hlen : ¬ (value.length : ℤ) < 0 := by omega
      cases hwrites : io.writes with
      | false => rfl
      | true =>
        cases hcloses : io.closes with
        | false =>
          cases hcommitted : io.committed with
          | false => simp [lfsFileOpen, lfsFileWrite, lfsFileClose, hlen]
          | true => simp [lfsFileOpen, lfsFileWrite, lfsFileClose, hlen, update_enter]
        | true => simp [lfsFileOpen, lfsFileWrite, lfsFileClose, hlen, update_enter]

/-- A write of no field, or of no value, does nothing. -/
theorem iotcConfigWrite_bad {fs : Fs} {n : List UInt8} {value : Option (List UInt8)} (io : WriteAnswer)
    (h : n ∉ valid ∨ value = none) : iotcConfigWrite fs n value io = (-22, fs) := by
  unfold iotcConfigWrite
  rcases h with h | h
  · rw [prvPath_invalid h]
  · subst h
    cases prvPath n 32 <;> rfl

/-- A stored value outlives a write that fails: it is the value that the close has committed to its field, or
that field is another or has nothing committed, and it is left by `iotc_fs_init`, or it was empty and the open
made the entry again. -/
def Outlives (fs : Fs) (n : List UInt8) (value : Option (List UInt8)) (io : WriteAnswer) (g : Field)
    (v : List UInt8) : Prop :=
  if n = name g ∧ io.commits fs = true then value = some v
  else io.mount.leaves fs (file g) = some v ∨
    v = [] ∧ n = name g ∧ io.enters fs = true ∧ io.mount.leaves fs (file g) = none

theorem after_eq_some {fs : Fs} {f g : Field} {value v : List UInt8} {io : WriteAnswer} :
    io.after fs f value (file g) = some v ↔ Outlives fs (name f) (some value) io g v := by
  simp only [WriteAnswer.after, Outlives, name_injective.eq_iff]
  by_cases hcommits : io.commits fs = true
  · rw [if_pos hcommits]
    by_cases hg : f = g
    · rw [hg, Function.update_self, if_pos ⟨rfl, hcommits⟩]
    · rw [Function.update_of_ne (fun h => hg (file_injective h).symm), if_neg fun h => hg h.1]
      simp [hg]
  · have hother : ¬ (f = g ∧ io.commits fs = true) := fun h => hcommits h.2
    rw [if_neg hcommits, if_neg hother]
    by_cases henters : io.enters fs = true
    · rw [if_pos henters, enter_eq_some, file_injective.eq_iff]
      constructor
      · intro hor
        exact hor.imp_right fun ⟨hg, hnone, hv⟩ => ⟨hv, hg.symm, henters, hnone⟩
      · intro hor
        exact hor.imp_right fun ⟨hv, hg, _, hnone⟩ => ⟨hg.symm, hnone, hv⟩
    · rw [if_neg henters]
      simp [henters]

theorem write_lawful_iff (fs : Fs) (n : List UInt8) (value : Option (List UInt8)) (io : WriteAnswer) :
    Lawful fs (.write n value io) ↔
      n ∉ valid ∨ value = none ∨ io.completes fs = true ∨
        ∀ g v, fs.volume (file g) = some v → Outlives fs n value io g v := by
  simp only [Lawful, returns_iff]
  by_cases hn : n ∈ valid
  · obtain ⟨f, rfl⟩ := mem_valid.mp hn
    cases value with
    | none =>
      rw [iotcConfigWrite_bad io (Or.inr rfl)]
      exact iff_of_true (fun _ _ _ h => h) (Or.inr (Or.inl rfl))
    | some value =>
      rw [iotcConfigWrite_name]
      cases hcompletes : io.completes fs with
      | true => exact iff_of_true (fun h => absurd rfl h) (Or.inr (Or.inr (Or.inl rfl)))
      | false =>
        simp only [hn, not_true_eq_false, Option.some_ne_none, Bool.false_eq_true, if_false, false_or,
          after_eq_some]
        exact ⟨fun h => h (by decide), fun h _ => h⟩
  · rw [iotcConfigWrite_bad io (Or.inl hn)]
    exact iff_of_true (fun _ _ _ h => h) (Or.inl hn)

/-! ### Erases -/

theorem mem_fields (f : Field) : f ∈ fields := by
  cases f <;> decide

theorem removeField_name (io : EraseAnswer) (v : Volume) (f g : Field) :
    removeField io v (name f) (file g) =
      if g = f ∧ io.gone (file g) = true then none else v (file g) := by
  unfold removeField
  rw [prvPath_name]
  dsimp only
  rw [lfsRemove]
  by_cases hg : g = f
  · subst hg
    by_cases hgone : io.gone (file g) = true
    · rw [if_pos hgone, if_pos ⟨rfl, hgone⟩, Function.update_self]
    · rw [if_neg hgone, if_neg fun h => hgone h.2]
  · rw [if_neg (show ¬ (g = f ∧ io.gone (file g) = true) from fun h => hg h.1)]
    split_ifs with hgone
    · exact Function.update_of_ne (fun h => hg (file_injective h)) _ _
    · rfl

/-- The loop of `iotc_config_erase` over any of the fields. -/
theorem foldl_removeField (io : EraseAnswer) (l : List Field) (v : Volume) (g : Field) :
    (l.map name).foldl (removeField io) v (file g) =
      if g ∈ l ∧ io.gone (file g) = true then none else v (file g) := by
  induction l generalizing v with
  | nil => simp
  | cons f l ih =>
    rw [List.map_cons, List.foldl_cons, ih, removeField_name]
    by_cases hgone : io.gone (file g) = true
    · by_cases hg : g = f
      · subst hg
        simp [hgone]
      · simp [hg, hgone]
    · simp [hgone]

theorem iotcConfigErase_eq (fs : Fs) (io : EraseAnswer) :
    iotcConfigErase fs io =
      if io.mount.serves fs = false then (-5, ⟨false, io.mount.leaves fs⟩)
      else (0, ⟨true, valid.foldl (removeField io) (io.mount.leaves fs)⟩) := by
  rw [iotcConfigErase, iotcFsInit_eq]
  cases hserves : io.mount.serves fs with
  | false => rfl
  | true => rfl

theorem erase_lawful_iff (fs : Fs) (io : EraseAnswer) :
    Lawful fs (.erase io) ↔
      io.mount.serves fs = false ∨ ∀ f, io.mount.leaves fs (file f) = none ∨ io.gone (file f) = true := by
  simp only [Lawful, readable_iff, not_not]
  rw [iotcConfigErase_eq]
  cases hserves : io.mount.serves fs with
  | false => exact iff_of_true (fun h => absurd h (show (-5 : ℤ) ≠ 0 by decide)) (Or.inl rfl)
  | true =>
    rw [if_neg (by decide)]
    have hfold (f : Field) :
        valid.foldl (removeField io) (io.mount.leaves fs) (file f) = none ↔
          io.mount.leaves fs (file f) = none ∨ io.gone (file f) = true := by
      rw [show valid = fields.map name from rfl, foldl_removeField]
      by_cases hgone : io.gone (file f) = true
      · simp [hgone, mem_fields]
      · simp [hgone]
    simp only [hfold, Bool.true_eq_false, false_or, forall_const]

/-! ### Loads -/

/-- What a load keeps: the memory is in order, and it holds just the strings of `*out`. -/
structure Kept (s : LoadRun) : Prop where
  good : s.mem.Good ()
  held : ∀ f, s.mem.held f = none ↔ s.out f = none

theorem Kept.prvLoadField {s : LoadRun} (hs : Kept s) {f : Field} (hf : s.out f = none)
    (io : Field → LoadAnswer) : Kept (prvLoadField io s f) := by
  have hkeep := hs.good.keep ((hs.held f).mpr hf) (io f).malloc
  have hne (malloc : Bool) {g : Field} (hg : g ≠ f) :
      (s.mem.keep () f malloc).held g = none ↔ s.out g = none := by
    rw [Pointers.keep_of_ne hg, hs.held]
  unfold ConfigErrors.prvLoadField
  cases hmalloc : (io f).malloc with
  | false =>
    rw [hmalloc] at hkeep
    refine ⟨hkeep, fun g => ?_⟩
    by_cases hg : g = f
    · subst hg
      simp [Pointers.keep]
    · simpa [hg] using hne false hg
  | true =>
    rw [hmalloc] at hkeep
    dsimp only
    rw [if_neg (by decide)]
    split_ifs with hrc
    · refine ⟨hkeep.release f, fun g => ?_⟩
      dsimp only
      rw [Pointers.release_held]
      by_cases hg : g = f
      · simp [hg]
      · simpa [hg] using hne true hg
    · refine ⟨hkeep, fun g => ?_⟩
      by_cases hg : g = f
      · subst hg
        simp [Pointers.keep]
      · simpa [hg] using hne true hg

theorem prvLoadField_of_ne {s : LoadRun} {f g : Field} (hg : g ≠ f) (io : Field → LoadAnswer) :
    (prvLoadField io s f).out g = s.out g := by
  unfold prvLoadField
  dsimp only
  split_ifs
  · exact Function.update_of_ne hg _ _
  · exact Function.update_of_ne hg _ _
  · exact Function.update_of_ne hg _ _

/-- Fields loaded one after the other. -/
theorem Kept.load (io : Field → LoadAnswer) {l : List Field} (hl : l.Nodup) {s : LoadRun} (hs : Kept s)
    (hnone : ∀ f ∈ l, s.out f = none) : Kept (l.foldl (ConfigErrors.prvLoadField io) s) := by
  induction l generalizing s with
  | nil => exact hs
  | cons f l ih =>
    rw [List.nodup_cons] at hl
    rw [List.foldl_cons]
    apply ih hl.2
    · exact hs.prvLoadField (hnone f List.mem_cons_self) io
    · intro g hg
      have hgf : g ≠ f := fun h => hl.1 (h ▸ hg)
      rw [prvLoadField_of_ne hgf io]
      exact hnone g (List.mem_cons_of_mem f hg)

/-- What `iotc_config_identity_free` keeps until it clears `*out`. -/
structure Freeing (s : LoadRun) : Prop where
  good : s.mem.Good ()
  held : ∀ f, s.out f = none → s.mem.held f = none

theorem Freeing.freeMember {s : LoadRun} (hs : Freeing s) (f : Field) :
    Freeing (freeMember s f) ∧ (freeMember s f).mem.held f = none ∧
      ∀ g, s.mem.held g = none → (ConfigErrors.freeMember s f).mem.held g = none := by
  unfold ConfigErrors.freeMember
  split_ifs with hout
  · have hheld (g : Field) (hg : s.mem.held g = none) : (s.mem.release () f).held g = none := by
      rw [Pointers.release_held]
      split_ifs
      · rfl
      · exact hg
    refine ⟨⟨hs.good.release f, fun g hg => hheld g (hs.held g hg)⟩, ?_, hheld⟩
    dsimp only
    rw [Pointers.release_held, if_pos rfl]
  · rw [Option.not_isSome_iff_eq_none] at hout
    exact ⟨hs, hs.held f hout, fun g hg => hg⟩

/-- The lines of `iotc_config_identity_free` for any of the members. -/
theorem Freeing.all {l : List Field} {s : LoadRun} (hs : Freeing s) :
    Freeing (l.foldl ConfigErrors.freeMember s) ∧
      ∀ g, g ∈ l ∨ s.mem.held g = none → (l.foldl ConfigErrors.freeMember s).mem.held g = none := by
  induction l generalizing s with
  | nil => exact ⟨hs, fun g hg => hg.resolve_left List.not_mem_nil⟩
  | cons f l ih =>
    obtain ⟨hfree, hf, hrest⟩ := hs.freeMember f
    obtain ⟨hlast, hheld⟩ := ih hfree
    refine ⟨hlast, fun g hg => hheld g ?_⟩
    rcases hg with hg | hg
    · rcases List.mem_cons.mp hg with hgf | hg
      · rw [hgf]
        exact Or.inr hf
      · exact Or.inl hg
    · exact Or.inr (hrest g hg)

theorem load_lawful (fs : Fs) (io : Field → LoadAnswer) : Lawful fs (.load io) := by
  intro hrc
  have hkept : Kept (fields.foldl (prvLoadField io) ⟨fs, fun _ => none, .empty⟩) := by
    apply Kept.load io (by decide)
    · exact ⟨Pointers.good_empty (), fun f => iff_of_true rfl rfl⟩
    · exact fun f _ => rfl
  unfold iotcConfigLoad at hrc ⊢
  dsimp only at hrc ⊢
  split_ifs at hrc ⊢ with hall
  · exact absurd rfl hrc
  · have hfreeing : Freeing (fields.foldl (prvLoadField io) ⟨fs, fun _ => none, .empty⟩) :=
      ⟨hkept.good, fun f => (hkept.held f).mpr⟩
    obtain ⟨hlast, hheld⟩ := hfreeing.all (l := fields)
    exact ⟨fun f => rfl, hlast.good.released fun f => hheld f (Or.inl (mem_fields f))⟩

/-! ### Every call -/

/-- What the file system may answer, for the files that are stored. -/
def Condition (fs : Fs) : Call → Prop
  | .write n value io =>
    n ∉ valid ∨ value = none ∨ io.completes fs = true ∨
      ∀ g v, fs.volume (file g) = some v → Outlives fs n value io g v
  | .erase io =>
    io.mount.serves fs = false ∨ ∀ f, io.mount.leaves fs (file f) = none ∨ io.gone (file f) = true
  | .load _ => True

theorem lawful_iff (fs : Fs) (call : Call) : Lawful fs call ↔ Condition fs call := by
  cases call with
  | write n value io => exact write_lawful_iff fs n value io
  | erase io => exact erase_lawful_iff fs io
  | load io => exact iff_of_true (load_lawful fs io) trivial

/-- A mounted volume on which only a device id is stored. -/
def provisioned : Fs := ⟨true, Function.update (fun _ => none) (file .duid) (some [0x41])⟩

/-- The removal of the device id fails, the erase reports success and the id can still be read. -/
theorem erase_leaves_field : ¬ ∀ fs call, Lawful fs call := by
  intro h
  have hread : Readable (iotcConfigErase provisioned
      ⟨⟨true, true, .formatted, true⟩, fun path => path ≠ file .duid⟩).2 .duid :=
    ⟨some 64, .good, by decide +kernel⟩
  exact h provisioned (.erase ⟨⟨true, true, .formatted, true⟩, fun path => path ≠ file .duid⟩)
    (by decide +kernel) .duid hread

/-! ### The files without the volume -/

/-- The files of the fields. -/
def filesOf (fs : Fs) : Files := fun f => fs.volume (file f)

theorem filesOf_update (ready : Bool) (v : Volume) (f : Field) (contents : Option (List UInt8)) :
    filesOf ⟨ready, Function.update v (file f) contents⟩ =
      Function.update (filesOf ⟨ready, v⟩) f contents :=
  Function.update_comp_eq_of_injective v file_injective f contents

theorem iotcConfigWrite_refines {fs : Fs} {io : WriteAnswer} (hkeep : io.mount.leaves fs = fs.volume)
    (f : Field) (value : List UInt8) :
    ∃ answer, Config.iotcConfigWrite (filesOf fs) f value answer =
      ((iotcConfigWrite fs (name f) (some value) io).1,
        filesOf (iotcConfigWrite fs (name f) (some value) io).2) := by
  rw [iotcConfigWrite_name, WriteAnswer.after, hkeep]
  by_cases hcompletes : io.completes fs = true
  · have hcommits : io.commits fs = true := by
      simp only [WriteAnswer.completes, WriteAnswer.commits, Bool.and_eq_true, Bool.or_eq_true] at hcompletes ⊢
      exact ⟨hcompletes.1, Or.inl hcompletes.2⟩
    refine ⟨.written, ?_⟩
    rw [if_pos hcompletes, if_pos hcommits, filesOf_update]
    rfl
  by_cases hcommits : io.commits fs = true
  · refine ⟨.closeFails (some value), ?_⟩
    rw [if_neg hcompletes, if_pos hcommits, filesOf_update]
    rfl
  · rw [if_neg hcompletes, if_neg hcommits]
    by_cases henters : io.enters fs = true ∧ fs.volume (file f) = none
    · refine ⟨.openFails (some []), ?_⟩
      rw [if_pos henters.1, enter, if_pos henters.2, filesOf_update]
      rfl
    · -- the entry was there, or is not made
      refine ⟨.initFails, ?_⟩
      have hsame : (if io.enters fs = true then enter fs.volume (file f) else fs.volume) = fs.volume := by
        split_ifs with h
        · exact if_neg fun hnone => henters ⟨h, hnone⟩
        · rfl
      rw [hsame]
      rfl

theorem iotcConfigRead_refines {fs : Fs} {io : ReadAnswer} (hkeep : io.mount.leaves fs = fs.volume)
    (f : Field) (size : ℕ) (malloc : Bool) :
    Config.iotcConfigRead (filesOf fs) f size ⟨malloc, io.mount.serves fs, io.opens, io.reads⟩ =
      ((iotcConfigRead fs (name f) (some size) io).rc,
        (iotcConfigRead fs (name f) (some size) io).buf) := by
  unfold Config.iotcConfigRead filesOf
  by_cases hsize : size < 2
  · unfold iotcConfigRead
    rw [prvPath_name]
    dsimp only
    rw [if_pos hsize, if_pos hsize]
  · rw [iotcConfigRead_name fs f (Nat.not_lt.mp hsize), hkeep, if_neg hsize]
    cases fs.volume (file f) with
    | none =>
      dsimp only
      split_ifs
      · rfl
      · rfl
    | some contents =>
      dsimp only
      split_ifs
      · rfl
      · rfl
      · rfl
      · rfl

theorem iotcConfigErase_refines {fs : Fs} {io : EraseAnswer} (hkeep : io.mount.leaves fs = fs.volume) :
    Config.iotcConfigErase (filesOf fs) (io.mount.serves fs) (fun f => io.gone (file f)) =
      ((iotcConfigErase fs io).1, filesOf (iotcConfigErase fs io).2) := by
  rw [Config.iotcConfigErase, iotcConfigErase_eq, hkeep]
  split_ifs with hserves
  · rfl
  · rw [Prod.mk.injEq]
    refine ⟨rfl, ?_⟩
    funext f
    have hfold := foldl_removeField io fields fs.volume f
    simp only [mem_fields, true_and] at hfold
    exact hfold.symm

/-- What a load of a mounted volume is answered. -/
def LoadAnswer.answer (io : LoadAnswer) : Config.ReadAnswer :=
  ⟨io.malloc, true, io.read.opens, io.read.reads⟩

theorem iotcConfigRead_ready {fs : Fs} (hready : fs.ready = true) (f : Field) {size : ℕ}
    (hsize : 2 ≤ size) (io : ReadAnswer) : (iotcConfigRead fs (name f) (some size) io).fs = fs := by
  have hserves : io.mount.serves fs = true := by rw [MountAnswer.serves, hready, Bool.true_or]
  have hleaves : io.mount.leaves fs = fs.volume := if_pos (Or.inl hready)
  have hfs : (⟨true, fs.volume⟩ : Fs) = fs := by rw [← hready]
  rw [iotcConfigRead_name fs f hsize, hserves, hleaves, if_neg (by decide), hfs]
  cases fs.volume (file f) with
  | none => rfl
  | some contents =>
    dsimp only
    split_ifs
    · rfl
    · rfl
    · rfl

theorem prvLoadField_ready {s : LoadRun} (hready : s.fs.ready = true) (f : Field)
    (io : Field → LoadAnswer) :
    (prvLoadField io s f).fs = s.fs ∧
      (prvLoadField io s f).out =
        Function.update s.out f (Config.prvLoadField (filesOf s.fs) f (io f).answer) := by
  have hmax : 2 ≤ f.max := by cases f <;> decide
  have hkeep : (io f).read.mount.leaves s.fs = s.fs.volume := if_pos (Or.inl hready)
  have hread := iotcConfigRead_refines hkeep f f.max (io f).malloc
  have hserves : (io f).read.mount.serves s.fs = true := by rw [MountAnswer.serves, hready, Bool.true_or]
  rw [hserves] at hread
  unfold prvLoadField Config.prvLoadField LoadAnswer.answer
  rw [hread]
  dsimp only
  split_ifs
  · exact ⟨rfl, rfl⟩
  · exact ⟨iotcConfigRead_ready hready f hmax _, rfl⟩
  · exact ⟨iotcConfigRead_ready hready f hmax _, rfl⟩

theorem foldl_prvLoadField_ready (io : Field → LoadAnswer) (l : List Field) {s : LoadRun}
    (hready : s.fs.ready = true) (g : Field) :
    (l.foldl (prvLoadField io) s).out g =
      if g ∈ l then Config.prvLoadField (filesOf s.fs) g (io g).answer else s.out g := by
  induction l generalizing s with
  | nil => simp
  | cons f l ih =>
    obtain ⟨hfs, hout⟩ := prvLoadField_ready hready f io
    rw [List.foldl_cons, ih (by rw [hfs, hready]), hfs, hout]
    by_cases hg : g = f
    · subst hg
      simp
    · simp [hg]

theorem iotcConfigLoad_refines {fs : Fs} (hready : fs.ready = true) (io : Field → LoadAnswer) :
    (Config.iotcConfigLoad (filesOf fs) fun f => (io f).answer).1 = (iotcConfigLoad fs io).1 ∧
      ∀ f, (Config.iotcConfigLoad (filesOf fs) fun f => (io f).answer).2.get f =
        (iotcConfigLoad fs io).2.out f := by
  have hout (f : Field) :
      (fields.foldl (prvLoadField io) ⟨fs, fun _ => none, .empty⟩).out f =
        Config.prvLoadField (filesOf fs) f (io f).answer := by
    rw [foldl_prvLoadField_ready io fields (s := ⟨fs, fun _ => none, .empty⟩) hready, if_pos (mem_fields f)]
  unfold Config.iotcConfigLoad iotcConfigLoad
  dsimp only
  simp only [show fields = [.env, .cpid, .duid, .cert, .key] from rfl] at hout
  simp only [fields, List.all_cons, List.all_nil, hout, Bool.and_true, Bool.and_assoc]
  split_ifs
  · refine ⟨rfl, fun f => ?_⟩
    rw [hout]
    cases f <;> rfl
  · refine ⟨rfl, fun f => ?_⟩
    cases f <;> rfl

end IotcRa8p1.App.ConfigErrors
