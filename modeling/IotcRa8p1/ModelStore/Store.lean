import IotcRa8p1.Lib.NorFlash
import IotcRa8p1.ModelStore.Envelope

/-!
# The model slot in the OSPI flash (`model_store.c`)

`modelStoreSave` erases whole 64 KB blocks covering the blob, programs it in 64-byte chunks and
verifies it through the XIP window; `modelStoreLoad` trusts the header it finds, copies
`32 + model_len` bytes and validates the copy; `modelStoreErase` erases the sector of the header.

The slot is the memory from `MODEL_SLOT_ADDR` on.  A function that writes it returns the operations
it issued, in order, so that a power cut is a prefix of that list.  What the flash driver answers
(an API error, a status error, a device that stays busy) is the argument `drv`.  Locks, cache
maintenance and the ignored result of `iotc_fs_init` have no effect on these bytes.
-/

namespace IotcRa8p1.ModelStore

open ByteMem NorFlash

abbrev ospiBlockErase : ℕ := 65536

abbrev ospiProgChunk : ℕ := 64

/-- The driver's answers to one operation: whether the call is accepted, and what each following
`statusGet` reports (`none` for an API error, else `write_in_progress`). -/
structure OpAnswer where
  accepted : Bool
  polls : ℕ → Option Bool

structure OspiDriver where
  erase : ℕ → OpAnswer
  write : ℕ → OpAnswer

def pollLoop (polls : ℕ → Option Bool) : ℕ → ℕ → ℤ
  | 0, _ => -110
  | n + 1, i =>
    match polls i with
    | none => -5
    | some false => 0
    | some true => pollLoop polls n (i + 1)

/-- `prv_wait_idle`: at most 4000000 status reads. -/
def prvWaitIdle (polls : ℕ → Option Bool) : ℤ := pollLoop polls 4000000 0

/-- `for (off = 0; rc == 0 && off < len; off += step)` around one flash operation and
`prv_wait_idle`: the erase loop and the program loop of `model_store_save`.  The first argument after
`step` is the number of iterations left. -/
def opLoop (ans : ℕ → OpAnswer) (op : ℕ → FlashOp) (len step : ℕ) : ℕ → ℕ → ℤ × List FlashOp
  | 0, _ => (0, [])
  | fuel + 1, off =>
    if off < len then
      if (ans off).accepted = false then (-5, [])
      else
        let rc := prvWaitIdle (ans off).polls
        if rc ≠ 0 then (rc, [op off])
        else
          let rest := opLoop ans op len step fuel (off + step)
          (rest.1, op off :: rest.2)
    else (0, [])

/-- `(len + 65536 - 1) & ~65535` in a 32-bit `size_t`. -/
def saveEraseLen (len : ℕ) : ℕ :=
  (len + ospiBlockErase - 1) % 2 ^ 32 / ospiBlockErase * ospiBlockErase

def eraseOp (off : ℕ) : FlashOp := .erase off ospiBlockErase

/-- One program chunk: `n = len - off`, at most 64. -/
def programOp (blob : Mem) (len off : ℕ) : FlashOp :=
  let n := len - off
  .program off blob off (if ospiProgChunk < n then ospiProgChunk else n)

/-- The iterations of the two loops. -/
def saveBlocks (len : ℕ) : ℕ := saveEraseLen len / ospiBlockErase

def saveChunks (len : ℕ) : ℕ := (len + ospiProgChunk - 1) / ospiProgChunk

def saveEraseLoop (drv : OspiDriver) (len : ℕ) : ℤ × List FlashOp :=
  opLoop drv.erase eraseOp (saveEraseLen len) ospiBlockErase (saveBlocks len) 0

def saveProgramLoop (drv : OspiDriver) (blob : Mem) (len : ℕ) : ℤ × List FlashOp :=
  opLoop drv.write (programOp blob len) len ospiProgChunk (saveChunks len) 0

/-- `model_store_save` on a slot that holds `slot`: the result and the operations issued. -/
def modelStoreSave (drv : OspiDriver) (slot blob : Mem) (len : ℕ) : ℤ × List FlashOp :=
  if iotvValidate blob len ≠ none then (-22, [])
  else
    let er := saveEraseLoop drv len
    let pr := if er.1 = 0 then saveProgramLoop drv blob len else (er.1, [])
    let ops := er.2 ++ pr.2
    if pr.1 = 0 then
      -- verify through the XIP window
      if slice (applyOps ops slot) 0 len ≠ slice blob 0 len then (-84, ops) else (0, ops)
    else (pr.1, ops)

/-- What `model_store_load` leaves: its result, the RAM buffer and `*out_len` when it was set. -/
structure LoadResult where
  rc : ℤ
  buf : Mem
  outLen : Option ℕ

/-- `model_store_load` into a buffer that holds `buf` before the call. -/
def modelStoreLoad (slot buf : Mem) (bufSize : ℕ) : LoadResult :=
  let h := iotvHdr slot
  if h.magic ≠ iotvMagic then ⟨-2, buf, none⟩
  else
    let total := (h.modelLen + iotvHdrLen) % 2 ^ 32
    if modelMaxBlob - iotvHdrLen < h.modelLen ∨ bufSize < total then ⟨-12, buf, none⟩
    else
      let copied := memcpy buf 0 slot 0 total
      if iotvValidate copied total ≠ none then ⟨-2, copied, none⟩ else ⟨0, copied, some total⟩

/-- `model_store_erase`: one 4 KB sector, the one the header stands in. -/
def modelStoreErase (ans : OpAnswer) : ℤ × List FlashOp :=
  if ans.accepted = false then (-5, []) else (prvWaitIdle ans.polls, [.erase 0 4096])

/-- A driver that accepts every operation and is idle at the first status read. -/
def idleAnswer : OpAnswer := ⟨true, fun _ => some false⟩

def idleDriver : OspiDriver := ⟨fun _ => idleAnswer, fun _ => idleAnswer⟩

/-! ### The loops issue a prefix of the update -/

/-- **Loop spec.**  With one iteration of fuel per remaining offset, the loop issues the operations
at the first `k` offsets, and all of them when it returns 0. -/
theorem opLoop_spec (ans : ℕ → OpAnswer) (op : ℕ → FlashOp) (len step fuel off : ℕ)
    (hfuel : ∀ i, i < fuel → off + i * step < len) :
    ∃ k, k ≤ fuel ∧
      (opLoop ans op len step fuel off).2 = (List.range k).map (fun i => op (off + i * step)) ∧
      ((opLoop ans op len step fuel off).1 = 0 → k = fuel) := by
  induction fuel generalizing off with
  | zero => exact ⟨0, le_rfl, rfl, fun _ => rfl⟩
  | succ fuel ih =>
    have hoff : off < len := by simpa using hfuel 0 (by omega)
    simp only [opLoop, if_pos hoff]
    by_cases hacc : (ans off).accepted = false
    · rw [if_pos hacc]
      exact ⟨0, by omega, rfl, fun h => absurd h (by decide)⟩
    · rw [if_neg hacc]
      by_cases hrc : prvWaitIdle (ans off).polls ≠ 0
      · rw [if_pos hrc]
        exact ⟨1, by omega, by simp, fun h => absurd h hrc⟩
      · rw [if_neg hrc]
        obtain ⟨k, hk, hops, hall⟩ := ih (off + step) (fun i hi => by
          have := hfuel (i + 1) (by omega)
          rw [Nat.succ_mul] at this
          omega)
        refine ⟨k + 1, by omega, ?_, fun h => by rw [hall h]⟩
        simp only [hops, List.range_succ_eq_map, List.map_cons, List.map_map, Nat.zero_mul,
          Nat.add_zero]
        congr 1
        apply List.map_congr_left
        intro i _
        simp only [Function.comp, Nat.succ_mul]
        congr 1
        omega

def OpAnswer.Good (a : OpAnswer) : Prop := a.accepted = true ∧ prvWaitIdle a.polls = 0

theorem opLoop_good (ans : ℕ → OpAnswer) (op : ℕ → FlashOp) (len step fuel off : ℕ)
    (hans : ∀ i, (ans i).Good) : (opLoop ans op len step fuel off).1 = 0 := by
  induction fuel generalizing off with
  | zero => rfl
  | succ fuel ih =>
    simp only [opLoop, (hans off).1, (hans off).2]
    split_ifs <;> first | rfl | exact ih _ | contradiction

/-- The whole update a save performs when no operation fails. -/
def saveUpdate (blob : Mem) (len : ℕ) : List FlashOp :=
  update blob ospiBlockErase (saveBlocks len) ospiProgChunk len (saveChunks len)

theorem saveEraseLoop_spec (drv : OspiDriver) (len : ℕ) :
    ∃ k, k ≤ saveBlocks len ∧ (saveEraseLoop drv len).2 = eraseBlocks ospiBlockErase k ∧
      ((saveEraseLoop drv len).1 = 0 → k = saveBlocks len) := by
  obtain ⟨k, hk, hops, hall⟩ := opLoop_spec drv.erase eraseOp (saveEraseLen len) ospiBlockErase
    (saveBlocks len) 0 (fun i hi => by
      simp only [saveBlocks, saveEraseLen, ospiBlockErase] at hi ⊢
      omega)
  refine ⟨k, hk, ?_, hall⟩
  simp only [eraseOp, Nat.zero_add] at hops
  exact hops

theorem programOp_eq (blob : Mem) (len k : ℕ) :
    programOp blob len (k * ospiProgChunk) =
      .program (k * ospiProgChunk) blob (k * ospiProgChunk) (chunkSize ospiProgChunk len k) := by
  simp only [programOp, chunkSize]
  congr 1
  split_ifs <;> omega

theorem saveProgramLoop_spec (drv : OspiDriver) (blob : Mem) (len : ℕ) :
    ∃ k, k ≤ saveChunks len ∧
      (saveProgramLoop drv blob len).2 = programChunks blob ospiProgChunk len k ∧
      ((saveProgramLoop drv blob len).1 = 0 → k = saveChunks len) := by
  obtain ⟨k, hk, hops, hall⟩ := opLoop_spec drv.write (programOp blob len) len ospiProgChunk
    (saveChunks len) 0 (fun i hi => by
      simp only [saveChunks, ospiProgChunk] at hi ⊢
      omega)
  refine ⟨k, hk, ?_, hall⟩
  simp only [Nat.zero_add, programOp_eq] at hops
  exact hops

/-- What `model_store_save` can do: refuse the blob, stop in the erase loop or in the program loop
with the loop's error, or run both to the end and verify. -/
theorem modelStoreSave_cases (drv : OspiDriver) (slot blob : Mem) (len : ℕ) :
    (iotvValidate blob len ≠ none ∧ modelStoreSave drv slot blob len = (-22, [])) ∨
    (IotvValid blob len ∧
      (((saveEraseLoop drv len).1 ≠ 0 ∧
          modelStoreSave drv slot blob len = saveEraseLoop drv len) ∨
        ((saveEraseLoop drv len).1 = 0 ∧
          ∃ rc, modelStoreSave drv slot blob len =
              (rc, (saveEraseLoop drv len).2 ++ (saveProgramLoop drv blob len).2) ∧
            (rc = 0 → (saveProgramLoop drv blob len).1 = 0 ∧
              AgreeOn (applyOps ((saveEraseLoop drv len).2 ++ (saveProgramLoop drv blob len).2) slot)
                blob 0 len) ∧
            ((saveProgramLoop drv blob len).1 = 0 →
              AgreeOn (applyOps ((saveEraseLoop drv len).2 ++ (saveProgramLoop drv blob len).2) slot)
                blob 0 len → rc = 0)))) := by
  generalize her : saveEraseLoop drv len = er
  generalize hpr : saveProgramLoop drv blob len = pr
  obtain ⟨erc, eops⟩ := er
  obtain ⟨prc, pops⟩ := pr
  simp only [modelStoreSave, her, hpr]
  by_cases hv : iotvValidate blob len ≠ none
  · exact Or.inl ⟨hv, if_pos hv⟩
  refine Or.inr ⟨(iotvValidate_eq_none_iff _ _).mp (not_not.mp hv), ?_⟩
  rw [if_neg hv]
  by_cases he : erc = 0
  · refine Or.inr ⟨he, ?_⟩
    rw [if_pos he]
    by_cases hp : prc = 0
    · rw [if_pos hp]
      by_cases hs : slice (applyOps (eops ++ pops) slot) 0 len ≠ slice blob 0 len
      · exact ⟨-84, if_pos hs, fun h => absurd h (by decide),
          fun _ h => absurd ((agreeOn_iff_slice _ _ _ _).mp h) hs⟩
      · exact ⟨0, if_neg hs, fun _ => ⟨hp, agreeOn_of_slice (not_not.mp hs)⟩, fun _ _ => rfl⟩
    · exact ⟨prc, if_neg hp, fun h => absurd h hp, fun h => absurd h hp⟩
  · refine Or.inl ⟨he, ?_⟩
    rw [if_neg he, if_neg he, List.append_nil]

/-- **The operations of a save are a prefix of the whole update**, and all of it when the save
returns 0. -/
theorem modelStoreSave_ops (drv : OspiDriver) (slot blob : Mem) (len : ℕ) :
    ∃ n, (modelStoreSave drv slot blob len).2 = (saveUpdate blob len).take n ∧
      ((modelStoreSave drv slot blob len).1 = 0 → (saveUpdate blob len).length ≤ n) := by
  obtain ⟨ke, hke, heops, heall⟩ := saveEraseLoop_spec drv len
  obtain ⟨kp, hkp, hpops, hpall⟩ := saveProgramLoop_spec drv blob len
  obtain ⟨-, he⟩ | ⟨-, ⟨hne, he⟩ | ⟨her, rc, he, hrc, -⟩⟩ := modelStoreSave_cases drv slot blob len
  · rw [he]
    exact ⟨0, rfl, fun h => absurd h (by decide)⟩
  · -- the erase loop stopped after `ke` blocks
    rw [he]
    refine ⟨ke, ?_, fun h => absurd h hne⟩
    rw [heops, saveUpdate, update, List.take_append, eraseBlocks_length, eraseBlocks_take,
      Nat.min_eq_left hke, Nat.sub_eq_zero_of_le hke, List.take_zero, List.append_nil]
  · -- every block was erased; the program loop stopped after `kp` chunks
    rw [he]
    refine ⟨saveBlocks len + kp, ?_, fun h => ?_⟩
    · show (saveEraseLoop drv len).2 ++ (saveProgramLoop drv blob len).2 = _
      rw [heops, hpops, heall her, saveUpdate, update, List.take_append, eraseBlocks_length,
        eraseBlocks_take, programChunks_take, Nat.add_sub_cancel_left,
        Nat.min_eq_right (by omega), Nat.min_eq_left hkp]
    · rw [hpall (hrc h).1]
      simp [saveUpdate, update]

/-- A save that returned 0 has verified the slot byte by byte against a valid blob. -/
theorem modelStoreSave_eq_zero {drv : OspiDriver} {slot blob : Mem} {len : ℕ}
    (h : (modelStoreSave drv slot blob len).1 = 0) :
    IotvValid blob len ∧
      AgreeOn (applyOps (modelStoreSave drv slot blob len).2 slot) blob 0 len := by
  obtain ⟨-, he⟩ | ⟨hv, ⟨hne, he⟩ | ⟨-, rc, he, hrc, -⟩⟩ := modelStoreSave_cases drv slot blob len
  · rw [he] at h
    contradiction
  · rw [he] at h
    exact absurd h hne
  · rw [he] at h ⊢
    exact ⟨hv, (hrc h).2⟩

/-- The slot after the first `k` operations of a save: erased up to the block reached, then the blob
up to the chunk reached. -/
def slotAfter (old blob : Mem) (len k : ℕ) : Mem :=
  memcpy (memset old 0 0xFF (min k (saveBlocks len) * 65536)) 0 blob 0
    (min (min (k - saveBlocks len) (saveChunks len) * 64) len)

theorem applyOps_take_saveUpdate (old blob : Mem) (len k : ℕ) :
    applyOps ((saveUpdate blob len).take k) old = slotAfter old blob len k :=
  applyOps_take_update ..

/-- On a driver that never fails, a valid blob is saved. -/
theorem modelStoreSave_good {drv : OspiDriver} {slot blob : Mem} {len : ℕ}
    (herase : ∀ i, (drv.erase i).Good) (hwrite : ∀ i, (drv.write i).Good)
    (hv : IotvValid blob len) : (modelStoreSave drv slot blob len).1 = 0 := by
  have he0 : (saveEraseLoop drv len).1 = 0 := opLoop_good _ _ _ _ _ _ herase
  have hp0 : (saveProgramLoop drv blob len).1 = 0 := opLoop_good _ _ _ _ _ _ hwrite
  obtain ⟨n, hops, hall⟩ := modelStoreSave_ops drv slot blob len
  obtain ⟨hbad, -⟩ | ⟨-, ⟨hne, -⟩ | ⟨-, rc, he, -, hrc⟩⟩ := modelStoreSave_cases drv slot blob len
  · exact absurd ((iotvValidate_eq_none_iff _ _).mpr hv) hbad
  · exact absurd he0 hne
  · rw [he]
    refine hrc hp0 ?_
    -- both loops ran to the end, so every chunk of the blob stands
    obtain ⟨ke, -, heops, heall⟩ := saveEraseLoop_spec drv len
    obtain ⟨kp, -, hpops, hpall⟩ := saveProgramLoop_spec drv blob len
    rw [heops, hpops, heall he0, hpall hp0, applyOps_append, applyOps_programChunks]
    intro a ha hb
    rw [memcpy_in _ _ _ _ _ _ ha (by simp only [saveChunks, ospiProgChunk]; omega),
      show 0 + (a - 0) = a by omega]

/-- What `model_store_load` can do: report an empty slot, refuse the length in the header, or copy
the blob and then accept or reject the copy. -/
theorem modelStoreLoad_cases (slot buf : Mem) (bufSize : ℕ) :
    ((iotvHdr slot).magic ≠ iotvMagic ∧ modelStoreLoad slot buf bufSize = ⟨-2, buf, none⟩) ∨
    (modelStoreLoad slot buf bufSize = ⟨-12, buf, none⟩) ∨
    ((iotvHdr slot).magic = iotvMagic ∧ (iotvHdr slot).modelLen ≤ 4194304 - 32 ∧
      ∃ copied, AgreeOn copied slot 0 ((iotvHdr slot).modelLen + 32) ∧
        (∀ a, (iotvHdr slot).modelLen + 32 ≤ a → copied a = buf a) ∧
        ((iotvValidate copied ((iotvHdr slot).modelLen + 32) ≠ none ∧
            modelStoreLoad slot buf bufSize = ⟨-2, copied, none⟩) ∨
          (IotvValid copied ((iotvHdr slot).modelLen + 32) ∧
            modelStoreLoad slot buf bufSize =
              ⟨0, copied, some ((iotvHdr slot).modelLen + 32)⟩))) := by
  simp only [modelStoreLoad, iotvHdrLen, modelMaxBlob]
  by_cases h1 : (iotvHdr slot).magic ≠ iotvMagic
  · exact Or.inl ⟨h1, if_pos h1⟩
  rw [if_neg h1]
  by_cases h2 : 4 * 1024 * 1024 - 32 < (iotvHdr slot).modelLen ∨
      bufSize < ((iotvHdr slot).modelLen + 32) % 2 ^ 32
  · exact Or.inr (Or.inl (if_pos h2))
  rw [if_neg h2]
  refine Or.inr (Or.inr ⟨not_not.mp h1, by omega, ?_⟩)
  -- within the ceiling the 32-bit sum does not wrap
  rw [Nat.mod_eq_of_lt (show (iotvHdr slot).modelLen + 32 < 2 ^ 32 by omega)]
  refine ⟨memcpy buf 0 slot 0 ((iotvHdr slot).modelLen + 32), ?_, fun a ha => ?_, ?_⟩
  · intro a ha hb
    rw [memcpy_in _ _ _ _ _ _ ha (by omega), show 0 + (a - 0) = a by omega]
  · exact memcpy_out _ _ _ _ _ _ (by omega)
  · by_cases h3 : iotvValidate (memcpy buf 0 slot 0 ((iotvHdr slot).modelLen + 32))
        ((iotvHdr slot).modelLen + 32) ≠ none
    · exact Or.inl ⟨h3, if_pos h3⟩
    · exact Or.inr ⟨(iotvValidate_eq_none_iff _ _).mp (not_not.mp h3), if_neg h3⟩

theorem modelStoreLoad_rc (slot buf : Mem) (bufSize : ℕ) :
    (modelStoreLoad slot buf bufSize).rc = -2 ∨ (modelStoreLoad slot buf bufSize).rc = -12 ∨
      (modelStoreLoad slot buf bufSize).rc = 0 := by
  obtain ⟨-, he⟩ | he | ⟨-, -, copied, -, -, ⟨-, he⟩ | ⟨-, he⟩⟩ :=
    modelStoreLoad_cases slot buf bufSize <;> simp [he]

/-- What a load that returned 0 has found and left. -/
theorem modelStoreLoad_eq_zero {slot buf : Mem} {bufSize : ℕ}
    (h : (modelStoreLoad slot buf bufSize).rc = 0) :
    (modelStoreLoad slot buf bufSize).outLen = some ((iotvHdr slot).modelLen + 32) ∧
      AgreeOn (modelStoreLoad slot buf bufSize).buf slot 0 ((iotvHdr slot).modelLen + 32) ∧
      (∀ a, (iotvHdr slot).modelLen + 32 ≤ a → (modelStoreLoad slot buf bufSize).buf a = buf a) ∧
      IotvValid (modelStoreLoad slot buf bufSize).buf ((iotvHdr slot).modelLen + 32) := by
  obtain ⟨-, he⟩ | he | ⟨-, -, copied, hcopy, hrest, ⟨-, he⟩ | ⟨hv, he⟩⟩ :=
    modelStoreLoad_cases slot buf bufSize
  · rw [he] at h
    contradiction
  · rw [he] at h
    contradiction
  · rw [he] at h
    contradiction
  · rw [he]
    exact ⟨rfl, hcopy, hrest, hv⟩

/-- A slot whose header magic is gone loads as empty, whatever the RAM buffer holds. -/
theorem modelStoreLoad_of_magic {slot buf : Mem} {bufSize : ℕ}
    (h : (iotvHdr slot).magic ≠ iotvMagic) : modelStoreLoad slot buf bufSize = ⟨-2, buf, none⟩ :=
  if_pos h

/-- A slot that holds a valid blob of at least eight payload bytes is loaded, into any buffer. -/
theorem modelStoreLoad_of_valid {slot blob : Mem} {len : ℕ} (hv : IotvValid blob len)
    (h8 : 8 ≤ (iotvHdr blob).modelLen) (hslot : AgreeOn slot blob 0 len) (buf : Mem) (bufSize : ℕ)
    (hbuf : modelMaxBlob ≤ bufSize) : (modelStoreLoad slot buf bufSize).rc = 0 := by
  have hfits := hv.fits
  have hmax := hv.maxLen
  have hh : iotvHdr slot = iotvHdr blob := iotvHdr_congr (hslot.mono le_rfl (by omega))
  have hmod : ((iotvHdr blob).modelLen + 32) % 2 ^ 32 = 32 + (iotvHdr blob).modelLen := by
    rw [Nat.mod_eq_of_lt (by omega), Nat.add_comm]
  have hcopied : AgreeOn blob (memcpy buf 0 slot 0 (32 + (iotvHdr blob).modelLen)) 0
      (32 + (iotvHdr blob).modelLen) := by
    intro a ha hb
    rw [memcpy_in _ _ _ _ _ _ ha hb, show 0 + (a - 0) = a by omega]
    exact (hslot a ha (by omega)).symm
  have hvalid := (iotvValidate_eq_none_iff _ _).mpr (hv.congr h8 hcopied)
  simp only [modelMaxBlob] at hbuf
  simp only [modelStoreLoad, hh, iotvHdrLen, modelMaxBlob, hmod]
  rw [if_neg (not_not.mpr hv.magic), if_neg (by omega), if_neg (not_not.mpr hvalid)]

end IotcRa8p1.ModelStore
