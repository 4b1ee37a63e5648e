import IotcRa8p1.Lib.Loop
import IotcRa8p1.Lib.SlidingWindow
import Mathlib.Data.Nat.Bitwise

/-!
# The replay databases of libsrtp (`datatypes.c`, `rdbx.c`, `rdb.c`)

A replay database is a bit mask of 32-bit words in which the bits are numbered from the lowest of the first word;
the highest one stands for the highest index received.  Newer indices shift the mask.  The shift works word by
word and joins two neighbours; `getBit_leftShiftWords` says that it moves the bits.

`srtp_rdbx_t` is for RTP, with a 64-bit index and a mask of the window size, `srtp_rdb_t` for RTCP, with the index
where its 128 bits start.  Both track the set of indices added (`Rdbx.Holds`, `Rdb.Holds`).
-/

namespace IotcRa8p1.Media.Rdbx

open Loop SlidingWindow

/-! ### Bits -/

/-- `bitvector_get_bit`, `v128_get_bit` -/
def getBit (words : List UInt32) (i : ℕ) : Bool :=
  (words.getD (i / 32) 0 >>> UInt32.ofNat (i % 32)) &&& 1 == 1

/-- `bitvector_set_bit`, `v128_set_bit` -/
def setBit (words : List UInt32) (i : ℕ) : List UInt32 :=
  words.set (i / 32) (words.getD (i / 32) 0 ||| ((1 : UInt32) <<< UInt32.ofNat (i % 32)))

/-- The body that `bitvector_left_shift` and `v128_left_shift` share. -/
def leftShiftWords (words : List UInt32) (wordLength shift : ℕ) : List UInt32 :=
  let baseIndex := shift / 32
  let bitIndex := shift % 32
  let moved :=
    if bitIndex = 0 then
      forLoop (wordLength - baseIndex) (fun i w => w.set i (w.getD (i + baseIndex) 0)) words
    else
      let w := forLoop (wordLength - baseIndex - 1) (fun i w => w.set i
        ((w.getD (i + baseIndex) 0 >>> UInt32.ofNat bitIndex) ^^^
          (w.getD (i + baseIndex + 1) 0 <<< UInt32.ofNat (32 - bitIndex)))) words
      w.set (wordLength - baseIndex - 1) (w.getD (wordLength - 1) 0 >>> UInt32.ofNat bitIndex)
  forLoop baseIndex (fun i w => w.set (wordLength - baseIndex + i) 0) moved

/-- `bitvector_t` -/
structure Bitvector where
  length : ℕ
  word : List UInt32
  deriving DecidableEq

/-- `bitvector_set_to_zero`: `memset` of `length >> 3` bytes. -/
def bitvectorSetToZero (x : Bitvector) : Bitvector :=
  { x with word := List.replicate (x.length / 32) 0 ++ x.word.drop (x.length / 32) }

/-- `bitvector_left_shift` -/
def bitvectorLeftShift (x : Bitvector) (shift : ℕ) : Bitvector :=
  if shift ≥ x.length then bitvectorSetToZero x
  else { x with word := leftShiftWords x.word (x.length / 32) shift }

/-- `bitvector_alloc` when the memory is there; it holds a multiple of 16 bytes. -/
def bitvectorAlloc (length : ℕ) : Bitvector :=
  let length := (length + 31) / 32 * 32
  bitvectorSetToZero ⟨length, List.replicate ((length / 32 * 4 + 15) / 16 * 4) 0⟩

/-- `v128_left_shift` -/
def v128LeftShift (x : List UInt32) (shift : ℕ) : List UInt32 :=
  if shift > 127 then List.replicate 4 0 else leftShiftWords x 4 shift

theorem getBit_eq_testBit (words : List UInt32) (i : ℕ) :
    getBit words i = (words.getD (i / 32) 0).toNat.testBit (i % 32) := by
  have hmod : i % 32 % 4294967296 % 32 = i % 32 := by omega
  rw [getBit, Bool.eq_iff_iff, beq_iff_eq, ← UInt32.toNat_inj, UInt32.toNat_and, UInt32.toNat_shiftRight,
    UInt32.toNat_ofNat', show (1 : UInt32).toNat = 1 from rfl, Nat.and_one_is_mod, Nat.testBit, Nat.one_and_eq_mod_two,
    hmod]
  simp

theorem getD_set {w : List UInt32} {i j : ℕ} (v : UInt32) (hi : i < w.length) :
    (w.set i v).getD j 0 = if j = i then v else w.getD j 0 := by
  rw [List.getD_eq_getElem?_getD, List.getElem?_set, List.getD_eq_getElem?_getD]
  by_cases hij : i = j
  · rw [if_pos hij, if_pos hij.symm, if_pos hi, Option.getD_some]
  · rw [if_neg hij, if_neg fun h => hij h.symm]

/-- A loop that writes the words from `start` on, each from what the loop has not reached yet. -/
theorem forLoop_set (words : List UInt32) (n start : ℕ) {g : ℕ → List UInt32 → UInt32} {f : ℕ → UInt32}
    (hroom : start + n ≤ words.length)
    (hg : ∀ i w, i < n → (∀ j, start + i ≤ j → w.getD j 0 = words.getD j 0) → g i w = f (start + i)) :
    (forLoop n (fun i w => w.set (start + i) (g i w)) words).length = words.length ∧
      ∀ j, (forLoop n (fun i w => w.set (start + i) (g i w)) words).getD j 0 =
        if start ≤ j ∧ j < start + n then f j else words.getD j 0 := by
  refine forLoop_invariant (fun k (w : List UInt32) => w.length = words.length ∧
    ∀ j, w.getD j 0 = if start ≤ j ∧ j < start + k then f j else words.getD j 0) ?_ ?_
  · exact ⟨rfl, fun j => by rw [if_neg (by omega)]⟩
  · intro k w hk hw
    obtain ⟨hlength, hget⟩ := hw
    have hvalue : g k w = f (start + k) := hg k w hk fun j hj => by rw [hget, if_neg (by omega)]
    refine ⟨by rw [List.length_set, hlength], fun j => ?_⟩
    rw [getD_set _ (by omega), hvalue, hget]
    by_cases hj : j = start + k
    · rw [if_pos hj, if_pos (by omega), hj]
    · rw [if_neg hj]
      refine if_congr ?_ rfl rfl
      omega

/-- The word that the shift makes of two neighbours. -/
def shiftedWord (words : List UInt32) (wordLength shift j : ℕ) : UInt32 :=
  if j + shift / 32 < wordLength then
    if shift % 32 = 0 then words.getD (j + shift / 32) 0
    else if j + shift / 32 + 1 < wordLength then
      (words.getD (j + shift / 32) 0 >>> UInt32.ofNat (shift % 32)) ^^^
        (words.getD (j + shift / 32 + 1) 0 <<< UInt32.ofNat (32 - shift % 32))
    else words.getD (j + shift / 32) 0 >>> UInt32.ofNat (shift % 32)
  else 0

theorem leftShiftWords_getD {words : List UInt32} {wordLength shift : ℕ} (hlength : wordLength ≤ words.length)
    (hshift : shift < 32 * wordLength) :
    (leftShiftWords words wordLength shift).length = words.length ∧
      ∀ j < wordLength, (leftShiftWords words wordLength shift).getD j 0 = shiftedWord words wordLength shift j := by
  have hbase : shift / 32 < wordLength := by omega
  have hmoved : ∀ moved : List UInt32, moved.length = words.length →
      (∀ j, j + shift / 32 < wordLength → moved.getD j 0 = shiftedWord words wordLength shift j) →
      (forLoop (shift / 32) (fun i w => w.set (wordLength - shift / 32 + i) 0) moved).length = words.length ∧
        ∀ j < wordLength, (forLoop (shift / 32) (fun i w => w.set (wordLength - shift / 32 + i) 0) moved).getD j 0 =
          shiftedWord words wordLength shift j := by
    intro moved hlen hval
    obtain ⟨hlen', hget⟩ := forLoop_set moved (shift / 32) (wordLength - shift / 32)
      (g := fun _ _ => 0) (f := fun _ => 0) (by omega) fun _ _ _ _ => rfl
    refine ⟨hlen'.trans hlen, fun j hj => ?_⟩
    rw [hget]
    by_cases hlow : j + shift / 32 < wordLength
    · rw [if_neg (by omega), hval j hlow]
    · rw [if_pos (by omega), shiftedWord, if_neg hlow]
  rw [leftShiftWords]
  dsimp only
  by_cases hbit : shift % 32 = 0
  · rw [if_pos hbit]
    obtain ⟨hlen, hget⟩ := forLoop_set words (wordLength - shift / 32) 0
      (g := fun i w => w.getD (i + shift / 32) 0) (f := fun j => words.getD (j + shift / 32) 0) (by omega)
      fun i w hi hw => by rw [hw _ (by omega), Nat.zero_add]
    simp only [Nat.zero_add] at hlen hget
    refine hmoved _ hlen fun j hj => ?_
    rw [hget, if_pos (by omega), shiftedWord, if_pos hj, if_pos hbit]
  · rw [if_neg hbit]
    obtain ⟨hlen, hget⟩ := forLoop_set words (wordLength - shift / 32 - 1) 0
      (g := fun i w => (w.getD (i + shift / 32) 0 >>> UInt32.ofNat (shift % 32)) ^^^
        (w.getD (i + shift / 32 + 1) 0 <<< UInt32.ofNat (32 - shift % 32)))
      (f := fun j => (words.getD (j + shift / 32) 0 >>> UInt32.ofNat (shift % 32)) ^^^
        (words.getD (j + shift / 32 + 1) 0 <<< UInt32.ofNat (32 - shift % 32))) (by omega)
      fun i w hi hw => by rw [hw _ (by omega), hw _ (by omega), Nat.zero_add]
    simp only [Nat.zero_add] at hlen hget
    refine hmoved _ (by rw [List.length_set, hlen]) fun j hj => ?_
    rw [getD_set _ (by omega), hget, hget, shiftedWord, if_pos hj, if_neg hbit]
    by_cases hlast : j = wordLength - shift / 32 - 1
    · rw [if_pos hlast, if_neg (by omega), if_neg (by omega), show wordLength - 1 = j + shift / 32 by omega]
    · rw [if_neg hlast, if_pos (by omega), if_pos (by omega)]

theorem toNat_ofNat_mod {n : ℕ} (h : n < 32) : (UInt32.ofNat n).toNat % 32 = n := by
  rw [UInt32.toNat_ofNat']
  omega

theorem testBit_shiftRight (x : UInt32) {n : ℕ} (hn : n < 32) (r : ℕ) :
    (x >>> UInt32.ofNat n).toNat.testBit r = x.toNat.testBit (n + r) := by
  rw [UInt32.toNat_shiftRight, toNat_ofNat_mod hn, Nat.testBit_shiftRight]

theorem testBit_shiftLeft (x : UInt32) {n : ℕ} (hn : n < 32) {r : ℕ} (hr : r < 32) :
    (x <<< UInt32.ofNat n).toNat.testBit r = (decide (n ≤ r) && x.toNat.testBit (r - n)) := by
  rw [UInt32.toNat_shiftLeft, toNat_ofNat_mod hn, Nat.testBit_mod_two_pow, Nat.testBit_shiftLeft, decide_eq_true hr,
    Bool.true_and]

theorem testBit_high (x : UInt32) {r : ℕ} (hr : 32 ≤ r) : x.toNat.testBit r = false :=
  Nat.testBit_lt_two_pow (Nat.lt_of_lt_of_le x.toNat_lt (Nat.pow_le_pow_right (by decide) hr))

theorem testBit_shiftedWord (words : List UInt32) (wordLength shift j : ℕ) {r : ℕ} (hr : r < 32) :
    (shiftedWord words wordLength shift j).toNat.testBit r =
      (decide (j + (r + shift) / 32 < wordLength) &&
        (words.getD (j + (r + shift) / 32) 0).toNat.testBit ((r + shift) % 32)) := by
  rw [shiftedWord]
  by_cases hfirst : j + shift / 32 < wordLength
  · rw [if_pos hfirst]
    by_cases hbit : shift % 32 = 0
    · rw [if_pos hbit, show (r + shift) / 32 = shift / 32 by omega, show (r + shift) % 32 = r by omega,
        decide_eq_true hfirst, Bool.true_and]
    · rw [if_neg hbit]
      by_cases hlow : r + shift % 32 < 32
      · -- the bit comes from the lower word
        rw [show (r + shift) / 32 = shift / 32 by omega, show (r + shift) % 32 = shift % 32 + r by omega,
          decide_eq_true hfirst, Bool.true_and]
        split_ifs
        · rw [UInt32.toNat_xor, Nat.testBit_xor, testBit_shiftRight _ (by omega), testBit_shiftLeft _ (by omega) hr,
            decide_eq_false (by omega), Bool.false_and, Bool.xor_false]
        · rw [testBit_shiftRight _ (by omega)]
      · -- the bit comes from the upper word
        rw [show j + (r + shift) / 32 = j + shift / 32 + 1 by omega,
          show (r + shift) % 32 = r - (32 - shift % 32) by omega]
        by_cases hsecond : j + shift / 32 + 1 < wordLength
        · rw [if_pos hsecond, UInt32.toNat_xor, Nat.testBit_xor, testBit_shiftRight _ (by omega),
            testBit_high _ (by omega), testBit_shiftLeft _ (by omega) hr, decide_eq_true hsecond, Bool.false_xor,
            decide_eq_true (by omega)]
        · rw [if_neg hsecond, testBit_shiftRight _ (by omega), testBit_high _ (by omega), decide_eq_false hsecond,
            Bool.false_and]
  · rw [if_neg hfirst, decide_eq_false (by omega), Bool.false_and]
    exact Nat.zero_testBit r

/-- **The shift** moves the bits down and lets zeros in above. -/
theorem getBit_leftShiftWords {words : List UInt32} {wordLength shift : ℕ} (hlength : wordLength ≤ words.length)
    (hshift : shift < 32 * wordLength) {i : ℕ} (hi : i < 32 * wordLength) :
    getBit (leftShiftWords words wordLength shift) i =
      (decide (i + shift < 32 * wordLength) && getBit words (i + shift)) := by
  rw [getBit_eq_testBit, (leftShiftWords_getD hlength hshift).2 _ (by omega), testBit_shiftedWord _ _ _ _ (by omega),
    getBit_eq_testBit]
  have hword : i / 32 + (i % 32 + shift) / 32 = (i + shift) / 32 := by omega
  have hrest : (i % 32 + shift) % 32 = (i + shift) % 32 := by omega
  rw [hword, hrest]
  congr 1
  refine decide_eq_decide.mpr ?_
  omega

theorem getBit_setBit {words : List UInt32} {i : ℕ} (hi : i / 32 < words.length) (j : ℕ) :
    getBit (setBit words i) j = (decide (j = i) || getBit words j) := by
  rw [getBit_eq_testBit, getBit_eq_testBit, setBit, getD_set _ hi]
  by_cases hword : j / 32 = i / 32
  · rw [if_pos hword, hword, UInt32.toNat_or, Nat.testBit_or, testBit_shiftLeft _ (by omega) (by omega), Bool.or_comm]
    congr 1
    rw [show (1 : UInt32).toNat = 1 from rfl, Bool.eq_iff_iff, Bool.and_eq_true, decide_eq_true_iff,
      Nat.testBit_one_eq_true_iff_self_eq_zero, decide_eq_true_iff]
    omega
  · rw [if_neg hword, decide_eq_false (by omega), Bool.false_or]

/-! ### The database of RTP -/

/-- `srtp_err_status_t`, what the replay checks return. -/
inductive SrtpErrStatus where
  | ok
  | badParam
  | replayFail
  | replayOld
  | authFail
  | pktIdxOld
  | pktIdxAdv
  deriving DecidableEq

/-- `srtp_rdbx_t` -/
structure SrtpRdbx where
  index : ℕ
  bitmask : Bitvector
  deriving DecidableEq

/-- `srtp_rdbx_init` when the memory is there. -/
def srtpRdbxInit (ws : ℕ) : Option SrtpRdbx :=
  if ws = 0 then none else some ⟨0, bitvectorAlloc ws⟩

/-- `srtp_rdbx_check` -/
def srtpRdbxCheck (rdbx : SrtpRdbx) (delta : ℤ) : SrtpErrStatus :=
  if delta > 0 then .ok
  else if (rdbx.bitmask.length - 1 : ℕ) + delta < 0 then .replayOld
  else if getBit rdbx.bitmask.word ((rdbx.bitmask.length - 1 : ℕ) + delta).toNat = true then .replayFail
  else .ok

/-- `srtp_rdbx_add_index`; the index advances by `(srtp_sequence_number_t)delta`. -/
def srtpRdbxAddIndex (rdbx : SrtpRdbx) (delta : ℤ) : SrtpRdbx :=
  if delta > 0 then
    let bitmask := bitvectorLeftShift rdbx.bitmask delta.toNat
    ⟨(rdbx.index + delta.toNat % 2 ^ 16) % 2 ^ 64, { bitmask with word := setBit bitmask.word (bitmask.length - 1) }⟩
  else
    { rdbx with bitmask := { rdbx.bitmask with
        word := setBit rdbx.bitmask.word ((rdbx.bitmask.length - 1 : ℕ) + delta).toNat } }

/-- `srtp_rdbx_set_roc_seq` -/
def srtpRdbxSetRocSeq (rdbx : SrtpRdbx) (roc seq : ℕ) : SrtpRdbx :=
  if roc < rdbx.index / 2 ^ 16 then rdbx else ⟨roc * 2 ^ 16 + seq, bitvectorSetToZero rdbx.bitmask⟩

/-- The mask is made of whole words and tracks the indices added, the highest of them at its end. -/
structure Holds (rdbx : SrtpRdbx) (seen : ℤ → Prop) : Prop where
  pos : 0 < rdbx.bitmask.length
  whole : rdbx.bitmask.length % 32 = 0
  words : rdbx.bitmask.length / 32 ≤ rdbx.bitmask.word.length
  tracks : Tracks rdbx.bitmask.length (rdbx.index - rdbx.bitmask.length + 1) (getBit rdbx.bitmask.word) seen

theorem bitvectorSetToZero_length (x : Bitvector) (h : x.length / 32 ≤ x.word.length) :
    (bitvectorSetToZero x).length = x.length ∧ (bitvectorSetToZero x).word.length = x.word.length := by
  refine ⟨rfl, ?_⟩
  rw [bitvectorSetToZero, List.length_append, List.length_replicate, List.length_drop]
  omega

theorem getBit_setToZero (x : Bitvector) {i : ℕ} (hi : i / 32 < x.length / 32) :
    getBit (bitvectorSetToZero x).word i = false := by
  have hget : (bitvectorSetToZero x).word.getD (i / 32) 0 = 0 := by
    rw [bitvectorSetToZero, List.getD_eq_getElem?_getD, List.getElem?_append_left (by rwa [List.length_replicate]),
      List.getElem?_replicate_of_lt hi, Option.getD_some]
  rw [getBit_eq_testBit, hget]
  exact Nat.zero_testBit _

/-- The mask after a shift. -/
theorem bitvectorLeftShift_spec {x : Bitvector} (hwhole : x.length % 32 = 0) (hwords : x.length / 32 ≤ x.word.length)
    (shift : ℕ) :
    (bitvectorLeftShift x shift).length = x.length ∧ (bitvectorLeftShift x shift).word.length = x.word.length ∧
      ∀ i < x.length, getBit (bitvectorLeftShift x shift).word i =
        (decide (i + shift < x.length) && getBit x.word (i + shift)) := by
  rw [bitvectorLeftShift]
  by_cases hall : shift ≥ x.length
  · rw [if_pos hall]
    refine ⟨rfl, (bitvectorSetToZero_length x hwords).2, fun i hi => ?_⟩
    rw [getBit_setToZero x (by omega), decide_eq_false (by omega), Bool.false_and]
  · rw [if_neg hall]
    refine ⟨rfl, (leftShiftWords_getD hwords (by omega)).1, fun i hi => ?_⟩
    rw [getBit_leftShiftWords hwords (by omega) (by omega), show 32 * (x.length / 32) = x.length by omega]

/-- A new database is empty. -/
theorem srtpRdbxInit_holds {ws : ℕ} {rdbx : SrtpRdbx} (h : srtpRdbxInit ws = some rdbx) :
    Holds rdbx (fun _ => False) ∧ rdbx.index = 0 ∧ rdbx.bitmask.length = (ws + 31) / 32 * 32 := by
  rw [srtpRdbxInit] at h
  split_ifs at h with hws
  obtain rfl := Option.some.inj h
  have hlength : (bitvectorAlloc ws).length = (ws + 31) / 32 * 32 := rfl
  have hroom : (ws + 31) / 32 * 32 / 32 ≤
      (List.replicate (((ws + 31) / 32 * 32 / 32 * 4 + 15) / 16 * 4) (0 : UInt32)).length := by
    rw [List.length_replicate]
    omega
  have hwords : (bitvectorAlloc ws).length / 32 ≤ (bitvectorAlloc ws).word.length :=
    (bitvectorSetToZero_length ⟨_, _⟩ hroom).2 ▸ hroom
  refine ⟨⟨?_, ?_, hwords, tracks_empty fun k hk => ?_⟩, rfl, hlength⟩
  · show 0 < (bitvectorAlloc ws).length
    omega
  · show (bitvectorAlloc ws).length % 32 = 0
    omega
  · refine getBit_setToZero _ ?_
    show k / 32 < (ws + 31) / 32 * 32 / 32
    have hk' : k < (ws + 31) / 32 * 32 := hk
    omega

variable {rdbx : SrtpRdbx} {seen : ℤ → Prop}

/-- **The check** accepts the fresh indices. -/
theorem Holds.check (h : Holds rdbx seen) (delta : ℤ) :
    srtpRdbxCheck rdbx delta = .ok ↔ Fresh (rdbx.index - rdbx.bitmask.length + 1) seen (rdbx.index + delta) := by
  have hpos := h.pos
  rw [srtpRdbxCheck]
  by_cases hnew : delta > 0
  · rw [if_pos hnew]
    exact ⟨fun _ => h.tracks.fresh_above (by omega), fun _ => rfl⟩
  · rw [if_neg hnew]
    by_cases hold : (rdbx.bitmask.length - 1 : ℕ) + delta < 0
    · rw [if_pos hold]
      refine iff_of_false (by decide) fun hfresh => ?_
      have := hfresh.1
      omega
    · rw [if_neg hold]
      have hfresh := h.tracks.fresh_iff (k := ((rdbx.bitmask.length - 1 : ℕ) + delta).toNat) (by omega)
      rw [show (rdbx.index : ℤ) - rdbx.bitmask.length + 1 + (((rdbx.bitmask.length - 1 : ℕ) + delta).toNat : ℕ) =
        rdbx.index + delta by omega] at hfresh
      rw [hfresh]
      cases getBit rdbx.bitmask.word ((rdbx.bitmask.length - 1 : ℕ) + delta).toNat
      · exact iff_of_true rfl rfl
      · exact iff_of_false (by decide) (by decide)

/-- **Adding** an index that the check accepted: the database knows it and all before. -/
theorem Holds.addIndex (h : Holds rdbx seen) (delta : ℤ) (hnew : delta < 2 ^ 16)
    (hold : -(rdbx.bitmask.length : ℤ) < delta) (hroom : rdbx.index + 2 ^ 16 ≤ 2 ^ 64) :
    Holds (srtpRdbxAddIndex rdbx delta) (fun i => i = rdbx.index + delta ∨ seen i) ∧
      (srtpRdbxAddIndex rdbx delta).index = max rdbx.index (rdbx.index + delta).toNat ∧
      (srtpRdbxAddIndex rdbx delta).bitmask.length = rdbx.bitmask.length := by
  have hpos := h.pos
  have hwhole := h.whole
  have hwords := h.words
  rw [srtpRdbxAddIndex]
  by_cases hahead : delta > 0
  · rw [if_pos hahead]
    obtain ⟨d, rfl⟩ : ∃ d : ℕ, delta = d := ⟨delta.toNat, by omega⟩
    obtain ⟨hlength, hwordlength, hbits⟩ := bitvectorLeftShift_spec hwhole hwords d
    have hindex : (rdbx.index + (d : ℤ).toNat % 2 ^ 16) % 2 ^ 64 = rdbx.index + d := by
      rw [Int.toNat_natCast, Nat.mod_eq_of_lt (by omega : d < 2 ^ 16), Nat.mod_eq_of_lt (by omega)]
    dsimp only
    rw [hindex, Int.toNat_natCast, hlength]
    have hslide := h.tracks.slide d (getBit (bitvectorLeftShift rdbx.bitmask d).word) fun j hj => by
      rw [hbits j hj, Bool.and_eq_true, decide_eq_true_iff]
    have hmark := hslide.mark (k := rdbx.bitmask.length - 1) (by omega)
      (getBit (setBit (bitvectorLeftShift rdbx.bitmask d).word (rdbx.bitmask.length - 1))) fun j hj => by
        rw [getBit_setBit (by omega), Bool.or_eq_true, decide_eq_true_iff]
    refine ⟨⟨hpos, hwhole, ?_, ?_⟩, by omega, rfl⟩
    · dsimp only
      rw [setBit, List.length_set, hwordlength]
      exact hwords
    · dsimp only
      rw [show (rdbx.index : ℤ) + d = rdbx.index - rdbx.bitmask.length + 1 + d + (rdbx.bitmask.length - 1 : ℕ) by omega,
        show ((rdbx.index + d : ℕ) : ℤ) - rdbx.bitmask.length + 1 = rdbx.index - rdbx.bitmask.length + 1 + d by omega]
      exact hmark
  · rw [if_neg hahead]
    have hmark := h.tracks.mark (k := ((rdbx.bitmask.length - 1 : ℕ) + delta).toNat) (by omega)
      (getBit (setBit rdbx.bitmask.word ((rdbx.bitmask.length - 1 : ℕ) + delta).toNat)) fun j hj => by
        rw [getBit_setBit (by omega), Bool.or_eq_true, decide_eq_true_iff]
    refine ⟨⟨hpos, hwhole, ?_, ?_⟩, by dsimp only; omega, rfl⟩
    · dsimp only
      rw [setBit, List.length_set]
      exact hwords
    · dsimp only
      rw [show (rdbx.index : ℤ) + delta = rdbx.index - rdbx.bitmask.length + 1 +
        (((rdbx.bitmask.length - 1 : ℕ) + delta).toNat : ℕ) by omega]
      exact hmark

/-- **A jump ahead** by more than the window: the mask starts over. -/
theorem Holds.setRocSeq (h : Holds rdbx seen) (roc seq : ℕ) (hseq : seq < 2 ^ 16)
    (hfar : rdbx.index + rdbx.bitmask.length ≤ roc * 2 ^ 16 + seq) :
    Holds (srtpRdbxSetRocSeq rdbx roc seq) seen ∧
      srtpRdbxSetRocSeq rdbx roc seq = ⟨roc * 2 ^ 16 + seq, bitvectorSetToZero rdbx.bitmask⟩ := by
  have hroc : ¬ roc < rdbx.index / 2 ^ 16 := by omega
  have hset : srtpRdbxSetRocSeq rdbx roc seq = ⟨roc * 2 ^ 16 + seq, bitvectorSetToZero rdbx.bitmask⟩ := by
    rw [srtpRdbxSetRocSeq, if_neg hroc]
  have hwhole := h.whole
  rw [hset]
  refine ⟨⟨h.pos, hwhole, ?_, ?_⟩, rfl⟩
  · rw [(bitvectorSetToZero_length _ h.words).2]
    exact h.words
  · refine h.tracks.jump ?_ fun k hk => getBit_setToZero _ ?_
    · show _ ≤ ((roc * 2 ^ 16 + seq : ℕ) : ℤ) - rdbx.bitmask.length + 1
      omega
    · have hk' : k < rdbx.bitmask.length := hk
      omega

/-! ### The database of RTCP -/

/-- `srtp_rdb_t`; the window starts at `windowStart`. -/
structure SrtpRdb where
  windowStart : ℕ
  bitmask : List UInt32
  deriving DecidableEq

/-- `srtp_rdb_init` -/
def srtpRdbInit : SrtpRdb := ⟨0, List.replicate 4 0⟩

/-- `rdb_bits_in_bitmask` -/
def rdbBitsInBitmask : ℕ := 128

/-- `srtp_rdb_check`, with the sum of the first comparison in 32 bits. -/
def srtpRdbCheck (rdb : SrtpRdb) (pIndex : ℕ) : SrtpErrStatus :=
  if pIndex ≥ (rdb.windowStart + rdbBitsInBitmask) % 2 ^ 32 then .ok
  else if pIndex < rdb.windowStart then .replayOld
  else if getBit rdb.bitmask (pIndex - rdb.windowStart) = true then .replayFail
  else .ok

/-- `srtp_rdb_add_index` -/
def srtpRdbAddIndex (rdb : SrtpRdb) (pIndex : ℕ) : SrtpRdb :=
  if pIndex < rdb.windowStart then rdb
  else if pIndex - rdb.windowStart < rdbBitsInBitmask then
    { rdb with bitmask := setBit rdb.bitmask (pIndex - rdb.windowStart) }
  else
    let delta := pIndex - rdb.windowStart - (rdbBitsInBitmask - 1)
    ⟨(rdb.windowStart + delta) % 2 ^ 32, setBit (v128LeftShift rdb.bitmask delta) (rdbBitsInBitmask - 1)⟩

/-- The bits track the indices added. -/
structure Rdb.Holds (rdb : SrtpRdb) (seen : ℤ → Prop) : Prop where
  words : rdb.bitmask.length = 4
  tracks : Tracks rdbBitsInBitmask rdb.windowStart (getBit rdb.bitmask) seen

/-- `v128_set_to_zero` -/
theorem getBit_zeros (i : ℕ) : getBit (List.replicate 4 0) i = false := by
  have hget : (List.replicate 4 (0 : UInt32)).getD (i / 32) 0 = 0 := by
    rw [List.getD_eq_getElem?_getD, List.getElem?_replicate]
    split_ifs <;> rfl
  rw [getBit_eq_testBit, hget]
  exact Nat.zero_testBit _

theorem srtpRdbInit_holds : Rdb.Holds srtpRdbInit fun _ => False := by
  exact ⟨rfl, tracks_empty fun k _ => getBit_zeros k⟩

theorem v128LeftShift_spec {x : List UInt32} (hwords : x.length = 4) (shift : ℕ) :
    (v128LeftShift x shift).length = 4 ∧ ∀ i < rdbBitsInBitmask, getBit (v128LeftShift x shift) i =
      (decide (i + shift < rdbBitsInBitmask) && getBit x (i + shift)) := by
  rw [v128LeftShift]
  by_cases hall : shift > 127
  · rw [if_pos hall]
    refine ⟨rfl, fun i hi => ?_⟩
    rw [getBit_zeros, decide_eq_false (by have : rdbBitsInBitmask = 128 := rfl; omega), Bool.false_and]
  · rw [if_neg hall]
    refine ⟨(leftShiftWords_getD (by omega) (by omega)).1.trans hwords, fun i hi => ?_⟩
    exact getBit_leftShiftWords (by omega) (by omega) hi

variable {rdb : SrtpRdb}

/-- **The check** accepts the fresh indices. -/
theorem Rdb.Holds.check (h : Rdb.Holds rdb seen) (pIndex : ℕ) (hroom : rdb.windowStart + rdbBitsInBitmask < 2 ^ 32) :
    srtpRdbCheck rdb pIndex = .ok ↔ Fresh rdb.windowStart seen pIndex := by
  rw [srtpRdbCheck, Nat.mod_eq_of_lt hroom]
  by_cases hnew : pIndex ≥ rdb.windowStart + rdbBitsInBitmask
  · rw [if_pos hnew]
    exact ⟨fun _ => h.tracks.fresh_above (by omega), fun _ => rfl⟩
  · rw [if_neg hnew]
    by_cases hold : pIndex < rdb.windowStart
    · rw [if_pos hold]
      refine iff_of_false (by decide) fun hfresh => ?_
      have := hfresh.1
      omega
    · rw [if_neg hold]
      have hfresh := h.tracks.fresh_iff (k := pIndex - rdb.windowStart) (by omega)
      rw [show (rdb.windowStart : ℤ) + (pIndex - rdb.windowStart : ℕ) = pIndex by omega] at hfresh
      rw [hfresh]
      cases getBit rdb.bitmask (pIndex - rdb.windowStart)
      · exact iff_of_true rfl rfl
      · exact iff_of_false (by decide) (by decide)

/-- **Adding** a fresh index. -/
theorem Rdb.Holds.addIndex (h : Rdb.Holds rdb seen) (pIndex : ℕ) (hold : rdb.windowStart ≤ pIndex)
    (hroom : pIndex < 2 ^ 32) :
    Rdb.Holds (srtpRdbAddIndex rdb pIndex) (fun i => i = pIndex ∨ seen i) ∧
      (srtpRdbAddIndex rdb pIndex).windowStart = max rdb.windowStart (pIndex - (rdbBitsInBitmask - 1)) := by
  have hwords := h.words
  have hbits : rdbBitsInBitmask = 128 := rfl
  rw [srtpRdbAddIndex, if_neg (by omega)]
  by_cases hin : pIndex - rdb.windowStart < rdbBitsInBitmask
  · rw [if_pos hin]
    have hmark := h.tracks.mark hin (getBit (setBit rdb.bitmask (pIndex - rdb.windowStart))) fun j hj => by
      rw [getBit_setBit (by omega), Bool.or_eq_true, decide_eq_true_iff]
    rw [show (rdb.windowStart : ℤ) + (pIndex - rdb.windowStart : ℕ) = pIndex by omega] at hmark
    refine ⟨⟨?_, hmark⟩, by dsimp only; omega⟩
    show (setBit rdb.bitmask (pIndex - rdb.windowStart)).length = 4
    rw [setBit, List.length_set, hwords]
  · rw [if_neg hin]
    dsimp only
    obtain ⟨hlength, hshift⟩ := v128LeftShift_spec hwords (pIndex - rdb.windowStart - (rdbBitsInBitmask - 1))
    have hslide := h.tracks.slide (pIndex - rdb.windowStart - (rdbBitsInBitmask - 1))
      (getBit (v128LeftShift rdb.bitmask (pIndex - rdb.windowStart - (rdbBitsInBitmask - 1)))) fun j hj => by
        rw [hshift j hj, Bool.and_eq_true, decide_eq_true_iff]
    have hmark := hslide.mark (k := rdbBitsInBitmask - 1) (by omega) (getBit (setBit
      (v128LeftShift rdb.bitmask (pIndex - rdb.windowStart - (rdbBitsInBitmask - 1))) (rdbBitsInBitmask - 1))) fun j hj => by
        rw [getBit_setBit (by omega), Bool.or_eq_true, decide_eq_true_iff]
    have hstart : (rdb.windowStart + (pIndex - rdb.windowStart - (rdbBitsInBitmask - 1))) % 2 ^ 32 =
        pIndex - (rdbBitsInBitmask - 1) := by
      rw [Nat.mod_eq_of_lt] <;> omega
    rw [hstart]
    refine ⟨⟨?_, ?_⟩, by omega⟩
    · dsimp only
      rw [setBit, List.length_set, hlength]
    · dsimp only
      rw [show (rdb.windowStart : ℤ) + (pIndex - rdb.windowStart - (rdbBitsInBitmask - 1) : ℕ) +
        (rdbBitsInBitmask - 1 : ℕ) = pIndex by omega, show (rdb.windowStart : ℤ) +
        (pIndex - rdb.windowStart - (rdbBitsInBitmask - 1) : ℕ) = (pIndex - (rdbBitsInBitmask - 1) : ℕ) by omega] at hmark
      exact hmark

end IotcRa8p1.Media.Rdbx
