import IotcRa8p1.ModelStore.Envelope
import IotcRa8p1.Lib.Crc
import IotcRa8p1.Lib.Reading

/-!
# What `iotv_validate` reads and accepts (`model_store.c`)

The flatbuffer identifier is compared at payload bytes 4..7 once the payload length fits into the blob and
into `MODEL_MAX_BLOB`; that the payload has eight bytes is not tested.

`iotvValidateReads` is `iotv_validate` access by access.  `memcmp` is given arrays of as many bytes as it
compares, so it counts as a read of all of them.  The CRC is specified as a remainder of polynomials.
-/

namespace IotcRa8p1.ModelStore

open ByteMem Polynomial

/-! ### The CRC -/

/-- The generator of CRC-32. -/
noncomputable def crc32Poly : (ZMod 2)[X] :=
  X ^ 32 + X ^ 26 + X ^ 23 + X ^ 22 + X ^ 16 + X ^ 12 + X ^ 11 + X ^ 10 + X ^ 8 + X ^ 7 + X ^ 5 +
    X ^ 4 + X ^ 2 + X + 1

/-- CRC-32 as zlib defines it: the complement is the remainder of the message, shifted by 32 bits and with 32
ones added in front, the low bit of a byte and of the CRC for the highest power. -/
def IsCrc32 (data : List UInt8) (crc : UInt32) : Prop :=
  Crc.toPoly (~~~crc).toBitVec =
    (X ^ (8 * data.length) * Crc.toPoly (BitVec.allOnes 32) +
      X ^ 32 * Crc.message (data.map UInt8.toBitVec)) %ₘ crc32Poly

theorem generator_crc32 : Crc.generator 0xEDB88320#32 = crc32Poly := by
  simp [Crc.generator, Crc.toPoly, Finset.sum_range_succ, Crc.bit, crc32Poly]
  ring

theorem crcBit_toBitVec (crc : UInt32) :
    (crcBit crc).toBitVec = Crc.shift 0xEDB88320#32 crc.toBitVec := by
  have hmask : 0xEDB88320#32 &&& -(crc.toBitVec &&& 1#32) =
      if crc.toBitVec.getLsbD 0 = true then 0xEDB88320#32 else 0#32 := by
    rw [BitVec.and_one_eq_setWidth_ofBool_getLsbD]
    cases crc.toBitVec.getLsbD 0 <;> decide
  rw [Crc.shift, ← hmask]
  rfl

theorem crcByte_toBitVec (crc : UInt32) (b : UInt8) :
    (crcByte crc b).toBitVec = Crc.feed 0xEDB88320#32 crc.toBitVec b.toBitVec := by
  have hsemi : Function.Semiconj UInt32.toBitVec crcBit (Crc.shift 0xEDB88320#32) := crcBit_toBitVec
  exact (hsemi.iterate_right 8) (crc ^^^ b.toUInt32)

theorem foldl_crcByte_toBitVec (data : List UInt8) (crc : UInt32) :
    (data.foldl crcByte crc).toBitVec =
      (data.map UInt8.toBitVec).foldl (Crc.feed 0xEDB88320#32) crc.toBitVec := by
  induction data generalizing crc with
  | nil => rfl
  | cons b data ih =>
    rw [List.foldl_cons, ih, crcByte_toBitVec]
    rfl

/-- **The loop** of `iotv_crc32` computes the CRC. -/
theorem iotvCrc32_isCrc32 (data : List UInt8) : IsCrc32 data (iotvCrc32 data) := by
  have hreg := Crc.register_eq_mod (by decide) (by decide) 0xEDB88320#32 (BitVec.allOnes 32)
    (data.map UInt8.toBitVec)
  rw [generator_crc32, List.length_map] at hreg
  rw [IsCrc32, ← hreg, iotvCrc32, UInt32.not_not, foldl_crcByte_toBitVec]
  rfl

/-- The check value of CRC-32, that of "123456789". -/
example : iotvCrc32 [0x31, 0x32, 0x33, 0x34, 0x35, 0x36, 0x37, 0x38, 0x39] = 0xCBF43926 := by
  decide +kernel

/-- There is only one. -/
theorem IsCrc32.unique {data : List UInt8} {crc : UInt32} (h : IsCrc32 data crc) :
    crc = iotvCrc32 data := by
  have hbits : (~~~crc).toBitVec = (~~~iotvCrc32 data).toBitVec :=
    Crc.toPoly_inj (h.trans (iotvCrc32_isCrc32 data).symm)
  calc
    crc = ~~~(~~~crc) := UInt32.not_not.symm
    _ = ~~~(~~~iotvCrc32 data) := by rw [UInt32.toBitVec_inj.mp hbits]
    _ = iotvCrc32 data := UInt32.not_not

/-! ### The accesses -/

/-- `iotv_crc32` over the `n` bytes from `off` on. -/
def iotvCrc32Reads (off n : ℕ) : Reading UInt32 := do
  let crc ← Reading.scan crcByte off n 0xFFFFFFFF
  pure (~~~crc)

/-- `iotv_validate`, access by access. -/
def iotvValidateReads (len : ℕ) : Reading (Option String) :=
  if len < iotvHdrLen then pure (some "short blob")
  else do
    let magic ← Reading.fetch 0 4
    if magic ≠ iotvMagic then pure (some "bad magic")
    else do
      let fmtVer ← Reading.fetch 4 2
      if iotvFmtVer ≠ leNat fmtVer then pure (some "format version")
      else do
        let modelLen ← Reading.fetch 8 4
        if modelMaxBlob - iotvHdrLen < leNat modelLen ∨ len < leNat modelLen + iotvHdrLen then
          pure (some "length")
        else do
          let identifier ← Reading.fetch (iotvHdrLen + 4) 4
          if identifier ≠ tfl3 then pure (some "not a tflite flatbuffer")
          else do
            let crc ← iotvCrc32Reads iotvHdrLen (leNat modelLen)
            let hdrCrc ← Reading.fetch 12 4
            if crc.toNat ≠ leNat hdrCrc then pure (some "crc mismatch")
            else pure none

theorem value_iotvCrc32Reads (off n : ℕ) (buf : Mem) :
    (iotvCrc32Reads off n).value buf = iotvCrc32 (slice buf off n) := by
  rw [iotvCrc32Reads, Reading.value_bind, Reading.value_scan]
  rfl

theorem reads_iotvCrc32Reads (off n : ℕ) (buf : Mem) :
    (iotvCrc32Reads off n).reads buf = List.range' off n := by
  rw [iotvCrc32Reads, Reading.reads_bind, Reading.reads_scan, Reading.reads_pure, List.append_nil]

/-- It returns what `iotvValidate` returns. -/
theorem value_iotvValidateReads (len : ℕ) (buf : Mem) :
    (iotvValidateReads len).value buf = iotvValidate buf len := by
  simp only [iotvValidateReads, Reading.value_ite, Reading.value_pure, Reading.value_bind]
  simp only [value_iotvCrc32Reads]
  rfl

/-- The header is right and the payload length fits. -/
structure HeaderFits (buf : Mem) (len : ℕ) : Prop where
  hdr : 32 ≤ len
  magic : (iotvHdr buf).magic = iotvMagic
  fmtVer : (iotvHdr buf).fmtVer = iotvFmtVer
  fits : (iotvHdr buf).modelLen ≤ min len modelMaxBlob - 32

/-- The offsets of one access after the other. -/
theorem forall_mem_range_append {off n : ℕ} {rest : List ℕ} {p : ℕ → Prop} :
    (∀ i ∈ List.range' off n ++ rest, p i) ↔
      (∀ i, off ≤ i → i < off + n → p i) ∧ ∀ i ∈ rest, p i := by
  simp only [List.mem_append, List.mem_range'_1]
  constructor
  · exact fun h => ⟨fun i h1 h2 => h i (Or.inl ⟨h1, h2⟩), fun i hi => h i (Or.inr hi)⟩
  · exact fun h i hi => hi.elim (fun hrange => h.1 i hrange.1 hrange.2) (h.2 i)

theorem reads_below {off n len : ℕ} : (∀ i, off ≤ i → i < off + n → i < len) ↔ n = 0 ∨ off + n ≤ len := by
  constructor
  · intro h
    by_contra hnot
    have hlast := h (off + n - 1) (by omega) (by omega)
    omega
  · intro h i h1 h2
    omega

theorem headerFits_iff {buf : Mem} {len : ℕ} (hdr : 32 ≤ len) :
    (iotvHdr buf).modelLen ≤ min len modelMaxBlob - 32 ↔
      ¬ (modelMaxBlob - iotvHdrLen < (iotvHdr buf).modelLen ∨
        len < (iotvHdr buf).modelLen + iotvHdrLen) := by
  have hmax : modelMaxBlob = 4194304 := rfl
  have hlen : iotvHdrLen = 32 := rfl
  omega

/-- **The reads** stay inside the blob, but for those of the identifier. -/
theorem reads_iotvValidateReads (len : ℕ) (buf : Mem) :
    (∀ off ∈ (iotvValidateReads len).reads buf, off < len) ↔ (HeaderFits buf len → 40 ≤ len) := by
  have hmodelLen : leNat ((Reading.fetch 8 4).value buf) = (iotvHdr buf).modelLen := rfl
  have hhdrLen : iotvHdrLen = 32 := rfl
  simp only [iotvValidateReads, Reading.reads_ite, Reading.reads_pure, Reading.reads_bind]
  simp only [hmodelLen]
  split_ifs with h1 h2 h3 h4 h5 h6 <;>
    simp only [Reading.reads_fetch, reads_iotvCrc32Reads, forall_mem_range_append, reads_below,
      List.not_mem_nil, false_implies, implies_true, and_true]
  · exact iff_of_true trivial fun h => absurd h.hdr (by omega)
  · exact iff_of_true (by omega) fun h => absurd h.magic h2
  · exact iff_of_true (by omega) fun h => absurd h.fmtVer.symm h3
  · exact iff_of_true (by omega) fun h => absurd h4 ((headerFits_iff h.hdr).mp h.fits)
  all_goals
    have hfits : HeaderFits buf len :=
      ⟨by omega, not_not.mp h2, (not_not.mp h3).symm, (headerFits_iff (by omega)).mpr h4⟩
    constructor
    · intro h _
      omega
    · intro h
      have hlen := h hfits
      omega

/-! ### What is accepted -/

/-- The header has the CRC of the payload. -/
def CrcMatches (buf : Mem) : Prop :=
  ∃ crc, IsCrc32 (payload buf) crc ∧ crc.toNat = (iotvHdr buf).crc

/-- The well-formed blobs. -/
structure WellFormed (buf : Mem) (len : ℕ) : Prop extends HeaderFits buf len where
  least : 8 ≤ (iotvHdr buf).modelLen
  tfl3 : ((payload buf).drop 4).take 4 = tfl3
  crc : CrcMatches buf

/-- No access outside the blob, the well-formed blobs are accepted, and the loop computes the CRC. -/
structure Exact (buf : Mem) (len : ℕ) : Prop where
  inside : ∀ off ∈ (iotvValidateReads len).reads buf, off < len
  accepts : (iotvValidateReads len).value buf = none ↔ WellFormed buf len
  loop : ∀ data, IsCrc32 data (iotvCrc32 data)

/-- A blob with a right header and a payload that fits has 40 bytes, and one with less than eight payload
bytes does not have the identifier at offset 36 and the right CRC. -/
def Probed (buf : Mem) (len : ℕ) : Prop :=
  HeaderFits buf len → 40 ≤ len ∧ ((iotvHdr buf).modelLen < 8 →
    ¬ (slice buf 36 4 = tfl3 ∧ CrcMatches buf))

theorem crcMatches_iff (buf : Mem) :
    CrcMatches buf ↔ (iotvCrc32 (payload buf)).toNat = (iotvHdr buf).crc := by
  constructor
  · intro h
    obtain ⟨crc, hcrc, heq⟩ := h
    rw [← hcrc.unique]
    exact heq
  · exact fun h => ⟨_, iotvCrc32_isCrc32 _, h⟩

/-- With eight payload bytes the identifier is one of the payload. -/
theorem payload_identifier {buf : Mem} (h : 8 ≤ (iotvHdr buf).modelLen) :
    ((payload buf).drop 4).take 4 = slice buf 36 4 := by
  obtain ⟨k, hk⟩ := Nat.exists_eq_add_of_le h
  rw [payload, iotvHdrLen, hk, show 8 + k = 4 + (4 + k) by omega, slice_add, slice_add,
    List.drop_left' (slice_length _ _ _), List.take_left' (slice_length _ _ _)]

/-- What the code accepts. -/
theorem iotvValid_iff (buf : Mem) (len : ℕ) :
    IotvValid buf len ↔ HeaderFits buf len ∧ slice buf 36 4 = tfl3 ∧ CrcMatches buf := by
  rw [crcMatches_iff]
  have hmax : modelMaxBlob = 4194304 := rfl
  constructor
  · intro h
    have hmaxLen := h.maxLen
    have hfits := h.fits
    exact ⟨⟨h.hdr, h.magic, h.fmtVer, by omega⟩, h.tfl3, h.crc⟩
  · intro h
    obtain ⟨hheader, htfl3, hcrc⟩ := h
    have hhdr := hheader.hdr
    have hfits := hheader.fits
    exact ⟨hhdr, hheader.magic, hheader.fmtVer, by omega, by omega, htfl3, hcrc⟩

theorem wellFormed_iff (buf : Mem) (len : ℕ) :
    WellFormed buf len ↔ IotvValid buf len ∧ 8 ≤ (iotvHdr buf).modelLen := by
  rw [iotvValid_iff]
  constructor
  · intro h
    exact ⟨⟨h.toHeaderFits, payload_identifier h.least ▸ h.tfl3, h.crc⟩, h.least⟩
  · intro h
    obtain ⟨⟨hheader, htfl3, hcrc⟩, hleast⟩ := h
    exact ⟨hheader, hleast, (payload_identifier hleast).trans htfl3, hcrc⟩

/-- **What `iotv_validate` reads and accepts.** -/
theorem iotvValidate_exact_iff (buf : Mem) (len : ℕ) : Exact buf len ↔ Probed buf len := by
  have haccepts : ((iotvValidateReads len).value buf = none ↔ WellFormed buf len) ↔
      (IotvValid buf len → 8 ≤ (iotvHdr buf).modelLen) := by
    rw [value_iotvValidateReads, iotvValidate_eq_none_iff, wellFormed_iff]
    exact ⟨fun h hv => (h.mp hv).2, fun h => ⟨fun hv => ⟨hv, h hv⟩, And.left⟩⟩
  rw [iotvValid_iff] at haccepts
  constructor
  · intro h hheader
    refine ⟨(reads_iotvValidateReads len buf).mp h.inside hheader, fun hsmall htests => ?_⟩
    have hleast := haccepts.mp h.accepts ⟨hheader, htests⟩
    omega
  · intro h
    constructor
    · exact (reads_iotvValidateReads len buf).mpr fun hheader => (h hheader).1
    · refine haccepts.mpr fun hvalid => ?_
      by_contra hsmall
      exact (h hvalid.1).2 (by omega) hvalid.2
    · exact iotvCrc32_isCrc32

/-- A header alone, for a payload of no bytes: the identifier is looked for behind it. -/
theorem iotvValidate_readsPast : ¬ ∀ buf len, Exact buf len := by
  intro h
  have hread : 36 ∈ (iotvValidateReads 32).reads (sampleBlob 0 []) := by decide +kernel
  exact absurd ((h (sampleBlob 0 []) 32).inside 36 hread) (by decide)

end IotcRa8p1.ModelStore
