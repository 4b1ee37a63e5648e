import IotcRa8p1.Lib.ByteMem
import IotcRa8p1.Lib.CString

/-!
# The IOTV envelope (`model_store.h`, `model_store.c`)

A model travels as a 32-byte header (magic, format version, model version, payload length, CRC-32,
display name) and the raw flatbuffer behind it.  `iotvValidate` is the check every receiver of a blob
makes, `iotvWrapInPlace` writes a header in front of a payload that already stands at offset 32.

`IotvValid` is what the check establishes, clause by clause.  The payload magic is compared at payload
bytes 4..7 whatever the payload length is: below eight bytes of payload the comparison reads past the
blob, and `IotvValid.congr` needs eight bytes to carry validity to another buffer.
-/

namespace IotcRa8p1.ModelStore

open ByteMem CString

/-- `IOTV_MAGIC`, the bytes of "IOTV". -/
abbrev iotvMagic : List UInt8 := [0x49, 0x4F, 0x54, 0x56]

/-- The flatbuffer identifier, the bytes of "TFL3". -/
abbrev tfl3 : List UInt8 := [0x54, 0x46, 0x4C, 0x33]

abbrev iotvFmtVer : ℕ := 1

abbrev iotvHdrLen : ℕ := 32

/-- Ceiling for one enveloped model, header included. -/
abbrev modelMaxBlob : ℕ := 4 * 1024 * 1024

/-- One bit of the reflected CRC: `(crc >> 1) ^ (poly & -(crc & 1))`. -/
def crcBit (crc : UInt32) : UInt32 := (crc >>> 1) ^^^ (0xEDB88320 &&& -(crc &&& 1))

/-- One byte of the CRC: eight bits. -/
def crcByte (crc : UInt32) (b : UInt8) : UInt32 := crcBit^[8] (crc ^^^ b.toUInt32)

/-- `iotv_crc32`. -/
def iotvCrc32 (data : List UInt8) : UInt32 := ~~~ data.foldl crcByte 0xFFFFFFFF

/-- `struct iotv_hdr`. -/
structure IotvHdr where
  magic : List UInt8
  fmtVer : ℕ
  modelVer : ℕ
  modelLen : ℕ
  crc : ℕ
  name : List UInt8
  deriving DecidableEq, Repr

/-- `(const struct iotv_hdr *) buf`: the packed little-endian fields. -/
def iotvHdr (buf : Mem) : IotvHdr where
  magic := slice buf 0 4
  fmtVer := leNat (slice buf 4 2)
  modelVer := leNat (slice buf 6 2)
  modelLen := leNat (slice buf 8 4)
  crc := leNat (slice buf 12 4)
  name := slice buf 16 16

/-- The payload bytes of the blob at `buf`, by the length in its header. -/
def payload (buf : Mem) : List UInt8 := slice buf iotvHdrLen (iotvHdr buf).modelLen

/-- `iotv_validate`: `none` for a well-formed blob, else the reason. -/
def iotvValidate (buf : Mem) (len : ℕ) : Option String :=
  let h := iotvHdr buf
  if len < iotvHdrLen then some "short blob"
  else if h.magic ≠ iotvMagic then some "bad magic"
  else if iotvFmtVer ≠ h.fmtVer then some "format version"
  else if modelMaxBlob - iotvHdrLen < h.modelLen ∨ len < h.modelLen + iotvHdrLen then some "length"
  else if slice buf (iotvHdrLen + 4) 4 ≠ tfl3 then some "not a tflite flatbuffer"
  else if (iotvCrc32 (payload buf)).toNat ≠ h.crc then some "crc mismatch"
  else none

/-- `iotv_wrap_in_place`: the stores in the order of the code.  The CRC is taken over the payload,
which no store touches. -/
def iotvWrapInPlace (buf : Mem) (payloadLen modelVer : ℕ) (name : List UInt8) : Mem :=
  let crc := iotvCrc32 (slice buf iotvHdrLen payloadLen)
  let b := store buf 0 iotvMagic
  let b := store b 4 (leBytes 2 iotvFmtVer)
  let b := store b 6 (leBytes 2 modelVer)
  let b := store b 8 (leBytes 4 payloadLen)
  let b := store b 12 (leBytes 4 crc.toNat)
  let b := memset b 16 0 16
  store b 16 (strncpy (slice b 16 16) name 15)

/-- A 40-byte blob, the identifier at offset 36, whose header claims `n` payload bytes. -/
def sampleBlob (n : ℕ) (name : List UInt8) : Mem :=
  iotvWrapInPlace (ofList (List.replicate 36 0 ++ tfl3)) n 1 name

/-! ### What validation establishes -/

/-- The clauses of `iotv_validate` in the order it checks them. -/
structure IotvValid (buf : Mem) (len : ℕ) : Prop where
  hdr : 32 ≤ len
  magic : (iotvHdr buf).magic = iotvMagic
  fmtVer : (iotvHdr buf).fmtVer = iotvFmtVer
  maxLen : (iotvHdr buf).modelLen ≤ 4194304 - 32
  fits : (iotvHdr buf).modelLen + 32 ≤ len
  tfl3 : slice buf 36 4 = tfl3
  crc : (iotvCrc32 (payload buf)).toNat = (iotvHdr buf).crc

theorem iotvValidate_eq_none_iff (buf : Mem) (len : ℕ) :
    iotvValidate buf len = none ↔ IotvValid buf len := by
  simp only [iotvValidate, iotvHdrLen, modelMaxBlob]
  constructor
  · intro h
    split_ifs at h with h1 h2 h3 h4 h5 h6
    exact ⟨by omega, not_not.mp h2, (not_not.mp h3).symm, by omega, by omega, not_not.mp h5,
      not_not.mp h6⟩
  · rintro ⟨h1, h2, h3, h4, h5, h6, h7⟩
    rw [if_neg (by omega), if_neg (not_not.mpr h2), if_neg (not_not.mpr h3.symm), if_neg (by omega),
      if_neg (not_not.mpr h6), if_neg (not_not.mpr h7)]

/-- The header is a function of the first 32 bytes. -/
theorem iotvHdr_congr {buf buf' : Mem} (h : AgreeOn buf buf' 0 32) :
    iotvHdr buf = iotvHdr buf' := by
  simp only [iotvHdr, h.slice (show 0 ≤ 0 by omega) (show 0 + 4 ≤ 0 + 32 by omega),
    h.slice (show 0 ≤ 4 by omega) (show 4 + 2 ≤ 0 + 32 by omega),
    h.slice (show 0 ≤ 6 by omega) (show 6 + 2 ≤ 0 + 32 by omega),
    h.slice (show 0 ≤ 8 by omega) (show 8 + 4 ≤ 0 + 32 by omega),
    h.slice (show 0 ≤ 12 by omega) (show 12 + 4 ≤ 0 + 32 by omega),
    h.slice (show 0 ≤ 16 by omega) (show 16 + 16 ≤ 0 + 32 by omega)]

theorem payload_congr {buf buf' : Mem}
    (h : AgreeOn buf buf' 0 (32 + (iotvHdr buf).modelLen)) : payload buf = payload buf' := by
  have hh := iotvHdr_congr (h.mono le_rfl (by omega))
  rw [payload, payload, ← hh, iotvHdrLen]
  exact h.slice (by omega) (by omega)

/-- A valid blob with at least eight payload bytes is valid wherever its bytes stand, at its own
length. -/
theorem IotvValid.congr {buf buf' : Mem} {len : ℕ} (hv : IotvValid buf len)
    (h8 : 8 ≤ (iotvHdr buf).modelLen)
    (h : AgreeOn buf buf' 0 (32 + (iotvHdr buf).modelLen)) :
    IotvValid buf' (32 + (iotvHdr buf).modelLen) := by
  have hh := iotvHdr_congr (h.mono le_rfl (by omega))
  have hp := payload_congr h
  refine ⟨by omega, hh ▸ hv.magic, hh ▸ hv.fmtVer, hh ▸ hv.maxLen, by rw [← hh]; omega, ?_, ?_⟩
  · rw [← h.slice (by omega) (by omega)]
    exact hv.tfl3
  · rw [← hp, ← hh]
    exact hv.crc

/-- The header fields of a buffer whose first 32 bytes are known field by field. -/
theorem iotvHdr_of_fields {buf : Mem} {magic name : List UInt8} {fmtVer modelVer modelLen crc : ℕ}
    (hmagic : magic.length = 4) (hname : name.length = 16)
    (h : slice buf 0 32 = magic ++ leBytes 2 fmtVer ++ leBytes 2 modelVer ++
      leBytes 4 modelLen ++ leBytes 4 crc ++ name) :
    iotvHdr buf = ⟨magic, fmtVer % 2 ^ 16, modelVer % 2 ^ 16, modelLen % 2 ^ 32, crc % 2 ^ 32,
      name⟩ := by
  have e1 := @slice_of_append buf 0 32 [] magic _
    (by simpa only [List.append_assoc, List.nil_append] using h) 0 4 (by simp) hmagic.symm
  have e2 := @slice_of_append buf 0 32 magic (leBytes 2 fmtVer) _
    (by simpa only [List.append_assoc] using h) 4 2 (by simp [hmagic]) (by simp)
  have e3 := @slice_of_append buf 0 32 (magic ++ leBytes 2 fmtVer)
    (leBytes 2 modelVer) _ (by simpa only [List.append_assoc] using h) 6 2 (by simp [hmagic])
    (by simp)
  have e4 := @slice_of_append buf 0 32
    (magic ++ leBytes 2 fmtVer ++ leBytes 2 modelVer) (leBytes 4 modelLen) _
    (by simpa only [List.append_assoc] using h) 8 4 (by simp [hmagic]) (by simp)
  have e5 := @slice_of_append buf 0 32
    (magic ++ leBytes 2 fmtVer ++ leBytes 2 modelVer ++ leBytes 4 modelLen) (leBytes 4 crc) _
    (by simpa only [List.append_assoc] using h) 12 4 (by simp [hmagic]) (by simp)
  have e6 := @slice_of_append buf 0 32
    (magic ++ leBytes 2 fmtVer ++ leBytes 2 modelVer ++ leBytes 4 modelLen ++ leBytes 4 crc) name []
    (by simpa only [List.append_assoc, List.append_nil] using h) 16 16 (by simp [hmagic]) hname.symm
  simp only [iotvHdr, e1, e2, e3, e4, e5, e6, leNat_leBytes]
  norm_num

end IotcRa8p1.ModelStore
