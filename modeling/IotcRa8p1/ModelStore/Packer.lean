import IotcRa8p1.App.ModelPush
import IotcRa8p1.ModelStore.Envelope

/-!
# The packer against the firmware (`tools/pack_model.py`)

`pack_model.py` builds the envelope in Python, with its own constants for the size limit, the name
field and the header layout, and writes it plain and as a zip.  `packMain` is its `main` from the
parsed arguments on, with Python's `zipfile` as a parameter.

The two sides agree on the layout and on the CRC.  They do not agree on the size: the packer's
`MODEL_MAX` is 8 MiB less the header, while the firmware's `MODEL_MAX_BLOB` is 4 MiB, and so is the buffer
that a file, also a zip, is downloaded into.  And they agree on the name only where it is ASCII: the packer
replaces every other character, the firmware copies the bytes it is given.
-/

namespace IotcRa8p1.ModelStore

open ByteMem CString App

/-- `MODEL_MAX` of the packer. -/
abbrev packModelMax : ℕ := 8 * 1024 * 1024 - 32

/-- One character of `name.encode("ascii", errors="replace")`. -/
def asciiReplace (c : Char) : UInt8 := if c.toNat < 128 then UInt8.ofNat c.toNat else 0x3F

/-- `name.encode(..)[:15].ljust(16, b"\0")`. -/
def packName (name : List Char) : List UInt8 :=
  let nameB := (name.map asciiReplace).take 15
  nameB ++ List.replicate (16 - nameB.length) 0

/-- `struct.pack("<4sHHII16s", ...)` on the values of `build_iotv`. -/
def packHdr (modelVer : ℕ) (nameB payload : List UInt8) : List UInt8 :=
  iotvMagic ++ leBytes 2 1 ++ leBytes 2 modelVer ++ leBytes 4 payload.length ++
    leBytes 4 (iotvCrc32 payload).toNat ++ nameB

/-- `build_iotv`. -/
def buildIotv (payload : List UInt8) (modelVer : ℕ) (name : List Char) :
    Except String (List UInt8) :=
  if packModelMax < payload.length then
    .error s!"error: model is {payload.length} B; firmware cap is {packModelMax} B"
  else if (payload.drop 4).take 4 ≠ tfl3 then
    .error "error: input is not a .tflite flatbuffer (no TFL3 magic)"
  else .ok (packHdr modelVer (packName name) payload ++ payload)

/-- The two files the packer writes. -/
structure PackOutput where
  iotv : List UInt8
  zip : List UInt8
  deriving Repr

/-- `main` on parsed arguments.  `zipfile` writes an archive of one entry, by entry name and data; a
path with a NUL in it is refused by Python. -/
def packMain (zipfile : List Char → List UInt8 → Except String (List UInt8))
    (payload : List UInt8) (version : ℤ) (name : List Char) : Except String PackOutput := do
  if ¬ (1 ≤ version ∧ version ≤ 0xFFFF) then .error "error: --version must be 1..65535"
  else
    let blob ← buildIotv payload version.toNat name
    let stem := name ++ ['_', 'v'] ++ Nat.toDigits 10 version.toNat
    if '\x00' ∈ stem then .error "embedded null byte"
    else
      let zip ← zipfile (stem ++ ['.', 'i', 'o', 't', 'v']) blob
      .ok ⟨blob, zip⟩

/-- What Python's `zipfile` writes for one STORED entry: the local header with the sizes filled in, the
data, the central directory and its end record.  An entry name that does not fit its length field is
refused. -/
def zipStored (entry : List Char) (data : List UInt8) : Except String (List UInt8) :=
  let name := entry.flatMap String.utf8EncodeChar
  let flagBits := if entry.all (·.toNat < 128) then 0 else 0x800
  let crc := leBytes 4 (iotvCrc32 data).toNat
  let size := leBytes 4 data.length
  if 0xFFFF < name.length then .error "ushort format requires 0 <= number <= 65535"
  else
    let central := [0x50, 0x4B, 0x01, 0x02, 20, 3, 20, 0] ++ leBytes 2 flagBits ++ leBytes 2 0 ++
      [0, 0, 0x21, 0] ++ crc ++ size ++ size ++ leBytes 2 name.length ++ leBytes 2 0 ++ leBytes 2 0 ++
      leBytes 2 0 ++ leBytes 2 0 ++ leBytes 4 0x01800000 ++ leBytes 4 0 ++ name
    let trailer := [0x50, 0x4B, 0x05, 0x06] ++ leBytes 2 0 ++ leBytes 2 0 ++ leBytes 2 1 ++
      leBytes 2 1 ++ leBytes 4 central.length ++ leBytes 4 (30 + name.length + data.length) ++
      leBytes 2 0
    .ok (zipLocalMagic ++ ([20, 0] ++ leBytes 2 flagBits) ++ leBytes 2 0 ++
      ([0, 0, 0x21, 0] ++ crc) ++ size ++ size ++ leBytes 2 name.length ++ leBytes 2 0 ++ name ++ [] ++
      data ++ (central ++ trailer))

/-- The entry that `main` writes. -/
def entryName (version : ℤ) (name : List Char) : List Char :=
  name ++ ['_', 'v'] ++ Nat.toDigits 10 version.toNat ++ ['.', 'i', 'o', 't', 'v']

/-- What an archive of one entry without extra fields and comments holds besides the data: the local header,
the central directory and its end record. -/
def zipOverhead (entry : List Char) : ℕ :=
  let nlen := (entry.flatMap String.utf8EncodeChar).length
  (30 + nlen) + (46 + nlen) + 22

/-- What the firmware reads out of a file that was downloaded into `s_model_pending`, which it has to fit. -/
structure Received (ram : Mem) (file payload : List UInt8) (version : ℤ) (name : List Char) :
    Prop where
  fits : file.length ≤ modelMaxBlob
  decoded : ∃ buf len, unwrapZip (store ram 0 file) file.length = .ok (buf, len) ∧
    iotvValidate buf len = none ∧ ((iotvHdr buf).modelVer : ℤ) = version ∧
    (iotvHdr buf).modelLen = payload.length ∧ ModelStore.payload buf = payload ∧
    (iotvHdr buf).name.map UInt8.toNat =
      (name.take 15).map Char.toNat ++ List.replicate (16 - (name.take 15).length) 0

/-- Both files are received as they were packed, whatever the buffer held before, and
`iotv_wrap_in_place` writes the same bytes around the same payload, given the name as a C string. -/
structure Agrees (out : PackOutput) (payload : List UInt8) (version : ℤ) (name : List Char) :
    Prop where
  iotv : ∀ ram, Received ram out.iotv payload version name
  zip : ∀ ram, Received ram out.zip payload version name
  wrap : ∀ ram, slice (iotvWrapInPlace (store ram 32 payload) payload.length version.toNat
    (name.flatMap String.utf8EncodeChar)) 0 (32 + payload.length) = out.iotv

/-! ### The name field -/

/-- A character survives the ASCII encoding exactly when it is ASCII. -/
theorem asciiReplace_toNat_eq_iff (c : Char) : (asciiReplace c).toNat = c.toNat ↔ c.toNat < 128 := by
  by_cases h : c.toNat < 128
  · simp [asciiReplace, h, Nat.mod_eq_of_lt (show c.toNat < 256 by omega)]
  · rw [asciiReplace, if_neg h]
    refine iff_of_false (fun he => h ?_) h
    rw [← he]
    decide

theorem packName_length (name : List Char) : (packName name).length = 16 := by
  simp [packName]

/-- The packed name reads as the first fifteen characters exactly when these are ASCII. -/
theorem packName_toNat_iff (name : List Char) :
    (packName name).map UInt8.toNat = (name.take 15).map Char.toNat ++
        List.replicate (16 - (name.take 15).length) 0 ↔ ∀ c ∈ name.take 15, c.toNat < 128 := by
  have hlen : ((name.map asciiReplace).take 15).length = (name.take 15).length := by simp
  have hzero : (List.replicate (16 - (name.take 15).length) (0 : UInt8)).map UInt8.toNat =
      List.replicate (16 - (name.take 15).length) 0 := by simp
  rw [packName, hlen, List.map_append, hzero, List.append_cancel_right_eq, ← List.map_take,
    List.map_map, List.map_inj_left]
  exact forall₂_congr fun c _ => asciiReplace_toNat_eq_iff c

/-- The UTF-8 form of an ASCII string is its bytes. -/
theorem flatMap_utf8_ascii {cs : List Char} (h : ∀ c ∈ cs, c.toNat < 128) :
    cs.flatMap String.utf8EncodeChar = cs.map asciiReplace := by
  induction cs with
  | nil => rfl
  | cons c cs ih =>
    have hc : c.toNat < 128 := h c List.mem_cons_self
    have hone : String.utf8EncodeChar c = [UInt8.ofNat c.toNat] := by
      simp [String.utf8EncodeChar, show c.toNat ≤ 127 by omega]
    rw [List.flatMap_cons, ih fun d hd => h d (List.mem_cons_of_mem _ hd), hone, List.map_cons,
      asciiReplace, if_pos hc]
    rfl

theorem asciiReplace_ne_zero {c : Char} (h : c ≠ '\x00') : asciiReplace c ≠ 0 := by
  by_cases hc : c.toNat < 128
  · intro h0
    have hnat : (asciiReplace c).toNat = 0 := by rw [h0]; rfl
    rw [(asciiReplace_toNat_eq_iff c).mpr hc] at hnat
    exact h (Char.toNat_inj.mp hnat)
  · rw [asciiReplace, if_neg hc]
    decide

/-- `strncpy` of a name into a cleared field gives the packer's field, when the first fifteen
characters are ASCII. -/
theorem strncpy_name {name : List Char} (hascii : ∀ c ∈ name.take 15, c.toNat < 128)
    (hnul : '\x00' ∉ name) :
    strncpy (List.replicate 16 0) (name.flatMap String.utf8EncodeChar) 15 = packName name := by
  have hsplit : name.flatMap String.utf8EncodeChar =
      (name.take 15).map asciiReplace ++ (name.drop 15).flatMap String.utf8EncodeChar := by
    rw [← flatMap_utf8_ascii hascii, ← List.flatMap_append, List.take_append_drop]
  have hpos : ∀ b ∈ (name.take 15).map asciiReplace, decide (b ≠ 0) = true := by
    intro b hb
    obtain ⟨c, hc, rfl⟩ := List.mem_map.mp hb
    have hne : c ≠ '\x00' := fun h => hnul (h ▸ List.mem_of_mem_take hc)
    exact decide_eq_true (asciiReplace_ne_zero hne)
  have hcstr : cstr (name.flatMap String.utf8EncodeChar) =
      (name.take 15).map asciiReplace ++ cstr ((name.drop 15).flatMap String.utf8EncodeChar) := by
    rw [hsplit, cstr, List.takeWhile_append_of_pos hpos, cstr]
  rw [strncpy, hcstr, packName, ← List.map_take]
  have hdrop : (List.replicate 16 (0 : UInt8)).drop 15 = List.replicate 1 0 := rfl
  rw [hdrop, List.append_assoc, List.replicate_append_replicate]
  rcases Nat.lt_or_ge name.length 15 with hlt | hge
  · -- a short name: the string ends in the field
    have hrest : cstr ((name.drop 15).flatMap String.utf8EncodeChar) = [] := by
      rw [List.drop_of_length_le (by omega)]
      rfl
    have hlen : ((name.take 15).map asciiReplace).length < 15 := by simp [hlt]
    rw [hrest, List.append_nil, List.take_of_length_le (by omega)]
    congr 2
    omega
  · -- a long name fills fifteen bytes
    have hlen : ((name.take 15).map asciiReplace).length = 15 := by simp [hge]
    rw [List.take_left' hlen, List.length_append, hlen]
    congr 2
    omega

/-! ### The image in a buffer -/

theorem packHdr_length {nameB : List UInt8} (hname : nameB.length = 16) (modelVer : ℕ)
    (payload : List UInt8) : (packHdr modelVer nameB payload).length = 32 := by
  simp [packHdr, hname]

section Image

variable {buf : Mem} {modelVer : ℕ} {nameB pl : List UInt8}

/-- The header of a buffer that holds a packed image. -/
theorem iotvHdr_image (hname : nameB.length = 16) (hver : modelVer < 2 ^ 16)
    (hlen : pl.length < 2 ^ 32)
    (h : slice buf 0 (32 + pl.length) = packHdr modelVer nameB pl ++ pl) :
    iotvHdr buf =
      ⟨iotvMagic, 1, modelVer, pl.length, (iotvCrc32 pl).toNat, nameB⟩ := by
  have hhdr : slice buf 0 32 = packHdr modelVer nameB pl :=
    slice_of_append [] _ pl h 0 32 rfl (packHdr_length hname _ _).symm
  have hcrc : (iotvCrc32 pl).toNat < 2 ^ 32 := UInt32.toNat_lt _
  rw [iotvHdr_of_fields rfl hname hhdr, Nat.mod_eq_of_lt hver, Nat.mod_eq_of_lt hlen,
    Nat.mod_eq_of_lt hcrc, Nat.mod_eq_of_lt (show 1 < 2 ^ 16 by decide)]

theorem payload_image (hname : nameB.length = 16) (hver : modelVer < 2 ^ 16)
    (hlen : pl.length < 2 ^ 32)
    (h : slice buf 0 (32 + pl.length) = packHdr modelVer nameB pl ++ pl) : payload buf = pl := by
  rw [payload, iotvHdr_image hname hver hlen h]
  exact slice_of_append (packHdr modelVer nameB pl) pl [] (by rw [List.append_nil]; exact h) _ _
    (by rw [packHdr_length hname]) rfl

/-- A packed image is valid exactly up to the firmware's size limit. -/
theorem iotvValidate_image (hname : nameB.length = 16) (hver : modelVer < 2 ^ 16)
    (hlen : pl.length < 2 ^ 32) (htfl3 : (pl.drop 4).take 4 = tfl3)
    (h : slice buf 0 (32 + pl.length) = packHdr modelVer nameB pl ++ pl) :
    iotvValidate buf (32 + pl.length) = none ↔ pl.length ≤ 4194304 - 32 := by
  have hh := iotvHdr_image hname hver hlen h
  rw [iotvValidate_eq_none_iff]
  constructor
  · intro hv
    have hmax := hv.maxLen
    rwa [hh] at hmax
  · intro hmax
    have hsplit : pl = pl.take 4 ++ tfl3 ++ (pl.drop 4).drop 4 := by
      rw [← htfl3, List.append_assoc, List.take_append_drop, List.take_append_drop]
    have hfour : (pl.take 4).length = 4 := by
      have hl := congrArg List.length htfl3
      simp at hl ⊢
      omega
    have hparts : slice buf 0 (32 + pl.length) =
        (packHdr modelVer nameB pl ++ pl.take 4) ++ tfl3 ++ (pl.drop 4).drop 4 := by
      rw [h, List.append_assoc, List.append_assoc, ← List.append_assoc _ tfl3, ← hsplit]
    have hmagic : slice buf 36 4 = tfl3 := slice_of_append _ _ _ hparts 36 4
      (by rw [List.length_append, packHdr_length hname, hfour]) rfl
    refine ⟨by omega, by rw [hh], by rw [hh], by rwa [hh], by simp only [hh]; omega, hmagic, ?_⟩
    rw [payload_image hname hver hlen h, hh]

end Image

/-- What `iotv_wrap_in_place` leaves, as a list: the packer's header, its name field filled by
`strncpy`, in front of the payload. -/
theorem slice_iotvWrapInPlace {buf : Mem} {payload : List UInt8} (modelVer : ℕ) (name : List UInt8)
    (hbuf : slice buf 32 payload.length = payload) :
    slice (iotvWrapInPlace buf payload.length modelVer name) 0 (32 + payload.length) =
      packHdr modelVer (strncpy (List.replicate 16 0) name 15) payload ++ payload := by
  have hname : (strncpy (List.replicate 16 0) name 15).length = 16 := by
    rw [strncpy_length _ _ _ (by simp)]
    simp
  simp only [iotvWrapInPlace, iotvHdrLen, hbuf, slice_memset]
  rw [slice_add, Nat.zero_add]
  congr 1
  · -- the stores stand one behind the other
    rw [slice_store_append _ 16 _ (by rw [hname]),
      slice_memset_disjoint _ _ _ _ _ _ (Or.inl (by omega)),
      slice_store_append _ 12 _ (by simp), slice_store_append _ 8 _ (by simp),
      slice_store_append _ 6 _ (by simp), slice_store_append _ 4 _ (by simp),
      show slice (store buf 0 iotvMagic) 0 4 = iotvMagic from slice_store buf 0 iotvMagic]
    rfl
  · -- none of them reaches the payload
    rw [slice_store_disjoint _ _ _ _ _ (Or.inr (by rw [hname])),
      slice_memset_disjoint _ _ _ _ _ _ (Or.inr (by omega))]
    repeat rw [slice_store_disjoint _ _ _ _ _ (Or.inr (by simp))]
    exact hbuf

/-! ### The packer's files on the device -/

/-- What a successful run of the packer has checked and written. -/
structure PackSuccess (zipfile : List Char → List UInt8 → Except String (List UInt8))
    (payload : List UInt8) (version : ℤ) (name : List Char) (out : PackOutput) : Prop where
  range : 1 ≤ version ∧ version ≤ 65535
  size : payload.length ≤ 8388608 - 32
  tfl3 : (payload.drop 4).take 4 = tfl3
  nul : '\x00' ∉ name
  iotv : out.iotv = packHdr version.toNat (packName name) payload ++ payload
  zip : zipfile (entryName version name) out.iotv = .ok out.zip

theorem packMain_eq_ok {zipfile : List Char → List UInt8 → Except String (List UInt8)}
    {payload : List UInt8} {version : ℤ} {name : List Char} {out : PackOutput}
    (h : packMain zipfile payload version name = .ok out) :
    PackSuccess zipfile payload version name out := by
  simp only [packMain, buildIotv, packModelMax] at h
  by_cases h1 : 1 ≤ version ∧ version ≤ 0xFFFF
  swap
  · rw [if_pos h1] at h
    contradiction
  by_cases h2 : 8 * 1024 * 1024 - 32 < payload.length
  · rw [if_neg (not_not.mpr h1), if_pos h2] at h
    contradiction
  by_cases h3 : (payload.drop 4).take 4 ≠ ModelStore.tfl3
  · rw [if_neg (not_not.mpr h1), if_neg h2, if_pos h3] at h
    contradiction
  rw [if_neg (not_not.mpr h1), if_neg h2, if_neg h3] at h
  simp only [bind, Except.bind] at h
  by_cases h4 : '\x00' ∈ name ++ ['_', 'v'] ++ Nat.toDigits 10 version.toNat
  · rw [if_pos h4] at h
    contradiction
  rw [if_neg h4] at h
  rw [← entryName] at h
  cases hz : zipfile (entryName version name) (packHdr version.toNat (packName name) payload ++ payload) with
  | error e =>
    rw [hz] at h
    contradiction
  | ok zip =>
    rw [hz] at h
    obtain rfl : (⟨_, zip⟩ : PackOutput) = out := Except.ok.inj h
    exact ⟨h1, by omega, not_not.mp h3, fun hn => h4 (by simp [hn]), rfl, hz⟩

/-- What `main` needs to succeed. -/
theorem packMain_of_zipfile {zipfile : List Char → List UInt8 → Except String (List UInt8)}
    {payload zip : List UInt8} {version : ℤ} {name : List Char}
    (hver : 1 ≤ version ∧ version ≤ 65535) (hsize : payload.length ≤ 8388608 - 32)
    (htfl3 : (payload.drop 4).take 4 = tfl3)
    (hnul : '\x00' ∉ name ++ ['_', 'v'] ++ Nat.toDigits 10 version.toNat)
    (hzip : zipfile (entryName version name)
      (packHdr version.toNat (packName name) payload ++ payload) = .ok zip) :
    packMain zipfile payload version name =
      .ok ⟨packHdr version.toNat (packName name) payload ++ payload, zip⟩ := by
  simp only [packMain, buildIotv, packModelMax]
  rw [if_neg (not_not.mpr hver), if_neg (by omega), if_neg (not_not.mpr htfl3)]
  simp only [bind, Except.bind]
  rw [if_neg hnul, ← entryName, hzip]

/-- A file that unwraps to a packed image is received as packed exactly when it fits the buffer, up to the
firmware's size limit and with an ASCII name. -/
theorem received_iff {ram buf : Mem} {file payload : List UInt8} {version : ℤ} {name : List Char}
    (hver : 1 ≤ version ∧ version ≤ 65535) (hsize : payload.length ≤ 8388608 - 32)
    (htfl3 : (payload.drop 4).take 4 = tfl3)
    (hunwrap : unwrapZip (store ram 0 file) file.length = .ok (buf, 32 + payload.length))
    (himage : slice buf 0 (32 + payload.length) =
      packHdr version.toNat (packName name) payload ++ payload) :
    Received ram file payload version name ↔ file.length ≤ modelMaxBlob ∧
      payload.length ≤ 4194304 - 32 ∧ ∀ c ∈ name.take 15, c.toNat < 128 := by
  have hver16 : version.toNat < 2 ^ 16 := by omega
  have hlen32 : payload.length < 2 ^ 32 := by omega
  have hh := iotvHdr_image (packName_length name) hver16 hlen32 himage
  have hvalid := iotvValidate_image (packName_length name) hver16 hlen32 htfl3 himage
  constructor
  · rintro ⟨hfits, buf', len', hun', hval, -, -, -, hname⟩
    obtain ⟨rfl, rfl⟩ : buf = buf' ∧ 32 + payload.length = len' :=
      Prod.mk.inj (Except.ok.inj (hunwrap.symm.trans hun'))
    rw [hh] at hname
    exact ⟨hfits, hvalid.mp hval, (packName_toNat_iff name).mp hname⟩
  · rintro ⟨hfits, hmax, hascii⟩
    refine ⟨hfits, buf, _, hunwrap, hvalid.mpr hmax, ?_, by rw [hh],
      payload_image (packName_length name) hver16 hlen32 himage, ?_⟩
    · rw [hh]
      exact Int.toNat_of_nonneg (by omega)
    · rw [hh]
      exact (packName_toNat_iff name).mpr hascii

theorem slice_store_image (ram : Mem) (modelVer : ℕ) {nameB : List UInt8} (payload : List UInt8)
    (hname : nameB.length = 16) :
    slice (store ram 0 (packHdr modelVer nameB payload ++ payload)) 0 (32 + payload.length) =
      packHdr modelVer nameB payload ++ payload := by
  have h := slice_store ram 0 (packHdr modelVer nameB payload ++ payload)
  rwa [List.length_append, packHdr_length hname] at h

/-- The plain file is taken as it is. -/
theorem unwrapZip_image (ram : Mem) (modelVer : ℕ) {nameB : List UInt8} (payload : List UInt8)
    (hname : nameB.length = 16) :
    unwrapZip (store ram 0 (packHdr modelVer nameB payload ++ payload))
        (packHdr modelVer nameB payload ++ payload).length =
      .ok (store ram 0 (packHdr modelVer nameB payload ++ payload), 32 + payload.length) := by
  have hlen : (packHdr modelVer nameB payload ++ payload).length = 32 + payload.length := by
    rw [List.length_append, packHdr_length hname]
  have hstore := slice_store ram 0 (packHdr modelVer nameB payload ++ payload)
  have hmagic := slice_of_append [] iotvMagic _
    (by simpa only [packHdr, List.append_assoc, List.nil_append] using hstore) 0 4 rfl rfl
  rw [← hlen]
  refine unwrapZip_of_magic _ ?_ (show iotvMagic ≠ zipLocalMagic by decide)
  simpa only [packHdr, List.append_assoc] using hmagic

/-- The zip is unwrapped to the plain file. -/
theorem unwrapZip_zip {zip : List UInt8} (ram : Mem) (modelVer : ℕ) {nameB payload : List UInt8}
    (hname : nameB.length = 16) (hsize : payload.length ≤ 8388608 - 32)
    (hzip : StoredZip (packHdr modelVer nameB payload ++ payload) zip) :
    ∃ buf, unwrapZip (store ram 0 zip) zip.length = .ok (buf, 32 + payload.length) ∧
      slice buf 0 (32 + payload.length) = packHdr modelVer nameB payload ++ payload := by
  have hlen : (packHdr modelVer nameB payload ++ payload).length = 32 + payload.length := by
    rw [List.length_append, packHdr_length hname]
  rw [← hlen]
  exact unwrapZip_stored hzip (slice_store ram 0 zip) (by omega) (by omega)

/-- **Packer and firmware.**  What a successful run of the packer wrote is received as it was packed,
from either file, and equals what the firmware writes around the same payload, if and only if the
zip fits the firmware's buffer and the part of the name that is kept is ASCII.  (`hzip` and `hlength` are
what the packer relies on: `zipfile` writes one STORED entry, sizes in the local header, and nothing but
the central directory behind it.) -/
theorem packMain_agrees_iff (zipfile : List Char → List UInt8 → Except String (List UInt8))
    (hzip : ∀ entry data zip, data.length ≤ 8388608 → zipfile entry data = .ok zip →
      StoredZip data zip)
    (hlength : ∀ entry data zip, data.length ≤ 8388608 → zipfile entry data = .ok zip →
      zip.length = data.length + zipOverhead entry)
    (payload : List UInt8) (version : ℤ) (name : List Char) (out : PackOutput)
    (hpack : packMain zipfile payload version name = .ok out) :
    Agrees out payload version name ↔
      32 + payload.length + zipOverhead (entryName version name) ≤ modelMaxBlob ∧
        ∀ c ∈ name.take 15, c.toNat < 128 := by
  obtain ⟨hrange, hsize, htfl3, hnul, hiotv, hentry⟩ := packMain_eq_ok hpack
  have hname := packName_length name
  have hlen : out.iotv.length = 32 + payload.length := by
    rw [hiotv, List.length_append, packHdr_length hname]
  have hziplen := hlength _ _ _ (by omega) hentry
  have hplain : ∀ ram, Received ram out.iotv payload version name ↔ out.iotv.length ≤ modelMaxBlob ∧
      payload.length ≤ 4194304 - 32 ∧ ∀ c ∈ name.take 15, c.toNat < 128 := by
    intro ram
    rw [hiotv]
    exact received_iff hrange hsize htfl3 (unwrapZip_image ram _ payload hname)
      (slice_store_image ram _ payload hname)
  have hzipped : ∀ ram, Received ram out.zip payload version name ↔ out.zip.length ≤ modelMaxBlob ∧
      payload.length ≤ 4194304 - 32 ∧ ∀ c ∈ name.take 15, c.toNat < 128 := by
    intro ram
    have hstored := hzip _ out.iotv out.zip (by omega) hentry
    rw [hiotv] at hstored
    obtain ⟨buf, hun, himage⟩ := unwrapZip_zip ram version.toNat hname hsize hstored
    exact received_iff hrange hsize htfl3 hun himage
  rw [hlen] at hplain hziplen
  rw [hziplen] at hzipped
  constructor
  · intro h
    obtain ⟨hfits, -, hascii⟩ := (hzipped fun _ => 0).mp (h.zip _)
    exact ⟨hfits, hascii⟩
  · rintro ⟨hfits, hascii⟩
    have hiotvFits : 32 + payload.length ≤ modelMaxBlob := (Nat.le_add_right _ _).trans hfits
    have hmax : payload.length ≤ 4194304 - 32 := by
      rw [modelMaxBlob] at hiotvFits
      omega
    refine ⟨fun ram => (hplain ram).mpr ⟨hiotvFits, hmax, hascii⟩,
      fun ram => (hzipped ram).mpr ⟨hfits, hmax, hascii⟩, fun ram => ?_⟩
    rw [slice_iotvWrapInPlace _ _ (slice_store ram 32 payload), strncpy_name hascii hnul, hiotv]

theorem zipStored_eq_ok {entry : List Char} {data zip : List UInt8}
    (h : zipStored entry data = .ok zip) : StoredZip data zip := by
  simp only [zipStored] at h
  by_cases hlen : 0xFFFF < (entry.flatMap String.utf8EncodeChar).length
  · rw [if_pos hlen] at h
    contradiction
  · rw [if_neg hlen] at h
    rw [← Except.ok.inj h]
    exact .mk _ _ _ _ [] _ (by simp) (by simp) (by simp) (by omega) (by simp)

theorem zipStored_length {entry : List Char} {data zip : List UInt8}
    (h : zipStored entry data = .ok zip) : zip.length = data.length + zipOverhead entry := by
  simp only [zipStored] at h
  by_cases hlen : 0xFFFF < (entry.flatMap String.utf8EncodeChar).length
  · rw [if_pos hlen] at h
    contradiction
  · rw [if_neg hlen] at h
    rw [← Except.ok.inj h, zipOverhead]
    simp only [List.length_append, List.length_cons, List.length_nil, leBytes_length]
    omega

theorem zipStored_of_length (entry : List Char) (data : List UInt8)
    (h : (entry.flatMap String.utf8EncodeChar).length ≤ 65535) :
    ∃ zip, zipStored entry data = .ok zip :=
  ⟨_, if_neg (by omega)⟩

/-- An eight-byte model packed under the name "a". -/
theorem packMain_agrees_iff_sample :
    ∃ out, packMain zipStored ([0, 0, 0, 0] ++ tfl3) 1 ['a'] = .ok out ∧
      (Agrees out ([0, 0, 0, 0] ++ tfl3) 1 ['a'] ↔
        32 + ([0, 0, 0, 0] ++ tfl3).length + zipOverhead (entryName 1 ['a']) ≤ modelMaxBlob ∧
          ∀ c ∈ ['a'].take 15, c.toNat < 128) := by
  refine ⟨_, rfl, packMain_agrees_iff zipStored (fun _ _ _ _ h => zipStored_eq_ok h)
    (fun _ _ _ _ h => zipStored_length h) _ _ _ _ rfl⟩

/-- A payload of 4 MiB: below the packer's limit, above the firmware's. -/
def bigPayload : List UInt8 := List.replicate 4 0 ++ tfl3 ++ List.replicate 4194296 0

theorem bigPayload_length : bigPayload.length = 4194304 := by
  simp only [bigPayload, List.length_append, List.length_replicate]
  rfl

/-- The packer accepts 4 MiB, the firmware refuses the file it wrote. -/
theorem packMain_big_payload :
    ¬ ∀ (payload : List UInt8) (version : ℤ) (name : List Char) (out : PackOutput),
      packMain zipStored payload version name = .ok out → Agrees out payload version name := by
  intro h
  have hname := packName_length ['a']
  obtain ⟨zip, hzip⟩ := zipStored_of_length ['a', '_', 'v', '1', '.', 'i', 'o', 't', 'v']
    (packHdr 1 (packName ['a']) bigPayload ++ bigPayload) (by decide)
  have hpack := @packMain_of_zipfile zipStored bigPayload zip 1 ['a'] (by decide)
    (by rw [bigPayload_length]; decide) rfl (by decide) hzip
  obtain ⟨buf, len, hun, hvalid, -⟩ := ((h _ _ _ _ hpack).iotv fun _ => 0).decoded
  rw [unwrapZip_image _ _ _ hname] at hun
  obtain ⟨rfl, rfl⟩ := Prod.mk.inj (Except.ok.inj hun)
  have hmax := (iotvValidate_image hname (show Int.toNat 1 < 2 ^ 16 by decide)
    (by rw [bigPayload_length]; decide) rfl (slice_store_image _ _ _ hname)).mp hvalid
  rw [bigPayload_length] at hmax
  exact absurd hmax (by decide)

end IotcRa8p1.ModelStore
