import IotcRa8p1.Lib.ByteMem

/-!
# The zip unwrap of a model push (`iotc_app.c`, `prv_model_push_execute`)

The platform serves an uploaded model zip-wrapped.  The transfer task downloads into the pending
buffer and, when it finds a local file header at its start, moves the data of that one entry to the
front.  Only a STORED entry whose sizes stand in the local header passes; a buffer that does not
start with the signature is left alone.
-/

namespace IotcRa8p1.App

open ByteMem

/-- The signature of a zip local file header, "PK\x03\x04". -/
abbrev zipLocalMagic : List UInt8 := [0x50, 0x4B, 0x03, 0x04]

/-- The zip unwrap: the buffer and its length afterwards, or the text of the negative ack.  The
addition in the bound check is the one of a 32-bit `size_t`. -/
def unwrapZip (buf : Mem) (got : ℕ) : Except String (Mem × ℕ) :=
  if 34 ≤ got ∧ slice buf 0 4 = zipLocalMagic then
    let method := leNat (slice buf 8 2)
    let csize := leNat (slice buf 18 4)
    let nlen := leNat (slice buf 26 2)
    let xlen := leNat (slice buf 28 2)
    let dataOff := 30 + nlen + xlen
    if method ≠ 0 ∨ csize = 0 ∨ got < (dataOff + csize) % 2 ^ 32 then
      .error "zip must contain one STORED .iotv entry"
    else .ok (memcpy buf 0 buf dataOff csize, csize)
  else .ok (buf, got)

/-- A buffer with another magic passes unchanged. -/
theorem unwrapZip_of_magic {buf : Mem} {magic : List UInt8} (got : ℕ) (h : slice buf 0 4 = magic)
    (hne : magic ≠ zipLocalMagic) : unwrapZip buf got = .ok (buf, got) := by
  refine if_neg ?_
  rw [h]
  exact fun hz => hne hz.2

/-- A zip that starts with one STORED entry holding `data`, its sizes in the local header: what
stands between the fields the unwrap reads (versions and flags, time stamp and CRC, the uncompressed
size, the entry name, the extra field) and behind the entry (the central directory) is arbitrary. -/
inductive StoredZip (data : List UInt8) : List UInt8 → Prop where
  | mk (flags stamp usize name extra tail : List UInt8) (hflags : flags.length = 4)
      (hstamp : stamp.length = 8) (husize : usize.length = 4) (hname : name.length < 2 ^ 16)
      (hextra : extra.length < 2 ^ 16) :
      StoredZip data (zipLocalMagic ++ flags ++ leBytes 2 0 ++ stamp ++ leBytes 4 data.length ++
        usize ++ leBytes 2 name.length ++ leBytes 2 extra.length ++ name ++ extra ++ data ++ tail)

theorem StoredZip.length_le {data zip : List UInt8} (h : StoredZip data zip) :
    data.length ≤ zip.length := by
  cases h
  simp only [List.length_append]
  omega

/-- The fields the unwrap reads in a buffer that starts with a STORED entry. -/
structure StoredFields (buf : Mem) (got : ℕ) (data : List UInt8) (off : ℕ) : Prop where
  magic : slice buf 0 4 = zipLocalMagic
  method : leNat (slice buf 8 2) = 0
  csize : leNat (slice buf 18 4) = data.length
  dataOff : 30 + leNat (slice buf 26 2) + leNat (slice buf 28 2) = off
  fits : off + data.length ≤ got
  small : off ≤ 30 + 2 * (2 ^ 16 - 1)
  entry : slice buf off data.length = data

theorem StoredZip.fields {buf : Mem} {zip data : List UInt8} (h : StoredZip data zip)
    (hbuf : slice buf 0 zip.length = zip) (hlen : data.length < 2 ^ 32) :
    ∃ off, StoredFields buf zip.length data off := by
  obtain ⟨flags, stamp, usize, name, extra, tail, hflags, hstamp, husize, hname, hextra⟩ := h
  refine ⟨30 + name.length + extra.length, ?_, ?_, ?_, ?_, ?_, by omega, ?_⟩
  · exact slice_of_append [] zipLocalMagic _
      (by simpa only [List.append_assoc, List.nil_append] using hbuf) 0 4 rfl rfl
  · rw [slice_of_append (zipLocalMagic ++ flags) (leBytes 2 0) _
      (by simpa only [List.append_assoc] using hbuf) 8 2 (by simp [hflags]) rfl]
    rfl
  · rw [slice_of_append (zipLocalMagic ++ flags ++ leBytes 2 0 ++ stamp) (leBytes 4 data.length) _
      (by simpa only [List.append_assoc] using hbuf) 18 4 (by simp [hflags, hstamp]) (by simp),
      leNat_leBytes_of_lt _ _ (by omega)]
  · rw [slice_of_append (zipLocalMagic ++ flags ++ leBytes 2 0 ++ stamp ++ leBytes 4 data.length ++
      usize) (leBytes 2 name.length) _ (by simpa only [List.append_assoc] using hbuf) 26 2
      (by simp [hflags, hstamp, husize]) (by simp), leNat_leBytes_of_lt _ _ (by omega),
      slice_of_append (zipLocalMagic ++ flags ++ leBytes 2 0 ++ stamp ++ leBytes 4 data.length ++
      usize ++ leBytes 2 name.length) (leBytes 2 extra.length) _
      (by simpa only [List.append_assoc] using hbuf) 28 2
      (by simp [hflags, hstamp, husize]) (by simp), leNat_leBytes_of_lt _ _ (by omega)]
  · simp [hflags, hstamp, husize]
    omega
  · exact slice_of_append _ data tail hbuf _ _
      (by simp [hflags, hstamp, husize, Nat.add_assoc]; omega) rfl

/-- A STORED entry that is not empty is moved to the front where nothing wraps. -/
theorem StoredFields.unwrap {buf : Mem} {got off : ℕ} {data : List UInt8}
    (h : StoredFields buf got data off) (hgot : 34 ≤ got) (hne : data ≠ [])
    (hsum : off + data.length < 2 ^ 32) :
    unwrapZip buf got = .ok (memcpy buf 0 buf off data.length, data.length) := by
  have hfits := h.fits
  simp only [unwrapZip, h.method, h.csize, h.dataOff, Nat.mod_eq_of_lt hsum]
  rw [if_pos ⟨hgot, h.magic⟩, if_neg (by simp [hne]; omega)]

/-- **Unwrap spec.**  The data of a STORED entry ends up at the front of the buffer. -/
theorem unwrapZip_stored {buf : Mem} {zip data : List UInt8} (h : StoredZip data zip)
    (hbuf : slice buf 0 zip.length = zip) (h4 : 4 ≤ data.length)
    (hlen : data.length + 200000 ≤ 2 ^ 32) :
    ∃ b, unwrapZip buf zip.length = .ok (b, data.length) ∧ slice b 0 data.length = data := by
  obtain ⟨off, hf⟩ := h.fields hbuf (by omega)
  have hne : data ≠ [] := by
    rintro rfl
    contradiction
  have hfits := hf.fits
  have hsmall := hf.small
  have hoff := hf.dataOff
  refine ⟨_, hf.unwrap (by omega) hne (by omega), ?_⟩
  rw [slice_memcpy, hf.entry]

end IotcRa8p1.App
