import IotcRa8p1.App.PngEncode

/-!
# The file that `png_encode` writes (`png_gray.c`)

`putsOf_flatten` says that the pieces make up the file of the picture, when the number of raw bytes fits
`size_t` and the cursor goes by rows.

`pngEncode_roundtrip` decodes it again.  `contract_iff` says for which sizes the encoder stays in its buffers and
reports what it has done.
-/

namespace IotcRa8p1.App.PngGray

open ByteMem CString

/-! ### The cursor goes by rows -/

section Rows

variable {pixels : Mem} {rowbytes h : ℕ}

/-- A byte of a row, or its filter byte. -/
theorem nextByte_row {r c : ℕ} (hrow : 0 < rowbytes) (hwide : rowbytes + 1 < 2 ^ 32) (hr : r < h)
    (hc : c ≤ rowbytes) (hsmall : (rowbytes + 1) * r + c < 2 ^ 32) :
    nextByte pixels (rowbytes * h) rowbytes ⟨r, c, false⟩ =
      (if c = 0 then 0 else pixels (rowbytes * r + (c - 1)),
        if c = rowbytes then ⟨r + 1, 0, false⟩ else ⟨r, c + 1, false⟩) := by
  have hmul : (rowbytes + 1) * r = rowbytes * r + r := by ring
  have hpos : r ≤ rowbytes * r := Nat.le_mul_of_pos_left r hrow
  unfold nextByte
  dsimp only
  by_cases hc0 : c = 0
  · rw [if_pos hc0, if_pos hc0, if_neg (by omega), hc0]
  · have hle : rowbytes * (r + 1) ≤ rowbytes * h := Nat.mul_le_mul_left rowbytes hr
    rw [Nat.mul_succ] at hle
    have hoff : (r * rowbytes + (c - 1)) % 2 ^ 32 = rowbytes * r + (c - 1) := by
      rw [Nat.mul_comm r rowbytes]
      exact Nat.mod_eq_of_lt (by omega)
    have hcol : (c + 1) % 2 ^ 32 = c + 1 := Nat.mod_eq_of_lt (by omega)
    rw [if_neg hc0, if_neg hc0, hoff, decide_eq_false (by omega), Bool.or_false, hcol]
    by_cases hlast : c = rowbytes
    · rw [if_pos (by omega), if_pos hlast, Nat.mod_eq_of_lt (by omega)]
    · rw [if_neg (by omega), if_neg hlast]

/-- **The cursor** stands in the row and the column of the raw byte. -/
theorem cursorAt_eq (hrow : 0 < rowbytes) (hwide : rowbytes + 1 < 2 ^ 32) {k : ℕ}
    (hk : k ≤ (rowbytes + 1) * h) (hsmall : k < 2 ^ 32) :
    cursorAt pixels (rowbytes * h) rowbytes k = ⟨k / (rowbytes + 1), k % (rowbytes + 1), false⟩ := by
  induction k with
  | zero => simp [cursorAt]
  | succ k ih =>
    have hdiv := Nat.div_add_mod k (rowbytes + 1)
    have hmod : k % (rowbytes + 1) < rowbytes + 1 := Nat.mod_lt _ (Nat.succ_pos _)
    have hr : k / (rowbytes + 1) < h := by
      rw [Nat.div_lt_iff_lt_mul (Nat.succ_pos _), Nat.mul_comm]
      exact hk
    rw [cursorAt_succ, ih (by omega) (by omega), nextByte_row hrow hwide hr (by omega) (by omega)]
    by_cases hlast : k % (rowbytes + 1) = rowbytes
    · have hnext := (Nat.div_mod_unique (a := k + 1) (b := rowbytes + 1) (c := 0)
        (d := k / (rowbytes + 1) + 1) (Nat.succ_pos _)).mpr
        ⟨by rw [Nat.mul_succ]; omega, Nat.succ_pos _⟩
      rw [if_pos hlast, hnext.1, hnext.2]
    · have hnext := (Nat.div_mod_unique (a := k + 1) (b := rowbytes + 1)
        (c := k % (rowbytes + 1) + 1) (d := k / (rowbytes + 1)) (Nat.succ_pos _)).mpr
        ⟨by omega, by omega⟩
      rw [if_neg hlast, hnext.1, hnext.2]

theorem rawByte_eq (hrow : 0 < rowbytes) (hwide : rowbytes + 1 < 2 ^ 32) {r c : ℕ} (hr : r < h)
    (hc : c ≤ rowbytes) (hsmall : (rowbytes + 1) * r + c < 2 ^ 32) :
    rawByte pixels (rowbytes * h) rowbytes ((rowbytes + 1) * r + c) =
      if c = 0 then 0 else pixels (rowbytes * r + (c - 1)) := by
  have hle : (rowbytes + 1) * (r + 1) ≤ (rowbytes + 1) * h := Nat.mul_le_mul_left _ hr
  rw [Nat.mul_succ] at hle
  have hpos := (Nat.div_mod_unique (a := (rowbytes + 1) * r + c) (b := rowbytes + 1) (c := c) (d := r)
    (Nat.succ_pos _)).mpr ⟨Nat.add_comm _ _, by omega⟩
  rw [rawByte, cursorAt_eq hrow hwide (by omega) hsmall, hpos.1, hpos.2,
    nextByte_row hrow hwide hr hc hsmall]

/-- The raw bytes of some rows. -/
theorem rawRows (hrow : 0 < rowbytes) (hwide : rowbytes + 1 < 2 ^ 32)
    (hsmall : (rowbytes + 1) * h < 2 ^ 32) {n r : ℕ} (hr : r + n ≤ h) :
    (List.range' ((rowbytes + 1) * r) ((rowbytes + 1) * n)).map
        (rawByte pixels (rowbytes * h) rowbytes) =
      Png.filterNone rowbytes n (slice pixels (rowbytes * r) (rowbytes * n)) := by
  induction n generalizing r with
  | zero => rfl
  | succ n ih =>
    have hle : (rowbytes + 1) * (r + 1) ≤ (rowbytes + 1) * h := Nat.mul_le_mul_left _ (by omega)
    rw [Nat.mul_succ] at hle
    have hfirst : rawByte pixels (rowbytes * h) rowbytes ((rowbytes + 1) * r) = 0 :=
      rawByte_eq (c := 0) hrow hwide (by omega) (Nat.zero_le _) (by omega)
    have hbytes : (List.range' ((rowbytes + 1) * r + 1) rowbytes).map
        (rawByte pixels (rowbytes * h) rowbytes) = slice pixels (rowbytes * r) rowbytes := by
      rw [List.range'_eq_map_range, List.map_map, slice]
      apply List.map_congr_left
      intro i hi
      rw [List.mem_range] at hi
      have hbyte : rawByte pixels (rowbytes * h) rowbytes ((rowbytes + 1) * r + (1 + i)) = _ :=
        rawByte_eq hrow hwide (by omega) (by omega) (by omega)
      rw [if_neg (by omega), Nat.add_sub_cancel_left, ← Nat.add_assoc] at hbyte
      exact hbyte
    have hrest := ih (r := r + 1) (by omega)
    rw [Nat.mul_succ, Nat.mul_succ] at hrest
    have hrow' : (slice pixels (rowbytes * r) rowbytes).length = rowbytes := slice_length _ _ _
    rw [Nat.mul_succ, Nat.mul_succ, Nat.add_comm ((rowbytes + 1) * n), ← List.range'_append_1,
      List.map_append, hrest, List.range'_succ, List.map_cons, hfirst, hbytes, Png.filterNone,
      Nat.add_comm (rowbytes * n), slice_add, List.take_left' hrow', List.drop_left' hrow']
    rfl

/-- **The raw bytes** are those of the rows; in a picture without columns at most the first is. -/
theorem raw_eq (hwide : rowbytes + 1 < 2 ^ 32) (hsmall : (rowbytes + 1) * h < 2 ^ 32)
    (hplain : 0 < rowbytes ∨ h ≤ 1) :
    raw pixels (rowbytes * h) rowbytes ((rowbytes + 1) * h) =
      Png.filterNone rowbytes h (slice pixels 0 (rowbytes * h)) := by
  by_cases hrow : 0 < rowbytes
  · have hrows : (List.range' ((rowbytes + 1) * 0) ((rowbytes + 1) * h)).map
        (rawByte pixels (rowbytes * h) rowbytes) = _ := rawRows hrow hwide hsmall (by omega)
    rw [Nat.mul_zero, Nat.mul_zero, ← List.range_eq_range'] at hrows
    exact hrows
  · obtain rfl : rowbytes = 0 := by omega
    have hh : h = 0 ∨ h = 1 := by omega
    rcases hh with rfl | rfl
    · rfl
    · rfl

/-- The pixels are left when there are no columns and a second row. -/
theorem overread_iff (hwide : rowbytes + 1 < 2 ^ 32) {k : ℕ} (hk : k ≤ (rowbytes + 1) * h)
    (hsmall : k < 2 ^ 32) :
    (cursorAt pixels (rowbytes * h) rowbytes k).overread = true ↔ rowbytes = 0 ∧ 2 ≤ k := by
  by_cases hrow : 0 < rowbytes
  · rw [cursorAt_eq hrow hwide hk hsmall]
    exact iff_of_false (by simp) (by omega)
  · obtain rfl : rowbytes = 0 := by omega
    have hstay (c : Cursor) (hc : c.overread = true) :
        (nextByte pixels (0 * h) 0 c).2.overread = true := by
      unfold nextByte
      dsimp only
      split_ifs
      · exact hc
      · rw [hc, Bool.true_or]
      · rw [hc, Bool.true_or]
    have hfrom (j : ℕ) : (cursorAt pixels (0 * h) 0 (j + 2)).overread = true := by
      induction j with
      | zero =>
        rw [Nat.zero_mul]
        rfl
      | succ j ih =>
        rw [cursorAt_succ]
        exact hstay _ ih
    match k with
    | 0 => exact iff_of_false (by simp [cursorAt]) (by omega)
    | 1 => exact iff_of_false (by simp [cursorAt, nextByte]) (by omega)
    | j + 2 => exact iff_of_true (hfrom j) ⟨rfl, by omega⟩

end Rows

/-! ### The file -/

theorem ofNat_congr {a b : ℕ} (h : a % 256 = b % 256) : UInt8.ofNat a = UInt8.ofNat b := by
  apply UInt8.toNat_inj.mp
  simpa using h

/-- The header of a block and its bytes. -/
theorem bhdr_append {emitted block rawTotal : ℕ} {data : List UInt8} (hdata : data.length = block)
    (hblock : block ≤ 65535) :
    bhdr emitted block rawTotal ++ data =
      Zlib.storedBlock (decide (emitted + block = rawTotal)) data := by
  have hlen : leBytes 2 block = [UInt8.ofNat (block % 256), UInt8.ofNat (block / 256)] := by
    simp only [leBytes]
    rw [ofNat_congr (Nat.mod_mod block 256)]
  have hneg : leBytes 2 (65535 - block) = [UInt8.ofNat ((2 ^ 32 - 1 - block) % 256),
      UInt8.ofNat ((2 ^ 32 - 1 - block) / 256 % 256)] := by
    simp only [leBytes]
    rw [ofNat_congr (show (65535 - block) % 256 = (2 ^ 32 - 1 - block) % 256 % 256 by omega),
      ofNat_congr (show (65535 - block) / 256 % 256 = (2 ^ 32 - 1 - block) / 256 % 256 % 256 by omega)]
  rw [Zlib.storedBlock, hdata, hlen, hneg, bhdr]
  simp only [decide_eq_true_eq]
  rfl

/-- The pieces of the blocks are the deflate stream of the bytes still to come. -/
theorem blockPuts_flatten (byte : ℕ → UInt8) {rawTotal emitted : ℕ} (hlt : emitted < rawTotal) :
    (blockPuts byte rawTotal emitted).flatten =
      Zlib.deflate ((List.range' emitted (rawTotal - emitted)).map byte) := by
  induction emitted using blockSizes.induct rawTotal with
  | case1 emitted hlt block ih =>
    have hblock : block = if 65535 < rawTotal - emitted then 65535 else rawTotal - emitted := rfl
    have hdata : ((List.range block).map fun i => [byte (emitted + i)]).flatten =
        (List.range' emitted block).map byte := by
      rw [List.range'_eq_map_range, List.map_map, ← List.flatMap_def, ← List.map_eq_flatMap]
      rfl
    have hlen : ((List.range' emitted block).map byte).length = block := by
      rw [List.length_map, List.length_range']
    have hfit : emitted + block ≤ rawTotal := (blockAt_pos hlt).2
    have hmax : block ≤ 65535 := by
      split_ifs at hblock
      · omega
      · omega
    rw [blockPuts, dif_pos hlt]
    show (bhdr emitted block rawTotal :: (List.range block).map (fun i => [byte (emitted + i)]) ++
      blockPuts byte rawTotal (emitted + block)).flatten = _
    rw [List.flatten_append, List.flatten_cons, hdata, bhdr_append hlen hmax]
    by_cases hlast : emitted + block = rawTotal
    · -- the last block
      have hnil : blockPuts byte rawTotal (emitted + block) = [] := by
        rw [blockPuts, dif_neg (by omega)]
      rw [hnil, List.flatten_nil, List.append_nil, Zlib.deflate, dif_pos (by simp; omega),
        decide_eq_true hlast, show rawTotal - emitted = block by omega]
    · -- a full block, and more bytes behind it
      have hfull : block = 65535 := by
        split_ifs at hblock
        · exact hblock
        · omega
      have hsplit : (List.range' emitted (rawTotal - emitted)).map byte =
          (List.range' emitted block).map byte ++
            (List.range' (emitted + block) (rawTotal - (emitted + block))).map byte := by
        rw [← List.map_append, List.range'_append_1,
          show block + (rawTotal - (emitted + block)) = rawTotal - emitted by omega]
      rw [ih (by omega), hsplit, decide_eq_false hlast, Zlib.deflate.eq_def ((_ : List UInt8) ++ _),
        dif_neg (by simp; omega), List.take_left' (hlen.trans hfull), List.drop_left' (hlen.trans hfull)]
  | case2 emitted hnot => exact absurd hlt hnot

/-- The picture that `png_encode` is given. -/
def picture (pixels : Mem) (w h : UInt16) (channels : UInt8) : Png.Image :=
  ⟨w.toNat, h.toNat, if channels.toNat = 3 then 2 else 0,
    slice pixels 0 (rowbytes w channels * h.toNat)⟩

/-- The number of raw bytes of the picture. -/
def rawSize (w h : UInt16) (channels : UInt8) : ℕ := (rowbytes w channels + 1) * h.toNat

section File

variable (pixels : Mem) (w h : UInt16) {channels : UInt8} (out : Mem) (outSize : UInt32)

theorem rowbytes_lt (hch : channels = 1 ∨ channels = 3) : rowbytes w channels + 1 < 2 ^ 32 := by
  have hw : w.toNat < 2 ^ 16 := w.toNat_lt
  rcases hch with rfl | rfl
  · show w.toNat * 1 + 1 < 2 ^ 32
    omega
  · show w.toNat * 3 + 1 < 2 ^ 32
    omega

theorem rowbytes_eq_zero (hch : channels = 1 ∨ channels = 3) : rowbytes w channels = 0 ↔ w.toNat = 0 := by
  rcases hch with rfl | rfl
  · show w.toNat * 1 = 0 ↔ _
    omega
  · show w.toNat * 3 = 0 ↔ _
    omega

theorem rawTotal_eq (hsmall : rawSize w h channels < 2 ^ 32) :
    rawTotal w h channels = rawSize w h channels := Nat.mod_eq_of_lt hsmall

/-- The pieces of the IDAT chunk are the stream of the rows. -/
theorem idatOf_flatten (hch : channels = 1 ∨ channels = 3) (hsmall : rawSize w h channels < 2 ^ 32)
    (hrows : 0 < h.toNat) (hplain : 0 < w.toNat ∨ h.toNat ≤ 1) :
    (idatOf pixels w h channels).flatten = Png.idat channels.toNat (picture pixels w h channels) := by
  have hpos : 0 < rawSize w h channels := Nat.mul_pos (Nat.succ_pos _) hrows
  have hraw : (List.range (rawSize w h channels)).map (byteAt pixels w h channels) =
      Png.filterNone (rowbytes w channels) h.toNat (slice pixels 0 (rowbytes w channels * h.toNat)) := by
    apply raw_eq (rowbytes_lt w hch) hsmall
    have hzero := rowbytes_eq_zero w hch
    omega
  have hblocks := blockPuts_flatten (byteAt pixels w h channels) hpos
  rw [Nat.sub_zero, ← List.range_eq_range', hraw] at hblocks
  rw [idatOf, idatPuts, rawTotal_eq w h hsmall, List.flatten_append, List.flatten_append,
    List.flatten_singleton, List.flatten_singleton, hblocks, hraw]
  rfl

/-- **The pieces are the file** of the picture. -/
theorem putsOf_flatten (hch : channels = 1 ∨ channels = 3) (hsmall : rawSize w h channels < 2 ^ 32)
    (hrows : 0 < h.toNat) (hplain : 0 < w.toNat ∨ h.toNat ≤ 1) :
    (putsOf pixels w h channels).flatten =
      Png.encode channels.toNat (picture pixels w h channels) := by
  rw [putsOf, filePuts_flatten, idatOf_flatten pixels w h hch hsmall hrows hplain, headPuts,
    List.flatten_append, List.flatten_singleton, chunkPuts_flatten]
  rfl

/-- The exact size of the file of a picture; without rows it still has a final block. -/
def exactSize (w h : UInt16) (channels : UInt8) : ℕ :=
  63 + rawSize w h channels + 5 * max 1 (blockCount (rawSize w h channels))

/-- It is the length of the file. -/
theorem encode_picture_length (channels : UInt8) :
    (Png.encode channels.toNat (picture pixels w h channels)).length = exactSize w h channels :=
  Png.encode_length (slice_length _ _ _)

theorem putSize_eq (hpos : 0 < rawSize w h channels) (hsmall : rawSize w h channels < 2 ^ 32) :
    putSize (rawTotal w h channels) = exactSize w h channels := by
  rw [rawTotal_eq w h hsmall, putSize, exactSize, blockCount]
  omega

theorem picture_fits (hch : channels = 1 ∨ channels = 3) (hsize : exactSize w h channels < 2 ^ 31) :
    Png.Fits channels.toNat (picture pixels w h channels) := by
  have hw : w.toNat < 2 ^ 16 := w.toNat_lt
  have hh : h.toNat < 2 ^ 16 := h.toNat_lt
  have hpixels : (picture pixels w h channels).pixels.length =
      (picture pixels w h channels).width * channels.toNat * (picture pixels w h channels).height :=
    slice_length _ _ _
  refine ⟨?_, hpixels, ?_, ?_, ?_⟩
  · rcases hch with rfl | rfl
    · rfl
    · rfl
  · show w.toNat < 2 ^ 32
    omega
  · show h.toNat < 2 ^ 32
    omega
  · rw [Png.idat, Zlib.compress_length, Png.filterNone_length hpixels]
    show 6 + rawSize w h channels + 5 * max 1 (blockCount (rawSize w h channels)) < 2 ^ 31
    rw [exactSize] at hsize
    omega

/-! ### What a run does -/

theorem run_fits (hch : channels = 1 ∨ channels = 3)
    (hfit : putSize (rawTotal w h channels) ≤ outSize.toNat) :
    (pngEncode pixels w h channels out outSize).rc = toInt (putSize (rawTotal w h channels)) ∧
      (pngEncode pixels w h channels out outSize).buf.overrun = false ∧
      slice (pngEncode pixels w h channels out outSize).buf.bytes 0 (putSize (rawTotal w h channels)) =
        (putsOf pixels w h channels).flatten := by
  obtain ⟨pw, htracks, hrun⟩ := pngEncode_tracks pixels w h out outSize hch
  have hlen := putsOf_length pixels w h channels
  have hw := htracks.fits (by rw [hlen]; exact hfit)
  have hbytes := hw.bytes
  rw [hlen] at hbytes
  rw [hrun]
  refine ⟨?_, hw.inside, hbytes⟩
  show (if pw.err = 0 then toInt pw.len else pw.err) = _
  rw [if_pos hw.err, hw.len, hlen]

theorem run_full (hch : channels = 1 ∨ channels = 3)
    (hhits : Hits outSize.toNat (putSizes (rawTotal w h channels))) :
    (pngEncode pixels w h channels out outSize).rc = -12 ∧
      (pngEncode pixels w h channels out outSize).buf.overrun = false := by
  obtain ⟨pw, htracks, hrun⟩ := pngEncode_tracks pixels w h out outSize hch
  obtain ⟨herr, hinside⟩ := htracks.full (by rw [putsOf_sizes]; exact hhits)
  rw [hrun]
  refine ⟨?_, hinside⟩
  show (if pw.err = 0 then toInt pw.len else pw.err) = -12
  rw [if_neg (by rw [herr]; decide), herr]

theorem run_over (hch : channels = 1 ∨ channels = 3)
    (hover : outSize.toNat < putSize (rawTotal w h channels))
    (hno : ¬ Hits outSize.toNat (putSizes (rawTotal w h channels))) :
    (pngEncode pixels w h channels out outSize).buf.overrun = true := by
  obtain ⟨pw, htracks, hrun⟩ := pngEncode_tracks pixels w h out outSize hch
  rw [hrun]
  exact htracks.wraps (by rw [putsOf_length]; exact hover) (by rw [putsOf_sizes]; exact hno)

theorem run_overread (hch : channels = 1 ∨ channels = 3) :
    (pngEncode pixels w h channels out outSize).overread = true ↔ w.toNat = 0 ∧ 2 ≤ h.toNat := by
  obtain ⟨pw, htracks, hrun⟩ := pngEncode_tracks pixels w h out outSize hch
  have hh : h.toNat < 2 ^ 16 := h.toNat_lt
  have hle : rawTotal w h channels ≤ (rowbytes w channels + 1) * h.toNat := Nat.mod_le _ _
  have hlt : rawTotal w h channels < 2 ^ 32 := Nat.mod_lt _ (by decide)
  rw [hrun]
  show overreads pixels w h channels = true ↔ _
  rw [overreads, overread_iff (rowbytes_lt w hch) hle hlt, rowbytes_eq_zero w hch]
  constructor
  · intro ⟨hw, htwo⟩
    rw [(rowbytes_eq_zero w hch).mpr hw] at hle
    exact ⟨hw, by omega⟩
  · intro ⟨hw, htwo⟩
    refine ⟨hw, ?_⟩
    rw [rawTotal, (rowbytes_eq_zero w hch).mpr hw]
    omega

/-- An encoder that has room for the file leaves it in the buffer. -/
theorem run_file (hch : channels = 1 ∨ channels = 3) (hrows : 0 < h.toNat)
    (hplain : 0 < w.toNat ∨ h.toNat ≤ 1) (hroom : exactSize w h channels ≤ outSize.toNat)
    (hsize : exactSize w h channels < 2 ^ 31) :
    (pngEncode pixels w h channels out outSize).rc = exactSize w h channels ∧
      (pngEncode pixels w h channels out outSize).buf.overrun = false ∧
      slice (pngEncode pixels w h channels out outSize).buf.bytes 0 (exactSize w h channels) =
        Png.encode channels.toNat (picture pixels w h channels) := by
  have hpos : 0 < rawSize w h channels := Nat.mul_pos (Nat.succ_pos _) hrows
  have hsmall : rawSize w h channels < 2 ^ 32 := by
    rw [exactSize] at hsize
    omega
  have hputs := putSize_eq w h hpos hsmall
  obtain ⟨hrc, hinside, hbytes⟩ := run_fits pixels w h out outSize hch (by rw [hputs]; exact hroom)
  rw [hputs] at hrc hbytes
  refine ⟨?_, hinside, hbytes.trans (putsOf_flatten pixels w h hch hsmall hrows hplain)⟩
  rw [hrc, toInt, if_pos hsize]

end File

/-! ### Round trip -/

/-- **Decoding** gives the picture back, and the file is written as the format has it. -/
theorem pngEncode_roundtrip (pixels : Mem) (w h : UInt16) (channels : UInt8) (out : Mem)
    (outSize : UInt32) (hw : 1 ≤ w.toNat) (hh : 1 ≤ h.toNat) (hch : channels = 1 ∨ channels = 3)
    (hroom : exactSize w h channels ≤ outSize.toNat) (hsize : exactSize w h channels < 2 ^ 31) :
    ∃ n : ℕ, (pngEncode pixels w h channels out outSize).rc = n ∧ 0 < n ∧
      slice (pngEncode pixels w h channels out outSize).buf.bytes 0 n =
        Png.encode channels.toNat (picture pixels w h channels) ∧
      Png.decode (slice (pngEncode pixels w h channels out outSize).buf.bytes 0 n) =
        some (picture pixels w h channels) := by
  obtain ⟨hrc, _, hbytes⟩ := run_file pixels w h out outSize hch hh (Or.inl hw) hroom hsize
  refine ⟨exactSize w h channels, hrc, ?_, hbytes, ?_⟩
  · rw [exactSize]
    omega
  · rw [hbytes]
    exact Png.decode_encode (picture_fits pixels w h hch hsize)

/-- Three rows of two pixels, the bytes of their colours from 0 to 17. -/
def sampleRows : Mem := ofList ((List.range 18).map UInt8.ofNat)

/-- They come back from the file, written to a buffer of a hundred bytes. -/
theorem pngEncode_roundtrip_rows :
    picture sampleRows 2 3 3 = ⟨2, 3, 2, (List.range 18).map UInt8.ofNat⟩ ∧
    ∃ n : ℕ, (pngEncode sampleRows 2 3 3 (ofList []) 100).rc = n ∧ 0 < n ∧
      slice (pngEncode sampleRows 2 3 3 (ofList []) 100).buf.bytes 0 n =
        Png.encode 3 (picture sampleRows 2 3 3) ∧
      Png.decode (slice (pngEncode sampleRows 2 3 3 (ofList []) 100).buf.bytes 0 n) =
        some (picture sampleRows 2 3 3) :=
  ⟨rfl, pngEncode_roundtrip sampleRows 2 3 3 (ofList []) 100 (by decide) (by decide) (Or.inr rfl)
    (by decide) (by decide)⟩

/-! ### The contract -/

/-- What the encoder owes for any sizes. -/
structure Contract (pixels : Mem) (w h : UInt16) (channels : UInt8) (out : Mem) (outSize : UInt32) :
    Prop where
  writes : (pngEncode pixels w h channels out outSize).buf.overrun = false
  reads : (pngEncode pixels w h channels out outSize).overread = false
  unsupported : channels ≠ 1 ∧ channels ≠ 3 → (pngEncode pixels w h channels out outSize).rc = -22
  nomem : channels = 1 ∨ channels = 3 →
    ((pngEncode pixels w h channels out outSize).rc = -12 ↔
      outSize.toNat < exactSize w h channels)
  success : channels = 1 ∨ channels = 3 → exactSize w h channels ≤ outSize.toNat →
    (pngEncode pixels w h channels out outSize).rc = exactSize w h channels ∧
    Png.decode (slice (pngEncode pixels w h channels out outSize).buf.bytes 0 (exactSize w h channels)) =
      some (picture pixels w h channels)

/-- The sizes for which it does. -/
def Condition (w h : UInt16) (channels : UInt8) (outSize : UInt32) : Prop :=
  (channels ≠ 1 ∧ channels ≠ 3) ∨
    ¬ (w.toNat = 0 ∧ 2 ≤ h.toNat) ∧
      (outSize.toNat < putSize (rawTotal w h channels) ∧
          Hits outSize.toNat (putSizes (rawTotal w h channels)) ∨
        putSize (rawTotal w h channels) ≤ outSize.toNat ∧
          (0 < h.toNat ∧ rawSize w h channels < 2 ^ 32 ∧ putSize (rawTotal w h channels) < 2 ^ 31 ∨
            2 ^ 32 ≤ rawSize w h channels ∧ putSize (rawTotal w h channels) = 2 ^ 32 - 12))

theorem toInt_eq_neg {n : ℕ} (hn : n < 2 ^ 32) : toInt n = -12 ↔ n = 2 ^ 32 - 12 := by
  rw [toInt]
  by_cases hsmall : n < 2 ^ 31
  · rw [if_pos hsmall]
    exact iff_of_false (by omega) (by omega)
  · rw [if_neg hsmall]
    omega

/-- With room for what is put, the contract is about the number that is returned. -/
theorem contract_of_fits (pixels : Mem) (w h : UInt16) {channels : UInt8} (out : Mem)
    (outSize : UInt32) (hch : channels = 1 ∨ channels = 3)
    (hfit : putSize (rawTotal w h channels) ≤ outSize.toNat) (hplain : 0 < w.toNat ∨ h.toNat ≤ 1) :
    Contract pixels w h channels out outSize ↔
      (0 < h.toNat ∧ rawSize w h channels < 2 ^ 32 ∧ putSize (rawTotal w h channels) < 2 ^ 31) ∨
        2 ^ 32 ≤ rawSize w h channels ∧ putSize (rawTotal w h channels) = 2 ^ 32 - 12 := by
  have hcap : outSize.toNat < 2 ^ 32 := outSize.toNat_lt
  obtain ⟨hrc, hinside, -⟩ := run_fits pixels w h out outSize hch hfit
  have hreads : (pngEncode pixels w h channels out outSize).overread = false := by
    rw [Bool.eq_false_iff, Ne, run_overread pixels w h out outSize hch]
    omega
  have hch' : ¬ (channels ≠ 1 ∧ channels ≠ 3) := by
    rintro ⟨h1, h3⟩
    exact hch.elim h1 h3
  by_cases hwrap : 2 ^ 32 ≤ rawSize w h channels
  · -- the exact size is more than any buffer
    have hlarge : outSize.toNat < exactSize w h channels := by
      rw [exactSize]
      omega
    constructor
    · intro hc
      have hneg := (hc.nomem hch).mpr hlarge
      rw [hrc, toInt_eq_neg (by omega)] at hneg
      exact Or.inr ⟨hwrap, hneg⟩
    · intro hcond
      have hneg : putSize (rawTotal w h channels) = 2 ^ 32 - 12 := by omega
      refine ⟨hinside, hreads, fun hno => absurd hno hch', fun _ => iff_of_true ?_ hlarge,
        fun _ hroom => ?_⟩
      · rw [hrc, toInt_eq_neg (by omega), hneg]
      · omega
  · by_cases hrows : 0 < h.toNat
    · have hpos : 0 < rawSize w h channels := Nat.mul_pos (Nat.succ_pos _) hrows
      have hputs := putSize_eq w h hpos (by omega)
      rw [hputs] at hfit hrc ⊢
      constructor
      · intro hc
        have hsame := (hc.success hch hfit).1
        rw [hrc, toInt] at hsame
        split_ifs at hsame with hsmall
        · exact Or.inl ⟨hrows, by omega, hsmall⟩
        · omega
      · intro hcond
        have hsize : exactSize w h channels < 2 ^ 31 := by omega
        obtain ⟨hfile, -, hbytes⟩ := run_file pixels w h out outSize hch hrows hplain hfit hsize
        refine ⟨hinside, hreads, fun hno => absurd hno hch', fun _ => ?_, fun _ _ => ⟨hfile, ?_⟩⟩
        · rw [hfile]
          omega
        · rw [hbytes]
          exact Png.decode_encode (picture_fits pixels w h hch hsize)
    · -- nothing is put for the missing final block
      have hzero : rawSize w h channels = 0 := by
        rw [rawSize, show h.toNat = 0 by omega, Nat.mul_zero]
      have hputs : putSize (rawTotal w h channels) = 63 := by
        rw [rawTotal_eq w h (by omega), hzero]
        rfl
      have hexact : exactSize w h channels = 68 := by
        rw [exactSize, hzero]
        rfl
      refine iff_of_false (fun hc => ?_) (by omega)
      have hnomem := hc.nomem hch
      have hsuccess := hc.success hch
      rw [hrc, hputs, hexact] at hnomem hsuccess
      by_cases hroom : 68 ≤ outSize.toNat
      · exact absurd (hsuccess hroom).1 (by decide)
      · exact absurd (hnomem.mpr (by omega)) (by decide)

theorem contract_iff (pixels : Mem) (w h : UInt16) (channels : UInt8) (out : Mem) (outSize : UInt32) :
    Contract pixels w h channels out outSize ↔ Condition w h channels outSize := by
  by_cases hno : channels ≠ 1 ∧ channels ≠ 3
  · have hrun : pngEncode pixels w h channels out outSize =
        ⟨-22, .fresh outSize.toNat out, false⟩ := if_pos hno
    refine iff_of_true ?_ (Or.inl hno)
    constructor
    · rw [hrun]
      rfl
    · rw [hrun]
    · intro _
      rw [hrun]
    · intro hch
      exact absurd hch (by rintro (h1 | h3); exacts [hno.1 h1, hno.2 h3])
    · intro hch
      exact absurd hch (by rintro (h1 | h3); exacts [hno.1 h1, hno.2 h3])
  · have hch : channels = 1 ∨ channels = 3 := by
      by_contra hnone
      exact hno (not_or.mp hnone)
    rw [Condition, or_iff_right hno]
    by_cases hleft : w.toNat = 0 ∧ 2 ≤ h.toNat
    · refine iff_of_false (fun hc => ?_) (fun hcond => hcond.1 hleft)
      have hreads := (run_overread pixels w h out outSize hch).mpr hleft
      rw [hc.reads] at hreads
      contradiction
    · rw [and_iff_right hleft]
      by_cases hfit : putSize (rawTotal w h channels) ≤ outSize.toNat
      · rw [contract_of_fits pixels w h out outSize hch hfit (by omega)]
        constructor
        · exact fun hcond => Or.inr ⟨hfit, hcond⟩
        · exact fun hcond => hcond.elim (fun hlt => absurd hlt.1 (by omega)) fun hok => hok.2
      · by_cases hhits : Hits outSize.toNat (putSizes (rawTotal w h channels))
        · refine iff_of_true ?_ (Or.inl ⟨by omega, hhits⟩)
          obtain ⟨hrc, hinside⟩ := run_full pixels w h out outSize hch hhits
          have hlarge : outSize.toNat < exactSize w h channels := by
            have hle : rawTotal w h channels ≤ rawSize w h channels := Nat.mod_le _ _
            rw [putSize, blockCount] at hfit
            rw [exactSize, blockCount]
            omega
          refine ⟨hinside, ?_, fun h => absurd h hno, fun _ => iff_of_true hrc hlarge,
            fun _ hroom => by omega⟩
          rw [Bool.eq_false_iff, Ne, run_overread pixels w h out outSize hch]
          exact hleft
        · refine iff_of_false (fun hc => ?_) ?_
          · have hover := run_over pixels w h out outSize hch (by omega) hhits
            rw [hc.writes] at hover
            contradiction
          · rintro (⟨-, hcond⟩ | ⟨hcond, -⟩)
            · exact hhits hcond
            · exact hfit hcond

/-- A picture without rows: the file that is reported has no block at all. -/
theorem contract_fails_without_rows :
    ¬ ∀ pixels w h channels out outSize, Contract pixels w h channels out outSize := by
  intro h
  have hc := h (ofList []) 10 0 1 (ofList []) 100
  have hcond := (contract_of_fits (ofList []) 10 0 (ofList []) 100 (Or.inl rfl)
    (show putSize (rawTotal 10 0 1) ≤ 100 by decide) (Or.inr (by decide))).mp hc
  exact absurd hcond (by decide)

end IotcRa8p1.App.PngGray
