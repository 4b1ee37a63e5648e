import IotcRa8p1.App.PngGray

/-!
# What `png_encode` leaves in the buffer (`png_gray.c`)

`pngEncode_tracks` is the whole run: whatever the sizes are, the writer stands behind the pieces of the file.
`raw_eq` says which raw bytes go into them.
-/

namespace IotcRa8p1.App.PngGray

open ByteMem CString ModelStore

/-! ### The pieces of the file -/

/-- The pieces before the length of the IDAT chunk. -/
def headPuts (w h channels : ℕ) : List (List UInt8) :=
  [magic] ++ chunkPuts (lit "IHDR") (ihdr w h channels)

/-- The pieces of the data of the IDAT chunk. -/
def idatPuts (byte : ℕ → UInt8) (rawTotal : ℕ) : List (List UInt8) :=
  [zhdr] ++ blockPuts byte rawTotal 0 ++ [beBytes 4 (Zlib.adler32 ((List.range rawTotal).map byte))]

/-- The pieces of a file, with `len` for the length of the IDAT chunk and the CRC of it as it should be. -/
def filePuts (head idat : List (List UInt8)) (len : ℕ) : List (List UInt8) :=
  head ++ [beBytes 4 len] ++ ([lit "IDAT"] ++ idat) ++
    [beBytes 4 (Png.crc32 (lit "IDAT" ++ idat.flatten)).toNat] ++ chunkPuts (lit "IEND") []

theorem filePuts_flatten (head idat : List (List UInt8)) :
    (filePuts head idat idat.flatten.length).flatten =
      head.flatten ++ Png.chunk (lit "IDAT") idat.flatten ++ Png.chunk (lit "IEND") [] := by
  simp only [filePuts, List.flatten_append, List.flatten_singleton, chunkPuts_flatten, Png.chunk,
    List.append_assoc]

/-- Behind the two checksums of the IDAT chunk. -/
theorem Tracks.finish {cap : ℕ} (hcap : cap < 2 ^ 32) {head idat : List (List UInt8)} {w : PngWriter}
    {lenPos tagPos : ℕ} (h : Tracks cap (head ++ [beBytes 4 0] ++ ([lit "IDAT"] ++ idat)) w)
    (herr : w.err = 0)
    (hpos : (head ++ [beBytes 4 0] ++ ([lit "IDAT"] ++ idat)).flatten.length ≤ cap →
      lenPos = head.flatten.length ∧ tagPos = head.flatten.length + 4) :
    let payload := (w.len + 2 ^ 32 - tagPos - 4) % 2 ^ 32
    let w1 : PngWriter := { w with buf := w.buf.write lenPos (beBytes 4 payload) }
    Tracks cap (filePuts head idat idat.flatten.length)
      (PngGray.putChunk
        (putBe32 w1 (iotvCrc32 (slice w1.buf.bytes tagPos ((4 + payload) % 2 ^ 32))).toNat)
        (lit "IEND") []) := by
  intro payload w1
  have htotal (x : List UInt8) : (head ++ [x] ++ ([lit "IDAT"] ++ idat)).flatten.length =
      head.flatten.length + x.length + (4 + idat.flatten.length) := by
    simp only [List.flatten_append, List.flatten_singleton, List.length_append]
    rfl
  have hpayload (hfit : (head ++ [beBytes 4 0] ++ ([lit "IDAT"] ++ idat)).flatten.length ≤ cap) :
      payload = idat.flatten.length := by
    show (w.len + 2 ^ 32 - tagPos - 4) % 2 ^ 32 = _
    rw [(h.fits hfit).len, (hpos hfit).2, htotal, beBytes_length]
    rw [htotal, beBytes_length] at hfit
    omega
  have h1 : Tracks cap (head ++ [beBytes 4 idat.flatten.length] ++ ([lit "IDAT"] ++ idat)) w1 := by
    apply h.patch herr (by simp) (by simp)
    intro hfit
    exact ⟨(hpos hfit).1, by rw [hpayload hfit]⟩
  apply Tracks.putChunk _ hcap rfl (by decide)
  apply h1.put hcap (by simp) (by simp)
  intro hfit
  rw [List.flatten_append, List.length_append] at hfit
  have hfit1 : (head ++ [beBytes 4 idat.flatten.length] ++ ([lit "IDAT"] ++ idat)).flatten.length ≤ cap := by
    omega
  have hfit0 : (head ++ [beBytes 4 0] ++ ([lit "IDAT"] ++ idat)).flatten.length ≤ cap := by
    rw [htotal, beBytes_length] at hfit1 ⊢
    exact hfit1
  have hlen : (4 + payload) % 2 ^ 32 = (lit "IDAT" ++ idat.flatten).length := by
    rw [hpayload hfit0, List.length_append]
    rw [htotal, beBytes_length] at hfit1
    show (4 + idat.flatten.length) % 2 ^ 32 = 4 + idat.flatten.length
    omega
  -- the tag and the data stand behind the length
  have hbytes := (h1.fits hfit1).bytes
  have hflat : (head ++ [beBytes 4 idat.flatten.length] ++ ([lit "IDAT"] ++ idat)).flatten =
      (head.flatten ++ beBytes 4 idat.flatten.length) ++ (lit "IDAT" ++ idat.flatten) ++ [] := by
    simp only [List.flatten_append, List.flatten_singleton, List.append_nil]
  rw [hlen, iotvCrc32_toNat, slice_of_append _ _ _ (hbytes.trans hflat) _ _ _ rfl]
  rw [(hpos hfit0).2, Nat.zero_add, List.length_append, beBytes_length]

/-- In the error state the pieces still to come count as put. -/
theorem Tracks.finish_err {cap : ℕ} (hcap : cap < 2 ^ 32) {head idat : List (List UInt8)} {w : PngWriter}
    (h : Tracks cap (head ++ [beBytes 4 0] ++ ([lit "IDAT"] ++ idat)) w) (herr : w.err ≠ 0) :
    Tracks cap (filePuts head idat idat.flatten.length) w := by
  have hnamed : Tracks cap (head ++ [beBytes 4 idat.flatten.length] ++ ([lit "IDAT"] ++ idat)) w :=
    h.resize herr (by simp)
  have hcrc := hnamed.skip hcap herr (p := beBytes 4 (Png.crc32 (lit "IDAT" ++ idat.flatten)).toNat)
    (by simp)
  have hlen := hcrc.skip hcap herr (p := beBytes 4 ([] : List UInt8).length) (by simp)
  have htag := hlen.skip hcap herr (p := lit "IEND") (by decide)
  have hdata := htag.skip hcap herr (p := []) (by decide)
  have hend := hdata.skip hcap herr (p := beBytes 4 (Png.crc32 (lit "IEND" ++ [])).toNat) (by simp)
  simpa [filePuts, chunkPuts] using hend

/-- The trailer of the zlib stream. -/
theorem At.adler {pixels : Mem} {size rowbytes k : ℕ} {s : Stream} (h : At pixels size rowbytes k s) :
    s.adlerB <<< 16 ||| s.adlerA = Zlib.adler32 (raw pixels size rowbytes k) := by
  have ha := Zlib.sumA_lt (raw pixels size rowbytes k)
  rw [h.adlerA, h.adlerB, ← Nat.shiftLeft_add_eq_or_of_lt (by omega), Nat.shiftLeft_eq]
  rfl

/-- The IDAT chunk up to its trailer. -/
theorem Tracks.idat {cap : ℕ} (hcap : cap < 2 ^ 32) {pieces : List (List UInt8)} {w : PngWriter}
    (h : Tracks cap pieces w) (pixels : Mem) (size rowbytes rawTotal : ℕ) :
    let pw := putBytes (putBytes w (lit "IDAT")) zhdr
    let s := putBlocks pixels size rowbytes rawTotal 0 ⟨pw, 1, 0, ⟨0, 0, false⟩⟩
    Tracks cap (pieces ++ ([lit "IDAT"] ++ idatPuts (rawByte pixels size rowbytes) rawTotal))
        (putBe32 s.pw (s.adlerB <<< 16 ||| s.adlerA)) ∧
      s.cursor = cursorAt pixels size rowbytes rawTotal := by
  intro pw s
  have htag := h.put hcap (p := lit "IDAT") rfl (by decide) fun _ => rfl
  have hzlib := htag.put hcap (p := zhdr) rfl (by decide) fun _ => rfl
  have hat0 : At pixels size rowbytes 0 ⟨pw, 1, 0, ⟨0, 0, false⟩⟩ := ⟨rfl, rfl, rfl⟩
  obtain ⟨hat, hblocks⟩ := hat0.blocks hcap (Nat.zero_le rawTotal) hzlib
  have htrailer := hblocks.put hcap (p := beBytes 4 (s.adlerB <<< 16 ||| s.adlerA)) rfl (by simp)
    fun _ => rfl
  have hpieces : pieces ++ ([lit "IDAT"] ++ idatPuts (rawByte pixels size rowbytes) rawTotal) =
      pieces ++ [lit "IDAT"] ++ [zhdr] ++ blockPuts (rawByte pixels size rowbytes) rawTotal 0 ++
        [beBytes 4 (s.adlerB <<< 16 ||| s.adlerA)] := by
    rw [hat.adler]
    simp [idatPuts, raw]
  rw [hpieces]
  exact ⟨htrailer, hat.cursor⟩

/-! ### The run -/

section Run

variable (pixels : Mem) (w h : UInt16) (channels : UInt8) (out : Mem) (outSize : UInt32)

def rowbytes : ℕ := w.toNat * channels.toNat

/-- `raw_total` -/
def rawTotal : ℕ := (rowbytes w channels + 1) * h.toNat % 2 ^ 32

/-- The raw bytes that the loops come by. -/
def byteAt : ℕ → UInt8 := rawByte pixels (rowbytes w channels * h.toNat) (rowbytes w channels)

def idatOf : List (List UInt8) := idatPuts (byteAt pixels w h channels) (rawTotal w h channels)

/-- The pieces that `png_encode` puts. -/
def putsOf : List (List UInt8) :=
  filePuts (headPuts w.toNat h.toNat channels.toNat) (idatOf pixels w h channels)
    (idatOf pixels w h channels).flatten.length

/-- A pixel outside of the picture is read. -/
def overreads : Bool :=
  (cursorAt pixels (rowbytes w channels * h.toNat) (rowbytes w channels) (rawTotal w h channels)).overread

variable {channels}

/-- **The run**, for any sizes. -/
theorem pngEncode_tracks (hch : channels = 1 ∨ channels = 3) :
    ∃ pw, Tracks outSize.toNat (putsOf pixels w h channels) pw ∧
      pngEncode pixels w h channels out outSize =
        ⟨if pw.err = 0 then toInt pw.len else pw.err, pw.buf, overreads pixels w h channels⟩ := by
  have hcap : outSize.toNat < 2 ^ 32 := outSize.toNat_lt
  have hmagic := (Tracks.start outSize.toNat out).put hcap (p := magic) rfl (by decide) fun _ => rfl
  have hhdr : (ihdr w.toNat h.toNat channels.toNat).length < 2 ^ 32 := by
    simp [ihdr]
  have hhead : Tracks outSize.toNat (headPuts w.toNat h.toNat channels.toNat) _ :=
    hmagic.putChunk hcap (show (lit "IHDR").length = 4 from rfl) hhdr
  have hlen := hhead.put hcap (p := beBytes 4 0) rfl (by simp) fun _ => rfl
  generalize hpw2 : putChunk (putBytes ⟨.fresh outSize.toNat out, outSize.toNat, 0, 0⟩ magic) (lit "IHDR")
    (ihdr w.toNat h.toNat channels.toNat) = pw2 at hhead hlen
  let pw3 := putBytes pw2 (beBytes 4 0)
  obtain ⟨hall, hcursor⟩ := hlen.idat hcap pixels (rowbytes w channels * h.toNat) (rowbytes w channels)
    (rawTotal w h channels)
  generalize hs : putBlocks pixels (rowbytes w channels * h.toNat) (rowbytes w channels)
    (rawTotal w h channels) 0 ⟨putBytes (putBytes pw3 (lit "IDAT")) zhdr, 1, 0, ⟨0, 0, false⟩⟩ = s
    at hall hcursor
  have hall : Tracks outSize.toNat (headPuts w.toNat h.toNat channels.toNat ++ [beBytes 4 0] ++
      ([lit "IDAT"] ++ idatOf pixels w h channels)) (putBe32 s.pw (s.adlerB <<< 16 ||| s.adlerA)) := hall
  have hrun : pngEncode pixels w h channels out outSize =
      (let pw := putBe32 s.pw (s.adlerB <<< 16 ||| s.adlerA)
       if pw.err ≠ 0 then ⟨pw.err, pw.buf, s.cursor.overread⟩
       else
        let payload := (pw.len + 2 ^ 32 - pw3.len - 4) % 2 ^ 32
        let w1 : PngWriter := { pw with buf := pw.buf.write pw2.len (beBytes 4 payload) }
        let last := putChunk
          (putBe32 w1 (iotvCrc32 (slice w1.buf.bytes pw3.len ((4 + payload) % 2 ^ 32))).toNat)
          (lit "IEND") []
        ⟨if last.err = 0 then toInt last.len else last.err, last.buf, s.cursor.overread⟩) := by
    unfold pngEncode
    dsimp only
    rw [if_neg (by rcases hch with hch | hch <;> simp [hch]), hpw2]
    subst hs
    rfl
  rw [hrun, show s.cursor.overread = overreads pixels w h channels by rw [hcursor]; rfl]
  dsimp only
  by_cases herr : (putBe32 s.pw (s.adlerB <<< 16 ||| s.adlerA)).err = 0
  · rw [if_neg (not_not.mpr herr)]
    refine ⟨_, hall.finish hcap herr fun hfit => ?_, rfl⟩
    have htotal : (headPuts w.toNat h.toNat channels.toNat ++ [beBytes 4 0] ++
        ([lit "IDAT"] ++ idatOf pixels w h channels)).flatten.length =
        (headPuts w.toNat h.toNat channels.toNat ++ [beBytes 4 0]).flatten.length +
          ([lit "IDAT"] ++ idatOf pixels w h channels).flatten.length := by
      rw [List.flatten_append, List.length_append]
    have hpos : (headPuts w.toNat h.toNat channels.toNat ++ [beBytes 4 0]).flatten.length =
        (headPuts w.toNat h.toNat channels.toNat).flatten.length + 4 := by
      rw [List.flatten_append, List.length_append, List.flatten_singleton, beBytes_length]
    have htagPos := (hlen.fits (by omega)).len
    exact ⟨(hhead.fits (by omega)).len, htagPos.trans hpos⟩
  · rw [if_pos herr]
    exact ⟨putBe32 s.pw (s.adlerB <<< 16 ||| s.adlerA), hall.finish_err hcap herr, by rw [if_neg herr]⟩

end Run

/-! ### The sizes of the pieces -/

/-- The sizes of the pieces of the blocks. -/
def blockSizes (rawTotal emitted : ℕ) : List ℕ :=
  if _h : emitted < rawTotal then
    let block := blockAt rawTotal emitted
    5 :: List.replicate block 1 ++ blockSizes rawTotal (emitted + block)
  else []
termination_by rawTotal - emitted
decreasing_by
  have hblock := (blockAt_pos _h).1
  omega

/-- The sizes of the pieces that `png_encode` puts. -/
def putSizes (rawTotal : ℕ) : List ℕ :=
  [8, 4, 4, 13, 4, 4, 4, 2] ++ blockSizes rawTotal 0 ++ [4, 4, 4, 4, 0, 4]

/-- Blocks of at most 65535 bytes. -/
def blockCount (n : ℕ) : ℕ := (n + 65534) / 65535

theorem blockPuts_sizes (byte : ℕ → UInt8) (rawTotal emitted : ℕ) :
    (blockPuts byte rawTotal emitted).map List.length = blockSizes rawTotal emitted := by
  induction emitted using blockSizes.induct rawTotal with
  | case1 emitted hlt block ih =>
    have hsingle (i : ℕ) : ([byte (emitted + i)] : List UInt8).length = 1 := rfl
    rw [blockPuts, dif_pos hlt, blockSizes, dif_pos hlt]
    dsimp only
    rw [List.map_append, List.map_cons, bhdr_length, List.map_map, ih]
    simp only [Function.comp_def, hsingle, List.map_const', List.length_range]
    rfl
  | case2 emitted hnot =>
    rw [blockPuts, dif_neg hnot, blockSizes, dif_neg hnot]
    rfl

theorem blockSizes_sum (rawTotal emitted : ℕ) :
    (blockSizes rawTotal emitted).sum = rawTotal - emitted + 5 * blockCount (rawTotal - emitted) := by
  induction emitted using blockSizes.induct rawTotal with
  | case1 emitted hlt block ih =>
    rw [blockSizes, dif_pos hlt]
    dsimp only
    have hblock : block = if 65535 < rawTotal - emitted then 65535 else rawTotal - emitted := rfl
    rw [List.sum_append, List.sum_cons, List.sum_replicate, smul_eq_mul, mul_one]
    show 5 + block + (blockSizes rawTotal (emitted + block)).sum = _
    rw [ih]
    simp only [blockCount]
    split_ifs at hblock with hmax
    · omega
    · omega
  | case2 emitted hnot =>
    rw [blockSizes, dif_neg hnot, show rawTotal - emitted = 0 by omega]
    rfl

/-- The size of what is put. -/
def putSize (rawTotal : ℕ) : ℕ := 63 + rawTotal + 5 * blockCount rawTotal

theorem putSizes_sum (rawTotal : ℕ) : (putSizes rawTotal).sum = putSize rawTotal := by
  rw [putSizes, List.sum_append, List.sum_append, blockSizes_sum, putSize, Nat.sub_zero]
  show 43 + _ + 20 = _
  omega

theorem putsOf_sizes (pixels : Mem) (w h : UInt16) (channels : UInt8) :
    (putsOf pixels w h channels).map List.length = putSizes (rawTotal w h channels) := by
  have hhead : (headPuts w.toNat h.toNat channels.toNat).map List.length = [8, 4, 4, 13, 4] := by
    simp [headPuts, chunkPuts, ihdr, magic]
  simp only [putsOf, filePuts, idatOf, idatPuts, List.map_append, hhead, blockPuts_sizes, chunkPuts,
    List.map_cons, List.map_nil, beBytes_length, putSizes, List.append_assoc]
  rfl

theorem putsOf_length (pixels : Mem) (w h : UInt16) (channels : UInt8) :
    (putsOf pixels w h channels).flatten.length = putSize (rawTotal w h channels) := by
  rw [List.length_flatten, putsOf_sizes, putSizes_sum]

end IotcRa8p1.App.PngGray
