import IotcRa8p1.Lib.Buffer
import IotcRa8p1.Lib.Loop
import IotcRa8p1.Lib.Png
import IotcRa8p1.ModelStore.Validate

/-!
# The PNG encoder (`png_gray.c`)

`png_encode` puts a file together piece by piece with `put_bytes`, which remembers the first piece that does
not fit and drops every later one.  `size_t` has 32 bits.

`Tracks` says where the writer stands behind any pieces, from their lengths alone: they are all there, or one of
them ended behind the buffer, or the length wrapped around and a piece went outside.  `cursorAt` is the
position in the picture behind a number of raw bytes.
-/

namespace IotcRa8p1.App.PngGray

open ByteMem CString Loop ModelStore

/-! ### The writer -/

/-- `struct png_writer` -/
structure PngWriter where
  buf : Buffer
  cap : ℕ
  len : ℕ
  err : ℤ

/-- `put_bytes` -/
def putBytes (w : PngWriter) (data : List UInt8) : PngWriter :=
  if w.err ≠ 0 then w
  else if w.cap < (w.len + data.length) % 2 ^ 32 then { w with err := -12 }
  else { w with buf := w.buf.write w.len data, len := (w.len + data.length) % 2 ^ 32 }

/-- `put_be32` -/
def putBe32 (w : PngWriter) (v : ℕ) : PngWriter := putBytes w (beBytes 4 v)

/-- `put_chunk` -/
def putChunk (w : PngWriter) (tag payload : List UInt8) : PngWriter :=
  let w := putBe32 w payload.length
  let crcStart := w.len
  let w := putBytes w tag
  let w := putBytes w payload
  if w.err = 0 then putBe32 w (iotvCrc32 (slice w.buf.bytes crcStart (4 + payload.length))).toNat
  else w

/-! ### The raw bytes -/

/-- `row` and `col`, and whether a byte behind the pixels was read. -/
structure Cursor where
  row : ℕ
  col : ℕ
  overread : Bool

/-- The byte at the cursor, and the cursor behind it; there are `size` bytes of pixels. -/
def nextByte (pixels : Mem) (size rowbytes : ℕ) (c : Cursor) : UInt8 × Cursor :=
  if c.col = 0 then (0, { c with col := 1 })
  else
    let off := (c.row * rowbytes + (c.col - 1)) % 2 ^ 32
    let overread := c.overread || decide (size ≤ off)
    let col := (c.col + 1) % 2 ^ 32
    (pixels off,
      if col = rowbytes + 1 then ⟨(c.row + 1) % 2 ^ 32, 0, overread⟩ else ⟨c.row, col, overread⟩)

/-- The variables of the loops. -/
structure Stream where
  pw : PngWriter
  adlerA : ℕ
  adlerB : ℕ
  cursor : Cursor

/-- One round of the loop over a block. -/
def putRaw (pixels : Mem) (size rowbytes : ℕ) (s : Stream) : Stream :=
  let next := nextByte pixels size rowbytes s.cursor
  let adlerA := (s.adlerA + next.1.toNat) % 65521
  ⟨putBytes s.pw [next.1], adlerA, (s.adlerB + adlerA) % 65521, next.2⟩

/-- `bhdr`; `~block` is a complement of 32 bits. -/
def bhdr (emitted block rawTotal : ℕ) : List UInt8 :=
  [if emitted + block = rawTotal then 1 else 0, UInt8.ofNat (block % 256), UInt8.ofNat (block / 256),
    UInt8.ofNat ((2 ^ 32 - 1 - block) % 256), UInt8.ofNat ((2 ^ 32 - 1 - block) / 256 % 256)]

/-- `STORED_BLOCK_MAX` -/
abbrev storedBlockMax : ℕ := 65535

/-- The size of the next block. -/
def blockAt (rawTotal emitted : ℕ) : ℕ :=
  if storedBlockMax < rawTotal - emitted then storedBlockMax else rawTotal - emitted

theorem blockAt_pos {rawTotal emitted : ℕ} (h : emitted < rawTotal) :
    0 < blockAt rawTotal emitted ∧ emitted + blockAt rawTotal emitted ≤ rawTotal := by
  rw [blockAt]
  split_ifs with hmax
  · exact ⟨by decide, by omega⟩
  · omega

/-- The loop over the blocks. -/
def putBlocks (pixels : Mem) (size rowbytes rawTotal emitted : ℕ) (s : Stream) : Stream :=
  if _h : emitted < rawTotal then
    let block := blockAt rawTotal emitted
    let s := { s with pw := putBytes s.pw (bhdr emitted block rawTotal) }
    putBlocks pixels size rowbytes rawTotal (emitted + block)
      (forLoop block (fun _ s => putRaw pixels size rowbytes s) s)
  else s
termination_by rawTotal - emitted
decreasing_by
  have hblock := (blockAt_pos _h).1
  omega

/-! ### `png_encode` -/

structure EncodeRun where
  rc : ℤ
  buf : Buffer
  overread : Bool

/-- A conversion to `int`. -/
def toInt (n : ℕ) : ℤ := if n < 2 ^ 31 then n else n - 2 ^ 32

/-- `magic` -/
def magic : List UInt8 := [0x89, 0x50, 0x4e, 0x47, 0x0d, 0x0a, 0x1a, 0x0a]

/-- `zhdr` -/
def zhdr : List UInt8 := [0x78, 0x01]

/-- `ihdr` -/
def ihdr (w h channels : ℕ) : List UInt8 :=
  beBytes 4 w ++ beBytes 4 h ++ [8, if channels = 3 then 2 else 0, 0, 0, 0]

/-- `png_encode` -/
def pngEncode (pixels : Mem) (w h : UInt16) (channels : UInt8) (out : Mem) (outSize : UInt32) :
    EncodeRun :=
  let pw : PngWriter := ⟨.fresh outSize.toNat out, outSize.toNat, 0, 0⟩
  if channels ≠ 1 ∧ channels ≠ 3 then ⟨-22, pw.buf, false⟩
  else
    let rowbytes := w.toNat * channels.toNat
    let pw := putBytes pw magic
    let pw := putChunk pw (lit "IHDR") (ihdr w.toNat h.toNat channels.toNat)
    let rawTotal := (rowbytes + 1) * h.toNat % 2 ^ 32
    let idatLenPos := pw.len
    let pw := putBe32 pw 0
    let idatTagPos := pw.len
    let pw := putBytes pw (lit "IDAT")
    let pw := putBytes pw zhdr
    let s := putBlocks pixels (rowbytes * h.toNat) rowbytes rawTotal 0 ⟨pw, 1, 0, ⟨0, 0, false⟩⟩
    let pw := putBe32 s.pw (s.adlerB <<< 16 ||| s.adlerA)
    if pw.err ≠ 0 then ⟨pw.err, pw.buf, s.cursor.overread⟩
    else
      let idatPayload := (pw.len + 2 ^ 32 - idatTagPos - 4) % 2 ^ 32
      let pw := { pw with buf := pw.buf.write idatLenPos (beBytes 4 idatPayload) }
      let crc := iotvCrc32 (slice pw.buf.bytes idatTagPos ((4 + idatPayload) % 2 ^ 32))
      let pw := putBe32 pw crc.toNat
      let pw := putChunk pw (lit "IEND") []
      ⟨if pw.err = 0 then toInt pw.len else pw.err, pw.buf, s.cursor.overread⟩

/-! ### Where the writer stands -/

/-- A piece ends behind the buffer and before the length wraps around. -/
def Hits (cap : ℕ) (sizes : List ℕ) : Prop :=
  ∃ front, front <+: sizes ∧ cap < front.sum ∧ front.sum < 2 ^ 32

/-- The bytes that were put are in the buffer. -/
structure Holds (bs : List UInt8) (w : PngWriter) : Prop where
  err : w.err = 0
  len : w.len = bs.length
  bytes : slice w.buf.bytes 0 bs.length = bs
  inside : w.buf.overrun = false

/-- The pieces that were put, and the writer behind them. -/
structure Tracks (cap : ℕ) (pieces : List (List UInt8)) (w : PngWriter) : Prop where
  capacity : w.cap = cap
  size : w.buf.size = cap
  fits : pieces.flatten.length ≤ cap → Holds pieces.flatten w
  full : Hits cap (pieces.map List.length) → w.err = -12 ∧ w.buf.overrun = false
  wraps : cap < pieces.flatten.length → ¬ Hits cap (pieces.map List.length) → w.buf.overrun = true

theorem prefix_sum_le {front sizes : List ℕ} (h : front <+: sizes) : front.sum ≤ sizes.sum := by
  obtain ⟨back, rfl⟩ := h
  rw [List.sum_append]
  exact Nat.le_add_right _ _

theorem hits_concat {cap n : ℕ} {sizes : List ℕ} :
    Hits cap (sizes ++ [n]) ↔
      Hits cap sizes ∨ cap < sizes.sum + n ∧ sizes.sum + n < 2 ^ 32 := by
  have hsum : (sizes ++ [n]).sum = sizes.sum + n := by rw [List.sum_append, List.sum_singleton]
  constructor
  · intro ⟨front, hfront, hlo, hhi⟩
    rcases List.prefix_concat_iff.mp hfront with hall | hfront
    · rw [hall, hsum] at hlo hhi
      exact Or.inr ⟨hlo, hhi⟩
    · exact Or.inl ⟨front, hfront, hlo, hhi⟩
  · intro h
    rcases h with ⟨front, hfront, hlo, hhi⟩ | ⟨hlo, hhi⟩
    · exact ⟨front, hfront.trans (List.prefix_append _ _), hlo, hhi⟩
    · exact ⟨sizes ++ [n], List.prefix_rfl, by rwa [hsum], by rwa [hsum]⟩

/-- Pieces that fit do not hit the end. -/
theorem not_hits {cap : ℕ} {sizes : List ℕ} (h : sizes.sum ≤ cap) : ¬ Hits cap sizes := by
  intro ⟨front, hfront, hlo, _⟩
  exact absurd (prefix_sum_le hfront) (by omega)

theorem putBytes_of_err {w : PngWriter} (h : w.err ≠ 0) (data : List UInt8) : putBytes w data = w :=
  if_pos h

theorem putBytes_buf_size (w : PngWriter) (data : List UInt8) :
    (putBytes w data).cap = w.cap ∧ (putBytes w data).buf.size = w.buf.size := by
  rw [putBytes]
  split_ifs
  · exact ⟨rfl, rfl⟩
  · exact ⟨rfl, rfl⟩
  · exact ⟨rfl, rfl⟩

/-- What has gone outside has gone outside. -/
theorem putBytes_overrun {w : PngWriter} (h : w.buf.overrun = true) (data : List UInt8) :
    (putBytes w data).buf.overrun = true := by
  rw [putBytes]
  split_ifs
  · exact h
  · exact h
  · show (w.buf.overrun || _) = true
    rw [h, Bool.true_or]

/-- A piece that fits. -/
theorem Holds.put {bs p : List UInt8} {w : PngWriter} (h : Holds bs w) (hcap : w.cap < 2 ^ 32)
    (hsize : w.buf.size = w.cap) (hfit : bs.length + p.length ≤ w.cap) :
    Holds (bs ++ p) (putBytes w p) := by
  have hput : putBytes w p =
      { w with buf := w.buf.write w.len p, len := bs.length + p.length } := by
    rw [putBytes, if_neg (by simp [h.err]), h.len, Nat.mod_eq_of_lt (by omega), if_neg (by omega)]
  rw [hput]
  constructor
  · exact h.err
  · exact List.length_append.symm
  · show slice (w.buf.write w.len p).bytes 0 _ = _
    rw [h.len, List.length_append, Buffer.write_append, h.bytes]
  · show (w.buf.write w.len p).overrun = false
    rw [Buffer.write_overrun _ (by rw [h.len, hsize]; exact hfit), h.inside]

/-- A piece that does not fit. -/
theorem Holds.put_full {bs q : List UInt8} {w : PngWriter} (h : Holds bs w)
    (hover : w.cap < bs.length + q.length) (hsmall : bs.length + q.length < 2 ^ 32) :
    putBytes w q = { w with err := -12 } := by
  rw [putBytes, if_neg (by simp [h.err]), h.len, Nat.mod_eq_of_lt hsmall, if_pos hover]

/-- A piece for which the sum of the lengths wraps around: it passes the check and goes outside. -/
theorem Holds.put_wraps {bs q : List UInt8} {w : PngWriter} (h : Holds bs w) (hcap : w.cap < 2 ^ 32)
    (hsize : w.buf.size = w.cap) (hbs : bs.length ≤ w.cap) (hq : q.length ≤ 2 ^ 32)
    (hlarge : 2 ^ 32 ≤ bs.length + q.length) : (putBytes w q).buf.overrun = true := by
  have hput : putBytes w q =
      { w with buf := w.buf.write w.len q, len := (w.len + q.length) % 2 ^ 32 } := by
    rw [putBytes, if_neg (by simp [h.err]), h.len, if_neg (by omega)]
  have hne : q ≠ [] := by
    intro hnil
    rw [hnil, List.length_nil] at hlarge
    omega
  rw [hput]
  show (w.buf.overrun || decide (q ≠ [] ∧ w.buf.size < w.len + q.length)) = true
  rw [decide_eq_true ⟨hne, by rw [hsize, h.len]; omega⟩, Bool.or_true]

/-- **One piece.**  Its length is known; what it holds matters only when it fits. -/
theorem Tracks.put {cap : ℕ} {pieces : List (List UInt8)} {w : PngWriter} (h : Tracks cap pieces w)
    (hcap : cap < 2 ^ 32) {p q : List UInt8} (hlen : q.length = p.length) (hp : p.length ≤ 2 ^ 32)
    (hsame : (pieces ++ [p]).flatten.length ≤ cap → q = p) :
    Tracks cap (pieces ++ [p]) (putBytes w q) := by
  have hflat : (pieces ++ [p]).flatten = pieces.flatten ++ p := by
    rw [List.flatten_append, List.flatten_singleton]
  have htotal : (pieces ++ [p]).flatten.length = pieces.flatten.length + p.length := by
    rw [hflat, List.length_append]
  have hsum : (pieces.map List.length).sum = pieces.flatten.length := List.length_flatten.symm
  have hhits : Hits cap ((pieces ++ [p]).map List.length) ↔ Hits cap (pieces.map List.length) ∨
      cap < pieces.flatten.length + p.length ∧ pieces.flatten.length + p.length < 2 ^ 32 := by
    rw [List.map_append, List.map_singleton, hits_concat, hsum]
  have hsize : w.buf.size = w.cap := by rw [h.size, h.capacity]
  have hwcap : w.cap < 2 ^ 32 := by rw [h.capacity]; exact hcap
  refine ⟨(putBytes_buf_size w q).1.trans h.capacity, (putBytes_buf_size w q).2.trans h.size,
    fun hfit => ?_, fun hnow => ?_, fun hover hno => ?_⟩
  · -- the piece fits, so the pieces before it do
    obtain rfl := hsame hfit
    rw [htotal] at hfit
    rw [hflat]
    exact (h.fits (by omega)).put hwcap hsize (by rw [h.capacity]; exact hfit)
  · rcases hhits.mp hnow with hbefore | ⟨hlo, hhi⟩
    · -- an earlier piece did not fit
      rw [putBytes_of_err (by rw [(h.full hbefore).1]; decide)]
      exact h.full hbefore
    · by_cases hfit : pieces.flatten.length ≤ cap
      · have hw := h.fits hfit
        rw [hw.put_full (by rw [h.capacity, hlen]; exact hlo) (by rw [hlen]; exact hhi)]
        exact ⟨rfl, hw.inside⟩
      · have hbefore : Hits cap (pieces.map List.length) :=
          ⟨_, List.prefix_rfl, by rw [hsum]; omega, by rw [hsum]; omega⟩
        rw [putBytes_of_err (by rw [(h.full hbefore).1]; decide)]
        exact h.full hbefore
  · rw [htotal] at hover
    rw [hhits, not_or] at hno
    by_cases hfit : pieces.flatten.length ≤ cap
    · exact (h.fits hfit).put_wraps hwcap hsize (by rw [h.capacity]; exact hfit) (by omega) (by omega)
    · exact putBytes_overrun (h.wraps (by omega) hno.1) q

/-- No piece is put. -/
theorem Tracks.start (cap : ℕ) (out : Mem) : Tracks cap [] ⟨.fresh cap out, cap, 0, 0⟩ where
  capacity := rfl
  size := rfl
  fits _ := ⟨rfl, rfl, rfl, rfl⟩
  full hhits := absurd hhits (not_hits (Nat.zero_le cap))
  wraps hover := absurd hover (Nat.not_lt_zero cap)

/-- In the error state a piece counts as put. -/
theorem Tracks.skip {cap : ℕ} {pieces : List (List UInt8)} {w : PngWriter} (h : Tracks cap pieces w)
    (hcap : cap < 2 ^ 32) (herr : w.err ≠ 0) {p : List UInt8} (hp : p.length ≤ 2 ^ 32) :
    Tracks cap (pieces ++ [p]) w := by
  have hput := h.put hcap (p := p) rfl hp fun _ => rfl
  rwa [putBytes_of_err herr] at hput

/-- In the error state only the lengths of the pieces matter. -/
theorem Tracks.resize {cap : ℕ} {pieces pieces' : List (List UInt8)} {w : PngWriter}
    (h : Tracks cap pieces w) (herr : w.err ≠ 0)
    (hsizes : pieces'.map List.length = pieces.map List.length) : Tracks cap pieces' w := by
  have htotal : pieces'.flatten.length = pieces.flatten.length := by
    rw [List.length_flatten, List.length_flatten, hsizes]
  refine ⟨h.capacity, h.size, fun hfit => ?_, fun hhits => ?_, fun hover hno => ?_⟩
  · rw [htotal] at hfit
    exact absurd (h.fits hfit).err herr
  · rw [hsizes] at hhits
    exact h.full hhits
  · rw [htotal] at hover
    rw [hsizes] at hno
    exact h.wraps hover hno

/-- Overwrite a piece by one of its length. -/
theorem Tracks.patch {cap : ℕ} {front back : List (List UInt8)} {p q r : List UInt8} {w : PngWriter}
    {off : ℕ} (h : Tracks cap (front ++ [p] ++ back) w) (herr : w.err = 0) (hlen : q.length = p.length)
    (hr : r.length = q.length)
    (hsame : (front ++ [p] ++ back).flatten.length ≤ cap → off = front.flatten.length ∧ r = q) :
    Tracks cap (front ++ [q] ++ back) { w with buf := w.buf.write off r } := by
  have hsizes : (front ++ [q] ++ back).map List.length = (front ++ [p] ++ back).map List.length := by
    simp only [List.map_append, List.map_cons, List.map_nil, hlen]
  have htotal : (front ++ [q] ++ back).flatten.length = (front ++ [p] ++ back).flatten.length := by
    rw [List.length_flatten, List.length_flatten, hsizes]
  have hflat (x : List UInt8) : (front ++ [x] ++ back).flatten = front.flatten ++ x ++ back.flatten := by
    simp only [List.flatten_append, List.flatten_singleton]
  refine ⟨h.capacity, h.size, fun hfit => ?_, fun hhits => ?_, fun hover hno => ?_⟩
  · rw [htotal] at hfit
    obtain ⟨hoff, rfl⟩ := hsame hfit
    have hw := h.fits hfit
    have hsplit : (front ++ [p] ++ back).flatten.length =
        front.flatten.length + r.length + back.flatten.length := by
      rw [hflat, List.length_append, List.length_append, hlen]
    have hbytes := hw.bytes
    rw [hflat] at hbytes
    have hbefore : slice w.buf.bytes 0 front.flatten.length = front.flatten :=
      slice_of_append [] _ (p ++ back.flatten) (by rw [List.nil_append, ← List.append_assoc]; exact hbytes)
        _ _ rfl rfl
    have hbehind : slice w.buf.bytes (front.flatten.length + r.length) back.flatten.length =
        back.flatten :=
      slice_of_append (front.flatten ++ p) _ [] (by rw [List.append_nil]; exact hbytes) _ _
        (by rw [List.length_append, Nat.zero_add, hlen]) rfl
    refine ⟨hw.err, hw.len.trans htotal.symm, ?_, ?_⟩
    · -- the bytes before the piece, the piece and the bytes behind it
      show slice (w.buf.write off r).bytes 0 _ = _
      rw [htotal, hsplit, hflat, slice_add, hoff, Buffer.write_append, hbefore, Nat.zero_add,
        Buffer.write_bytes, slice_store_disjoint _ _ _ _ _ (Or.inr le_rfl), hbehind]
    · show (w.buf.write off r).overrun = false
      rw [Buffer.write_overrun _ (by rw [h.size, hoff]; omega), hw.inside]
  · rw [hsizes] at hhits
    have hfull := (h.full hhits).1
    rw [herr] at hfull
    exact absurd hfull (by decide)
  · rw [hsizes] at hno
    rw [htotal] at hover
    show (w.buf.overrun || _) = true
    rw [h.wraps hover hno, Bool.true_or]

/-! ### Chunks -/

theorem iotvCrc32_toNat (bs : List UInt8) : (iotvCrc32 bs).toNat = (Png.crc32 bs).toNat := by
  show (~~~ bs.foldl crcByte 0xFFFFFFFF).toBitVec.toNat = _
  rw [UInt32.toBitVec_not, foldl_crcByte_toBitVec]
  rfl

/-- The pieces of `put_chunk`. -/
def chunkPuts (tag payload : List UInt8) : List (List UInt8) :=
  [beBytes 4 payload.length, tag, payload, beBytes 4 (Png.crc32 (tag ++ payload)).toNat]

theorem chunkPuts_flatten (tag payload : List UInt8) :
    (chunkPuts tag payload).flatten = Png.chunk tag payload := by
  simp [chunkPuts, Png.chunk]

theorem Tracks.putChunk {cap : ℕ} {pieces : List (List UInt8)} {w : PngWriter} (h : Tracks cap pieces w)
    (hcap : cap < 2 ^ 32) {tag payload : List UInt8} (htag : tag.length = 4)
    (hpayload : payload.length < 2 ^ 32) :
    Tracks cap (pieces ++ chunkPuts tag payload) (putChunk w tag payload) := by
  have h1 := h.put hcap (p := beBytes 4 payload.length) rfl (by simp) fun _ => rfl
  have h2 := h1.put hcap (p := tag) rfl (by omega) fun _ => rfl
  have h3 := h2.put hcap (p := payload) rfl (by omega) fun _ => rfl
  have hpieces : pieces ++ chunkPuts tag payload =
      pieces ++ [beBytes 4 payload.length] ++ [tag] ++ [payload] ++
        [beBytes 4 (Png.crc32 (tag ++ payload)).toNat] := by
    simp [chunkPuts]
  unfold PngGray.putChunk putBe32
  rw [hpieces]
  dsimp only
  split_ifs with herr
  · apply h3.put hcap (by simp) (by simp)
    intro hfit
    -- the tag and the payload stand behind the length
    have hflat : (pieces ++ [beBytes 4 payload.length] ++ [tag] ++ [payload]).flatten =
        (pieces ++ [beBytes 4 payload.length]).flatten ++ (tag ++ payload) := by
      simp [List.append_assoc]
    have hle : (pieces ++ [beBytes 4 payload.length] ++ [tag] ++ [payload]).flatten.length ≤ cap := by
      rw [List.flatten_append, List.length_append] at hfit
      omega
    have hle1 : (pieces ++ [beBytes 4 payload.length]).flatten.length ≤ cap := by
      rw [hflat, List.length_append] at hle
      omega
    have hbytes := (h3.fits hle).bytes
    rw [hflat] at hbytes
    rw [(h1.fits hle1).len, iotvCrc32_toNat]
    rw [slice_of_append _ (tag ++ payload) [] (by rw [List.append_nil]; exact hbytes) _ _ (Nat.zero_add _).symm
      (by rw [List.length_append, htag])]
  · exact h3.skip hcap herr (by simp)

/-! ### Blocks -/

section Blocks

variable (pixels : Mem) (size rowbytes : ℕ)

/-- The cursor behind `k` raw bytes. -/
def cursorAt (k : ℕ) : Cursor := (fun c => (nextByte pixels size rowbytes c).2)^[k] ⟨0, 0, false⟩

def rawByte (k : ℕ) : UInt8 := (nextByte pixels size rowbytes (cursorAt pixels size rowbytes k)).1

/-- The first `k` raw bytes. -/
def raw (k : ℕ) : List UInt8 := (List.range k).map (rawByte pixels size rowbytes)

theorem cursorAt_succ (k : ℕ) :
    cursorAt pixels size rowbytes (k + 1) =
      (nextByte pixels size rowbytes (cursorAt pixels size rowbytes k)).2 :=
  Function.iterate_succ_apply' _ k _

theorem raw_succ (k : ℕ) :
    raw pixels size rowbytes (k + 1) = raw pixels size rowbytes k ++ [rawByte pixels size rowbytes k] := by
  rw [raw, List.range_succ, List.map_append, List.map_singleton, raw]

/-- The variables of the loops behind `k` raw bytes. -/
structure At (k : ℕ) (s : Stream) : Prop where
  cursor : s.cursor = cursorAt pixels size rowbytes k
  adlerA : s.adlerA = Zlib.sumA (raw pixels size rowbytes k)
  adlerB : s.adlerB = Zlib.sumB (raw pixels size rowbytes k)

/-- The pieces of the blocks from `emitted` on, when the raw bytes are `byte`. -/
def blockPuts (byte : ℕ → UInt8) (rawTotal emitted : ℕ) : List (List UInt8) :=
  if _h : emitted < rawTotal then
    let block := blockAt rawTotal emitted
    bhdr emitted block rawTotal :: (List.range block).map (fun i => [byte (emitted + i)]) ++
      blockPuts byte rawTotal (emitted + block)
  else []
termination_by rawTotal - emitted
decreasing_by
  have hblock := (blockAt_pos _h).1
  omega

variable {pixels size rowbytes}

/-- One raw byte. -/
theorem At.putRaw {k : ℕ} {s : Stream} (h : At pixels size rowbytes k s) :
    At pixels size rowbytes (k + 1) (putRaw pixels size rowbytes s) ∧
      (putRaw pixels size rowbytes s).pw = putBytes s.pw [rawByte pixels size rowbytes k] := by
  have hbyte : (nextByte pixels size rowbytes s.cursor).1 = rawByte pixels size rowbytes k := by
    rw [h.cursor, rawByte]
  refine ⟨⟨?_, ?_, ?_⟩, ?_⟩
  · rw [cursorAt_succ, ← h.cursor]
    rfl
  · show (s.adlerA + (nextByte pixels size rowbytes s.cursor).1.toNat) % 65521 = _
    rw [hbyte, h.adlerA, raw_succ, Zlib.sumA_concat]
  · show (s.adlerB + (s.adlerA + (nextByte pixels size rowbytes s.cursor).1.toNat) % 65521) % 65521 = _
    rw [hbyte, h.adlerA, h.adlerB, raw_succ, Zlib.sumB_concat, Zlib.sumA_concat]
  · show putBytes s.pw [(nextByte pixels size rowbytes s.cursor).1] = _
    rw [hbyte]

/-- The loop over a block. -/
theorem At.block {cap : ℕ} (hcap : cap < 2 ^ 32) {pieces : List (List UInt8)} {k : ℕ} {s : Stream}
    (h : At pixels size rowbytes k s) (ht : Tracks cap pieces s.pw) (n : ℕ) :
    At pixels size rowbytes (k + n) (forLoop n (fun _ s => PngGray.putRaw pixels size rowbytes s) s) ∧
      Tracks cap (pieces ++ (List.range n).map fun i => [rawByte pixels size rowbytes (k + i)])
        (forLoop n (fun _ s => PngGray.putRaw pixels size rowbytes s) s).pw := by
  apply forLoop_invariant (fun i s => At pixels size rowbytes (k + i) s ∧
    Tracks cap (pieces ++ (List.range i).map fun i => [rawByte pixels size rowbytes (k + i)]) s.pw)
  · rw [List.range_zero, List.map_nil, List.append_nil]
    exact ⟨h, ht⟩
  · intro i t _ hi
    obtain ⟨hnext, hput⟩ := hi.1.putRaw
    refine ⟨hnext, ?_⟩
    rw [hput, List.range_succ, List.map_append, ← List.append_assoc, List.map_singleton]
    exact hi.2.put hcap (p := [rawByte pixels size rowbytes (k + i)]) rfl (by simp) fun _ => rfl

theorem bhdr_length (emitted block rawTotal : ℕ) : (bhdr emitted block rawTotal).length = 5 := rfl

/-- **The loop over the blocks.** -/
theorem At.blocks {cap : ℕ} (hcap : cap < 2 ^ 32) {pieces : List (List UInt8)} {rawTotal k : ℕ}
    {s : Stream} (hk : k ≤ rawTotal) (h : At pixels size rowbytes k s) (ht : Tracks cap pieces s.pw) :
    At pixels size rowbytes rawTotal (putBlocks pixels size rowbytes rawTotal k s) ∧
      Tracks cap (pieces ++ blockPuts (rawByte pixels size rowbytes) rawTotal k)
        (putBlocks pixels size rowbytes rawTotal k s).pw := by
  induction k, s using putBlocks.induct pixels size rowbytes rawTotal generalizing pieces with
  | case1 k s hlt block s' =>
    rename_i ih
    have hhdr : Tracks cap (pieces ++ [bhdr k block rawTotal]) s'.pw :=
      ht.put hcap (p := bhdr k block rawTotal) rfl (by rw [bhdr_length]; decide) fun _ => rfl
    have hs' : At pixels size rowbytes k s' := ⟨h.cursor, h.adlerA, h.adlerB⟩
    obtain ⟨hat, htracks⟩ := hs'.block hcap hhdr block
    rw [putBlocks, dif_pos hlt, blockPuts, dif_pos hlt]
    have hrest := ih (blockAt_pos hlt).2 hat htracks
    rw [List.append_assoc, List.append_assoc] at hrest
    exact hrest
  | case2 k s hnot =>
    obtain rfl : k = rawTotal := by omega
    rw [putBlocks, dif_neg hnot, blockPuts, dif_neg hnot, List.append_nil]
    exact ⟨h, ht⟩

end Blocks

end IotcRa8p1.App.PngGray
