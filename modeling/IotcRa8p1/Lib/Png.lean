import IotcRa8p1.Lib.CString
import IotcRa8p1.Lib.Crc
import IotcRa8p1.Lib.Zlib

/-!
# PNG files of stored rows

A file is the signature and three chunks, IHDR, IDAT and IEND, each with its length before it and its CRC-32
behind it.  Images have 8 bits a sample, one sample a pixel or three, no interlacing and no row filter; their
rows, each behind a filter byte, stand in one zlib stream of stored blocks.

`decode` checks all of it and rejects every other file.  `decode_encode` is the round trip.
-/

namespace IotcRa8p1.Png

open ByteMem CString

/-! ### Chunks -/

def crc32 (bs : List UInt8) : BitVec 32 :=
  ~~~ (bs.map UInt8.toBitVec).foldl (Crc.feed 0xEDB88320#32) (BitVec.allOnes 32)

def chunk (tag data : List UInt8) : List UInt8 :=
  beBytes 4 data.length ++ tag ++ data ++ beBytes 4 (crc32 (tag ++ data)).toNat

/-- The tag and the data of the first chunk, and what follows it. -/
def takeChunk (bs : List UInt8) : Option (List UInt8 × List UInt8 × List UInt8) :=
  let len := beNat (bs.take 4)
  let tag := (bs.drop 4).take 4
  let data := (bs.drop 8).take len
  if 2 ^ 31 ≤ len ∨ bs.length < 12 + len then none
  else if (bs.drop (8 + len)).take 4 ≠ beBytes 4 (crc32 (tag ++ data)).toNat then none
  else some (tag, data, bs.drop (12 + len))

theorem chunk_length {tag : List UInt8} (htag : tag.length = 4) (data : List UInt8) :
    (chunk tag data).length = 12 + data.length := by
  simp only [chunk, List.length_append, beBytes_length, htag]
  omega

theorem takeChunk_chunk {tag data : List UInt8} (htag : tag.length = 4) (hdata : data.length < 2 ^ 31)
    (rest : List UInt8) : takeChunk (chunk tag data ++ rest) = some (tag, data, rest) := by
  have hchunk : chunk tag data ++ rest = beBytes 4 data.length ++
      (tag ++ (data ++ (beBytes 4 (crc32 (tag ++ data)).toNat ++ rest))) := by
    simp only [chunk, List.append_assoc]
  have hlen : beNat ((chunk tag data ++ rest).take 4) = data.length := by
    rw [hchunk, List.take_left' (beBytes_length 4 _), beNat_beBytes_of_lt 4 _ (by omega)]
  have h4 : (chunk tag data ++ rest).drop 4 =
      tag ++ (data ++ (beBytes 4 (crc32 (tag ++ data)).toNat ++ rest)) := by
    rw [hchunk, List.drop_left' (beBytes_length 4 _)]
  have h8 : (chunk tag data ++ rest).drop 8 =
      data ++ (beBytes 4 (crc32 (tag ++ data)).toNat ++ rest) := by
    rw [show 8 = 4 + 4 from rfl, ← List.drop_drop, h4, List.drop_left' htag]
  have hcrc : (chunk tag data ++ rest).drop (8 + data.length) =
      beBytes 4 (crc32 (tag ++ data)).toNat ++ rest := by
    rw [← List.drop_drop, h8, List.drop_left]
  have hrest : (chunk tag data ++ rest).drop (12 + data.length) = rest := by
    rw [show 12 + data.length = 8 + data.length + 4 by omega, ← List.drop_drop, hcrc,
      List.drop_left' (beBytes_length 4 _)]
  unfold takeChunk
  dsimp only
  rw [hlen, h4, h8, hcrc, hrest, List.take_left' htag, List.take_left,
    List.take_left' (beBytes_length 4 _), List.length_append, chunk_length htag, if_neg (by omega),
    if_neg (fun h => h rfl)]

/-! ### Rows -/

/-- The rows, each behind a filter byte that says there is no filter. -/
def filterNone (rowBytes : ℕ) : ℕ → List UInt8 → List UInt8
  | 0, _ => []
  | h + 1, pixels => 0 :: (pixels.take rowBytes ++ filterNone rowBytes h (pixels.drop rowBytes))

def unfilter (rowBytes : ℕ) : ℕ → List UInt8 → Option (List UInt8)
  | 0, raw => if raw = [] then some [] else none
  | _ + 1, [] => none
  | h + 1, filter :: raw =>
    if filter ≠ 0 ∨ raw.length < rowBytes then none
    else (unfilter rowBytes h (raw.drop rowBytes)).map fun rest => raw.take rowBytes ++ rest

theorem unfilter_filterNone {rowBytes h : ℕ} {pixels : List UInt8} (hlen : pixels.length = rowBytes * h) :
    unfilter rowBytes h (filterNone rowBytes h pixels) = some pixels := by
  induction h generalizing pixels with
  | zero =>
    have hnil : pixels = [] := List.length_eq_zero_iff.mp hlen
    subst hnil
    rfl
  | succ h ih =>
    rw [Nat.mul_succ] at hlen
    have hrow : (pixels.take rowBytes).length = rowBytes := by
      rw [List.length_take]
      omega
    have hrest : (pixels.drop rowBytes).length = rowBytes * h := by
      rw [List.length_drop]
      omega
    rw [filterNone, unfilter, List.length_append, hrow, if_neg (by simp), List.drop_left' hrow,
      List.take_left' hrow, ih hrest, Option.map_some, List.take_append_drop]

theorem filterNone_length {rowBytes h : ℕ} {pixels : List UInt8} (hlen : pixels.length = rowBytes * h) :
    (filterNone rowBytes h pixels).length = (rowBytes + 1) * h := by
  induction h generalizing pixels with
  | zero => rfl
  | succ h ih =>
    rw [Nat.mul_succ] at hlen
    have hrest : (pixels.drop rowBytes).length = rowBytes * h := by
      rw [List.length_drop]
      omega
    rw [filterNone, List.length_cons, List.length_append, ih hrest, List.length_take, Nat.mul_succ]
    omega

/-! ### Files -/

structure Image where
  width : ℕ
  height : ℕ
  colour : UInt8
  pixels : List UInt8
  deriving DecidableEq

/-- Samples of a pixel by colour type: greyscale has one, truecolour three. -/
def samples (colour : UInt8) : Option ℕ :=
  if colour = 0 then some 1 else if colour = 2 then some 3 else none

def signature : List UInt8 := [0x89, 0x50, 0x4e, 0x47, 0x0d, 0x0a, 0x1a, 0x0a]

/-- 8 bits a sample; no compression, filter or interlace method but the first. -/
def ihdr (width height : ℕ) (colour : UInt8) : List UInt8 :=
  beBytes 4 width ++ beBytes 4 height ++ [8, colour, 0, 0, 0]

/-- The stream of the rows. -/
def idat (n : ℕ) (img : Image) : List UInt8 :=
  Zlib.compress (filterNone (img.width * n) img.height img.pixels)

/-- The file of an image with `n` samples a pixel. -/
def encode (n : ℕ) (img : Image) : List UInt8 :=
  signature ++ chunk (lit "IHDR") (ihdr img.width img.height img.colour) ++
    chunk (lit "IDAT") (idat n img) ++ chunk (lit "IEND") []

/-- What the data of the three chunks hold. -/
def decodeImage (hdr stream : List UInt8) : Option Image :=
  let width := beNat (hdr.take 4)
  let height := beNat ((hdr.drop 4).take 4)
  let colour := hdr.getD 9 0
  if hdr ≠ ihdr width height colour then none
  else
    (samples colour).bind fun n =>
      (Zlib.decompress stream).bind fun raw =>
        (unfilter (width * n) height raw).map fun pixels => ⟨width, height, colour, pixels⟩

def decode (bs : List UInt8) : Option Image :=
  if bs.take 8 ≠ signature then none
  else
    (takeChunk (bs.drop 8)).bind fun c1 =>
      (takeChunk c1.2.2).bind fun c2 =>
        (takeChunk c2.2.2).bind fun c3 =>
          if c1.1 = lit "IHDR" ∧ c2.1 = lit "IDAT" ∧ c3 = (lit "IEND", [], []) then
            decodeImage c1.2.1 c2.2.1
          else none

/-- An image that a file can hold: the pixels fill it, and the numbers fit their fields. -/
structure Fits (n : ℕ) (img : Image) : Prop where
  samples : samples img.colour = some n
  pixels : img.pixels.length = img.width * n * img.height
  width : img.width < 2 ^ 32
  height : img.height < 2 ^ 32
  stream : (idat n img).length < 2 ^ 31

theorem ihdr_length (width height : ℕ) (colour : UInt8) : (ihdr width height colour).length = 13 := by
  rw [ihdr, List.length_append, List.length_append, beBytes_length, beBytes_length]
  rfl

theorem decodeImage_encoded {n : ℕ} {img : Image} (h : Fits n img) :
    decodeImage (ihdr img.width img.height img.colour) (idat n img) = some img := by
  have hwidth : beNat ((ihdr img.width img.height img.colour).take 4) = img.width := by
    rw [ihdr, List.append_assoc, List.take_left' (beBytes_length 4 _), beNat_beBytes_of_lt 4 _ h.width]
  have hheight : beNat (((ihdr img.width img.height img.colour).drop 4).take 4) = img.height := by
    rw [ihdr, List.append_assoc, List.drop_left' (beBytes_length 4 _),
      List.take_left' (beBytes_length 4 _), beNat_beBytes_of_lt 4 _ h.height]
  have hcolour : (ihdr img.width img.height img.colour).getD 9 0 = img.colour := by
    have hfields : (beBytes 4 img.width ++ beBytes 4 img.height).length = 8 := by
      rw [List.length_append, beBytes_length, beBytes_length]
    rw [ihdr, List.getD_append_right _ _ _ _ (by omega), hfields]
    rfl
  unfold decodeImage
  dsimp only
  rw [hwidth, hheight, hcolour, if_neg (fun hne => hne rfl), h.samples, Option.bind_some, idat,
    Zlib.decompress_compress, Option.bind_some, unfilter_filterNone h.pixels]
  rfl

/-- **Round trip.** -/
theorem decode_encode {n : ℕ} {img : Image} (h : Fits n img) : decode (encode n img) = some img := by
  have hhdr : (ihdr img.width img.height img.colour).length < 2 ^ 31 := by
    rw [ihdr_length]
    decide
  have hfile : encode n img = signature ++ (chunk (lit "IHDR") (ihdr img.width img.height img.colour) ++
      (chunk (lit "IDAT") (idat n img) ++ (chunk (lit "IEND") [] ++ []))) := by
    simp only [encode, List.append_assoc, List.append_nil]
  have hsig : signature.length = 8 := rfl
  rw [decode, hfile, List.take_left' hsig, if_neg (fun hne => hne rfl), List.drop_left' hsig,
    takeChunk_chunk rfl hhdr, Option.bind_some, takeChunk_chunk rfl h.stream, Option.bind_some,
    takeChunk_chunk rfl (by decide), Option.bind_some, if_pos ⟨rfl, rfl, rfl⟩]
  exact decodeImage_encoded h

theorem encode_length {n : ℕ} {img : Image} (h : img.pixels.length = img.width * n * img.height) :
    (encode n img).length = 63 + (img.width * n + 1) * img.height +
      5 * max 1 (((img.width * n + 1) * img.height + 65534) / 65535) := by
  rw [encode, List.length_append, List.length_append, List.length_append, chunk_length rfl,
    chunk_length rfl, chunk_length rfl, ihdr_length, idat, Zlib.compress_length, filterNone_length h]
  show 8 + (12 + 13) + _ + (12 + 0) = _
  omega

end IotcRa8p1.Png
