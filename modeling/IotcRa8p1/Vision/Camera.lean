import IotcRa8p1.Lib.ByteMem
import IotcRa8p1.Lib.Loop
import Mathlib.Tactic.GCongr

/-!
# Crop and resample of the camera frame (`camera_thread_entry.c`)

`image_rgb565_to_rgb888` cuts the centred square out of an RGB565 frame, resamples it to the output size by
nearest neighbour and writes three bytes a pixel.  The loops record the pixels they read and the bytes they
write.

The products and quotients of an index are 32-bit words; the three words are then added to the pointer one
after another, so a pixel is the sum of their values.
-/

namespace IotcRa8p1.Vision.Camera

open ByteMem Loop

/-- `vision_ai_app_err_t`, as far as the function returns it. -/
inductive VisionAiAppErr where
  | success
  | nullPointer
  | imgProcess
  deriving DecidableEq, Repr

/-- The loops' state: `p_output`, the bytes behind it, and what was read and written. -/
structure Resample where
  o : ℕ
  out : Mem
  reads : List ℕ
  writes : List ℕ

/-- `*p_output++ = b` -/
def Resample.put (r : Resample) (b : UInt8) : Resample :=
  { r with out := Function.update r.out r.o b, writes := r.writes ++ [r.o], o := r.o + 1 }

/-- `crop_offset`; the difference of the two `int`s is not negative behind the check. -/
def cropOffset (inWidth inHeight : UInt16) : UInt32 :=
  UInt32.ofNat ((inWidth.toNat - inHeight.toNat) / 2)

/-- `(in_height * i) / out` -/
def scaled (inHeight out : UInt16) (i : UInt32) : UInt32 := inHeight.toUInt32 * i / out.toUInt32

/-- `y_offset` -/
def yOffset (inWidth inHeight outHeight : UInt16) (y : UInt32) : UInt32 :=
  inWidth.toUInt32 * scaled inHeight outHeight y

/-- The pixel read for the output pixel in row `y` and column `x`. -/
def inputIndex (inWidth inHeight outWidth outHeight : UInt16) (y x : UInt32) : ℕ :=
  (cropOffset inWidth inHeight).toNat + (yOffset inWidth inHeight outHeight y).toNat +
    (scaled inHeight outWidth x).toNat

/-- `(c * 255) / max` of a channel of `max + 1` values. -/
def widen (c : UInt16) (max : ℕ) : UInt8 := UInt8.ofNat (c.toNat * 255 / max)

/-- One output pixel. -/
def resamplePixel (input : ℕ → UInt16) (inWidth inHeight outWidth outHeight : UInt16) (y x : ℕ)
    (r : Resample) : Resample :=
  let i := inputIndex inWidth inHeight outWidth outHeight (UInt32.ofNat y) (UInt32.ofNat x)
  let px := input i
  ((({ r with reads := r.reads ++ [i] }.put (widen (px >>> 11 &&& 0x1F) 31)).put
    (widen (px >>> 5 &&& 0x3F) 63)).put (widen (px &&& 0x1F) 31))

/-- The loops of `image_rgb565_to_rgb888`. -/
def resample (input : ℕ → UInt16) (inWidth inHeight outWidth outHeight : UInt16) : Resample → Resample :=
  forLoop outHeight.toNat fun y => forLoop outWidth.toNat fun x =>
    resamplePixel input inWidth inHeight outWidth outHeight y x

/-- `image_rgb565_to_rgb888`; `none` is a null pointer. -/
def imageRgb565ToRgb888 (input : Option (ℕ → UInt16)) (output : Option Mem)
    (inWidth inHeight outWidth outHeight : UInt16) : VisionAiAppErr × Option Resample :=
  match input, output with
  | some input, some output =>
    if inWidth < inHeight then (.imgProcess, none)
    else (.success, some (resample input inWidth inHeight outWidth outHeight ⟨0, output, [], []⟩))
  | _, _ => (.nullPointer, none)

/-! ### The index in integers -/

/-- Row or column of the square that output row or column `i` is taken from. -/
def source (inHeight out i : ℕ) : ℕ := inHeight * i / out

theorem source_lt {inHeight out i : ℕ} (hpos : 0 < inHeight) (hi : i < out) :
    source inHeight out i < inHeight := by
  refine Nat.div_lt_of_lt_mul ?_
  rw [Nat.mul_comm]
  exact Nat.mul_lt_mul_of_pos_right hi hpos

theorem source_mono (inHeight out : ℕ) {i j : ℕ} (h : i ≤ j) :
    source inHeight out i ≤ source inHeight out j := by
  unfold source
  gcongr

/-- Two 16-bit factors have a 32-bit product. -/
theorem mul_lt_of_lt {a b : ℕ} (ha : a < 2 ^ 16) (hb : b < 2 ^ 16) : a * b < 2 ^ 32 := by
  calc a * b < 2 ^ 16 * 2 ^ 16 := Nat.mul_lt_mul'' ha hb
    _ = 2 ^ 32 := by norm_num

variable {inWidth inHeight outWidth outHeight : UInt16}

theorem cropOffset_toNat (inWidth inHeight : UInt16) :
    (cropOffset inWidth inHeight).toNat = (inWidth.toNat - inHeight.toNat) / 2 := by
  have hw := inWidth.toNat_lt
  exact UInt32.toNat_ofNat_of_lt' (by show _ < 2 ^ 32; omega)

/-- The product under the quotient does not wrap. -/
theorem product_toNat {out : UInt16} {i : ℕ} (hi : i < out.toNat) :
    (inHeight.toUInt32 * UInt32.ofNat i).toNat = inHeight.toNat * i := by
  have hout := out.toNat_lt
  have hofNat : (UInt32.ofNat i).toNat = i :=
    UInt32.toNat_ofNat_of_lt' (by show i < 2 ^ 32; omega)
  rw [UInt32.toNat_mul, hofNat, UInt16.toNat_toUInt32]
  exact Nat.mod_eq_of_lt (mul_lt_of_lt inHeight.toNat_lt (by omega))

theorem scaled_toNat {out : UInt16} {i : ℕ} (hi : i < out.toNat) :
    (scaled inHeight out (UInt32.ofNat i)).toNat = source inHeight.toNat out.toNat i := by
  rw [scaled, UInt32.toNat_div, product_toNat hi, UInt16.toNat_toUInt32, source]

/-- Nor does the offset of the row. -/
theorem yOffset_toNat (hpos : 0 < inHeight.toNat) {y : ℕ} (hy : y < outHeight.toNat) :
    (yOffset inWidth inHeight outHeight (UInt32.ofNat y)).toNat =
      inWidth.toNat * source inHeight.toNat outHeight.toNat y := by
  rw [yOffset, UInt32.toNat_mul, scaled_toNat hy, UInt16.toNat_toUInt32]
  have hrow := source_lt hpos hy
  have hheight := inHeight.toNat_lt
  exact Nat.mod_eq_of_lt (mul_lt_of_lt inWidth.toNat_lt (by omega))

theorem inputIndex_eq (hpos : 0 < inHeight.toNat) {y x : ℕ} (hy : y < outHeight.toNat)
    (hx : x < outWidth.toNat) :
    inputIndex inWidth inHeight outWidth outHeight (UInt32.ofNat y) (UInt32.ofNat x) =
      source inHeight.toNat outHeight.toNat y * inWidth.toNat +
        ((inWidth.toNat - inHeight.toNat) / 2 + source inHeight.toNat outWidth.toNat x) := by
  rw [inputIndex, cropOffset_toNat, yOffset_toNat hpos hy, scaled_toNat hx, Nat.mul_comm inWidth.toNat]
  omega

/-! ### The loops -/

/-- The pixel lies in the centred square. -/
def InSquare (inWidth inHeight i : ℕ) : Prop :=
  ∃ row col, row < inHeight ∧ (inWidth - inHeight) / 2 ≤ col ∧
    col < (inWidth - inHeight) / 2 + inHeight ∧ i = row * inWidth + col

/-- The square lies in the frame. -/
theorem InSquare.lt {inWidth inHeight i : ℕ} (h : InSquare inWidth inHeight i)
    (hle : inHeight ≤ inWidth) : i < inWidth * inHeight := by
  obtain ⟨row, col, hrow, -, hcol, rfl⟩ := h
  calc row * inWidth + col < row * inWidth + inWidth := by omega
    _ = (row + 1) * inWidth := (Nat.succ_mul row inWidth).symm
    _ ≤ inHeight * inWidth := Nat.mul_le_mul_right inWidth hrow
    _ = inWidth * inHeight := Nat.mul_comm ..

theorem inputIndex_inSquare (hpos : 0 < inHeight.toNat) {y x : ℕ} (hy : y < outHeight.toNat)
    (hx : x < outWidth.toNat) : InSquare inWidth.toNat inHeight.toNat
      (inputIndex inWidth inHeight outWidth outHeight (UInt32.ofNat y) (UInt32.ofNat x)) := by
  have hcol := source_lt hpos hx
  exact ⟨_, _, source_lt hpos hy, Nat.le_add_right _ _, Nat.add_lt_add_left hcol _,
    inputIndex_eq hpos hy hx⟩

/-- So many bytes are written, one behind the other, and only pixels of the square were read. -/
structure Resample.Exact (inWidth inHeight : ℕ) (r : Resample) (n : ℕ) : Prop where
  o : r.o = n
  writes : r.writes = List.range n
  reads : ∀ i ∈ r.reads, InSquare inWidth inHeight i

theorem Resample.Exact.put {w h n : ℕ} {r : Resample} (hr : r.Exact w h n) (b : UInt8) :
    (r.put b).Exact w h (n + 1) where
  o := congrArg (· + 1) hr.o
  writes := by
    show r.writes ++ [r.o] = List.range (n + 1)
    rw [hr.writes, hr.o, List.range_succ]
  reads := hr.reads

theorem Resample.Exact.see {w h n i : ℕ} {r : Resample} (hr : r.Exact w h n) (hi : InSquare w h i) :
    ({ r with reads := r.reads ++ [i] } : Resample).Exact w h n where
  o := hr.o
  writes := hr.writes
  reads j hj := by
    rcases List.mem_append.mp hj with hj | hj
    · exact hr.reads j hj
    · rw [List.mem_singleton.mp hj]
      exact hi

theorem resamplePixel_exact (input : ℕ → UInt16) (hpos : 0 < inHeight.toNat) {y x n : ℕ}
    (hy : y < outHeight.toNat) (hx : x < outWidth.toNat) {r : Resample}
    (hr : r.Exact inWidth.toNat inHeight.toNat n) :
    (resamplePixel input inWidth inHeight outWidth outHeight y x r).Exact inWidth.toNat inHeight.toNat
      (n + 3) :=
  (((hr.see (inputIndex_inSquare hpos hy hx)).put _).put _).put _

theorem row_exact (input : ℕ → UInt16) (hpos : 0 < inHeight.toNat) {y n : ℕ}
    (hy : y < outHeight.toNat) {r : Resample} (hr : r.Exact inWidth.toNat inHeight.toNat n) :
    (forLoop outWidth.toNat
        (fun x => resamplePixel input inWidth inHeight outWidth outHeight y x) r).Exact
      inWidth.toNat inHeight.toNat (n + outWidth.toNat * 3) := by
  refine forLoop_invariant
    (fun x (t : Resample) => t.Exact inWidth.toNat inHeight.toNat (n + x * 3)) ?_ fun x t hx ht => ?_
  · rwa [Nat.zero_mul, Nat.add_zero]
  · have hpixel := resamplePixel_exact input hpos hy hx ht
    rwa [Nat.add_assoc, ← Nat.succ_mul] at hpixel

theorem resample_exact (input : ℕ → UInt16) (hpos : 0 < inHeight.toNat) {r : Resample}
    (hr : r.Exact inWidth.toNat inHeight.toNat 0) :
    (resample input inWidth inHeight outWidth outHeight r).Exact inWidth.toNat inHeight.toNat
      (outHeight.toNat * (outWidth.toNat * 3)) := by
  refine forLoop_invariant
    (fun y (t : Resample) => t.Exact inWidth.toNat inHeight.toNat (y * (outWidth.toNat * 3))) ?_
    fun y t hy ht => ?_
  · rwa [Nat.zero_mul]
  · rw [Nat.succ_mul]
    exact row_exact input hpos hy ht

/-- The pixels read, one for each output pixel, row after row. -/
def inputIndices (inWidth inHeight outWidth outHeight : UInt16) : List ℕ :=
  (List.range outHeight.toNat).flatMap fun y => (List.range outWidth.toNat).flatMap fun x =>
    [inputIndex inWidth inHeight outWidth outHeight (UInt32.ofNat y) (UInt32.ofNat x)]

theorem resample_reads (input : ℕ → UInt16) (r : Resample) :
    (resample input inWidth inHeight outWidth outHeight r).reads =
      r.reads ++ inputIndices inWidth inHeight outWidth outHeight := by
  refine forLoop_log Resample.reads _ (fun y t => ?_) r
  exact forLoop_log Resample.reads _ (fun x u => rfl) t

/-- What the call reads and writes: for each output pixel the one of its row and column, a pixel of the centred
square and in the frame, and three consecutive bytes; no product or offset of an index wraps; rows and columns do
not go back. -/
structure Cropped (inWidth inHeight outWidth outHeight : UInt16) (r : Resample) : Prop where
  reads : r.reads = inputIndices inWidth inHeight outWidth outHeight
  square : ∀ i ∈ r.reads, InSquare inWidth.toNat inHeight.toNat i
  inside : ∀ i ∈ r.reads, i < inWidth.toNat * inHeight.toNat
  writes : r.writes = List.range (outWidth.toNat * outHeight.toNat * 3)
  products : ∀ y x, y < outHeight.toNat → x < outWidth.toNat →
    (inHeight.toUInt32 * UInt32.ofNat y).toNat = inHeight.toNat * y ∧
      (inHeight.toUInt32 * UInt32.ofNat x).toNat = inHeight.toNat * x ∧
      (yOffset inWidth inHeight outHeight (UInt32.ofNat y)).toNat =
        inWidth.toNat * (scaled inHeight outHeight (UInt32.ofNat y)).toNat
  index : ∀ y x, y < outHeight.toNat → x < outWidth.toNat →
    inputIndex inWidth inHeight outWidth outHeight (UInt32.ofNat y) (UInt32.ofNat x) < 2 ^ 32
  rows : ∀ y y', y ≤ y' → y' < outHeight.toNat →
    scaled inHeight outHeight (UInt32.ofNat y) ≤ scaled inHeight outHeight (UInt32.ofNat y')
  columns : ∀ x x', x ≤ x' → x' < outWidth.toNat →
    scaled inHeight outWidth (UInt32.ofNat x) ≤ scaled inHeight outWidth (UInt32.ofNat x')

theorem scaled_mono {out : UInt16} {i j : ℕ} (hij : i ≤ j) (hj : j < out.toNat) :
    scaled inHeight out (UInt32.ofNat i) ≤ scaled inHeight out (UInt32.ofNat j) := by
  rw [UInt32.le_iff_toNat_le, scaled_toNat (Nat.lt_of_le_of_lt hij hj), scaled_toNat hj]
  exact source_mono _ _ hij

/-- **Crop and resample.**  For every frame that is at least as wide as high and has a row, and every output
size. -/
theorem crop_in_bounds (input : ℕ → UInt16) (output : Mem)
    (inWidth inHeight outWidth outHeight : UInt16) (hsquare : inHeight ≤ inWidth) (hpos : 1 ≤ inHeight) :
    ∃ r, imageRgb565ToRgb888 (some input) (some output) inWidth inHeight outWidth outHeight =
        (.success, some r) ∧ Cropped inWidth inHeight outWidth outHeight r := by
  have hle : inHeight.toNat ≤ inWidth.toNat := UInt16.le_iff_toNat_le.mp hsquare
  have hpos' : 0 < inHeight.toNat := UInt16.le_iff_toNat_le.mp hpos
  let start : Resample := ⟨0, output, [], []⟩
  have hexact : (resample input inWidth inHeight outWidth outHeight start).Exact inWidth.toNat
      inHeight.toNat (outHeight.toNat * (outWidth.toNat * 3)) :=
    resample_exact input hpos' ⟨rfl, rfl, fun i hi => nomatch hi⟩
  refine ⟨resample input inWidth inHeight outWidth outHeight start, ?_, ?_⟩
  · rw [imageRgb565ToRgb888, if_neg (UInt16.not_lt.mpr hsquare)]
  · constructor
    · exact (resample_reads input start).trans (List.nil_append _)
    · exact hexact.reads
    · exact fun i hi => (hexact.reads i hi).lt hle
    · rw [hexact.writes, ← Nat.mul_assoc, Nat.mul_comm outHeight.toNat]
    · intro y x hy hx
      refine ⟨product_toNat hy, product_toNat hx, ?_⟩
      rw [yOffset_toNat hpos' hy, scaled_toNat hy]
    · intro y x hy hx
      exact ((inputIndex_inSquare hpos' hy hx).lt hle).trans (mul_lt_of_lt inWidth.toNat_lt inHeight.toNat_lt)
    · exact fun y y' h hy' => scaled_mono h hy'
    · exact fun x x' h hx' => scaled_mono h hx'

/-- The frame of the camera and the staging image of the classifier. -/
theorem crop_in_bounds_camera :
    ∃ r, imageRgb565ToRgb888 (some fun _ => 0) (some fun _ => 0) 640 480 224 224 = (.success, some r) ∧
      Cropped 640 480 224 224 r :=
  crop_in_bounds (fun _ => 0) (fun _ => 0) 640 480 224 224 (by decide) (by decide)

end IotcRa8p1.Vision.Camera
