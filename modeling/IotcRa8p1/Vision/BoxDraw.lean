import IotcRa8p1.Lib.ByteMem
import IotcRa8p1.Lib.Loop
import Mathlib.Data.Finset.Max
import Mathlib.Algebra.Order.Ring.Int

/-!
# Drawing the detections (`DetectorPostProcessing.cc`)

`runPostProcessing` outlines every detection that survives in the image it is given.  The offset of a
pixel is multiplied by the bytes per pixel of the display format and clamped to a frame of that format;
`face_detection_run` gives it `s_gray`, one byte per pixel.

The loops record the offsets they set.  The box of a detection is what the float arithmetic leaves after
conversion to `int`, an arbitrary one.  What the loops compute from it is not cut to 32 bits: the code clips its
boxes to the image, and `pixels_fit` is that up to 20 bits no `int` overflows.
-/

namespace IotcRa8p1.Vision.BoxDraw

open ByteMem Loop

/-- `FORMAT_MULTIPLY_FACTOR` with `DISPLAY_RGB_IMAGE` set. -/
abbrev formatMultiplyFactor : ℤ := 3

/-- `ORIGINAL_IMAGE_WIDTH` and `ORIGINAL_IMAGE_HEIGHT` -/
abbrev originalImageWidth : ℤ := 192

abbrev originalImageHeight : ℤ := 192

/-- The size of `s_gray`. -/
abbrev grayBytes : ℤ := 192 * 192

/-- `bx`, `by`, `bw`, `bh` -/
structure Box where
  x : ℤ
  y : ℤ
  w : ℤ
  h : ℤ
  deriving DecidableEq, Repr

/-- The image and the offsets set in it so far. -/
structure Canvas where
  img : Mem
  writes : List ℤ

/-- `check_and_fix_offset` -/
def checkAndFixOffset (factor imW imH offset : ℤ) : ℤ :=
  if imW * imH * factor ≤ offset then imW * imH * factor - 1
  else if offset < 0 then 0
  else offset

/-- `img_in[offset] = 0xFF`, `offset` clamped. -/
def Canvas.set (factor imW imH : ℤ) (c : Canvas) (offset : ℤ) : Canvas :=
  let offset := checkAndFixOffset factor imW imH offset
  ⟨Function.update c.img offset.toNat 0xFF, c.writes ++ [offset]⟩

/-- `draw_box_on_image`, for a number of bytes per pixel. -/
def drawBox (factor imW imH : ℤ) (b : Box) (c : Canvas) : Canvas :=
  let c := forLoop b.w.toNat (fun i => forLoop 2 fun line c =>
    (c.set factor imW imH ((i + (b.y + line) * imW + b.x) * factor)).set factor imW imH
      ((i + (b.y + b.h - line) * imW + b.x) * factor)) c
  forLoop b.h.toNat (fun i => forLoop 2 fun line c =>
    (c.set factor imW imH (((i + b.y) * imW + b.x + line) * factor)).set factor imW imH
      (((i + b.y) * imW + b.x + b.w - line) * factor)) c

/-- `draw_box_on_image` -/
def drawBoxOnImage : ℤ → ℤ → Box → Canvas → Canvas := drawBox formatMultiplyFactor

/-- A detection behind the suppression: whether the probability of its one class is still positive. -/
structure Detection where
  kept : Bool
  box : Box
  deriving DecidableEq, Repr

/-- The loop of `runPostProcessing` over the detections: the results and the image. -/
def runPostProcessing (img : Mem) (dets : List Detection) : List Box × Canvas :=
  dets.foldl (fun r d =>
    if d.kept = true then
      (r.1 ++ [d.box], drawBoxOnImage originalImageWidth originalImageHeight d.box r.2)
    else r) ([], ⟨img, []⟩)

/-! ### The pixels of a box -/

/-- The pixel indices of the two horizontal and the two vertical lines, in the order of the loops. -/
def pixels (imW : ℤ) (b : Box) : List ℤ :=
  (List.range b.w.toNat).flatMap (fun i : ℕ => (List.range 2).flatMap fun line : ℕ =>
      [i + (b.y + line) * imW + b.x, i + (b.y + b.h - line) * imW + b.x]) ++
    (List.range b.h.toNat).flatMap (fun i : ℕ => (List.range 2).flatMap fun line : ℕ =>
      [(i + b.y) * imW + b.x + line, (i + b.y) * imW + b.x + b.w - line])

/-- The offsets a box sets at so many bytes per pixel. -/
def offsets (factor imW imH : ℤ) (b : Box) : List ℤ :=
  (pixels imW b).map fun p => checkAndFixOffset factor imW imH (p * factor)

/-- What two nested loops that set two pixels an iteration record. -/
theorem lines_writes (factor imW imH : ℤ) (p q : ℕ → ℕ → ℤ) (n : ℕ) (c : Canvas) :
    (forLoop n (fun i => forLoop 2 fun line c =>
      (c.set factor imW imH (p i line * factor)).set factor imW imH (q i line * factor)) c).writes =
      c.writes ++ ((List.range n).flatMap fun i => (List.range 2).flatMap fun line =>
        [p i line, q i line]).map fun x => checkAndFixOffset factor imW imH (x * factor) := by
  simp only [List.map_flatMap]
  refine forLoop_log Canvas.writes _ (fun i t => ?_) c
  refine forLoop_log Canvas.writes _ (fun line u => ?_) t
  simp [Canvas.set]

theorem drawBox_writes (factor imW imH : ℤ) (b : Box) (c : Canvas) :
    (drawBox factor imW imH b c).writes = c.writes ++ offsets factor imW imH b := by
  simp only [drawBox, lines_writes, offsets, pixels, List.map_append, List.append_assoc]

/-- What each kept box adds to a list that the loop of `runPostProcessing` builds up. -/
theorem runPostProcessing_log {γ : Type} (read : List Box × Canvas → List γ) (added : Box → List γ)
    (hadd : ∀ r b, read (r.1 ++ [b], drawBoxOnImage originalImageWidth originalImageHeight b r.2) =
      read r ++ added b)
    (img : Mem) (dets : List Detection) :
    read (runPostProcessing img dets) =
      read ([], ⟨img, []⟩) ++ (dets.filter Detection.kept).flatMap fun d => added d.box := by
  rw [runPostProcessing]
  generalize (([], ⟨img, []⟩) : List Box × Canvas) = r
  induction dets generalizing r with
  | nil => simp
  | cons d dets ih =>
    rw [List.foldl_cons, ih]
    cases hk : d.kept with
    | false => simp [hk]
    | true => simp [hk, hadd]

/-- The offsets the loop of `runPostProcessing` sets are those of the boxes it keeps. -/
theorem runPostProcessing_writes (img : Mem) (dets : List Detection) :
    (runPostProcessing img dets).2.writes =
      (dets.filter Detection.kept).flatMap fun d =>
        offsets formatMultiplyFactor originalImageWidth originalImageHeight d.box := by
  have hlog := runPostProcessing_log (fun r => r.2.writes)
    (offsets formatMultiplyFactor originalImageWidth originalImageHeight)
    (fun r b => drawBox_writes formatMultiplyFactor originalImageWidth originalImageHeight b r.2) img dets
  rwa [List.nil_append] at hlog

/-- The results are the boxes it keeps. -/
theorem runPostProcessing_results (img : Mem) (dets : List Detection) :
    (runPostProcessing img dets).1 = (dets.filter Detection.kept).map Detection.box := by
  have hlog := runPostProcessing_log Prod.fst (fun b => [b]) (fun _ _ => rfl) img dets
  rw [List.nil_append] at hlog
  rw [hlog]
  exact (List.map_eq_flatMap ..).symm

theorem mem_pixels {b : Box} {p : ℤ} :
    p ∈ pixels 192 b ↔
      (∃ i line : ℤ, 0 ≤ i ∧ i < b.w ∧ 0 ≤ line ∧ line < 2 ∧
        (p = i + (b.y + line) * 192 + b.x ∨ p = i + (b.y + b.h - line) * 192 + b.x)) ∨
      ∃ i line : ℤ, 0 ≤ i ∧ i < b.h ∧ 0 ≤ line ∧ line < 2 ∧
        (p = (i + b.y) * 192 + b.x + line ∨ p = (i + b.y) * 192 + b.x + b.w - line) := by
  simp only [pixels, List.mem_append, List.mem_flatMap, List.mem_range, List.mem_cons,
    List.not_mem_nil, or_false]
  constructor
  · rintro (⟨i, hi, line, hline, hp⟩ | ⟨i, hi, line, hline, hp⟩)
    · exact Or.inl ⟨i, line, by omega, by omega, by omega, by omega, hp⟩
    · exact Or.inr ⟨i, line, by omega, by omega, by omega, by omega, hp⟩
  · rintro (⟨i, line, hi, hib, hl, hlt, hp⟩ | ⟨i, line, hi, hib, hl, hlt, hp⟩)
    · refine Or.inl ⟨i.toNat, by omega, line.toNat, by omega, ?_⟩
      rwa [Int.toNat_of_nonneg hi, Int.toNat_of_nonneg hl]
    · refine Or.inr ⟨i.toNat, by omega, line.toNat, by omega, ?_⟩
      rwa [Int.toNat_of_nonneg hi, Int.toNat_of_nonneg hl]

/-- The numbers of the box have 20 bits. -/
structure Box.Small (b : Box) : Prop where
  x : -2 ^ 20 ≤ b.x ∧ b.x ≤ 2 ^ 20
  y : -2 ^ 20 ≤ b.y ∧ b.y ≤ 2 ^ 20
  w : -2 ^ 20 ≤ b.w ∧ b.w ≤ 2 ^ 20
  h : -2 ^ 20 ≤ b.h ∧ b.h ≤ 2 ^ 20

/-- The value of an `int`. -/
def FitsInt (n : ℤ) : Prop := -2 ^ 31 ≤ n ∧ n < 2 ^ 31

/-- The offsets of a small box are `int`s, and so are the rows they are computed from. -/
theorem pixels_fit {b : Box} (h : b.Small) :
    (∀ p ∈ pixels 192 b, FitsInt p ∧ FitsInt (p * 3)) ∧ ∀ i line : ℤ, 0 ≤ i → i < b.h → 0 ≤ line → line < 2 →
      FitsInt ((b.y + line) * 192) ∧ FitsInt ((b.y + b.h - line) * 192) ∧ FitsInt ((i + b.y) * 192) := by
  obtain ⟨hx, hy, hw, hh⟩ := h
  unfold FitsInt
  refine ⟨fun p hp => ?_, fun i line hi hib hl hlt => by omega⟩
  obtain ⟨i, line, hi, hib, hl, hlt, hp⟩ | ⟨i, line, hi, hib, hl, hlt, hp⟩ := mem_pixels.mp hp <;> omega

/-! ### Inside the luma frame -/

/-- The box lies in the image. -/
def Box.Clipped (b : Box) : Prop :=
  0 ≤ b.x ∧ 0 ≤ b.y ∧ 0 ≤ b.w ∧ 0 ≤ b.h ∧ b.x + b.w ≤ 192 ∧ b.y + b.h ≤ 192

/-- Neither pair of lines has a pixel. -/
def Box.Blank (b : Box) : Prop := b.w ≤ 0 ∧ b.h ≤ 0

/-- The last pixel of every line stands in the first third of the frame. -/
def Box.InFirstThird (b : Box) : Prop :=
  (0 < b.w → b.w - 1 + (b.y + max 1 b.h) * 192 + b.x < 12288) ∧
    (0 < b.h → (b.h - 1 + b.y) * 192 + b.x + max 1 b.w < 12288)

instance (b : Box) : Decidable b.Clipped := by unfold Box.Clipped; infer_instance

instance (b : Box) : Decidable b.Blank := by unfold Box.Blank; infer_instance

instance (b : Box) : Decidable b.InFirstThird := by unfold Box.InFirstThird; infer_instance

/-- Every offset set lies in `s_gray`, and a box in the image sets what it sets at one byte per pixel. -/
structure DrawnInside (img : Mem) (dets : List Detection) : Prop where
  inside : ∀ off ∈ (runPostProcessing img dets).2.writes, 0 ≤ off ∧ off < grayBytes
  outline : ∀ d ∈ dets, d.kept = true → d.box.Clipped → ∀ off,
    off ∈ (drawBoxOnImage originalImageWidth originalImageHeight d.box ⟨img, []⟩).writes ↔
      off ∈ (drawBox 1 originalImageWidth originalImageHeight d.box ⟨img, []⟩).writes

/-- The box may be drawn. -/
def Box.Fits (b : Box) : Prop := b.Blank ∨ ¬ b.Clipped ∧ b.InFirstThird

theorem inFirstThird_iff (b : Box) : b.InFirstThird ↔ ∀ p ∈ pixels 192 b, p < 12288 := by
  constructor
  · rintro ⟨hw, hh⟩ p hp
    obtain ⟨i, line, hi, hib, hl, hlt, hp⟩ | ⟨i, line, hi, hib, hl, hlt, hp⟩ := mem_pixels.mp hp
    · have hmax := hw (by omega)
      omega
    · have hmax := hh (by omega)
      omega
  · intro h
    constructor
    · intro hw
      have htop := h _ (mem_pixels.mpr (Or.inl ⟨b.w - 1, 1, by omega, by omega, by omega, by omega,
        Or.inl rfl⟩))
      have hbottom := h _ (mem_pixels.mpr (Or.inl ⟨b.w - 1, 0, by omega, by omega, by omega, by omega,
        Or.inr rfl⟩))
      omega
    · intro hh
      have hleft := h _ (mem_pixels.mpr (Or.inr ⟨b.h - 1, 1, by omega, by omega, by omega, by omega,
        Or.inl rfl⟩))
      have hright := h _ (mem_pixels.mpr (Or.inr ⟨b.h - 1, 0, by omega, by omega, by omega, by omega,
        Or.inr rfl⟩))
      omega

theorem pixels_blank {b : Box} (h : b.Blank) : pixels 192 b = [] := by
  rw [List.eq_nil_iff_forall_not_mem]
  intro p hp
  obtain ⟨hw, hh⟩ := h
  obtain ⟨i, line, hi, hib, _⟩ | ⟨i, line, hi, hib, _⟩ := mem_pixels.mp hp <;> omega

/-- Three bytes a pixel leave the frame of one byte a pixel behind a third of it. -/
theorem offsets_inside_iff (b : Box) :
    (∀ off ∈ offsets 3 192 192 b, 0 ≤ off ∧ off < grayBytes) ↔ b.InFirstThird := by
  have hgray : grayBytes = 36864 := rfl
  simp only [inFirstThird_iff, offsets, List.forall_mem_map]
  refine forall₂_congr fun p _ => ?_
  rw [checkAndFixOffset]
  split_ifs <;> omega

/-- The last pixel of a box in the image is set farther back than every pixel at one byte each. -/
theorem offsets_outline_iff {b : Box} (hb : b.Clipped) :
    (∀ off, off ∈ offsets 3 192 192 b ↔ off ∈ offsets 1 192 192 b) ↔ b.Blank := by
  obtain ⟨hx, hy, hw, hh, hxw, hyh⟩ := hb
  constructor
  · intro h
    by_contra hblank
    have hpos : ∃ p ∈ pixels 192 b, 0 < p := by
      rw [Box.Blank, not_and_or] at hblank
      obtain hw' | hh' := hblank
      · exact ⟨_, mem_pixels.mpr (Or.inl ⟨0, 1, by omega, by omega, by omega, by omega, Or.inl rfl⟩),
          by omega⟩
      · exact ⟨_, mem_pixels.mpr (Or.inr ⟨0, 1, by omega, by omega, by omega, by omega, Or.inl rfl⟩),
          by omega⟩
    obtain ⟨p, hp, hp0⟩ := hpos
    obtain ⟨last, hlast, hmax⟩ := (pixels 192 b).toFinset.exists_max_image id
      ⟨p, List.mem_toFinset.mpr hp⟩
    rw [List.mem_toFinset] at hlast
    have hle : ∀ q ∈ pixels 192 b, q ≤ last := fun q hq => hmax q (List.mem_toFinset.mpr hq)
    -- the offset of the last pixel would be the one of some pixel at one byte each
    have hoff : checkAndFixOffset 3 192 192 (last * 3) ∈ offsets 1 192 192 b :=
      (h _).mp (List.mem_map.mpr ⟨last, hlast, rfl⟩)
    obtain ⟨q, hq, hqoff⟩ := List.mem_map.mp hoff
    have hql := hle q hq
    have hpl := hle p hp
    simp only [checkAndFixOffset] at hqoff
    split_ifs at hqoff <;> omega
  · intro hblank off
    simp only [offsets, pixels_blank hblank, List.map_nil]

/-- **Box drawing.**  The offsets stay in `s_gray` and a box in the image is outlined pixel by pixel exactly
when every box that is drawn has no pixel, or reaches out of the image and ends in the first third of the
frame. -/
theorem drawnInside_iff (img : Mem) (dets : List Detection) :
    DrawnInside img dets ↔ ∀ d ∈ dets, d.kept = true → d.box.Fits := by
  have hdraw : ∀ (f : ℤ) (b : Box), (drawBox f originalImageWidth originalImageHeight b ⟨img, []⟩).writes =
      offsets f 192 192 b := by
    intro f b
    rw [drawBox_writes, List.nil_append]
  constructor
  · intro h d hd hk
    by_cases hb : d.box.Clipped
    · refine Or.inl ((offsets_outline_iff hb).mp fun off => ?_)
      have hout := h.outline d hd hk hb off
      rwa [drawBoxOnImage, hdraw, hdraw] at hout
    · refine Or.inr ⟨hb, (offsets_inside_iff d.box).mp fun off hoff => h.inside off ?_⟩
      rw [runPostProcessing_writes]
      exact List.mem_flatMap.mpr ⟨d, List.mem_filter.mpr ⟨hd, hk⟩, hoff⟩
  · intro h
    constructor
    · intro off hoff
      rw [runPostProcessing_writes] at hoff
      obtain ⟨d, hd, hoff⟩ := List.mem_flatMap.mp hoff
      obtain ⟨hd, hk⟩ := List.mem_filter.mp hd
      obtain hblank | ⟨_, hthird⟩ := h d hd hk
      · simp only [offsets, pixels_blank hblank, List.map_nil, List.not_mem_nil] at hoff
      · exact (offsets_inside_iff d.box).mpr hthird off hoff
    · intro d hd hk hb off
      obtain hblank | ⟨hout, _⟩ := h d hd hk
      · rw [drawBoxOnImage, hdraw, hdraw]
        exact (offsets_outline_iff hb).mpr hblank off
      · exact absurd hb hout

/-- A face in the middle of the image. -/
theorem drawnInside_middle :
    ¬ ∀ (img : Mem) (dets : List Detection), DrawnInside img dets := by
  intro h
  have hwrite := (h (fun _ => 0) [⟨true, ⟨80, 80, 30, 40⟩⟩]).inside 46320 (by decide +kernel)
  exact absurd hwrite.2 (by decide)

end IotcRa8p1.Vision.BoxDraw
