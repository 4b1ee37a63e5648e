import IotcRa8p1.Lib.Raster

/-!
# The boxes on the display and in a snapshot (`detection_overlay.c`, `iotc_snapshot.c`)

The overlay draws the detections into the 640x480 camera frame, the snapshot draws them into its copy of the
480x480 pixels in the middle.  Both scale the coordinates of the model by 5/2, with C's division, and draw
each edge three pixels thick; the snapshot has no offset and clamps to its own width.

A pixel is one cell: the 16 bits of the camera frame, or the three bytes of the snapshot that `put_px` sets.
-/

namespace IotcRa8p1.Vision.Overlay

open Loop Raster

/-- `CAM_W` and `CAM_H` -/
abbrev camW : ℤ := 640

abbrev camH : ℤ := 480

/-- `SNAP_W` and `SNAP_H` -/
abbrev snapW : ℤ := 480

abbrev snapH : ℤ := 480

/-- `CROP_OFF_X` -/
abbrev cropOffX : ℤ := 80

/-- What `face_detection_box_get` gives, less the score. -/
structure Box where
  x : Int16
  y : Int16
  w : Int16
  h : Int16
  deriving DecidableEq

/-- `(v * SCALE_NUM) / SCALE_DEN` -/
def scale (v : Int16) : ℤ := (v.toInt * 5).tdiv 2

/-- The three bytes of a pixel. -/
abbrev Rgb : Type := UInt8 × UInt8 × UInt8

/-- `draw_hline` -/
def drawHline : ℤ → ℤ → ℤ → Frame UInt16 → Frame UInt16 := Frame.hline camW camH 0x07E0

/-- `draw_vline` -/
def drawVline : ℤ → ℤ → ℤ → Frame UInt16 → Frame UInt16 := Frame.vline camW camH 0x07E0

/-- `prv_hline` -/
def prvHline : ℤ → ℤ → ℤ → Frame Rgb → Frame Rgb := Frame.hline snapW snapH (0x00, 0xFF, 0x00)

/-- `prv_vline` -/
def prvVline : ℤ → ℤ → ℤ → Frame Rgb → Frame Rgb := Frame.vline snapW snapH (0x00, 0xFF, 0x00)

variable {π : Type*}

/-- The loop over the `BOX_THICK` lines of a box. -/
def outline (hline vline : ℤ → ℤ → ℤ → Frame π → Frame π) (x y w h : ℤ) : Frame π → Frame π :=
  forLoop 3 fun t f =>
    let f := hline x (x + w) (y + t) f
    let f := hline x (x + w) (y + h - t) f
    let f := vline (x + t) y (y + h) f
    vline (x + w - t) y (y + h) f

/-- `detection_overlay_draw` -/
def detectionOverlayDraw (fb : ℕ → UInt16) (boxes : List Box) : Frame UInt16 :=
  boxes.foldl (fun f b =>
    outline drawHline drawVline (cropOffX + scale b.x) (scale b.y) (scale b.w) (scale b.h) f) ⟨fb, []⟩

/-- The loop of `iotc_snapshot_capture_upload` over the detections. -/
def snapshotDraw (rgb : ℕ → Rgb) (boxes : List Box) : Frame Rgb :=
  boxes.foldl (fun f b =>
    outline prvHline prvVline (scale b.x) (scale b.y) (scale b.w) (scale b.h) f) ⟨rgb, []⟩

/-! ### The pixels of a box -/

/-- The pixels of the twelve lines. -/
def OnOutline (width height x y w h : ℤ) (p : ℤ × ℤ) : Prop :=
  ∃ t : ℤ, (0 ≤ t ∧ t < 3) ∧
    (OnHline width height x (x + w) (y + t) p ∨ OnHline width height x (x + w) (y + h - t) p ∨
      OnVline width height (x + t) y (y + h) p ∨ OnVline width height (x + w - t) y (y + h) p)

theorem mem_outline (width height : ℤ) (c : π) (x y w h : ℤ) (f : Frame π) (p : ℤ × ℤ) :
    p ∈ (outline (Frame.hline width height c) (Frame.vline width height c) x y w h f).painted ↔
      p ∈ f.painted ∨ OnOutline width height x y w h p := by
  refine (forLoop_mem Frame.painted (fun (i : ℕ) p =>
    OnHline width height x (x + w) (y + i) p ∨ OnHline width height x (x + w) (y + h - i) p ∨
      OnVline width height (x + i) y (y + h) p ∨ OnVline width height (x + w - i) y (y + h) p)
    (fun i t p => ?_) f p).trans (or_congr_right ?_)
  · simp only [mem_hline, mem_vline, or_assoc]
  · constructor
    · rintro ⟨i, hi, hp⟩
      exact ⟨i, by omega, hp⟩
    · rintro ⟨t, ht, hp⟩
      refine ⟨t.toNat, by omega, ?_⟩
      rwa [Int.toNat_of_nonneg ht.1]

/-- The same over the boxes, each at its own place. -/
theorem mem_foldl_outline (width height off : ℤ) (c : π) (boxes : List Box) (f : Frame π) (p : ℤ × ℤ) :
    p ∈ (boxes.foldl (fun f b => outline (Frame.hline width height c) (Frame.vline width height c)
        (off + scale b.x) (scale b.y) (scale b.w) (scale b.h) f) f).painted ↔
      p ∈ f.painted ∨
        ∃ b ∈ boxes, OnOutline width height (off + scale b.x) (scale b.y) (scale b.w) (scale b.h) p := by
  induction boxes generalizing f with
  | nil => simp
  | cons b boxes ih =>
    rw [List.foldl_cons, ih, mem_outline, or_assoc]
    simp only [List.mem_cons, exists_eq_or_imp]

/-- A box drawn leaves a frame that shows what was painted. -/
theorem shows_outline {width height : ℤ} {c : π} {start : ℕ → π} (x y w h : ℤ) {f : Frame π}
    (hf : f.Shows width c start) :
    (outline (Frame.hline width height c) (Frame.vline width height c) x y w h f).Shows width c start :=
  forLoop_invariant (fun _ (t : Frame π) => t.Shows width c start) hf
    fun _ _ _ ht => (((ht.hline _ _ _ _).hline _ _ _ _).vline _ _ _ _).vline _ _ _ _

theorem shows_foldl_outline {width height off : ℤ} {c : π} {start : ℕ → π} (boxes : List Box)
    {f : Frame π} (hf : f.Shows width c start) :
    (boxes.foldl (fun f b => outline (Frame.hline width height c) (Frame.vline width height c)
      (off + scale b.x) (scale b.y) (scale b.w) (scale b.h) f) f).Shows width c start := by
  induction boxes generalizing f with
  | nil => exact hf
  | cons b boxes ih => exact ih (shows_outline _ _ _ _ hf)

theorem OnOutline.inFrame {width height x y w h : ℤ} {p : ℤ × ℤ} (hw : 0 < width) (hh : 0 < height)
    (hp : OnOutline width height x y w h p) : InFrame width height p := by
  obtain ⟨t, -, hp | hp | hp | hp⟩ := hp
  · exact hp.inFrame hw
  · exact hp.inFrame hw
  · exact hp.inFrame hh
  · exact hp.inFrame hh

/-- A box whose lines start left of the right border and end right of the left one is cut by the window as
it is clamped by a frame of the window's size. -/
theorem outline_window {w h off width : ℤ} {p : ℤ × ℤ} (hoff : 0 ≤ off) (hfit : off + w ≤ width)
    {x bw : ℤ} (y bh : ℤ) (hx : x < w) (hbw : 0 ≤ x + bw) :
    OnOutline w h x y bw bh p ↔
      (0 ≤ p.1 ∧ p.1 < w) ∧ OnOutline width h (off + x) y bw bh (p.1 + off, p.2) := by
  have hend : off + x + bw = off + (x + bw) := add_assoc ..
  have hline (row : ℤ) : OnHline w h x (x + bw) row p ↔
      (0 ≤ p.1 ∧ p.1 < w) ∧ OnHline width h (off + x) (off + x + bw) row (p.1 + off, p.2) := by
    rw [hend]
    exact hline_window hoff hfit row hx hbw
  have hleft (t : ℤ) : OnVline w h (x + t) y (y + bh) p ↔
      (0 ≤ p.1 ∧ p.1 < w) ∧ OnVline width h (off + x + t) y (y + bh) (p.1 + off, p.2) := by
    rw [add_assoc off x t]
    exact vline_window hoff hfit (x + t) y (y + bh)
  have hright (t : ℤ) : OnVline w h (x + bw - t) y (y + bh) p ↔
      (0 ≤ p.1 ∧ p.1 < w) ∧ OnVline width h (off + x + bw - t) y (y + bh) (p.1 + off, p.2) := by
    rw [hend, add_sub_assoc off (x + bw) t]
    exact vline_window hoff hfit (x + bw - t) y (y + bh)
  simp only [OnOutline, hline, hleft, hright, ← and_or_left]
  constructor
  · rintro ⟨t, ht, hcol, hp⟩
    exact ⟨hcol, t, ht, hp⟩
  · rintro ⟨hcol, t, ht, hp⟩
    exact ⟨t, ht, hcol, hp⟩

/-! ### Both drawings -/

/-- The box lies in the model's 192x192 input. -/
def Box.InModel (b : Box) : Prop :=
  (0 ≤ b.x.toInt ∧ 1 ≤ b.w.toInt ∧ b.x.toInt + b.w.toInt ≤ 192) ∧
    0 ≤ b.y.toInt ∧ 1 ≤ b.h.toInt ∧ b.y.toInt + b.h.toInt ≤ 192

instance (b : Box) : Decidable b.InModel := by unfold Box.InModel; infer_instance

/-- The quotient is cut toward zero. -/
theorem scale_bounds (v : Int16) :
    2 * scale v - 1 ≤ v.toInt * 5 ∧ v.toInt * 5 ≤ 2 * scale v + 1 := by
  rw [scale]
  rcases Int.le_total 0 (v.toInt * 5) with hpos | hneg
  · rw [Int.tdiv_eq_ediv_of_nonneg hpos]
    omega
  · have hquot : (v.toInt * 5).tdiv 2 = -(-(v.toInt * 5) / 2) := by
      rw [← Int.tdiv_eq_ediv_of_nonneg (by omega), Int.neg_tdiv, Int.neg_neg]
    rw [hquot]
    omega

/-- What is computed for a place and an extent is an `int`. -/
def CoordsFit (off : ℤ) (a b : Int16) : Prop :=
  ∀ t : ℤ, 0 ≤ t → t < 3 →
    ∀ c ∈ [a.toInt * 5, b.toInt * 5, off + scale a + t, off + scale a + scale b, off + scale a + scale b - t],
      -2 ^ 31 ≤ c ∧ c < 2 ^ 31

theorem coords_fit (a b : Int16) {off : ℤ} (hoff : 0 ≤ off ∧ off ≤ 80) : CoordsFit off a b := by
  intro t ht0 ht3 c hc
  have ha := scale_bounds a
  have hb := scale_bounds b
  have hla := a.le_toInt
  have hua := a.toInt_lt
  have hlb := b.le_toInt
  have hub := b.toInt_lt
  simp only [List.mem_cons, List.not_mem_nil, or_false] at hc
  rcases hc with rfl | rfl | rfl | rfl | rfl <;> omega

theorem mem_detectionOverlayDraw (fb : ℕ → UInt16) (boxes : List Box) (p : ℤ × ℤ) :
    p ∈ (detectionOverlayDraw fb boxes).painted ↔ ∃ b ∈ boxes,
      OnOutline camW camH (cropOffX + scale b.x) (scale b.y) (scale b.w) (scale b.h) p := by
  refine (mem_foldl_outline camW camH cropOffX 0x07E0 boxes ⟨fb, []⟩ p).trans ?_
  exact or_iff_right List.not_mem_nil

theorem snapshotDraw_eq (rgb : ℕ → Rgb) (boxes : List Box) :
    snapshotDraw rgb boxes = boxes.foldl (fun f b => outline (Frame.hline snapW snapH (0x00, 0xFF, 0x00))
      (Frame.vline snapW snapH (0x00, 0xFF, 0x00)) (0 + scale b.x) (scale b.y) (scale b.w) (scale b.h) f)
      ⟨rgb, []⟩ := by
  simp only [snapshotDraw, zero_add]
  rfl

theorem mem_snapshotDraw (rgb : ℕ → Rgb) (boxes : List Box) (p : ℤ × ℤ) :
    p ∈ (snapshotDraw rgb boxes).painted ↔ ∃ b ∈ boxes,
      OnOutline snapW snapH (scale b.x) (scale b.y) (scale b.w) (scale b.h) p := by
  rw [snapshotDraw_eq, mem_foldl_outline]
  simp only [zero_add]
  exact or_iff_right List.not_mem_nil

/-- The two drawings: the same pixels where the boxes lie in the model's input, and for every box only
pixels of the own frame, whose cells have the colour while every other cell is as it was; no `int` overflows. -/
structure DrawnAlike (fb : ℕ → UInt16) (rgb : ℕ → Rgb) (boxes : List Box) : Prop where
  same : (∀ b ∈ boxes, b.InModel) → ∀ p : ℤ × ℤ, p ∈ (snapshotDraw rgb boxes).painted ↔
    (80 ≤ p.1 + 80 ∧ p.1 + 80 ≤ 559) ∧ (p.1 + 80, p.2) ∈ (detectionOverlayDraw fb boxes).painted
  snapshotInside : ∀ p ∈ (snapshotDraw rgb boxes).painted, InFrame 480 480 p
  overlayInside : ∀ p ∈ (detectionOverlayDraw fb boxes).painted, InFrame 640 480 p
  snapshotShows : (snapshotDraw rgb boxes).Shows 480 (0x00, 0xFF, 0x00) rgb
  overlayShows : (detectionOverlayDraw fb boxes).Shows 640 0x07E0 fb
  snapshotFits : ∀ b ∈ boxes, CoordsFit 0 b.x b.w ∧ CoordsFit 0 b.y b.h
  overlayFits : ∀ b ∈ boxes, CoordsFit cropOffX b.x b.w ∧ CoordsFit 0 b.y b.h

/-- **Snapshot and overlay.** -/
theorem boxes_drawnAlike (fb : ℕ → UInt16) (rgb : ℕ → Rgb) (boxes : List Box) :
    DrawnAlike fb rgb boxes where
  same hin p := by
    rw [mem_snapshotDraw, mem_detectionOverlayDraw]
    have hbox (b : Box) (hb : b ∈ boxes) :
        OnOutline snapW snapH (scale b.x) (scale b.y) (scale b.w) (scale b.h) p ↔
          (0 ≤ p.1 ∧ p.1 < 480) ∧ OnOutline camW camH (cropOffX + scale b.x) (scale b.y) (scale b.w)
            (scale b.h) (p.1 + 80, p.2) := by
      obtain ⟨⟨hx, hw, hxw⟩, -⟩ := hin b hb
      have hsx := scale_bounds b.x
      have hsw := scale_bounds b.w
      have hstart : scale b.x < 480 := by omega
      have hend : 0 ≤ scale b.x + scale b.w := by omega
      exact outline_window (by decide) (by decide) _ _ hstart hend
    constructor
    · rintro ⟨b, hb, hp⟩
      obtain ⟨hcol, hon⟩ := (hbox b hb).mp hp
      exact ⟨by omega, b, hb, hon⟩
    · rintro ⟨hcol, b, hb, hon⟩
      exact ⟨b, hb, (hbox b hb).mpr ⟨by omega, hon⟩⟩
  snapshotInside p hp := by
    obtain ⟨b, -, hon⟩ := (mem_snapshotDraw rgb boxes p).mp hp
    exact hon.inFrame (by decide) (by decide)
  overlayInside p hp := by
    obtain ⟨b, -, hon⟩ := (mem_detectionOverlayDraw fb boxes p).mp hp
    exact hon.inFrame (by decide) (by decide)
  snapshotShows := by
    rw [snapshotDraw_eq]
    exact shows_foldl_outline boxes (Frame.Shows.start _ _ _)
  overlayShows := shows_foldl_outline boxes (Frame.Shows.start _ _ _)
  snapshotFits b _ := ⟨coords_fit b.x b.w (by decide), coords_fit b.y b.h (by decide)⟩
  overlayFits b _ := ⟨coords_fit b.x b.w (by decide), coords_fit b.y b.h (by decide)⟩

end IotcRa8p1.Vision.Overlay
