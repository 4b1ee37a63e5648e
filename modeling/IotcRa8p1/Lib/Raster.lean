import IotcRa8p1.Lib.Loop
import Mathlib.Algebra.Order.Ring.Int
import Mathlib.Logic.Function.Basic

/-!
# Lines in a frame

A frame of `w` by `h` pixels is the memory behind its base, one cell a pixel, row by row.  `hline` and
`vline` draw a line in one colour: a line outside of the frame is left out, one that reaches out is clamped.
What was painted is recorded.

`mem_hline` and `mem_vline` say which pixels that are, `Frame.Shows` that these cells have the colour and no
other cell changed, `hline_window` and `vline_window` what is left of a line in a window of the frame.
-/

namespace IotcRa8p1.Raster

open Loop

variable {π : Type*}

/-- `clampi` -/
def clampi (v lo hi : ℤ) : ℤ := if v < lo then lo else if hi < v then hi else v

/-- The cells, and the pixels painted so far. -/
structure Frame (π : Type*) where
  px : ℕ → π
  painted : List (ℤ × ℤ)

/-- Set the pixel in column `x` and row `y`. -/
def Frame.plot (w : ℤ) (c : π) (x y : ℤ) (f : Frame π) : Frame π :=
  ⟨Function.update f.px (y * w + x).toNat c, f.painted ++ [(x, y)]⟩

/-- A horizontal line. -/
def Frame.hline (w h : ℤ) (c : π) (x0 x1 y : ℤ) (f : Frame π) : Frame π :=
  if y < 0 ∨ h ≤ y then f
  else
    let x0 := clampi x0 0 (w - 1)
    let x1 := clampi x1 0 (w - 1)
    forLoop (x1 - x0 + 1).toNat (fun i => Frame.plot w c (x0 + i) y) f

/-- A vertical line. -/
def Frame.vline (w h : ℤ) (c : π) (x y0 y1 : ℤ) (f : Frame π) : Frame π :=
  if x < 0 ∨ w ≤ x then f
  else
    let y0 := clampi y0 0 (h - 1)
    let y1 := clampi y1 0 (h - 1)
    forLoop (y1 - y0 + 1).toNat (fun i => Frame.plot w c x (y0 + i)) f

/-! ### The pixels of a line -/

/-- The pixels of a horizontal line. -/
def OnHline (w h x0 x1 y : ℤ) (p : ℤ × ℤ) : Prop :=
  (0 ≤ y ∧ y < h) ∧ p.2 = y ∧ clampi x0 0 (w - 1) ≤ p.1 ∧ p.1 ≤ clampi x1 0 (w - 1)

/-- The pixels of a vertical line. -/
def OnVline (w h x y0 y1 : ℤ) (p : ℤ × ℤ) : Prop :=
  (0 ≤ x ∧ x < w) ∧ p.1 = x ∧ clampi y0 0 (h - 1) ≤ p.2 ∧ p.2 ≤ clampi y1 0 (h - 1)

/-- The pixel lies in the frame. -/
def InFrame (w h : ℤ) (p : ℤ × ℤ) : Prop := (0 ≤ p.1 ∧ p.1 < w) ∧ 0 ≤ p.2 ∧ p.2 < h

theorem clampi_mem (v : ℤ) (hi : ℤ) (h : 0 ≤ hi) : 0 ≤ clampi v 0 hi ∧ clampi v 0 hi ≤ hi := by
  rw [clampi]
  split_ifs <;> omega

/-- A loop that plots the points of a range. -/
theorem mem_forLoop_plot (q : ℤ → ℤ × ℤ) {w lo hi : ℤ} {c : π} {f : Frame π} {p : ℤ × ℤ} :
    p ∈ (forLoop (hi - lo + 1).toNat
        (fun i => Frame.plot w c (q (lo + i)).1 (q (lo + i)).2) f).painted ↔
      p ∈ f.painted ∨ ∃ v, lo ≤ v ∧ v ≤ hi ∧ p = q v := by
  refine (forLoop_mem Frame.painted (fun i p => p = q (lo + i)) (fun i t p => ?_) f p).trans
    (or_congr_right ?_)
  · exact List.mem_append.trans (or_congr_right List.mem_singleton)
  constructor
  · rintro ⟨i, hi, rfl⟩
    exact ⟨lo + i, by omega, by omega, rfl⟩
  · rintro ⟨v, hlo, hhi, rfl⟩
    refine ⟨(v - lo).toNat, by omega, ?_⟩
    rw [Int.toNat_of_nonneg (by omega), add_sub_cancel]

theorem mem_hline {w h x0 x1 y : ℤ} {c : π} {f : Frame π} {p : ℤ × ℤ} :
    p ∈ (f.hline w h c x0 x1 y).painted ↔ p ∈ f.painted ∨ OnHline w h x0 x1 y p := by
  rw [Frame.hline]
  split_ifs with hout
  · refine ⟨Or.inl, fun hp => hp.resolve_right fun hon => ?_⟩
    have hrow := hon.1
    omega
  · refine (mem_forLoop_plot fun v => (v, y)).trans (or_congr_right ?_)
    constructor
    · rintro ⟨v, hlo, hhi, rfl⟩
      exact ⟨by omega, rfl, hlo, hhi⟩
    · rintro ⟨-, hy, hlo, hhi⟩
      exact ⟨p.1, hlo, hhi, Prod.ext rfl hy⟩

theorem mem_vline {w h x y0 y1 : ℤ} {c : π} {f : Frame π} {p : ℤ × ℤ} :
    p ∈ (f.vline w h c x y0 y1).painted ↔ p ∈ f.painted ∨ OnVline w h x y0 y1 p := by
  rw [Frame.vline]
  split_ifs with hout
  · refine ⟨Or.inl, fun hp => hp.resolve_right fun hon => ?_⟩
    have hcol := hon.1
    omega
  · refine (mem_forLoop_plot fun v => (x, v)).trans (or_congr_right ?_)
    constructor
    · rintro ⟨v, hlo, hhi, rfl⟩
      exact ⟨by omega, rfl, hlo, hhi⟩
    · rintro ⟨-, hx, hlo, hhi⟩
      exact ⟨p.2, hlo, hhi, Prod.ext hx rfl⟩

/-- A painted pixel has the colour, every other cell is as it was. -/
structure Frame.Shows (w : ℤ) (c : π) (start : ℕ → π) (f : Frame π) : Prop where
  painted : ∀ p ∈ f.painted, f.px (p.2 * w + p.1).toNat = c
  other : ∀ a, (∀ p ∈ f.painted, (p.2 * w + p.1).toNat ≠ a) → f.px a = start a

theorem Frame.Shows.start (w : ℤ) (c : π) (start : ℕ → π) : Frame.Shows w c start ⟨start, []⟩ where
  painted _ hp := nomatch hp
  other _ _ := rfl

theorem Frame.Shows.plot {w : ℤ} {c : π} {start : ℕ → π} {f : Frame π} (h : f.Shows w c start)
    (x y : ℤ) : (f.plot w c x y).Shows w c start where
  painted p hp := by
    show Function.update f.px (y * w + x).toNat c (p.2 * w + p.1).toNat = c
    rcases List.mem_append.mp hp with hp | hp
    · by_cases heq : (p.2 * w + p.1).toNat = (y * w + x).toNat
      · rw [heq, Function.update_self]
      · rw [Function.update_of_ne heq, h.painted p hp]
    · rw [List.mem_singleton.mp hp, Function.update_self]
  other a ha := by
    have hne : a ≠ (y * w + x).toNat :=
      (ha (x, y) (List.mem_append_right _ (List.mem_singleton_self _))).symm
    exact (Function.update_of_ne hne ..).trans
      (h.other a fun p hp => ha p (List.mem_append_left _ hp))

theorem Frame.Shows.hline {w : ℤ} {c : π} {start : ℕ → π} {f : Frame π} (hf : f.Shows w c start)
    (h x0 x1 y : ℤ) : (f.hline w h c x0 x1 y).Shows w c start := by
  rw [Frame.hline]
  split_ifs
  · exact hf
  · exact forLoop_invariant (fun _ (t : Frame π) => t.Shows w c start) hf
      fun i t _ ht => ht.plot _ _

theorem Frame.Shows.vline {w : ℤ} {c : π} {start : ℕ → π} {f : Frame π} (hf : f.Shows w c start)
    (h x y0 y1 : ℤ) : (f.vline w h c x y0 y1).Shows w c start := by
  rw [Frame.vline]
  split_ifs
  · exact hf
  · exact forLoop_invariant (fun _ (t : Frame π) => t.Shows w c start) hf
      fun i t _ ht => ht.plot _ _

theorem OnHline.inFrame {w h x0 x1 y : ℤ} {p : ℤ × ℤ} (hw : 0 < w) (hp : OnHline w h x0 x1 y p) :
    InFrame w h p := by
  obtain ⟨hrow, hy, hlo, hhi⟩ := hp
  have h0 := clampi_mem x0 (w - 1) (by omega)
  have h1 := clampi_mem x1 (w - 1) (by omega)
  exact ⟨by omega, by omega⟩

theorem OnVline.inFrame {w h x y0 y1 : ℤ} {p : ℤ × ℤ} (hh : 0 < h) (hp : OnVline w h x y0 y1 p) :
    InFrame w h p := by
  obtain ⟨hcol, hx, hlo, hhi⟩ := hp
  have h0 := clampi_mem y0 (h - 1) (by omega)
  have h1 := clampi_mem y1 (h - 1) (by omega)
  exact ⟨by omega, by omega⟩

/-! ### Windows -/

section window

variable {w h off width : ℤ} {p : ℤ × ℤ}

/-- A line that neither starts right of the window nor ends left of it is cut by the window as it is
clamped by a frame of the window's size. -/
theorem hline_window (hoff : 0 ≤ off) (hfit : off + w ≤ width) {x0 x1 : ℤ} (y : ℤ) (hx0 : x0 < w)
    (hx1 : 0 ≤ x1) :
    OnHline w h x0 x1 y p ↔
      (0 ≤ p.1 ∧ p.1 < w) ∧ OnHline width h (off + x0) (off + x1) y (p.1 + off, p.2) := by
  simp only [OnHline, clampi]
  split_ifs <;> omega

/-- A vertical line is in the window or not. -/
theorem vline_window (hoff : 0 ≤ off) (hfit : off + w ≤ width) (x y0 y1 : ℤ) :
    OnVline w h x y0 y1 p ↔
      (0 ≤ p.1 ∧ p.1 < w) ∧ OnVline width h (off + x) y0 y1 (p.1 + off, p.2) := by
  simp only [OnVline]
  omega

end window

end IotcRa8p1.Raster
