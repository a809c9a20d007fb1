import Mathlib.Data.Rat.Floor
import Mathlib.Tactic.Linarith

/-! # Boxes and crops

A detection is mapped back from the letterboxed canvas to the frame, expanded by a margin, clipped,
and rounded to whole pixels for the crop. The origin is rounded down and the extent, not the far
edge, is rounded up: the crop never leaves the frame, but it can end in front of the far edge.
Coordinates are exact here.
-/
namespace AlprGate.Inference

structure LetterboxParams where
  scale : ℚ
  padX : ℚ
  padY : ℚ
  scale_pos : 0 < scale
  deriving DecidableEq

/-- `cv::Rect2f`. -/
structure Rect2f where
  x : ℚ := 0
  y : ℚ := 0
  width : ℚ := 0
  height : ℚ := 0
  deriving DecidableEq, Repr

/-- `cv::Rect`. -/
structure Rect where
  x : ℤ := 0
  y : ℤ := 0
  width : ℤ := 0
  height : ℤ := 0
  deriving DecidableEq, Repr

structure FrameSize where
  width : ℕ
  height : ℕ
  deriving DecidableEq, Repr

def letterboxScale (src dst : FrameSize) : ℚ :=
  min ((dst.width : ℚ) / src.width) ((dst.height : ℚ) / src.height)

/-- The part of the canvas that the resized frame is copied to. -/
def letterboxPlace (src dst : FrameSize) : Rect :=
  let scale := letterboxScale src dst
  let newW := round (src.width * scale)
  let newH := round (src.height * scale)
  ⟨Int.tdiv (dst.width - newW) 2,Int.tdiv (dst.height - newH) 2,newW,newH⟩

def FrameSize.Nonempty (size : FrameSize) : Prop := 0 < size.width ∧ 0 < size.height

/-- A frame that leaves something of itself has been scaled by a positive number. -/
theorem letterboxScale_pos {src dst : FrameSize} (h : 0 < (letterboxPlace src dst).width) :
    0 < letterboxScale src dst := by
  have hround : 0 < round ((src.width : ℚ) * letterboxScale src dst) := h
  by_contra hscale
  have hproduct : (src.width : ℚ) * letterboxScale src dst ≤ 0 :=
    mul_nonpos_of_nonneg_of_nonpos (Nat.cast_nonneg _) (not_lt.mp hscale)
  rw [round_eq] at hround
  have hfloor := Int.lt_floor_iff.mp hround
  push_cast at hfloor
  linarith

def letterbox (src dst : FrameSize) (h : 0 < (letterboxPlace src dst).width) : LetterboxParams :=
  let place := letterboxPlace src dst
  ⟨letterboxScale src dst,place.x,place.y,letterboxScale_pos h⟩

def unmapLetterboxBox (x1Canvas y1Canvas x2Canvas y2Canvas : ℚ) (lb : LetterboxParams)
    (src : FrameSize) : Rect2f :=
  let x1 := max 0 ((x1Canvas - lb.padX) / lb.scale)
  let y1 := max 0 ((y1Canvas - lb.padY) / lb.scale)
  let x2 := min (src.width : ℚ) ((x2Canvas - lb.padX) / lb.scale)
  let y2 := min (src.height : ℚ) ((y2Canvas - lb.padY) / lb.scale)
  if x2 ≤ x1 ∨ y2 ≤ y1 then {} else ⟨x1,y1,x2 - x1,y2 - y1⟩

/-- `std::clamp`. -/
def clamp (v lo hi : ℚ) : ℚ := if v < lo then lo else if hi < v then hi else v

/-- The edges of a box on one axis, expanded by a margin and clipped. -/
def clippedEdges (origin extent margin : ℚ) (size : ℕ) : ℚ × ℚ :=
  let d := extent * margin
  (clamp (origin - d) 0 size,clamp (origin + extent + d) 0 size)

def expandBoxWithMargin (box : Rect2f) (frame : FrameSize) (margin : ℚ) (minExtent : ℤ) : Rect :=
  let (x1,x2) := clippedEdges box.x box.width margin frame.width
  let (y1,y2) := clippedEdges box.y box.height margin frame.height
  let w := ⌈x2 - x1⌉
  let h := ⌈y2 - y1⌉
  if w < minExtent ∨ h < minExtent then {} else ⟨⌊x1⌋,⌊y1⌋,w,h⟩

def Rect.Nonempty (r : Rect) : Prop := 0 < r.width ∧ 0 < r.height

instance (r : Rect) : Decidable r.Nonempty := inferInstanceAs (Decidable (_ ∧ _))

/-- A pixel range contains an interval of coordinates. -/
def Contains (origin extent : ℤ) (edges : ℚ × ℚ) : Prop :=
  origin ≤ edges.1 ∧ edges.2 ≤ origin + extent

/-- The far edge is a whole number, or further into its pixel than the near edge into its own. -/
def FarEdgeKept (edges : ℚ × ℚ) : Prop :=
  Int.fract edges.2 = 0 ∨ Int.fract edges.1 < Int.fract edges.2

/-- Rounded up, the extent is a pixel at least and not smaller than asked for. -/
def LongEnough (minExtent : ℤ) (edges : ℚ × ℚ) : Prop :=
  1 ≤ ⌈edges.2 - edges.1⌉ ∧ minExtent ≤ ⌈edges.2 - edges.1⌉

/-- A region of interest that a frame of the size can be cut to. -/
structure Rect.InFrame (r : Rect) (frame : FrameSize) : Prop where
  x_nonneg : 0 ≤ r.x
  y_nonneg : 0 ≤ r.y
  right : r.x + r.width ≤ frame.width
  bottom : r.y + r.height ≤ frame.height

/-! ### One axis -/

section Axis
variable (origin extent margin : ℚ) (size : ℕ)

theorem clamp_mem {v hi : ℚ} (h : 0 ≤ hi) : 0 ≤ clamp v 0 hi ∧ clamp v 0 hi ≤ hi := by
  unfold clamp
  split
  · exact ⟨le_rfl,h⟩
  split
  · exact ⟨h,le_rfl⟩
  · rename_i hlow hhigh
    exact ⟨not_lt.mp hlow,not_lt.mp hhigh⟩

/-- Rounding the difference of two fractions up. -/
theorem ceil_fract_sub (a b : ℚ) :
    ⌈Int.fract b - Int.fract a⌉ = if Int.fract a < Int.fract b then 1 else 0 := by
  have ha := Int.fract_nonneg a
  have ha' := Int.fract_lt_one a
  have hb' := Int.fract_lt_one b
  have hb := Int.fract_nonneg b
  split
  · rename_i hlt
    rw [Int.ceil_eq_iff]
    push_cast
    exact ⟨by linarith,by linarith⟩
  · rename_i hle
    rw [Int.ceil_eq_iff]
    push_cast
    exact ⟨by linarith,by linarith⟩

/-- The range ends at the pixel of the far edge, or behind it. -/
theorem rounded_end (edges : ℚ × ℚ) :
    ⌊edges.1⌋ + ⌈edges.2 - edges.1⌉ =
      ⌊edges.2⌋ + if Int.fract edges.1 < Int.fract edges.2 then 1 else 0 := by
  have hnear := Int.floor_add_fract edges.1
  have hfar := Int.floor_add_fract edges.2
  have hextent : edges.2 - edges.1 =
      ((⌊edges.2⌋ - ⌊edges.1⌋ : ℤ) : ℚ) + (Int.fract edges.2 - Int.fract edges.1) := by
    push_cast
    linarith
  rw [hextent, Int.ceil_intCast_add, ceil_fract_sub]
  omega

theorem contains_iff (edges : ℚ × ℚ) :
    Contains ⌊edges.1⌋ ⌈edges.2 - edges.1⌉ edges ↔ FarEdgeKept edges := by
  have hend : ((⌊edges.1⌋ : ℚ) + ⌈edges.2 - edges.1⌉) =
      ⌊edges.2⌋ + if Int.fract edges.1 < Int.fract edges.2 then 1 else 0 := by
    exact_mod_cast congrArg (Int.cast (R:=ℚ)) (rounded_end edges)
  have hfar := Int.floor_add_fract edges.2
  have hnonneg := Int.fract_nonneg edges.2
  have hlt := Int.fract_lt_one edges.2
  unfold Contains FarEdgeKept
  rw [hend, and_iff_right (Int.floor_le edges.1)]
  by_cases hkept : Int.fract edges.1 < Int.fract edges.2
  · rw [if_pos hkept]
    exact iff_of_true (by linarith) (Or.inr hkept)
  · rw [if_neg hkept, or_iff_left hkept]
    constructor
    · intro hcovered
      linarith
    · intro hwhole
      linarith

/-- The rounded range stays inside of the frame: its end is at most the frame's, rounded up. -/
theorem rounded_inside :
    let edges := clippedEdges origin extent margin size
    0 ≤ ⌊edges.1⌋ ∧ ⌊edges.1⌋ + ⌈edges.2 - edges.1⌉ ≤ size := by
  intro edges
  have hsize : (0 : ℚ) ≤ size := Nat.cast_nonneg size
  have hnear : 0 ≤ edges.1 := (clamp_mem hsize).1
  have hfar : edges.2 ≤ size := (clamp_mem hsize).2
  refine ⟨Int.floor_nonneg.mpr hnear,?_⟩
  have hceil : ⌈edges.2 - edges.1⌉ ≤ (size : ℤ) - ⌊edges.1⌋ := by
    rw [Int.ceil_le]
    have hfloor := Int.floor_le edges.1
    push_cast
    linarith
  omega

end Axis

/-! ### The canvas -/

/-- On one axis the resized frame fits on the canvas, centred. -/
theorem letterbox_axis {src dst : ℕ} (hsrc : 0 < src) {scale : ℚ}
    (hscale : scale ≤ (dst : ℚ) / src) :
    let extent := round ((src : ℚ) * scale)
    0 ≤ Int.tdiv (dst - extent) 2 ∧ Int.tdiv (dst - extent) 2 + extent ≤ dst := by
  intro extent
  have hle : (src : ℚ) * scale ≤ dst := by
    rwa [le_div_iff₀ (Nat.cast_pos.mpr hsrc), mul_comm] at hscale
  have hextent : extent ≤ dst := by
    have hround : round ((src : ℚ) * scale) ≤ round (dst : ℚ) := by
      rw [round_eq, round_eq]
      exact Int.floor_le_floor (by linarith)
    simpa using hround
  rw [Int.tdiv_eq_ediv_of_nonneg (by omega)]
  omega

theorem letterboxPlace_inFrame {src dst : FrameSize} (hsrc : src.Nonempty) :
    (letterboxPlace src dst).InFrame dst := by
  obtain ⟨hx,hright⟩ := letterbox_axis hsrc.1 (min_le_left _ _)
  obtain ⟨hy,hbottom⟩ := letterbox_axis hsrc.2 (min_le_right _ _)
  exact ⟨hx,hy,hright,hbottom⟩

/-! ### Boxes -/

/-- A box that is mapped back lies in the frame. -/
theorem unmapLetterboxBox_inside (x1 y1 x2 y2 : ℚ) (lb : LetterboxParams) (src : FrameSize) :
    let box := unmapLetterboxBox x1 y1 x2 y2 lb src
    (0 ≤ box.x ∧ 0 ≤ box.width ∧ box.x + box.width ≤ src.width) ∧
      0 ≤ box.y ∧ 0 ≤ box.height ∧ box.y + box.height ≤ src.height := by
  intro box
  have hbox : box = unmapLetterboxBox x1 y1 x2 y2 lb src := rfl
  rw [hbox]
  unfold unmapLetterboxBox
  dsimp only
  split
  · have hwidth : (0 : ℚ) ≤ src.width := Nat.cast_nonneg _
    have hheight : (0 : ℚ) ≤ src.height := Nat.cast_nonneg _
    simp [hwidth, hheight]
  · rename_i hproper
    obtain ⟨hx,hy⟩ := not_or.mp hproper
    have hx := (not_le.mp hx).le
    have hy := (not_le.mp hy).le
    refine ⟨⟨le_max_left _ _,sub_nonneg.mpr hx,?_⟩,le_max_left _ _,sub_nonneg.mpr hy,?_⟩
    · rw [add_sub_cancel]
      exact min_le_left _ _
    · rw [add_sub_cancel]
      exact min_le_left _ _

/-- The two results of the expansion. -/
theorem expandBoxWithMargin_cases (box : Rect2f) (frame : FrameSize) (margin : ℚ)
    (minExtent : ℤ) :
    let r := expandBoxWithMargin box frame margin minExtent
    let xs := clippedEdges box.x box.width margin frame.width
    let ys := clippedEdges box.y box.height margin frame.height
    r = {} ∨ (r = ⟨⌊xs.1⌋,⌊ys.1⌋,⌈xs.2 - xs.1⌉,⌈ys.2 - ys.1⌉⟩ ∧
      minExtent ≤ r.width ∧ minExtent ≤ r.height) := by
  intro r xs ys
  have hr : r = if ⌈xs.2 - xs.1⌉ < minExtent ∨ ⌈ys.2 - ys.1⌉ < minExtent then {}
      else ⟨⌊xs.1⌋,⌊ys.1⌋,⌈xs.2 - xs.1⌉,⌈ys.2 - ys.1⌉⟩ := rfl
  rw [hr]
  split
  · exact Or.inl rfl
  · rename_i hlarge
    obtain ⟨hwidth,hheight⟩ := not_or.mp hlarge
    exact Or.inr ⟨rfl,not_lt.mp hwidth,not_lt.mp hheight⟩

/-- The crop is not empty exactly if the clipped box is long enough on both axes. -/
theorem expandBoxWithMargin_nonempty_iff (box : Rect2f) (frame : FrameSize) (margin : ℚ)
    (minExtent : ℤ) :
    (expandBoxWithMargin box frame margin minExtent).Nonempty ↔
      LongEnough minExtent (clippedEdges box.x box.width margin frame.width) ∧
        LongEnough minExtent (clippedEdges box.y box.height margin frame.height) := by
  have hr : expandBoxWithMargin box frame margin minExtent = if
      ⌈(clippedEdges box.x box.width margin frame.width).2 -
        (clippedEdges box.x box.width margin frame.width).1⌉ < minExtent ∨
      ⌈(clippedEdges box.y box.height margin frame.height).2 -
        (clippedEdges box.y box.height margin frame.height).1⌉ < minExtent then {} else _ := rfl
  rw [hr]
  unfold LongEnough
  split
  · rename_i hsmall
    constructor
    · intro hempty
      exact absurd hempty (by decide)
    · rintro ⟨⟨_,hwidth⟩,_,hheight⟩
      omega
  · rename_i hlarge
    obtain ⟨hwidth,hheight⟩ := not_or.mp hlarge
    constructor
    · rintro ⟨hw,hh⟩
      exact ⟨⟨hw,not_lt.mp hwidth⟩,hh,not_lt.mp hheight⟩
    · rintro ⟨⟨hw,_⟩,hh,_⟩
      exact ⟨hw,hh⟩

/-- A crop that is not empty contains the clipped box exactly if, on both axes, the far edge of the
box is a whole number or its fraction is larger than that of the near edge. -/
theorem crop_contains_box_iff (box : Rect2f) (frame : FrameSize) (margin : ℚ) (minExtent : ℤ) :
    let r := expandBoxWithMargin box frame margin minExtent
    let xs := clippedEdges box.x box.width margin frame.width
    let ys := clippedEdges box.y box.height margin frame.height
    (r.Nonempty → Contains r.x r.width xs ∧ Contains r.y r.height ys) ↔
      (LongEnough minExtent xs ∧ LongEnough minExtent ys → FarEdgeKept xs ∧ FarEdgeKept ys) := by
  intro r xs ys
  rw [show r.Nonempty ↔ _ from expandBoxWithMargin_nonempty_iff box frame margin minExtent]
  refine forall_congr' fun hlong => ?_
  rcases expandBoxWithMargin_cases box frame margin minExtent with hempty | ⟨hr,_,_⟩
  · have hnonempty :=
      (expandBoxWithMargin_nonempty_iff box frame margin minExtent).mpr hlong
    rw [hempty] at hnonempty
    exact absurd hnonempty (by decide)
  · have hrect : r = ⟨⌊xs.1⌋,⌊ys.1⌋,⌈xs.2 - xs.1⌉,⌈ys.2 - ys.1⌉⟩ := hr
    rw [hrect]
    dsimp only
    rw [contains_iff, contains_iff]

/-- Without a margin, the box from 1/2 to 41/4 is cropped to the pixels 0 to 9. -/
theorem crop_misses_far_edge :
    let box : Rect2f := ⟨1 / 2,1 / 2,39 / 4,39 / 4⟩
    let r := expandBoxWithMargin box ⟨100,100⟩ 0 4
    r = ⟨0,0,10,10⟩ ∧ r.Nonempty ∧ ¬ Contains r.x r.width (clippedEdges box.x box.width 0 100) := by
  intro box r
  have hr : r = ⟨0,0,10,10⟩ := by decide +kernel
  refine ⟨hr,by rw [hr]; decide,?_⟩
  have hedges : clippedEdges box.x box.width 0 100 = (1 / 2,41 / 4) := by decide +kernel
  rw [hr, hedges]
  rintro ⟨_,hcovered⟩
  norm_num at hcovered

/-- The crop of a box that was mapped back is empty or a region of the frame, not smaller than
asked for. -/
theorem crop_inside_frame (x1 y1 x2 y2 : ℚ) (lb : LetterboxParams) (frame : FrameSize)
    (margin : ℚ) {minExtent : ℤ} (hmin : 1 ≤ minExtent) :
    let box := unmapLetterboxBox x1 y1 x2 y2 lb frame
    let r := expandBoxWithMargin box frame margin minExtent
    r = {} ∨ (r.InFrame frame ∧ r.Nonempty ∧ minExtent ≤ r.width ∧ minExtent ≤ r.height) := by
  intro box r
  rcases expandBoxWithMargin_cases box frame margin minExtent with hempty | ⟨hr,hwidth,hheight⟩
  · exact Or.inl hempty
  · have hnonempty : r.Nonempty := ⟨hmin.trans hwidth,hmin.trans hheight⟩
    refine Or.inr ⟨?_,hnonempty,hwidth,hheight⟩
    obtain ⟨hx,hright⟩ := rounded_inside box.x box.width margin frame.width
    obtain ⟨hy,hbottom⟩ := rounded_inside box.y box.height margin frame.height
    rw [show r = _ from hr]
    exact ⟨hx,hy,hright,hbottom⟩

/-- A box at the right border of a frame of 640 by 480, on a canvas of half the size. -/
theorem crop_at_border_inside_frame :
    let lb : LetterboxParams := ⟨1 / 2,0,40,by norm_num⟩
    let box := unmapLetterboxBox 300 100 400 (401 / 4) lb ⟨640,480⟩
    let r := expandBoxWithMargin box ⟨640,480⟩ (1 / 10) 1
    (1 : ℤ) ≤ 1 ∧ r ≠ {} ∧
      (r = {} ∨ (r.InFrame ⟨640,480⟩ ∧ r.Nonempty ∧ 1 ≤ r.width ∧ 1 ≤ r.height)) := by
  intro lb box r
  exact ⟨le_rfl,by decide +kernel,crop_inside_frame 300 100 400 (401 / 4) lb ⟨640,480⟩ _ le_rfl⟩

end AlprGate.Inference
