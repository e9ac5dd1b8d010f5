import Mathlib.Tactic.Common
import Videovigilancia.MotionDetector

/-! What the motion detector reports of a foreground mask. Three erosions and three
dilations leave the pixels of full 7 × 7 windows, which is `opening_iff` for the
filters of OpenCV; the contours then report motion exactly when there is such a
window, and their rectangles lie inside the frame and around whole windows. -/
namespace Videovigilancia.MotionProofs
open Morphology MotionDetector

variable {S : Type} {cv : OpenCV S} {rows cols : Nat} {mask : Mask rows cols}

/-! ## The documentation can be met -/

theorem span_bounds {numbers : List Nat} (some_number : numbers ≠ [])
    (small : ∀ n ∈ numbers, n < 2 ^ 31 - 1) :
    IsLeast {x : Int | ∃ n ∈ numbers, (n : Int) = x} (span numbers).1.toInt ∧
      IsGreatest {x : Int | ∃ n ∈ numbers, (n : Int) = x}
        ((span numbers).1.toInt + (span numbers).2.toInt - 1) := by
  obtain ⟨least, first⟩ := Option.ne_none_iff_exists'.mp (mt List.min?_eq_none_iff.mp some_number)
  obtain ⟨greatest, last⟩ := Option.ne_none_iff_exists'.mp (mt List.max?_eq_none_iff.mp some_number)
  obtain ⟨present, below⟩ := List.min?_eq_some_iff.mp first
  obtain ⟨present', above⟩ := List.max?_eq_some_iff.mp last
  have := small least present
  have := small greatest present'
  have ordered := below greatest present'
  have position : (span numbers).1.toInt = least := by
    simp only [span, first, Option.getD_some]
    exact Int32.toInt_ofNat_of_lt (by omega)
  have size : (span numbers).2.toInt = (greatest + 1 - least : Nat) := by
    simp only [span, first, last, Option.getD_some]
    exact Int32.toInt_ofNat_of_lt (by omega)
  rw [position, size]
  refine ⟨⟨⟨least, present, rfl⟩, ?_⟩, ⟨greatest, present', by omega⟩, ?_⟩
  · rintro _ ⟨n, member, rfl⟩
    exact_mod_cast below n member
  · rintro _ ⟨n, member, rfl⟩
    have := above n member
    omega

theorem within_self {contour : List (Pixel rows cols)} {q : Pixel rows cols} (member : q ∈ contour) :
    Within contour q :=
  ⟨⟨q, member, le_rfl⟩, ⟨q, member, le_rfl⟩, ⟨q, member, le_rfl⟩, ⟨q, member, le_rfl⟩⟩

/-- All foreground in one contour. -/
theorem reference_outlines (mask : Mask rows cols) :
    Outlines mask (OpenCV.reference.findContours rows cols mask) := by
  let points := (List.finRange rows ×ˢ List.finRange cols).filter (Foreground mask)
  have mem_points (q : Pixel rows cols) : q ∈ points ↔ Foreground mask q := by
    obtain ⟨row, col⟩ := q
    simp [points]
  have contours : OpenCV.reference.findContours rows cols mask =
    if points = [] then [] else [points] := rfl
  rw [contours]
  split
  · rename_i empty
    refine ⟨by simp, by simp, by simp, fun q inside => ?_⟩
    have member := (mem_points q).mpr inside
    simp [empty] at member
  · rename_i some_point
    have inside {p q : Pixel rows cols} (here : Foreground mask p)
        (linked : Linked (Box 1) (Foreground mask) p q) : Foreground mask q := by
      rcases Relation.ReflTransGen.cases_tail linked with same | ⟨r, -, last⟩
      · exact same ▸ here
      · exact last.2.2
    constructor
    · simpa using some_point
    · intro contour found p member
      rw [List.mem_singleton.mp found] at member
      exact (mem_points p).mp member
    · intro contour found p member q linked
      rw [List.mem_singleton.mp found] at member ⊢
      exact within_self ((mem_points q).mpr (inside ((mem_points p).mp member) linked))
    · exact fun q here => ⟨points, by simp, within_self ((mem_points q).mpr here)⟩

theorem reference_documented : OpenCV.reference.Documented where
  erodes rows cols mask p level := by
    apply (Finset.le_inf'_iff (around_nonempty p) mask).trans
    simp [around]
  dilates rows cols mask p level := by
    apply (Finset.sup'_le_iff (around_nonempty p) mask).trans
    simp [around]
  outlines rows cols mask := reference_outlines mask
  bounds rows cols contour shortRows shortCols some_point := by
    have some_column : (contour.map fun p => p.2.val) ≠ [] := by simpa using some_point
    have some_row : (contour.map fun p => p.1.val) ≠ [] := by simpa using some_point
    have across := span_bounds some_column
      (by
        intro n member
        obtain ⟨p, -, rfl⟩ := List.mem_map.mp member
        omega)
    have down := span_bounds some_row
      (by
        intro n member
        obtain ⟨p, -, rfl⟩ := List.mem_map.mp member
        omega)
    simp only [List.mem_map, exists_exists_and_eq_and] at across down
    exact ⟨across.1, across.2, down.1, down.2⟩

/-! ## The cleaned mask -/

theorem cleaned_eq (cv : OpenCV S) (mask : Mask rows cols) :
    cleaned cv mask = opening (cv.erode rows cols) (cv.dilate rows cols) 3 mask := rfl

/-- The darkest foreground is the next level above the background. -/
theorem zero_covBy_one : (0 : Fin 256) ⋖ 1 := by
  refine ⟨by decide, fun level above below => ?_⟩
  have positive : 0 < level.val := Fin.lt_def.mp above
  have less : level.val < 1 := Fin.lt_def.mp below
  omega

theorem one_le_iff (level : Fin 256) : 1 ≤ level ↔ level ≠ 0 :=
  ⟨fun reached zero => absurd (zero ▸ reached) (by decide), Fin.one_le_of_ne_zero⟩

theorem cleaned_foreground (documented : cv.Documented) (mask : Mask rows cols)
    (p : Pixel rows cols) :
    cleaned cv mask p ≠ 0 ↔ ∃ c, Box 3 p c ∧ FullWindow mask c := by
  have kept := opening_iff zero_covBy_one (documented.dilates rows cols)
    (documented.erodes rows cols) (n := 3) (f := mask) p
  simp only [steps_box, one_le_iff] at kept
  rw [cleaned_eq]
  exact kept

/-- Cleaning keeps the pixels of full windows and no others, adds nothing, and changes
nothing when it is done again. -/
theorem cleaned_exactly (documented : cv.Documented) (mask : Mask rows cols) :
    (∀ p, cleaned cv mask p ≠ 0 ↔ ∃ c, Box 3 p c ∧ FullWindow mask c) ∧
      cleaned cv mask ≤ mask ∧ cleaned cv (cleaned cv mask) = cleaned cv mask := by
  refine ⟨cleaned_foreground documented mask, ?_⟩
  simp only [cleaned_eq]
  exact ⟨opening_le box_symm (documented.dilates rows cols) (documented.erodes rows cols),
    opening_idem box_symm (documented.dilates rows cols) (documented.erodes rows cols)⟩

/-- The block is a window. -/
theorem block_full : FullWindow Mask.speckled (4, 4) := by decide

/-- A window that reaches the single pixel has column 9, where there is no foreground. -/
theorem speck_alone (c : Pixel 9 12) (near : Box 3 (1, 10) c) : ¬ FullWindow Mask.speckled c := by
  intro full
  have gap : Box 3 c (c.1, 9) := by
    simp only [Box, Close] at near ⊢
    omega
  exact full (c.1, 9) gap (by simp [Mask.speckled])

/-- The corner of the block is kept and the single pixel is not. -/
theorem cleaned_exactly_speck :
    ((∀ p, cleaned OpenCV.reference Mask.speckled p ≠ 0 ↔
        ∃ c, Box 3 p c ∧ FullWindow Mask.speckled c) ∧
      cleaned OpenCV.reference Mask.speckled ≤ Mask.speckled ∧
      cleaned OpenCV.reference (cleaned OpenCV.reference Mask.speckled) =
        cleaned OpenCV.reference Mask.speckled) ∧
    cleaned OpenCV.reference Mask.speckled (1, 1) ≠ 0 ∧
    Mask.speckled (1, 10) ≠ 0 ∧ cleaned OpenCV.reference Mask.speckled (1, 10) = 0 := by
  have exact := cleaned_exactly reference_documented Mask.speckled
  refine ⟨exact, (exact.1 _).mpr ⟨(4, 4), by decide, block_full⟩, by decide, ?_⟩
  by_contra kept
  obtain ⟨c, near, full⟩ := (exact.1 _).mp kept
  exact speck_alone c near full

/-! ## Windows inside the border -/

/-- The first and the last row or column of a window that are inside the border. -/
def low {k : Nat} (i : Fin k) (inner : 3 ≤ k) : Fin k := ⟨max 1 (i.val - 3), by omega⟩
def high {k : Nat} (i : Fin k) (inner : 3 ≤ k) : Fin k := ⟨min (k - 2) (i.val + 3), by omega⟩

variable (tall : 3 ≤ rows) (wide : 3 ≤ cols)

/-- The corners of the part of a window that is inside the border. -/
def lowCorner (c : Pixel rows cols) : Pixel rows cols := (low c.1 tall, low c.2 wide)
def highCorner (c : Pixel rows cols) : Pixel rows cols := (high c.1 tall, high c.2 wide)

theorem inner_window {c q : Pixel rows cols} :
    Inner q ∧ Box 3 c q ↔ q ∈ Set.Icc (lowCorner tall wide c) (highCorner tall wide c) := by
  simp only [Inner, Box, Close, Set.mem_Icc, Prod.le_def, Fin.le_def, lowCorner, highCorner, low,
    high]
  omega

theorem corners_ordered (c : Pixel rows cols) :
    lowCorner tall wide c ≤ highCorner tall wide c := by
  simp only [Prod.le_def, Fin.le_def, lowCorner, highCorner, low, high]
  omega

/-- A window has pixels inside the border. -/
theorem exists_inner (tall : 3 ≤ rows) (wide : 3 ≤ cols) (c : Pixel rows cols) :
    ∃ q, Inner q ∧ Box 3 c q :=
  ⟨lowCorner tall wide c, (inner_window tall wide).mpr ⟨le_rfl, corners_ordered tall wide c⟩⟩

theorem sizes_of_inner {p : Pixel rows cols} (inner : Inner p) : 3 ≤ rows ∧ 3 ≤ cols := by
  obtain ⟨top, bottom, left, right⟩ := inner
  omega

/-- What `findContours` sees of a cleaned mask. -/
theorem foreground_cleaned (documented : cv.Documented) (p : Pixel rows cols) :
    Foreground (cleaned cv mask) p ↔ Inner p ∧ ∃ c, Box 3 p c ∧ FullWindow mask c := by
  rw [Foreground, cleaned_foreground documented]

/-- The inner pixels of a full window hang together. -/
theorem window_linked (documented : cv.Documented) {c p q : Pixel rows cols}
    (full : FullWindow mask c) (here : Inner p ∧ Box 3 c p) (there : Inner q ∧ Box 3 c q) :
    Linked (Box 1) (Foreground (cleaned cv mask)) p q := by
  obtain ⟨tall, wide⟩ := sizes_of_inner here.1
  refine linked_box (fun r member => ?_) ((inner_window tall wide).mp here)
    ((inner_window tall wide).mp there)
  obtain ⟨inner, inside⟩ := (inner_window tall wide).mpr member
  exact (foreground_cleaned documented r).mpr ⟨inner, c, box_symm _ _ inside, full⟩

/-! ## The rectangles -/

/-- The pixel lies in the rectangle. -/
structure Covers (r : QRect) (q : Pixel rows cols) : Prop where
  left : r.x.toInt ≤ q.2.val
  right : q.2.val < r.x.toInt + r.width.toInt
  top : r.y.toInt ≤ q.1.val
  bottom : q.1.val < r.y.toInt + r.height.toInt

/-- The rectangle lies in the frame and does not touch its border. -/
structure InFrame (r : QRect) (rows cols : Nat) : Prop where
  left : 0 < r.x.toInt
  right : r.x.toInt + r.width.toInt < cols
  top : 0 < r.y.toInt
  bottom : r.y.toInt + r.height.toInt < rows

/-- The rectangle of a contour. -/
def ofRect (rect : CvRect) : QRect := QRect.ofSize rect.x rect.y rect.width rect.height

theorem mem_boundingRects {contours : List (List (Pixel rows cols))} {r : QRect} :
    r ∈ boundingRects cv contours ↔
      ∃ contour ∈ contours, ofRect (cv.boundingRect rows cols contour) = r :=
  List.mem_map

theorem covers_of_within {rect : CvRect} {contour : List (Pixel rows cols)} {q : Pixel rows cols}
    (bounds : rect.Bounds contour) (within : Within contour q) : Covers (ofRect rect) q := by
  obtain ⟨⟨p, first, above⟩, ⟨p', last, below⟩, ⟨s, first', before⟩, ⟨s', last', behind⟩⟩ := within
  have left := bounds.left.2 ⟨s, first', rfl⟩
  have right := bounds.right.2 ⟨s', last', rfl⟩
  have top := bounds.top.2 ⟨p, first, rfl⟩
  have bottom := bounds.bottom.2 ⟨p', last, rfl⟩
  rw [Fin.le_def] at above below before behind
  constructor <;> simp only [ofRect, QRect.x_ofSize, QRect.y_ofSize, QRect.width_ofSize,
    QRect.height_ofSize] <;> omega

theorem inFrame_of_points {rect : CvRect} {contour : List (Pixel rows cols)}
    (bounds : rect.Bounds contour) (inner : ∀ p ∈ contour, Inner p) :
    InFrame (ofRect rect) rows cols := by
  obtain ⟨p, present, left⟩ := bounds.left.1
  obtain ⟨q, present', right⟩ := bounds.right.1
  obtain ⟨r, member, top⟩ := bounds.top.1
  obtain ⟨s, member', bottom⟩ := bounds.bottom.1
  have := inner p present
  have := inner q present'
  have := inner r member
  have := inner s member'
  simp only [Inner] at *
  constructor <;> simp only [ofRect, QRect.x_ofSize, QRect.y_ofSize, QRect.width_ofSize,
    QRect.height_ofSize] <;> omega

/-! ## What is reported -/

/-- What a rectangle tells about the mask: it goes around a full window. -/
structure Fits (mask : Mask rows cols) (r : QRect) : Prop where
  inside : InFrame r rows cols
  width : min 3 ((cols : Int) - 2) ≤ r.width.toInt
  height : min 3 ((rows : Int) - 2) ≤ r.height.toInt
  window : ∃ c, FullWindow mask c ∧ ∀ q, Inner q → Box 3 c q → Covers r q

/-- A rectangle around the inner part of a window is not smaller than it. -/
theorem sizes_of_covers {c : Pixel rows cols} {r : QRect} (tall : 3 ≤ rows) (wide : 3 ≤ cols)
    (covers : ∀ q, Inner q → Box 3 c q → Covers r q) :
    min 3 ((cols : Int) - 2) ≤ r.width.toInt ∧ min 3 ((rows : Int) - 2) ≤ r.height.toInt := by
  have least := (inner_window tall wide).mpr ⟨le_rfl, corners_ordered tall wide c⟩
  have greatest := (inner_window tall wide).mpr ⟨corners_ordered tall wide c, le_rfl⟩
  obtain ⟨left, -, top, -⟩ := covers _ least.1 least.2
  obtain ⟨-, right, -, bottom⟩ := covers _ greatest.1 greatest.2
  simp only [lowCorner, highCorner, low, high] at left right top bottom
  omega

theorem contour_fits (documented : cv.Documented) (shortRows : rows < 2 ^ 31)
    (shortCols : cols < 2 ^ 31) {contour : List (Pixel rows cols)}
    (found : contour ∈ cv.findContours rows cols (cleaned cv mask)) :
    Fits mask (ofRect (cv.boundingRect rows cols contour)) := by
  have outlines := documented.outlines rows cols (cleaned cv mask)
  have bounds := documented.bounds rows cols contour shortRows shortCols
    (outlines.some_point contour found)
  obtain ⟨p, member⟩ := List.exists_mem_of_ne_nil contour (outlines.some_point contour found)
  obtain ⟨inner, c, beside, full⟩ := (foreground_cleaned documented p).mp
    (outlines.points contour found p member)
  have covers : ∀ q, Inner q → Box 3 c q → Covers (ofRect (cv.boundingRect rows cols contour)) q :=
    fun q there inside => covers_of_within bounds (outlines.around contour found p member q
      (window_linked documented full ⟨inner, box_symm _ _ beside⟩ ⟨there, inside⟩))
  obtain ⟨tall, wide⟩ := sizes_of_inner inner
  obtain ⟨width, height⟩ := sizes_of_covers tall wide covers
  exact ⟨inFrame_of_points bounds fun q present => (outlines.points contour found q present).1,
    width, height, c, full, covers⟩

section Report
variable {convertToFormat : QtOcv.ConvertToFormat} {byteOrder : ByteOrder}

theorem detectMotion_rects (backgroundSubtractor : S) (img : Frame) :
    (detectMotion cv convertToFormat byteOrder backgroundSubtractor img).2.boundingRects =
      boundingRects cv (cv.findContours img.height img.width (cleaned cv
        (foreground cv convertToFormat byteOrder backgroundSubtractor img).2)) := rfl

theorem rect_fits (documented : cv.Documented) {backgroundSubtractor : S} {img : Frame} {r : QRect}
    (reported : r ∈
      (detectMotion cv convertToFormat byteOrder backgroundSubtractor img).2.boundingRects) :
    Fits (foreground cv convertToFormat byteOrder backgroundSubtractor img).2 r := by
  obtain ⟨contour, found, rfl⟩ := mem_boundingRects.mp reported
  exact contour_fits documented img.height_lt img.width_lt found

/-- Motion is reported exactly when the foreground has a full window and the frame
has pixels that are not on its border. -/
theorem motion_reported_iff (documented : cv.Documented) (backgroundSubtractor : S) (img : Frame) :
    (detectMotion cv convertToFormat byteOrder backgroundSubtractor img).2.boundingRects ≠ [] ↔
      3 ≤ img.height ∧ 3 ≤ img.width ∧
        ∃ c, FullWindow (foreground cv convertToFormat byteOrder backgroundSubtractor img).2 c := by
  have outlines := documented.outlines img.height img.width
    (cleaned cv (foreground cv convertToFormat byteOrder backgroundSubtractor img).2)
  rw [detectMotion_rects, boundingRects, Ne, List.map_eq_nil_iff]
  constructor
  · intro some_contour
    obtain ⟨contour, found⟩ := List.exists_mem_of_ne_nil _ some_contour
    obtain ⟨p, member⟩ := List.exists_mem_of_ne_nil _ (outlines.some_point contour found)
    obtain ⟨inner, c, -, full⟩ := (foreground_cleaned documented p).mp
      (outlines.points contour found p member)
    exact ⟨(sizes_of_inner inner).1, (sizes_of_inner inner).2, c, full⟩
  · rintro ⟨tall, wide, c, full⟩
    obtain ⟨q, inner, inside⟩ := exists_inner tall wide c
    obtain ⟨contour, found, -⟩ := outlines.complete q
      ((foreground_cleaned documented q).mpr ⟨inner, c, box_symm _ _ inside, full⟩)
    exact List.ne_nil_of_mem found

theorem motion_reported_black :
    (detectMotion OpenCV.reference QtOcv.sameFormat .littleEndian () .black).2.boundingRects ≠ [] :=
  (motion_reported_iff reference_documented () .black).mpr
    ⟨by decide, by decide, (⟨0, Frame.black.height_pos⟩, ⟨0, Frame.black.width_pos⟩),
      fun _ _ => show (255 : Fin 256) ≠ 0 by decide⟩

/-- Every rectangle lies in the frame and goes around a full window, and every inner
pixel of a full window lies in a rectangle. -/
theorem rectangles_fit (documented : cv.Documented) (backgroundSubtractor : S) (img : Frame) :
    let mask := (foreground cv convertToFormat byteOrder backgroundSubtractor img).2
    let rects := (detectMotion cv convertToFormat byteOrder backgroundSubtractor img).2.boundingRects
    (∀ r ∈ rects, Fits mask r) ∧
      ∀ c, FullWindow mask c → ∀ q, Inner q → Box 3 c q → ∃ r ∈ rects, Covers r q := by
  intro mask rects
  refine ⟨fun r => rect_fits documented, fun c full q inner inside => ?_⟩
  have outlines := documented.outlines img.height img.width (cleaned cv mask)
  obtain ⟨contour, found, within⟩ := outlines.complete q
    ((foreground_cleaned documented q).mpr ⟨inner, c, box_symm _ _ inside, full⟩)
  have bounds := documented.bounds _ _ contour img.height_lt img.width_lt
    (outlines.some_point contour found)
  exact ⟨_, mem_boundingRects.mpr ⟨contour, found, rfl⟩, covers_of_within bounds within⟩

theorem rectangles_fit_black :
    let mask := (foreground OpenCV.reference QtOcv.sameFormat .littleEndian () .black).2
    let rects := (detectMotion OpenCV.reference QtOcv.sameFormat .littleEndian () .black).2.boundingRects
    (∀ r ∈ rects, Fits mask r) ∧
      ∀ c, FullWindow mask c → ∀ q, Inner q → Box 3 c q → ∃ r ∈ rects, Covers r q :=
  rectangles_fit reference_documented () .black

end Report

end Videovigilancia.MotionProofs
