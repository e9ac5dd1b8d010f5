import Mathlib.Data.Fintype.Prod
import Mathlib.Order.Bounds.Basic
import Videovigilancia.CvMatAndQImage
import Videovigilancia.Morphology

/-! The detection of motion, `Client/motiondetector.cpp`. The functions of OpenCV
are not in this repository: they are parameters (`OpenCV`), and
`OpenCV.Documented` says of them what its reference manual does. Nothing is said
of what the background subtractor takes for motion. -/
namespace Videovigilancia
open Morphology

/-- A pixel by its row and its column. -/
abbrev Pixel (rows cols : Nat) := Fin rows × Fin cols

/-- `foregroundMask`, a `cv::Mat` of one `uchar` for each pixel. -/
abbrev Mask (rows cols : Nat) := Pixel rows cols → Fin 256

/-- A `cv::Rect`. -/
structure CvRect where
  x : Int32
  y : Int32
  width : Int32
  height : Int32

/-- What `MotionDetector` uses of OpenCV. `S` is the state of a
`cv::BackgroundSubtractorMOG2`, and `backgroundSubtractor` the new one with its
settings. -/
structure OpenCV (S : Type) where
  backgroundSubtractor : S
  apply (rows cols : Nat) : S → Mat rows cols 4 → S × Mask rows cols
  erode (rows cols : Nat) : Mask rows cols → Mask rows cols
  dilate (rows cols : Nat) : Mask rows cols → Mask rows cols
  findContours (rows cols : Nat) : Mask rows cols → List (List (Pixel rows cols))
  boundingRect (rows cols : Nat) : List (Pixel rows cols) → CvRect

section Documented
variable {rows cols : Nat}

/-- The pixels that `findContours` sees: not the border of the image. -/
def Inner (p : Pixel rows cols) : Prop :=
  0 < p.1.val ∧ p.1.val + 1 < rows ∧ 0 < p.2.val ∧ p.2.val + 1 < cols

instance (p : Pixel rows cols) : Decidable (Inner p) := inferInstanceAs (Decidable (_ ∧ _))

def Foreground (mask : Mask rows cols) (p : Pixel rows cols) : Prop := Inner p ∧ mask p ≠ 0

instance (mask : Mask rows cols) (p : Pixel rows cols) : Decidable (Foreground mask p) :=
  inferInstanceAs (Decidable (_ ∧ _))

/-- Every pixel of the 7 × 7 window around `c`, as far as the image goes, is foreground. -/
def FullWindow (mask : Mask rows cols) (c : Pixel rows cols) : Prop := ∀ q, Box 3 c q → mask q ≠ 0

instance (mask : Mask rows cols) (c : Pixel rows cols) : Decidable (FullWindow mask c) :=
  inferInstanceAs (Decidable (∀ _, _))

/-- Between the outermost points of a contour. -/
structure Within (contour : List (Pixel rows cols)) (q : Pixel rows cols) : Prop where
  top : ∃ p ∈ contour, p.1 ≤ q.1
  bottom : ∃ p ∈ contour, q.1 ≤ p.1
  left : ∃ p ∈ contour, p.2 ≤ q.2
  right : ∃ p ∈ contour, q.2 ≤ p.2

/-- The outer contours with all their points: each goes around everything that hangs
together with it, and what hangs together has one or lies inside of one. -/
structure Outlines (mask : Mask rows cols) (contours : List (List (Pixel rows cols))) : Prop where
  some_point : ∀ contour ∈ contours, contour ≠ []
  points : ∀ contour ∈ contours, ∀ p ∈ contour, Foreground mask p
  around : ∀ contour ∈ contours, ∀ p ∈ contour, ∀ q,
    Linked (Box 1) (Foreground mask) p q → Within contour q
  complete : ∀ q, Foreground mask q → ∃ contour ∈ contours, Within contour q

/-- The least upright rectangle around the points. -/
structure CvRect.Bounds (rect : CvRect) (contour : List (Pixel rows cols)) : Prop where
  left : IsLeast {x | ∃ p ∈ contour, (p.2.val : Int) = x} rect.x.toInt
  right : IsGreatest {x | ∃ p ∈ contour, (p.2.val : Int) = x} (rect.x.toInt + rect.width.toInt - 1)
  top : IsLeast {y | ∃ p ∈ contour, (p.1.val : Int) = y} rect.y.toInt
  bottom : IsGreatest {y | ∃ p ∈ contour, (p.1.val : Int) = y}
    (rect.y.toInt + rect.height.toInt - 1)

/-- Erosion and dilation use the 3 × 3 rectangle and nothing outside the image. -/
structure OpenCV.Documented {S : Type} (cv : OpenCV S) : Prop where
  erodes : ∀ rows cols, IsErosion (Box 1) (cv.erode rows cols)
  dilates : ∀ rows cols, IsDilation (Box 1) (cv.dilate rows cols)
  outlines : ∀ rows cols (mask : Mask rows cols), Outlines mask (cv.findContours rows cols mask)
  bounds : ∀ rows cols (contour : List (Pixel rows cols)), rows < 2 ^ 31 → cols < 2 ^ 31 →
    contour ≠ [] → (cv.boundingRect rows cols contour).Bounds contour

end Documented

/-! ## The detector -/

/-- A frame of the camera; its sizes are positive `int`s. -/
structure Frame where
  height : Nat
  width : Nat
  picture : Picture height width
  height_pos : 0 < height
  width_pos : 0 < width
  height_lt : height < 2 ^ 31
  width_lt : width < 2 ^ 31

/-- What `signalResult` carries. -/
structure Detected where
  boundingRects : List QRect
  height : Nat
  width : Nat
  image : QImage .rgb32 height width

namespace MotionDetector

variable {S : Type} (cv : OpenCV S) (convertToFormat : QtOcv.ConvertToFormat)
  (byteOrder : ByteOrder)

/-- The foreground of the frame, and the subtractor that has seen it. -/
def foreground (backgroundSubtractor : S) (img : Frame) : S × Mask img.height img.width :=
  let imgConverted := convertToFormat img.height img.width img.picture .rgb32
  let img_mat : Mat img.height img.width 4 :=
    (QtOcv.image2Mat convertToFormat byteOrder (.direct imgConverted) none .bgr).2
  cv.apply img.height img.width backgroundSubtractor img_mat

/-- The mask with the noise taken out. -/
def cleaned {rows cols : Nat} (foregroundMask : Mask rows cols) : Mask rows cols :=
  let foregroundMask := cv.erode rows cols foregroundMask
  let foregroundMask := cv.erode rows cols foregroundMask
  let foregroundMask := cv.erode rows cols foregroundMask
  let foregroundMask := cv.dilate rows cols foregroundMask
  let foregroundMask := cv.dilate rows cols foregroundMask
  cv.dilate rows cols foregroundMask

/-- The loop over the contours. -/
def boundingRects {rows cols : Nat} (contours : List (List (Pixel rows cols))) : List QRect :=
  contours.map fun contour =>
    let rect := cv.boundingRect rows cols contour
    QRect.ofSize rect.x rect.y rect.width rect.height

/-- `MotionDetector::detectMotion`: the subtractor for the next frame, and the result. -/
def detectMotion (backgroundSubtractor : S) (img : Frame) : S × Detected :=
  let imgConverted := convertToFormat img.height img.width img.picture .rgb32
  let (backgroundSubtractor, foregroundMask) :=
    foreground cv convertToFormat byteOrder backgroundSubtractor img
  let contours := cv.findContours img.height img.width (cleaned cv foregroundMask)
  (backgroundSubtractor, ⟨boundingRects cv contours, img.height, img.width, imgConverted⟩)

end MotionDetector

/-! ## A concrete OpenCV -/

section Reference
variable {rows cols : Nat}

/-- The pixels of the 3 × 3 rectangle around `p`. -/
def around (p : Pixel rows cols) : Finset (Pixel rows cols) := {q | Box 1 p q}

theorem around_nonempty (p : Pixel rows cols) : (around p).Nonempty :=
  ⟨p, by simp [around, box_self]⟩

/-- Numbers of a list from the least to the greatest, as a position and a size. -/
def span (numbers : List Nat) : Int32 × Int32 :=
  let least := numbers.min?.getD 0
  (Int32.ofNat least, Int32.ofNat (numbers.max?.getD 0 + 1 - least))

end Reference

/-- An OpenCV for examples. Its subtractor takes everything for motion, as that of
OpenCV does in the first frame, and it takes all motion for one contour. -/
def OpenCV.reference : OpenCV Unit where
  backgroundSubtractor := ()
  apply _ _ _ _ := ((), fun _ => 255)
  erode _ _ mask p := (around p).inf' (around_nonempty p) mask
  dilate _ _ mask p := (around p).sup' (around_nonempty p) mask
  findContours rows cols mask :=
    let points := (List.finRange rows ×ˢ List.finRange cols).filter (Foreground mask)
    if points = [] then [] else [points]
  boundingRect _ _ contour :=
    let (x, width) := span (contour.map fun p => p.2.val)
    let (y, height) := span (contour.map fun p => p.1.val)
    ⟨x, y, width, height⟩

/-- A conversion for examples, of images that have the format already. -/
def QtOcv.sameFormat : QtOcv.ConvertToFormat := fun _ _ picture format =>
  match picture with
  | @Picture.direct _ _ other image =>
    if same : other = format then same ▸ image else .create [] fun _ _ _ => 0
  | .packed _ _ _ => .create [] fun _ _ _ => 0

/-- A 7 × 7 block and a single pixel to its right. -/
def Mask.speckled : Mask 9 12 := fun p =>
  if 1 ≤ p.1.val ∧ p.1.val ≤ 7 ∧ (1 ≤ p.2.val ∧ p.2.val ≤ 7 ∨ p.1.val = 1 ∧ p.2.val = 10) then 255
  else 0

/-- The least frame with an inner pixel. -/
def Frame.black : Frame where
  height := 3
  width := 3
  picture := .direct (QImage.create [] (fun _ _ => ![0, 0, 0, 255]) : QImage .rgb32 3 3)
  height_pos := by decide
  width_pos := by decide
  height_lt := by decide
  width_lt := by decide

end Videovigilancia
