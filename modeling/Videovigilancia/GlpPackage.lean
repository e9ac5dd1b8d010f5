import Mathlib.Data.List.Forall2
import Videovigilancia.ClientThread

/-! A GLP/1.0 package on the wire: what the bytes of one package are, when they
are well formed, which members they determine, and the sender
`Console::motionDetected` of `Client/console.cpp` that writes them. -/
namespace Videovigilancia
open ClientThread

/-- One text field of the protocol. -/
structure Line where
  text : QByteArray
  whole : newline ∉ text

def Line.bytes (line : Line) : QByteArray := line.text ++ [newline]

/-- The fields of one package, in the order of the protocol. -/
structure Segment where
  name : Line
  timestamp : Line
  size : Line
  image : QByteArray
  count : Line
  rects : List Line

namespace Segment

def protocolLine : Line := ⟨glp, by decide⟩

/-- The contiguous bytes of the package. -/
def bytes (s : Segment) : QByteArray :=
  protocolLine.bytes ++ (s.name.bytes ++ (s.timestamp.bytes ++ (s.size.bytes ++
    (s.image ++ (s.count.bytes ++ s.rects.flatMap Line.bytes)))))

/-- The announced sizes are the actual ones, and every rectangle has four parts. -/
structure WellFormed {Image : Type} (qt : Qt Image) (s : Segment) : Prop where
  image_length : (s.image.length : Int) = max 0 (QByteArray.toInt s.size.text).toInt
  rect_count : (s.rects.length : Int) = (QByteArray.toInt s.count.text).toInt
  four_parts : ∀ line ∈ s.rects, ((qt.fromUtf8 line.text).split '_').length = 4

/-- The stored members are computed from the fields of this package alone. -/
structure Gives {Image : Type} (qt : Qt Image) (s : Segment) (c : Completed Image) : Prop where
  name : c.name_ = qt.fromUtf8 s.name.text
  timestamp : c.last_timestamp_ = qt.fromUtf8 s.timestamp.text
  image : c.last_image_ = some (qt.loadJpeg s.image)
  rects : s.rects.map (fun line => rectOfLine qt line.text) = c.last_boundingboxes_.map some

end Segment

/-- A rectangle is read exactly from a line of four parts. -/
theorem rectOfLine_isSome {Image : Type} (qt : Qt Image) (data : QByteArray) :
    (rectOfLine qt data).isSome = true ↔ ((qt.fromUtf8 data).split '_').length = 4 := by
  unfold rectOfLine
  split
  · rename_i parts
    simp [parts]
  · rename_i other
    refine ⟨fun some => by simp at some, fun four => ?_⟩
    match parts : (qt.fromUtf8 data).split '_', four with
    | [x, y, width, height], _ => exact absurd parts (other x y width height)

/-- What is read from a line of four parts. -/
theorem rectOfLine_parts {Image : Type} {qt : Qt Image} {data : QByteArray} {rect : QRect}
    (read : rectOfLine qt data = some rect) : ∃ x y width height,
      (qt.fromUtf8 data).split '_' = [x, y, width, height] ∧
      rect.x = x.toInt ∧ rect.y = y.toInt ∧ rect.width = width.toInt ∧
      rect.height = height.toInt := by
  unfold rectOfLine at read
  split at read
  · rename_i x y width height parts
    cases read
    exact ⟨x, y, width, height, parts, rfl, rfl, QRect.width_ofSize .., QRect.height_ofSize ..⟩
  · cases read

/-- The lines of a package and its rectangles, one by one. -/
theorem Segment.Gives.each_rect {Image : Type} {qt : Qt Image} {s : Segment} {c : Completed Image}
    (gives : s.Gives qt c) : List.Forall₂ (fun line rect => rectOfLine qt line.text = some rect)
      s.rects c.last_boundingboxes_ := by
  have pairs : List.Forall₂ (· = ·) (s.rects.map fun line => rectOfLine qt line.text)
      (c.last_boundingboxes_.map some) := by
    rw [List.forall₂_eq_eq_eq]
    exact gives.rects
  rwa [List.forall₂_map_left_iff, List.forall₂_map_right_iff] at pairs

/-! ## The sender -/

/-- What one call of `motionDetected` sends: the client's name, the clock, the
JPEG bytes of the image and the rectangles of the contours. -/
structure Capture where
  clientName_ : QString
  timestamp : Int64
  bytes : QByteArray
  boundingRects : List QRect

namespace Capture

def underscore : QByteArray := [95]

/-- The text `x_y_width_height` of one rectangle. -/
def rectText (r : QRect) : QByteArray :=
  QByteArray.number r.x.toInt ++ underscore ++ QByteArray.number r.y.toInt ++ underscore ++
    QByteArray.number r.width.toInt ++ underscore ++ QByteArray.number r.height.toInt

/-- `Console::motionDetected`: the bytes written to the socket. -/
def motionDetected (connectedServer_ : Bool) (c : Capture) : QByteArray :=
  if connectedServer_ then
    let bbCount : Int32 := Int32.ofNat c.boundingRects.length
    if bbCount ≤ 0 then []
    else
      let sizeImg : Int32 := Int32.ofNat c.bytes.length
      glp ++ [newline] ++ c.clientName_.toUtf8 ++ [newline] ++
        QByteArray.number c.timestamp.toInt ++ [newline] ++
        QByteArray.number sizeImg.toInt ++ [newline] ++ c.bytes ++
        QByteArray.number bbCount.toInt ++ [newline] ++
        c.boundingRects.flatMap fun r => rectText r ++ [newline]
  else []

@[simp] theorem motionDetected_false (c : Capture) : c.motionDetected false = [] := rfl

/-- A client that believes itself connected writes whenever something moved. -/
theorem motionDetected_ne_nil {c : Capture} (moved : 0 < Int32.ofNat c.boundingRects.length) :
    c.motionDetected true ≠ [] := by
  have first : (71 : UInt8) ∈ c.motionDetected true := by
    rw [motionDetected, if_pos rfl]
    simp only [if_neg (Int32.not_le.mpr moved), glp, List.append_assoc, List.cons_append,
      List.mem_cons, true_or]
  exact List.ne_nil_of_mem first

/-- A small package, for examples. -/
def sample : Capture := ⟨['c', 'a', 'm'], 5, [255, 10, 216], [QRect.ofSize 1 2 3 4]⟩

/-- One of two rectangles, with lines of the protocol in its image. -/
def patio : Capture where
  clientName_ := "patio".toList
  timestamp := -7
  bytes := [10, 71, 76, 80, 47, 49, 46, 48, 10]
  boundingRects := [QRect.ofSize 1 2 3 4, QRect.ofSize (-5) 0 640 480]

/-- A package a client can take up: a name that is one line of C text, an image
that a `QByteArray` can hold, and something that moved. -/
structure Sendable (c : Capture) : Prop where
  one_line : newline ∉ c.clientName_.toUtf8
  no_nul : 0 ∉ c.clientName_.toUtf8
  image_size : c.bytes.length < 2 ^ 31
  moved : c.boundingRects ≠ []

end Capture

end Videovigilancia
