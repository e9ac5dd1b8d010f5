import Videovigilancia.ProvenanceProofs
import Videovigilancia.StorageProofs

/-! The packages of one connection, stored one after the other while nobody else
stores and no statement fails. The tables grow at their ends only, by one row of
`Datos` and the rows of `ROI` that are linked to it for each package, with the
values that its own bytes in the stream have. -/
namespace Videovigilancia.SequenceProofs
open ClientThread ProvenanceProofs RoundTripProofs StorageProofs StreamFraming

variable {Image : Type} {qt : Qt Image}

/-! ## What a package leaves -/

/-- A package, the bytes it was made of, and its rows. -/
structure Entry (Image : Type) where
  segment : Segment
  package : Completed Image
  datos : DatosRow
  roi : List RoiRow

/-- A rectangle line and its row, with the four numbers as they were received. -/
def RowOfLine (qt : Qt Image) (id : Int) (line : Line) (row : RoiRow) : Prop :=
  row.link.toInt = id ∧ ∃ x y width height,
    (qt.fromUtf8 line.text).split '_' = [x, y, width, height] ∧
    row.x = x.toInt ∧ row.y = y.toInt ∧ row.h = height.toInt ∧ row.w = width.toInt

/-- The rows say what the bytes say, the time as its column keeps it. -/
structure Entry.Exact (column : QString → SqlValue) (qt : Qt Image) (out : QString) (today : QDate)
    (e : Entry Image) : Prop where
  made : MadeOf qt e.segment e.package
  client : e.datos.client = qt.fromUtf8 e.segment.name.text
  timestamp : e.datos.timestamp = column (qt.fromUtf8 e.segment.timestamp.text)
  image : e.datos.image = e.package.fullpath out today
  roi : List.Forall₂ (RowOfLine qt e.datos.id) e.segment.rects e.roi

variable {column : QString → SqlValue} {out : QString} {today : Nat → QDate}
  {outcomes : Nat → Outcomes}

/-- Every row of `ROI` leads to the row of its package. -/
theorem Entry.Exact.linked {today : QDate} {e : Entry Image} (exact : e.Exact column qt out today) :
    ∀ row ∈ e.roi, row.link.toInt = e.datos.id := by
  have pairs : List.Forall₂ (fun row (_ : Line) => row.link.toInt = e.datos.id ∧ True)
      e.roi e.segment.rects := (exact.roi.imp fun _ _ read => ⟨read.1, trivial⟩).flip
  exact ((List.forall₂_and_left _ _).mp pairs).1

/-- A camera's own package keeps its time, as the number it is. -/
theorem Entry.Exact.time_of_capture (utf8 : qt.DecodesUtf8) {today : QDate} {e : Entry Image}
    (exact : e.Exact (numericAffinity qt) qt out today) {c : Capture} {sendable : c.Sendable}
    (sent : e.segment = RoundTripProofs.segment c sendable) :
    e.datos.timestamp = .number (.integer c.timestamp.toInt) :=
  calc e.datos.timestamp
      = numericAffinity qt (qt.fromUtf8 (QByteArray.number c.timestamp.toInt)) := by
        rw [exact.timestamp, sent]
        rfl
    _ = numericAffinity qt (QString.number c.timestamp.toInt) := by rw [utf8.number]
    _ = .number (.integer c.timestamp.toInt) := numericAffinity_number qt c.timestamp

end Videovigilancia.SequenceProofs
