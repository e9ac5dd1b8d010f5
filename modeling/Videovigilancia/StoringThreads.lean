import Videovigilancia.Storage

/-! Several `ClientThread`s storing packages in the one database. Each statement
is atomic and succeeds, and between the statements of one thread any statement
of another may run. `row` in a phase is the row of `Datos` that the package of
the thread was inserted as; the code does not know it. -/
namespace Videovigilancia

/-- Where a thread stands in storing a package. -/
inductive Phase where
  | idle
  | inserted (row : DatosRow) (rects : List QRect)
  | linking (row : DatosRow) (ultimoId : QString) (rects : List QRect)
  deriving DecidableEq

/-- A row of `ROI` that was inserted, with the thread that did it and the row of
`Datos` of the same package. -/
structure Written where
  thread : Nat
  row : DatosRow
  roi : RoiRow
  deriving DecidableEq

/-- The database, the threads, and every row of `ROI` they have inserted. -/
structure StoringThreads where
  db : Database
  phase : Nat → Phase
  written : List Written

/-- The next statement of one thread. A thread between two packages may complete
any package; the time is what its column keeps. -/
inductive Statement where
  | insertDatos (thread : Nat) (client : QString) (timestamp : SqlValue) (image : QString)
      (rects : List QRect) (gap : Nat)
  | selectId (thread : Nat)
  | insertRoi (thread : Nat)

namespace StoringThreads

/-- Threads between two packages, on any tables. -/
def start (db : Database) : StoringThreads := ⟨db, fun _ => .idle, []⟩

/-- The loop over the rectangles ends behind the last one. -/
def linking (row : DatosRow) (ultimoId : QString) : List QRect → Phase
  | [] => .idle
  | rect :: rects => .linking row ultimoId (rect :: rects)

/-- A statement that is not the thread's next one changes nothing. -/
def step (s : StoringThreads) : Statement → StoringThreads
  | .insertDatos thread client timestamp image rects gap =>
    match s.phase thread with
    | .idle => { s with
        db := s.db.insertDatos gap client timestamp image
        phase := Function.update s.phase thread
          (.inserted ⟨s.db.nextId gap, client, timestamp, image⟩ rects) }
    | _ => s
  | .selectId thread =>
    match s.phase thread with
    | .inserted row rects => { s with
        phase := Function.update s.phase thread (linking row s.db.ultimoId rects) }
    | _ => s
  | .insertRoi thread =>
    match s.phase thread with
    | .linking row ultimoId (rect :: rects) =>
      let roi := roiRow ultimoId.toInt rect
      { db := s.db.insertRoi roi
        phase := Function.update s.phase thread (linking row ultimoId rects)
        written := s.written ++ [⟨thread, row, roi⟩] }
    | _ => s

/-- Every row of `ROI` beyond the first ones is linked to the row of `Datos` of
its own package, and to no other. -/
structure LinkedRight (initial : Database) (s : StoringThreads) : Prop where
  accounted : s.db.roi = initial.roi ++ s.written.map Written.roi
  own : ∀ w ∈ s.written, w.row ∈ s.db.datos ∧ w.roi.link.toInt = w.row.id
  only : ∀ w ∈ s.written, ∀ row ∈ s.db.datos, w.roi.link.toInt = row.id → row = w.row

end StoringThreads

end Videovigilancia
