import Videovigilancia.ImagePath

/-! Storing a completed package: the image file, its row in `Datos`, and one row
in `ROI` for each rectangle, linked by the id of the last row of `Datos`. Every
step may fail, no result is checked, and the code goes on. -/
namespace Videovigilancia

/-! ## The column `timestamp long` -/

/-- A value in a column. -/
inductive SqlValue where
  | number (n : SqlNumber)
  | text (s : QString)
  deriving DecidableEq

/-- What stands behind a sign. -/
def unsigned : QString → QString
  | '-' :: s => s
  | '+' :: s => s
  | s => s

/-- Nothing, or an `e` with digits behind it. -/
def isExponent : QString → Bool
  | [] => true
  | c :: s => (c = 'e' || c = 'E') && unsigned s ≠ [] && (unsigned s).all Char.isDigit

def isSqlSpace (c : Char) : Bool := isSpaceByte c.toNat

/-- What SQLite takes for a number: digits with one dot at most, an exponent, and white
space on both sides. -/
def isNumber (s : QString) : Bool :=
  let body := unsigned ((s.dropWhile isSqlSpace).reverse.dropWhile isSqlSpace).reverse
  let whole := body.takeWhile Char.isDigit
  match body.dropWhile Char.isDigit with
  | '.' :: rest =>
    whole ++ rest.takeWhile Char.isDigit ≠ [] && isExponent (rest.dropWhile Char.isDigit)
  | rest => whole ≠ [] && isExponent rest

/-- What a column of NUMERIC affinity keeps of a text, as `long` is neither an integer
nor a text for SQLite: a number where the text is one, and else the text. -/
def numericAffinity {Image : Type} (qt : Qt Image) (s : QString) : SqlValue :=
  match readInt ((s.map Char.toNat).dropWhile isSpaceByte) with
  | some n => .number (if -2 ^ 63 ≤ n ∧ n < 2 ^ 63 then .integer n else qt.readReal s)
  | none => if isNumber s then .number (qt.readReal s) else .text s

/-- The time of a camera is kept as its number. -/
theorem numericAffinity_number {Image : Type} (qt : Qt Image) (n : Int64) :
    numericAffinity qt (QString.number n.toInt) = .number (.integer n.toInt) := by
  have fits : -2 ^ 63 ≤ n.toInt ∧ n.toInt < 2 ^ 63 := ⟨n.le_toInt, n.toInt_lt⟩
  simp only [numericAffinity, QString.number_codes, numberCodes_unspaced, readInt_numberCodes]
  rw [if_pos fits]

/-! ## The tables -/

/-- A row of `Datos`. The columns of the client and the image are texts and keep what is
bound to them. -/
structure DatosRow where
  id : Int
  client : QString
  timestamp : SqlValue
  image : QString
  deriving DecidableEq

/-- A row of `ROI`; nothing reads its own id. -/
structure RoiRow where
  x : Int32
  y : Int32
  h : Int32
  w : Int32
  link : Int32
  deriving DecidableEq

/-- The tables of the constructor of `Console`. `datos` is in the order of
`select id from Datos`, and `sequence` is what `autoincrement` remembers: no id
was ever larger. -/
@[ext] structure Database where
  datos : List DatosRow
  roi : List RoiRow
  sequence : Nat
  increasing : (datos.map DatosRow.id).Pairwise (· < ·)
  issued : ∀ row ∈ datos, row.id ≤ sequence

namespace Database

def empty : Database := ⟨[], [], 0, List.Pairwise.nil, by simp⟩

/-- The id of the next row. SQLite may leave a gap above the last one. -/
def nextId (db : Database) (gap : Nat) : Nat := db.sequence + 1 + gap

/-- `INSERT INTO Datos`, with the time as its column keeps it. -/
def insertDatos (db : Database) (gap : Nat) (client : QString) (timestamp : SqlValue)
    (image : QString) : Database where
  datos := db.datos ++ [⟨db.nextId gap, client, timestamp, image⟩]
  roi := db.roi
  sequence := db.nextId gap
  increasing := by
    rw [List.map_append, List.pairwise_append]
    refine ⟨db.increasing, List.pairwise_singleton _ _, fun old member new added => ?_⟩
    obtain ⟨row, present, rfl⟩ := List.mem_map.mp member
    have bound := db.issued row present
    have same : new = db.nextId gap := by simpa using added
    rw [same, nextId]
    omega
  issued := by
    intro row member
    rcases List.mem_append.mp member with old | new
    · have := db.issued row old
      rw [nextId]
      omega
    · rw [List.mem_singleton.mp new]

/-- `select id from Datos` and `last()`: the text of the last id, which is empty
when there is no row. -/
def ultimoId (db : Database) : QString :=
  match db.datos.getLast? with
  | some row => QString.number row.id
  | none => []

/-- `INSERT INTO ROI`. -/
def insertRoi (db : Database) (row : RoiRow) : Database := { db with roi := db.roi ++ [row] }

@[simp] theorem insertRoi_datos (db : Database) (row : RoiRow) :
    (db.insertRoi row).datos = db.datos := rfl
@[simp] theorem insertRoi_roi (db : Database) (row : RoiRow) :
    (db.insertRoi row).roi = db.roi ++ [row] := rfl
@[simp] theorem insertRoi_sequence (db : Database) (row : RoiRow) :
    (db.insertRoi row).sequence = db.sequence := rfl

variable (db : Database) (gap : Nat) (client : QString) (timestamp : SqlValue) (image : QString)

@[simp] theorem insertDatos_datos : (db.insertDatos gap client timestamp image).datos =
    db.datos ++ [⟨db.nextId gap, client, timestamp, image⟩] := rfl
@[simp] theorem insertDatos_roi : (db.insertDatos gap client timestamp image).roi = db.roi := rfl
@[simp] theorem insertDatos_sequence :
    (db.insertDatos gap client timestamp image).sequence = db.nextId gap := rfl

/-- Ids are never given twice. -/
theorem row_unique {db : Database} {row row' : DatosRow} (member : row ∈ db.datos)
    (member' : row' ∈ db.datos) (same : row.id = row'.id) : row = row' :=
  List.inj_on_of_nodup_map (db.increasing.imp fun less => Int.ne_of_lt less) member member' same

/-- Right after an insertion the last id is the new one. -/
@[simp] theorem ultimoId_insertDatos : (db.insertDatos gap client timestamp image).ultimoId =
    QString.number (db.nextId gap) := by
  simp [ultimoId]

end Database

/-- The columns of one rectangle, the height before the width. -/
def roiRow (link : Int32) (rect : QRect) : RoiRow := ⟨rect.x, rect.y, rect.height, rect.width, link⟩

@[simp] theorem roiRow_link (link : Int32) (rect : QRect) : (roiRow link rect).link = link := rfl

/-- The images that were saved, oldest first, so that the last one saved under a
path is the file there, and the tables. -/
structure Store (Image : Type) where
  saved : List (QString × Image)
  db : Database

/-- How the steps of storing one package turn out. -/
structure Outcomes where
  saveOk : Bool
  datosOk : Bool
  gap : Nat
  roiOk : Nat → Bool

variable {Image : Type}

/-- `last_image_->save(fullpath_)`; a null image is not saved. -/
def saveImage (qt : Qt Image) (saveOk : Bool) (fullpath_ : QString) (last_image_ : Option Image)
    (saved : List (QString × Image)) : List (QString × Image) :=
  match last_image_ with
  | some image => if qt.isNull image = false ∧ saveOk then saved ++ [(fullpath_, image)] else saved
  | none => saved

/-- The loop over `last_boundingboxes_`. -/
def insertRois (roiOk : Nat → Bool) (link : Int32) (rects : List QRect) (db : Database) : Database :=
  rects.zipIdx.foldl
    (fun db (rect, i) => if roiOk i then db.insertRoi (roiRow link rect) else db) db

/-- `fullpath_` of a package. -/
def Completed.fullpath (outputDestination_ : QString) (today : QDate) (c : Completed Image) : QString :=
  ImagePath.fullpath outputDestination_ c.name_ (ImagePath.dateText today) c.frameCounter_

/-- The part of `readByProtocol` that stores a completed package. -/
def storePackage (qt : Qt Image) (outputDestination_ : QString) (today : QDate)
    (outcomes : Outcomes) (c : Completed Image) (store : Store Image) : Store Image :=
  let fullpath_ := c.fullpath outputDestination_ today
  let saved := saveImage qt outcomes.saveOk fullpath_ c.last_image_ store.saved
  let db :=
    if outcomes.datosOk then
      store.db.insertDatos outcomes.gap c.name_ (numericAffinity qt c.last_timestamp_) fullpath_
    else store.db
  ⟨saved, insertRois outcomes.roiOk db.ultimoId.toInt c.last_boundingboxes_ db⟩

end Videovigilancia
