import Mathlib.Data.List.Enum
import Videovigilancia.CompletionProofs
import Videovigilancia.GlpPackage
import Videovigilancia.Storage

/-! What storing one package leaves behind, for every combination of steps that
fail. The tables and the images are all there, or the tables are untouched,
exactly when everything succeeds or every INSERT fails. -/
namespace Videovigilancia.StorageProofs
open ClientThread

variable {Image : Type} {qt : Qt Image}

/-! ## The rows that are added -/

/-- The rows of the inserts that succeed. -/
def roiRows (roiOk : Nat → Bool) (link : Int32) (rects : List QRect) : List RoiRow :=
  rects.zipIdx.filterMap fun (rect, i) => if roiOk i then some (roiRow link rect) else none

private theorem foldl_inserts (roiOk : Nat → Bool) (link : Int32) (rects : List (QRect × Nat))
    (db : Database) :
    let after := rects.foldl
      (fun db (rect, i) => if roiOk i then db.insertRoi (roiRow link rect) else db) db
    after.datos = db.datos ∧ after.sequence = db.sequence ∧ after.roi = db.roi ++
      rects.filterMap fun (rect, i) => if roiOk i then some (roiRow link rect) else none := by
  induction rects generalizing db with
  | nil => simp
  | cons rect rects ih =>
    rw [List.foldl_cons]
    obtain ⟨datos, sequence, roi⟩ := ih (if roiOk rect.2 then db.insertRoi (roiRow link rect.1) else db)
    refine ⟨datos.trans ?_, sequence.trans ?_, roi.trans ?_⟩ <;> cases ok : roiOk rect.2 <;>
      simp [ok]

theorem insertRois_datos (roiOk : Nat → Bool) (link : Int32) (rects : List QRect) (db : Database) :
    (insertRois roiOk link rects db).datos = db.datos :=
  (foldl_inserts roiOk link rects.zipIdx db).1

theorem insertRois_sequence (roiOk : Nat → Bool) (link : Int32) (rects : List QRect)
    (db : Database) : (insertRois roiOk link rects db).sequence = db.sequence :=
  (foldl_inserts roiOk link rects.zipIdx db).2.1

theorem insertRois_roi (roiOk : Nat → Bool) (link : Int32) (rects : List QRect) (db : Database) :
    (insertRois roiOk link rects db).roi = db.roi ++ roiRows roiOk link rects :=
  (foldl_inserts roiOk link rects.zipIdx db).2.2

theorem roiRows_nil (roiOk : Nat → Bool) (link : Int32) (rects : List QRect) :
    roiRows roiOk link rects = [] ↔ ∀ i < rects.length, roiOk i = false := by
  rw [roiRows, List.filterMap_eq_nil_iff, List.forall_mem_zipIdx']
  simp

theorem roiRows_length {roiOk : Nat → Bool} {link : Int32} {rects : List QRect} :
    (roiRows roiOk link rects).length = rects.length ↔ ∀ i < rects.length, roiOk i = true := by
  rw [roiRows, ← List.length_zipIdx (l := rects) (i := 0), List.filterMap_length_eq_length,
    List.forall_mem_zipIdx', List.length_zipIdx]
  exact forall₂_congr fun i _ => by cases ok : roiOk i <;> simp [ok]

theorem roiRows_all {roiOk : Nat → Bool} (link : Int32) {rects : List QRect}
    (ok : ∀ i < rects.length, roiOk i = true) :
    roiRows roiOk link rects = rects.map (roiRow link) := by
  have each : ∀ entry ∈ rects.zipIdx, (if roiOk entry.2 then some (roiRow link entry.1) else none) =
      some (roiRow link entry.1) := by
    rw [List.forall_mem_zipIdx']
    intro i inside
    simp [ok i inside]
  calc roiRows roiOk link rects
    _ = rects.zipIdx.map (roiRow link ∘ Prod.fst) :=
      (List.filterMap_congr each).trans (congrFun List.filterMap_eq_map' _)
    _ = rects.map (roiRow link) := by rw [← List.map_map, List.zipIdx_map_fst]

/-- The id is read back through its text, so it must fit an `int`. -/
theorem link_iff {id : Nat} (issued : 0 < id) :
    (QString.toInt (QString.number id)).toInt = id ↔ id < 2 ^ 31 := by
  rw [QString.toInt_text, toIntResult]
  split
  · rename_i fits
    rw [Int32.toInt_ofInt_of_le (by omega) (by omega)]
    omega
  · simp
    omega

/-! ## All or nothing -/

/-- The image was saved, one new row of `Datos` names it, and one new row of `ROI`
for each rectangle is linked to that row. -/
structure StoredWhole (qt : Qt Image) (fullpath_ : QString) (c : Completed Image)
    (before after : Store Image) : Prop where
  image : ∃ image, c.last_image_ = some image ∧ after.saved = before.saved ++ [(fullpath_, image)]
  rows : ∃ (id : Int) (link : Int32), link.toInt = id ∧
    after.db.datos = before.db.datos ++
      [⟨id, c.name_, numericAffinity qt c.last_timestamp_, fullpath_⟩] ∧
    after.db.roi = before.db.roi ++ c.last_boundingboxes_.map (roiRow link)

/-- No row was added to either table. -/
structure StoredNothing (before after : Store Image) : Prop where
  datos : after.db.datos = before.db.datos
  roi : after.db.roi = before.db.roi

/-- Every step succeeds, on an image that was decoded and with an id that an `int`
can hold. -/
structure AllSucceed (qt : Qt Image) (outcomes : Outcomes) (c : Completed Image) (db : Database) :
    Prop where
  decoded : ∃ image, c.last_image_ = some image ∧ qt.isNull image = false
  saveOk : outcomes.saveOk = true
  datosOk : outcomes.datosOk = true
  roiOk : ∀ i < c.last_boundingboxes_.length, outcomes.roiOk i = true
  id_fits : db.nextId outcomes.gap < 2 ^ 31

/-- Every INSERT fails. -/
structure InsertsFail (outcomes : Outcomes) (c : Completed Image) : Prop where
  datosOk : outcomes.datosOk = false
  roiOk : ∀ i < c.last_boundingboxes_.length, outcomes.roiOk i = false

variable {out : QString} {today : QDate} {outcomes : Outcomes} {c : Completed Image}
  {store : Store Image}

theorem storePackage_saved_iff : (∃ image, c.last_image_ = some image ∧
      (storePackage qt out today outcomes c store).saved =
        store.saved ++ [(c.fullpath out today, image)]) ↔
    (∃ image, c.last_image_ = some image ∧ qt.isNull image = false) ∧ outcomes.saveOk = true := by
  cases decoded : c.last_image_ with
  | none => simp
  | some image =>
    by_cases saves : qt.isNull image = false ∧ outcomes.saveOk = true
    · simp [storePackage, saveImage, decoded, saves]
    · simp [storePackage, saveImage, decoded, saves]

theorem storePackage_inserted (qt : Qt Image) (out : QString) (today : QDate) (c : Completed Image)
    (store : Store Image) (datosOk : outcomes.datosOk = true) :
    (storePackage qt out today outcomes c store).db.datos = store.db.datos ++
        [⟨store.db.nextId outcomes.gap, c.name_, numericAffinity qt c.last_timestamp_,
          c.fullpath out today⟩] ∧
      (storePackage qt out today outcomes c store).db.roi = store.db.roi ++
        roiRows outcomes.roiOk (QString.toInt (QString.number (store.db.nextId outcomes.gap)))
          c.last_boundingboxes_ := by
  simp [storePackage, datosOk, insertRois_datos, insertRois_roi]

theorem storePackage_not_inserted (qt : Qt Image) (out : QString) (today : QDate)
    (c : Completed Image) (store : Store Image) (datosOk : outcomes.datosOk = false) :
    (storePackage qt out today outcomes c store).db.datos = store.db.datos ∧
      (storePackage qt out today outcomes c store).db.roi = store.db.roi ++
        roiRows outcomes.roiOk store.db.ultimoId.toInt c.last_boundingboxes_ := by
  simp [storePackage, datosOk, insertRois_datos, insertRois_roi]

theorem storedNothing_iff : StoredNothing store (storePackage qt out today outcomes c store) ↔
    InsertsFail outcomes c := by
  cases datosOk : outcomes.datosOk with
  | true =>
    refine iff_of_false (fun nothing => ?_) fun fails => by simp [fails.datosOk] at datosOk
    have datos := nothing.datos
    rw [(storePackage_inserted qt out today c store datosOk).1] at datos
    simp at datos
  | false =>
    obtain ⟨datos, roi⟩ := storePackage_not_inserted qt out today c store datosOk
    have untouched := roiRows_nil outcomes.roiOk store.db.ultimoId.toInt c.last_boundingboxes_
    constructor
    · intro nothing
      have same := nothing.roi
      rw [roi] at same
      exact ⟨datosOk, untouched.mp (by simpa using same)⟩
    · intro fails
      exact ⟨datos, by rw [roi, untouched.mpr fails.roiOk, List.append_nil]⟩

theorem storedWhole_iff (some_rects : c.last_boundingboxes_ ≠ []) :
    StoredWhole qt (c.fullpath out today) c store (storePackage qt out today outcomes c store) ↔
      AllSucceed qt outcomes c store.db := by
  have issued : 0 < store.db.nextId outcomes.gap := by
    rw [Database.nextId]
    omega
  constructor
  · intro whole
    obtain ⟨decoded, saveOk⟩ := storePackage_saved_iff.mp whole.image
    obtain ⟨id, link, linked, datos, roi⟩ := whole.rows
    have datosOk : outcomes.datosOk = true := by
      by_contra fails
      rw [(storePackage_not_inserted qt out today c store (by simpa using fails)).1] at datos
      simp at datos
    obtain ⟨newDatos, newRoi⟩ := storePackage_inserted qt out today c store datosOk
    rw [newDatos] at datos
    rw [newRoi] at roi
    have added := List.append_cancel_left roi
    have roiOk := roiRows_length.mp ((congrArg List.length added).trans (List.length_map _))
    rw [roiRows_all _ roiOk] at added
    obtain ⟨rect, rects, nonempty⟩ := List.exists_cons_of_ne_nil some_rects
    have sameLink : QString.toInt (QString.number (store.db.nextId outcomes.gap)) = link := by
      rw [nonempty, List.map_cons, List.map_cons] at added
      have links := congrArg RoiRow.link (List.cons.inj added).1
      rwa [roiRow_link, roiRow_link] at links
    have sameId : (store.db.nextId outcomes.gap : Int) = id := by
      simpa using List.append_cancel_left datos
    exact ⟨decoded, saveOk, datosOk, roiOk,
      (link_iff issued).mp (by rw [sameLink, linked, sameId])⟩
  · intro succeeds
    obtain ⟨datos, roi⟩ := storePackage_inserted qt out today c store succeeds.datosOk
    have linked := (link_iff issued).mpr succeeds.id_fits
    rw [roiRows_all _ succeeds.roiOk] at roi
    exact ⟨storePackage_saved_iff.mpr ⟨succeeds.decoded, succeeds.saveOk⟩,
      store.db.nextId outcomes.gap, _, linked, datos, roi⟩

/-- The tables and the image after storing, against those before. -/
def AllOrNothing (qt : Qt Image) (out : QString) (today : QDate) (outcomes : Outcomes)
    (c : Completed Image) (store : Store Image) : Prop :=
  StoredWhole qt (c.fullpath out today) c store (storePackage qt out today outcomes c store) ∨
    StoredNothing store (storePackage qt out today outcomes c store)

/-- Storing a completed package is all-or-nothing exactly when everything
succeeds or every INSERT fails. -/
theorem all_or_nothing_iff (t : ClientThread Image) (chunks : List QByteArray)
    (completed : c ∈ (run qt t chunks).completed) (out : QString) (today : QDate)
    (outcomes : Outcomes) (store : Store Image) :
    AllOrNothing qt out today outcomes c store ↔
      AllSucceed qt outcomes c store.db ∨ InsertsFail outcomes c :=
  or_congr (storedWhole_iff (CompletionProofs.completed_has_rects completed)) storedNothing_iff

/-- The sample with another image, and what the receiver makes of it. -/
def sampleWith (image : QByteArray) : Capture := { Capture.sample with bytes := image }

def completedWith (image : QByteArray) : Completed QByteArray :=
  ⟨['c', 'a', 'm'], ['5'], some image, [QRect.ofSize 1 2 3 4], 0⟩

/-- What the receiver makes of the package of two rectangles. -/
def patioCompleted : Completed QByteArray :=
  ⟨Capture.patio.clientName_, "-7".toList, some Capture.patio.bytes, Capture.patio.boundingRects, 0⟩

/-- Tables with a row each. -/
def stocked : Database :=
  (Database.empty.insertDatos 4 ['c', 'a', 'm'] (.number (.integer 3)) ['/']).insertRoi
    ⟨1, 2, 4, 3, 5⟩

/-- All is stored under a later id, or nothing is, or only the second rectangle is missing. -/
theorem all_or_nothing_patio :
    let stores (outcomes : Outcomes) := AllOrNothing Qt.reference ['/'] QDate.newYear outcomes
      patioCompleted ⟨[], stocked⟩
    stores ⟨true, true, 2, fun _ => true⟩ ∧ stores ⟨true, false, 0, fun _ => false⟩ ∧
      ¬ stores ⟨true, true, 0, fun i => i = 0⟩ := by
  have completed : patioCompleted ∈
      (run Qt.reference (create 0 0 0) [Capture.patio.motionDetected true]).completed := by
    decide +kernel
  have stores (outcomes : Outcomes) := all_or_nothing_iff (create 0 0 0) _ completed ['/']
    QDate.newYear outcomes ⟨[], stocked⟩
  refine ⟨(stores _).mpr (.inl ⟨⟨_, rfl, rfl⟩, rfl, rfl, fun _ _ => rfl, by decide⟩),
    (stores _).mpr (.inr ⟨rfl, fun _ _ => rfl⟩), fun stored => ?_⟩
  rcases (stores _).mp stored with succeeds | fails
  · exact absurd (succeeds.roiOk 1 (by decide)) (by decide)
  · exact absurd fails.datosOk (by decide)

/-- Without an image, a row of `Datos` names a file that was never written. -/
theorem row_without_image :
    completedWith [] ∈ (run Qt.reference (create 0 0 0) [(sampleWith []).motionDetected true]).completed ∧
      ¬ AllOrNothing Qt.reference ['/'] QDate.newYear
        ⟨true, true, 0, fun _ => true⟩ (completedWith []) ⟨[], Database.empty⟩ := by
  refine ⟨by decide +kernel, ?_⟩
  rintro (whole | nothing)
  · obtain ⟨image, decoded, saved⟩ := whole.image
    exact absurd saved (by simp [storePackage, saveImage, completedWith, Qt.reference])
  · exact absurd nothing.datos (by simp [storePackage, insertRois_datos, Database.empty])

end Videovigilancia.StorageProofs
