import Videovigilancia.StorageProofs
import Videovigilancia.SurveillanceProofs

/-! From the camera to the tables. The recorder stores the packages of all its
connections, one thread at a time, and any step may fail. A package whose row was
inserted has its rectangles linked to this row, whatever failed before it, so that
the frames that moved can be followed into the tables and the files. -/
namespace Videovigilancia.ArchiveProofs
open Runs Server StorageProofs Surveillance SurveillanceProofs TransportProofs Workers

variable {S Image : Type} {setup : Setup S Image} {qt : Qt Image} {out : QString}

/-- A completed package, and how the steps of storing it turn out. -/
structure Attempt (Image : Type) where
  recorded : Recorded Image
  outcomes : Outcomes

/-- One thread stores one package. -/
def store (qt : Qt Image) (out : QString) (s : Store Image) (a : Attempt Image) : Store Image :=
  storePackage qt out a.recorded.today a.outcomes a.recorded.package s

/-- `fullpath_` of a package that was recorded. -/
def Attempt.path (out : QString) (a : Attempt Image) : QString :=
  a.recorded.package.fullpath out a.recorded.today

/-! ## What is left of the packages -/

/-- What storing one package added. -/
structure Entry (Image : Type) where
  attempt : Attempt Image
  datos : List DatosRow
  roi : List RoiRow
  saved : List (QString × Image)

/-- A row that was inserted names the package and its file, and the rectangles that
were inserted with it are linked to it. -/
structure Entry.Exact (qt : Qt Image) (out : QString) (e : Entry Image) : Prop where
  saved : e.saved = saveImage qt e.attempt.outcomes.saveOk (e.attempt.path out)
    e.attempt.recorded.package.last_image_ []
  failed : e.attempt.outcomes.datosOk = false → e.datos = []
  inserted : e.attempt.outcomes.datosOk = true → ∃ (id : Int) (link : Int32), link.toInt = id ∧
    e.datos = [⟨id, e.attempt.recorded.package.name_,
      numericAffinity qt e.attempt.recorded.package.last_timestamp_, e.attempt.path out⟩] ∧
    e.roi = roiRows e.attempt.outcomes.roiOk link e.attempt.recorded.package.last_boundingboxes_

/-- The tables and the files grow at their ends only, by what each package left. -/
structure Archived (qt : Qt Image) (out : QString) (attempts : List (Attempt Image))
    (before after : Store Image) (entries : List (Entry Image)) : Prop where
  attempts : entries.map Entry.attempt = attempts
  exact : ∀ e ∈ entries, e.Exact qt out
  datos : after.db.datos = before.db.datos ++ entries.flatMap Entry.datos
  roi : after.db.roi = before.db.roi ++ entries.flatMap Entry.roi
  saved : after.saved = before.saved ++ entries.flatMap Entry.saved

/-- What a frame left: its row, the rectangles linked to it, and its file. -/
structure Entry.Shows (setup : Setup S Image) (out : QString) (d : Detected) (e : Entry Image) :
    Prop where
  file : e.saved = saveImage setup.qt e.attempt.outcomes.saveOk (e.attempt.path out)
    (some (setup.qt.loadJpeg (setup.jpeg d))) []
  rows : e.attempt.outcomes.datosOk = true → ∃ (id : Int) (link : Int32) (timestamp : SqlValue),
    link.toInt = id ∧ e.datos = [⟨id, setup.clientName_, timestamp, e.attempt.path out⟩] ∧
      e.roi = roiRows e.attempt.outcomes.roiOk link d.boundingRects

theorem Entry.Exact.shows {e : Entry Image} (exact : e.Exact setup.qt out) {d : Detected}
    (same : picture e.attempt.recorded.package = loaded setup.qt (shown setup d)) :
    e.Shows setup out d := by
  have name : e.attempt.recorded.package.name_ = setup.clientName_ := congrArg (fun v => v.1) same
  have image : e.attempt.recorded.package.last_image_ = some (setup.qt.loadJpeg (setup.jpeg d)) :=
    congrArg (fun v => v.2.1) same
  have rects : e.attempt.recorded.package.last_boundingboxes_ = d.boundingRects :=
    congrArg (fun v => v.2.2) same
  refine ⟨image ▸ exact.saved, fun datosOk => ?_⟩
  obtain ⟨id, link, linked, datos, roi⟩ := exact.inserted datosOk
  exact ⟨id, link, _, linked, name ▸ datos, rects ▸ roi⟩

/-- The entries of one connection show what it recorded. -/
theorem Archived.shows {attempts : List (Attempt Image)} {before after : Store Image}
    {entries : List (Entry Image)} (archive : Archived setup.qt out attempts before after entries)
    {c : Console Image} (all : attempts.map Attempt.recorded = c.recorded) {i : Nat}
    {seen : List Detected}
    (stored : (packagesOf c i).map picture = seen.map fun d => loaded setup.qt (shown setup d)) :
    List.Forall₂ (Entry.Shows setup out) seen
      (entries.filter fun e => e.attempt.recorded.connection = i) := by
  have own : packagesOf c i = (entries.filter fun e => e.attempt.recorded.connection = i).map
      fun e => e.attempt.recorded.package := by
    rw [packagesOf, IsolationProofs.recordedOf, ← all, ← archive.attempts, List.map_map,
      List.filter_map, List.map_map]
    rfl
  rw [own, List.map_map, ← List.forall₂_eq_eq_eq, List.forall₂_map_left_iff,
    List.forall₂_map_right_iff] at stored
  have members : ∀ e ∈ entries.filter fun e => e.attempt.recorded.connection = i,
      e.Exact setup.qt out := fun e member => archive.exact e (List.mem_of_mem_filter member)
  exact (((List.forall₂_and_left _ _).mpr ⟨members, stored⟩).imp
    fun _ _ both => both.1.shows both.2).flip

end Videovigilancia.ArchiveProofs
