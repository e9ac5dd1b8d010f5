import Videovigilancia.StorageProofs
import Videovigilancia.StoringThreads
import Videovigilancia.Runs

/-! Whose image a rectangle is linked to. A thread alone stores as
`storePackage` does; several threads link rightly as long as none inserts into
`Datos` while another one has yet to read its id back. -/
namespace Videovigilancia.LinkProofs
open StoringThreads Runs

variable {s : StoringThreads} {initial : Database}

/-! ## One thread alone -/

/-- The loop over the rectangles adds one row for each. -/
theorem links_rects {thread : Nat} {row : DatosRow} {ultimoId : QString} (rects : List QRect)
    (phase : s.phase thread = linking row ultimoId rects) :
    let s' := after step s (List.replicate rects.length (.insertRoi thread))
    s'.db.datos = s.db.datos ∧ s'.db.sequence = s.db.sequence ∧
      s'.db.roi = s.db.roi ++ rects.map (roiRow ultimoId.toInt) ∧ s'.phase thread = .idle := by
  induction rects generalizing s with
  | nil => exact ⟨rfl, rfl, by simp, phase⟩
  | cons rect rects ih =>
    have stepped : s.step (.insertRoi thread) =
        ⟨s.db.insertRoi (roiRow ultimoId.toInt rect),
          Function.update s.phase thread (linking row ultimoId rects),
          s.written ++ [⟨thread, row, roiRow ultimoId.toInt rect⟩]⟩ := by
      simp only [step, phase, linking]
    obtain ⟨datos, sequence, roi, idle⟩ := ih (s := s.step (.insertRoi thread)) (by simp [stepped])
    rw [List.length_cons, List.replicate_succ, after_cons]
    refine ⟨datos.trans ?_, sequence.trans ?_, roi.trans ?_, idle⟩ <;> simp [stepped]

/-- A thread that is not interrupted leaves the tables as `storePackage` does. -/
theorem alone_stores {Image : Type} (qt : Qt Image) (out : QString) (today : QDate)
    (c : Completed Image) (saveOk : Bool) (gap : Nat) (saved : List (QString × Image)) {thread : Nat}
    (idle : s.phase thread = .idle) :
    (after step s (.insertDatos thread c.name_ (numericAffinity qt c.last_timestamp_)
        (c.fullpath out today) c.last_boundingboxes_ gap :: .selectId thread ::
        List.replicate c.last_boundingboxes_.length (.insertRoi thread))).db =
      (storePackage qt out today ⟨saveOk, true, gap, fun _ => true⟩ c ⟨saved, s.db⟩).db := by
  let timestamp := numericAffinity qt c.last_timestamp_
  let s' := (s.step (.insertDatos thread c.name_ timestamp (c.fullpath out today)
    c.last_boundingboxes_ gap)).step (.selectId thread)
  let db' := s.db.insertDatos gap c.name_ timestamp (c.fullpath out today)
  have inserted : s'.db = db' := by simp [s', db', step, idle]
  have phase : s'.phase thread =
      linking ⟨s.db.nextId gap, c.name_, timestamp, c.fullpath out today⟩ db'.ultimoId
        c.last_boundingboxes_ := by
    simp [s', db', step, idle]
  obtain ⟨datos, sequence, roi, -⟩ := links_rects c.last_boundingboxes_ phase
  have stored : (storePackage qt out today ⟨saveOk, true, gap, fun _ => true⟩ c ⟨saved, s.db⟩).db =
      insertRois (fun _ => true) db'.ultimoId.toInt c.last_boundingboxes_ db' := rfl
  rw [after_cons, after_cons, stored]
  apply Database.ext
  · rw [StorageProofs.insertRois_datos, datos, inserted]
  · rw [StorageProofs.insertRois_roi, StorageProofs.roiRows_all _ fun _ _ => rfl, roi, inserted]
  · rw [StorageProofs.insertRois_sequence, sequence, inserted]

/-! ## Several threads -/

/-- No thread stands between its INSERT and its `select`. -/
def NobodyWaits (s : StoringThreads) : Prop := ∀ thread row rects, s.phase thread ≠ .inserted row rects

/-- A package is inserted only while nobody waits, under an id an `int` can hold. -/
def linkGuard (s : StoringThreads) : Statement → Prop
  | .insertDatos thread _ _ _ _ gap =>
    s.phase thread = .idle → NobodyWaits s ∧ s.db.nextId gap < 2 ^ 31
  | _ => True

/-- The id a thread has read, or is about to read, is the one of its own row. -/
def ReadsOwn (db : Database) : Phase → Prop
  | .idle => True
  | .inserted row _ => row ∈ db.datos ∧ db.ultimoId.toInt.toInt = row.id
  | .linking row ultimoId _ => row ∈ db.datos ∧ ultimoId.toInt.toInt = row.id

structure Linkable (initial : Database) (s : StoringThreads) : Prop where
  linked : LinkedRight initial s
  reads : ∀ thread, ReadsOwn s.db (s.phase thread)

theorem linkedRight_of_own (accounted : s.db.roi = initial.roi ++ s.written.map Written.roi)
    (own : ∀ w ∈ s.written, w.row ∈ s.db.datos ∧ w.roi.link.toInt = w.row.id) :
    LinkedRight initial s :=
  ⟨accounted, own, fun w member _ present same =>
    Database.row_unique present (own w member).1 (same.symm.trans (own w member).2)⟩

theorem start_linkable (initial : Database) : Linkable initial (start initial) where
  linked := ⟨by simp [start], by simp [start], by simp [start]⟩
  reads _ := trivial

theorem readsOwn_linking {db : Database} {row : DatosRow} {ultimoId : QString} (rects : List QRect)
    (own : row ∈ db.datos ∧ ultimoId.toInt.toInt = row.id) :
    ReadsOwn db (linking row ultimoId rects) := by
  cases rects with
  | nil => trivial
  | cons rect rects => exact own

/-- A thread that has read its id keeps it while another one inserts. -/
theorem ReadsOwn.insertDatos {db : Database} {phase : Phase} (reads : ReadsOwn db phase)
    (waits : ∀ row rects, phase ≠ .inserted row rects) (gap : Nat)
    (client : QString) (timestamp : SqlValue) (image : QString) :
    ReadsOwn (db.insertDatos gap client timestamp image) phase := by
  cases phase with
  | idle => trivial
  | inserted row rects => exact absurd rfl (waits row rects)
  | linking row ultimoId rects => exact ⟨List.mem_append_left _ reads.1, reads.2⟩

theorem ReadsOwn.insertRoi {db : Database} {phase : Phase} (reads : ReadsOwn db phase)
    (roi : RoiRow) : ReadsOwn (db.insertRoi roi) phase := by
  cases phase <;> exact reads

theorem Linkable.insertDatos (linkable : Linkable initial s) {thread : Nat}
    (idle : s.phase thread = .idle) (client : QString) (timestamp : SqlValue) (image : QString)
    (rects : List QRect) {gap : Nat} (nobody : NobodyWaits s) (fits : s.db.nextId gap < 2 ^ 31) :
    Linkable initial (s.step (.insertDatos thread client timestamp image rects gap)) := by
  simp only [step, idle]
  refine ⟨linkedRight_of_own linkable.linked.accounted fun w member => ?_, ?_⟩
  · obtain ⟨present, same⟩ := linkable.linked.own w member
    exact ⟨List.mem_append_left _ present, same⟩
  · refine (Function.forall_update_iff _ fun _ => ReadsOwn _).mpr ⟨⟨by simp, ?_⟩, fun other _ => ?_⟩
    · rw [Database.ultimoId_insertDatos]
      exact (StorageProofs.link_iff (by rw [Database.nextId]; omega)).mpr fits
    · exact (linkable.reads other).insertDatos (nobody other) gap client timestamp image

theorem Linkable.selectId (linkable : Linkable initial s) {thread : Nat} {row : DatosRow}
    {rects : List QRect} (inserted : s.phase thread = .inserted row rects) :
    Linkable initial (s.step (.selectId thread)) := by
  have own := linkable.reads thread
  rw [inserted] at own
  simp only [step, inserted]
  refine ⟨linkedRight_of_own linkable.linked.accounted linkable.linked.own, ?_⟩
  exact (Function.forall_update_iff _ fun _ => ReadsOwn _).mpr
    ⟨readsOwn_linking rects own, fun other _ => linkable.reads other⟩

theorem Linkable.insertRoi (linkable : Linkable initial s) {thread : Nat} {row : DatosRow}
    {ultimoId : QString} {rect : QRect} {rects : List QRect}
    (linking : s.phase thread = .linking row ultimoId (rect :: rects)) :
    Linkable initial (s.step (.insertRoi thread)) := by
  have own := linkable.reads thread
  rw [linking] at own
  simp only [step, linking]
  refine ⟨linkedRight_of_own (by simp [linkable.linked.accounted]) fun w member => ?_, ?_⟩
  · rcases List.mem_append.mp member with old | new
    · exact linkable.linked.own w old
    · rw [List.mem_singleton.mp new]
      exact own
  · exact (Function.forall_update_iff _ fun _ => ReadsOwn _).mpr
      ⟨readsOwn_linking rects own, fun other _ => (linkable.reads other).insertRoi _⟩

theorem Linkable.step (linkable : Linkable initial s) {statement : Statement}
    (guarded : linkGuard s statement) : Linkable initial (s.step statement) := by
  cases statement with
  | insertDatos thread client timestamp image rects gap =>
    cases phase : s.phase thread with
    | idle =>
      obtain ⟨nobody, fits⟩ := guarded phase
      exact linkable.insertDatos phase client timestamp image rects nobody fits
    | _ => simpa only [StoringThreads.step, phase] using linkable
  | selectId thread =>
    cases phase : s.phase thread with
    | inserted row rects => exact linkable.selectId phase
    | _ => simpa only [StoringThreads.step, phase] using linkable
  | insertRoi thread =>
    cases phase : s.phase thread with
    | linking row ultimoId rects =>
      cases rects with
      | nil => simpa only [StoringThreads.step, phase] using linkable
      | cons rect rects => exact linkable.insertRoi phase
    | _ => simpa only [StoringThreads.step, phase] using linkable

/-- In every interleaving whose INSERTs into `Datos` meet the guard, every row of
`ROI` is linked to the image of its own package. -/
theorem links_right (initial : Database) (statements : List Statement)
    (guarded : Meets step linkGuard (start initial) statements) :
    Throughout step (LinkedRight initial) (start initial) statements :=
  (throughout_of_meets (fun _ _ linkable => linkable.step) (start_linkable initial) guarded).imp
    fun _ linkable => linkable.linked

/-- The statements of one thread that stores a package of one rectangle. -/
def storeOne (thread : Nat) (client : QString) : List Statement :=
  [.insertDatos thread client (.text []) [] [QRect.ofSize 0 0 1 1] 0, .selectId thread,
    .insertRoi thread]

/-- Two threads, one behind the other. -/
theorem links_right_in_turn : Throughout step (LinkedRight Database.empty) (start Database.empty)
    (storeOne 0 ['a'] ++ storeOne 1 ['b']) := by
  apply links_right
  have first : NobodyWaits (start Database.empty) := fun thread row rects => by simp [start]
  have second : NobodyWaits (after step (start Database.empty) (storeOne 0 ['a'])) := by
    intro thread row rects
    by_cases other : thread = 0 <;> simp [storeOne, step, start, linking, other]
  simp only [storeOne, List.cons_append, List.nil_append, meets_cons]
  exact ⟨fun _ => ⟨first, by decide⟩, trivial, trivial, fun _ => ⟨second, by decide⟩, trivial,
    trivial, meets_nil _⟩

/-! ## The guard cannot be weakened -/

/-- A thread that reads another id than its own writes a wrong link. -/
theorem mislinks {thread : Nat} (row : DatosRow) (rect : QRect) (rects : List QRect)
    (inserted : s.phase thread = .inserted row (rect :: rects))
    (foreign : s.db.ultimoId.toInt.toInt ≠ row.id) :
    ¬ LinkedRight initial (after step s [.selectId thread, .insertRoi thread]) := by
  intro linked
  have written : ⟨thread, row, roiRow s.db.ultimoId.toInt rect⟩ ∈
      (after step s [.selectId thread, .insertRoi thread]).written := by
    simp [step, inserted, linking]
  exact foreign (linked.own _ written).2

theorem nextId_pos (db : Database) (gap : Nat) : 0 < db.nextId gap := by
  rw [Database.nextId]
  omega

/-- After an unguarded INSERT some order of the statements writes a wrong link. -/
theorem unguarded_mislinks (linkable : Linkable initial s)
    (full : ∀ thread row, s.phase thread ≠ .inserted row []) {thread : Nat}
    (idle : s.phase thread = .idle) (client : QString) (timestamp : SqlValue) (image : QString)
    (rect : QRect) (rects : List QRect) {gap : Nat} (unguarded : ¬ (NobodyWaits s ∧ s.db.nextId gap < 2 ^ 31)) :
    ∃ later, ¬ LinkedRight initial (after step
      (s.step (.insertDatos thread client timestamp image (rect :: rects) gap)) later) := by
  have readBack := StorageProofs.link_iff (nextId_pos s.db gap)
  by_cases fits : s.db.nextId gap < 2 ^ 31
  · have somebody : ∃ other row others, s.phase other = .inserted row others := by
      by_contra nobody
      exact unguarded ⟨fun other row others waits => nobody ⟨other, row, others, waits⟩, fits⟩
    obtain ⟨other, row, others, waits⟩ := somebody
    cases others with
    | nil => exact absurd waits (full other row)
    | cons first others =>
      have apart : other ≠ thread := by
        rintro rfl
        simp [idle] at waits
      have own := linkable.reads other
      rw [waits] at own
      refine ⟨[.selectId other, .insertRoi other], mislinks row first others ?_ ?_⟩
      · simp [step, idle, apart, waits]
      · have older := s.db.issued row own.1
        have newer : s.db.sequence < s.db.nextId gap := by
          rw [Database.nextId]
          omega
        simp only [step, idle, Database.ultimoId_insertDatos, readBack.mpr fits]
        omega
  · refine ⟨[.selectId thread, .insertRoi thread],
      mislinks ⟨s.db.nextId gap, client, timestamp, image⟩ rect rects ?_ ?_⟩
    · simp [step, idle]
    · simp only [step, idle, Database.ultimoId_insertDatos]
      exact fun same => fits (readBack.mp same)

/-- Two threads have inserted, and neither has read its id. -/
def clash : StoringThreads := after step (start Database.empty)
  [.insertDatos 0 ['a'] (.text []) [] [QRect.ofSize 0 0 1 1] 0,
    .insertDatos 1 ['b'] (.text []) [] [QRect.ofSize 0 0 1 1] 0]

/-- The first thread then links to the row of the second one. -/
theorem links_wrong_between_inserts :
    ¬ Throughout step (LinkedRight Database.empty) (start Database.empty)
      [.insertDatos 0 ['a'] (.text []) [] [QRect.ofSize 0 0 1 1] 0,
        .insertDatos 1 ['b'] (.text []) [] [QRect.ofSize 0 0 1 1] 0, .selectId 0, .insertRoi 0] := by
  intro always
  have inserted : clash.phase 0 = .inserted ⟨1, ['a'], .text [], []⟩ [QRect.ofSize 0 0 1 1] := rfl
  have last : clash.db.ultimoId = QString.number (2 : Nat) := Database.ultimoId_insertDatos _ _ _ _ _
  have foreign : clash.db.ultimoId.toInt.toInt ≠ 1 := by
    rw [last, (StorageProofs.link_iff (by decide)).mpr (by decide)]
    decide
  exact mislinks _ _ _ inserted foreign always.last

end Videovigilancia.LinkProofs
