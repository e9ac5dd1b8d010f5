import Videovigilancia.StorageProofs
import Videovigilancia.StoringThreads
import Videovigilancia.Runs

/-! Several `ClientThread`s storing packages in the one database while any of their
statements may fail. No result is looked at: a package whose row was not inserted
still reads an id and inserts its rectangles. Without failures this is
`StoringThreads`; with them, and in any order, no link of a rectangle leads nowhere
or to an older row than its own. -/
namespace Videovigilancia

/-- Where a thread stands, with the row of its package if that was inserted. -/
inductive Standing where
  | idle
  | inserted (row : Option DatosRow) (rects : List QRect)
  | linking (row : Option DatosRow) (ultimoId : QString) (rects : List QRect)

/-- A row of `ROI`, with the row of `Datos` of the same package. -/
structure Linked where
  row : Option DatosRow
  roi : RoiRow

structure FailingThreads where
  db : Database
  standing : Nat → Standing
  linked : List Linked

/-- A statement of `StoringThreads` and whether it succeeds. -/
structure Attempted where
  statement : Statement
  ok : Bool

namespace FailingThreads

def start (db : Database) : FailingThreads := ⟨db, fun _ => .idle, []⟩

/-- The loop over the rectangles ends behind the last one. -/
def linking (row : Option DatosRow) (ultimoId : QString) : List QRect → Standing
  | [] => .idle
  | rect :: rects => .linking row ultimoId (rect :: rects)

/-- A statement that is not the thread's next one changes nothing. -/
def step (s : FailingThreads) : Attempted → FailingThreads
  | ⟨.insertDatos thread client timestamp image rects gap, ok⟩ =>
    match s.standing thread with
    | .idle =>
      if ok then { s with
        db := s.db.insertDatos gap client timestamp image
        standing := Function.update s.standing thread
          (.inserted (some ⟨s.db.nextId gap, client, timestamp, image⟩) rects) }
      else { s with standing := Function.update s.standing thread (.inserted none rects) }
    | _ => s
  | ⟨.selectId thread, ok⟩ =>
    match s.standing thread with
    | .inserted row rects =>
      -- a query that failed has no last row either
      let ultimoId := if ok then s.db.ultimoId else []
      { s with standing := Function.update s.standing thread (linking row ultimoId rects) }
    | _ => s
  | ⟨.insertRoi thread, ok⟩ =>
    match s.standing thread with
    | .linking row ultimoId (rect :: rects) =>
      let roi := roiRow ultimoId.toInt rect
      let standing := Function.update s.standing thread (linking row ultimoId rects)
      if ok then ⟨s.db.insertRoi roi, standing, s.linked ++ [⟨row, roi⟩]⟩ else { s with standing }
    | _ => s

/-! ## Without failures -/

/-- A phase of a thread whose statements succeed. -/
def standingOf : Phase → Standing
  | .idle => .idle
  | .inserted row rects => .inserted (some row) rects
  | .linking row ultimoId rects => .linking (some row) ultimoId rects

/-- The same threads when nothing has failed. -/
def ofStoring (s : StoringThreads) : FailingThreads :=
  ⟨s.db, fun thread => standingOf (s.phase thread), s.written.map fun w => ⟨some w.row, w.roi⟩⟩

@[simp] theorem standingOf_idle : standingOf .idle = .idle := rfl
@[simp] theorem standingOf_inserted (row : DatosRow) (rects : List QRect) :
    standingOf (.inserted row rects) = .inserted (some row) rects := rfl
@[simp] theorem standingOf_linking (row : DatosRow) (ultimoId : QString) (rects : List QRect) :
    standingOf (.linking row ultimoId rects) = .linking (some row) ultimoId rects := rfl

@[simp] theorem standingOf_loop (row : DatosRow) (ultimoId : QString) (rects : List QRect) :
    standingOf (StoringThreads.linking row ultimoId rects) = linking (some row) ultimoId rects := by
  cases rects <;> rfl

theorem standingOf_update (phase : Nat → Phase) (thread : Nat) (next : Phase) :
    (fun other => standingOf (Function.update phase thread next other)) =
      Function.update (fun other => standingOf (phase other)) thread (standingOf next) := by
  funext other
  exact Function.apply_update (fun _ => standingOf) phase thread next other

/-- A statement that succeeds is the one of `StoringThreads`. -/
theorem step_ok (s : StoringThreads) (statement : Statement) :
    (ofStoring s).step ⟨statement, true⟩ = ofStoring (s.step statement) := by
  cases statement with
  | insertDatos thread client timestamp image rects gap =>
    cases phase : s.phase thread <;>
      simp [ofStoring, step, StoringThreads.step, phase, standingOf_update]
  | selectId thread =>
    cases phase : s.phase thread <;>
      simp [ofStoring, step, StoringThreads.step, phase, standingOf_update]
  | insertRoi thread =>
    cases phase : s.phase thread with
    | linking row ultimoId rects =>
      cases rects <;> simp [ofStoring, step, StoringThreads.step, phase, standingOf_update]
    | _ => simp [ofStoring, step, StoringThreads.step, phase]

/-! ## With failures -/

/-- A link that is 0 or the id of a row, and not the one of an older row than its own. -/
structure Leads (db : Database) (own : Option DatosRow) (link : Int32) : Prop where
  somewhere : link = 0 ∨ ∃ row ∈ db.datos, row.id = link.toInt
  not_older : ∀ row, own = some row → row ∈ db.datos ∧ (link = 0 ∨ row.id ≤ link.toInt)

/-- Both tables only grow, and every new row of `ROI` leads somewhere. -/
structure LinksLead (initial : Database) (s : FailingThreads) : Prop where
  datos : initial.datos <+: s.db.datos
  roi : s.db.roi = initial.roi ++ s.linked.map Linked.roi
  leads : ∀ l ∈ s.linked, Leads s.db l.row l.roi.link

/-- What a thread holds between two statements. -/
def Holds (db : Database) : Standing → Prop
  | .idle => True
  | .inserted own _ => ∀ row, own = some row → row ∈ db.datos
  | .linking own ultimoId _ => Leads db own ultimoId.toInt

variable {s : FailingThreads} {initial db : Database}

theorem Leads.grow {own : Option DatosRow} {link : Int32} (leads : Leads db own link)
    {db' : Database} (grown : db.datos <+: db'.datos) : Leads db' own link where
  somewhere := leads.somewhere.imp_right fun ⟨row, member, same⟩ => ⟨row, grown.subset member, same⟩
  not_older row own := (leads.not_older row own).imp_left fun member => grown.subset member

theorem Holds.grow {standing : Standing} (holds : Holds db standing) {db' : Database}
    (grown : db.datos <+: db'.datos) : Holds db' standing := by
  cases standing with
  | idle => trivial
  | inserted own rects => exact fun row same => grown.subset (holds row same)
  | linking own ultimoId rects => exact Leads.grow holds grown

theorem holds_linking {own : Option DatosRow} {ultimoId : QString} (leads : Leads db own ultimoId.toInt)
    (rects : List QRect) : Holds db (linking own ultimoId rects) := by
  cases rects with
  | nil => trivial
  | cons rect rects => exact leads

/-- A text without a number reads as 0. -/
theorem toInt_nil : QString.toInt [] = 0 := rfl

/-- No row is behind the last one. -/
theorem le_last {row last : DatosRow} (member : row ∈ db.datos)
    (ends : db.datos.getLast? = some last) : row.id ≤ last.id := by
  obtain ⟨front, split⟩ := List.getLast?_eq_some_iff.mp ends
  have increasing := db.increasing
  rw [split, List.map_append, List.pairwise_append] at increasing
  rw [split] at member
  rcases List.mem_append.mp member with before | same
  · exact (increasing.2.2 _ (List.mem_map_of_mem before) _ (by simp)).le
  · rw [List.mem_singleton.mp same]

/-- What is read as the last id leads to the last row, if to any. -/
theorem leads_ultimoId (db : Database) {own : Option DatosRow}
    (inserted : ∀ row, own = some row → row ∈ db.datos) : Leads db own db.ultimoId.toInt := by
  cases ends : db.datos.getLast? with
  | none =>
    have zero : db.ultimoId.toInt = 0 := by rw [Database.ultimoId, ends, toInt_nil]
    exact ⟨.inl zero, fun row same => ⟨inserted row same, .inl zero⟩⟩
  | some last =>
    have read : db.ultimoId.toInt = toIntResult (some last.id) := by
      rw [Database.ultimoId, ends, QString.toInt_text]
    rw [read, toIntResult]
    split
    · rename_i fits
      have value : (Int32.ofInt last.id).toInt = last.id :=
        Int32.toInt_ofInt_of_le (by omega) (by omega)
      refine ⟨.inr ⟨last, List.mem_of_getLast? ends, value.symm⟩,
        fun row same => ⟨inserted row same, .inr ?_⟩⟩
      rw [value]
      exact le_last (inserted row same) ends
    · exact ⟨.inl rfl, fun row same => ⟨inserted row same, .inl rfl⟩⟩

/-- The links that were written lead somewhere, and those that will be. -/
structure Sound (initial : Database) (s : FailingThreads) : Prop where
  linked : LinksLead initial s
  holds : ∀ thread, Holds s.db (s.standing thread)

theorem start_sound (initial : Database) : Sound initial (start initial) :=
  ⟨⟨List.prefix_rfl, by simp [start], by simp [start]⟩, fun _ => trivial⟩

/-- A statement that leaves the tables. -/
theorem Sound.stand (sound : Sound initial s) {thread : Nat} {standing : Standing}
    (holds : Holds s.db standing) :
    Sound initial { s with standing := Function.update s.standing thread standing } where
  linked := ⟨sound.linked.datos, sound.linked.roi, sound.linked.leads⟩
  holds := (Function.forall_update_iff _ fun _ => Holds s.db).mpr
    ⟨holds, fun other _ => sound.holds other⟩

theorem Sound.insertDatos (sound : Sound initial s) (thread : Nat)
    (client : QString) (timestamp : SqlValue) (image : QString) (rects : List QRect) (gap : Nat) :
    Sound initial { s with
      db := s.db.insertDatos gap client timestamp image
      standing := Function.update s.standing thread
        (.inserted (some ⟨s.db.nextId gap, client, timestamp, image⟩) rects) } := by
  have grown : s.db.datos <+: (s.db.insertDatos gap client timestamp image).datos :=
    List.prefix_append _ _
  constructor
  · exact ⟨sound.linked.datos.trans grown, sound.linked.roi,
      fun l member => (sound.linked.leads l member).grow grown⟩
  · refine (Function.forall_update_iff _ fun _ => Holds _).mpr
      ⟨fun row same => ?_, fun other _ => (sound.holds other).grow grown⟩
    cases same
    simp

theorem Sound.insertRoi (sound : Sound initial s) (thread : Nat) {own : Option DatosRow}
    {ultimoId : QString} (rect : QRect) (rects : List QRect)
    (leads : Leads s.db own ultimoId.toInt) :
    Sound initial ⟨s.db.insertRoi (roiRow ultimoId.toInt rect),
      Function.update s.standing thread (linking own ultimoId rects),
      s.linked ++ [⟨own, roiRow ultimoId.toInt rect⟩]⟩ := by
  constructor
  · refine ⟨sound.linked.datos, by simp [sound.linked.roi], fun l member => ?_⟩
    rcases List.mem_append.mp member with old | new
    · exact (sound.linked.leads l old).grow List.prefix_rfl
    · rw [List.mem_singleton.mp new]
      exact leads.grow List.prefix_rfl
  · exact (Function.forall_update_iff _ fun _ => Holds _).mpr
      ⟨(holds_linking leads rects).grow List.prefix_rfl,
        fun other _ => (sound.holds other).grow List.prefix_rfl⟩

theorem Sound.step (sound : Sound initial s) (attempted : Attempted) :
    Sound initial (s.step attempted) := by
  obtain ⟨statement, ok⟩ := attempted
  cases statement with
  | insertDatos thread client timestamp image rects gap =>
    simp only [FailingThreads.step]
    split
    · split
      · exact sound.insertDatos thread client timestamp image rects gap
      · exact sound.stand fun row none => by cases none
    · exact sound
  | selectId thread =>
    simp only [FailingThreads.step]
    split
    · rename_i own rects inserted
      have present : Holds s.db (s.standing thread) := sound.holds thread
      rw [inserted] at present
      refine sound.stand (holds_linking ?_ rects)
      cases ok with
      | true => exact leads_ultimoId s.db present
      | false => exact ⟨.inl toInt_nil, fun row same => ⟨present row same, .inl toInt_nil⟩⟩
    · exact sound
  | insertRoi thread =>
    simp only [FailingThreads.step]
    split
    · rename_i own ultimoId rect rects linking
      have leads : Holds s.db (s.standing thread) := sound.holds thread
      rw [linking] at leads
      split
      · exact sound.insertRoi thread rect rects leads
      · exact sound.stand (holds_linking leads rects)
    · exact sound

/-- In every interleaving, whatever fails, both tables only grow, and every rectangle
that was inserted is linked to 0 or to a row of `Datos` that is there and is not older
than the one of its own package. -/
theorem links_lead (initial : Database) (attempts : List Attempted) :
    Runs.Throughout step (LinksLead initial) (start initial) attempts := by
  have always : Runs.Throughout step (Sound initial) (start initial) attempts :=
    Runs.throughout_of_keeps (fun _ attempted sound => sound.step attempted)
      (start_sound initial) attempts
  exact always.imp fun _ sound => sound.linked

end FailingThreads

end Videovigilancia
