import Videovigilancia.ServerConsole
import Videovigilancia.Runs

/-! The connections of the recorder do not touch each other. A run in which the
packets and the ends of all other connections are left out is the same for one
connection, whatever bytes were sent on any of them: the same members, the same
unread bytes, the same packages. -/
namespace Videovigilancia.IsolationProofs
open Server Console Runs

variable {Image : Type} {qt : Qt Image} {i : Nat} {c c' : Console Image}

/-- The events that are not those of another connection. -/
def concerns (i : Nat) : Event → Bool
  | .incomingConnection _ _ _ => true
  | .received connection _ _ => connection = i
  | .closed connection => connection = i
  | .deferredDelete connection => connection = i
  | .sighup => true

/-- The packages of one connection. -/
def recordedOf (i : Nat) (c : Console Image) : List (Recorded Image) :=
  c.recorded.filter fun p => p.connection = i

/-- Two states that agree on connection `i`. -/
structure Agree (i : Nat) (c c' : Console Image) : Prop where
  server : c.server_ = c'.server_
  count : c.sessions.length = c'.sessions.length
  session : c.sessions[i]? = c'.sessions[i]?
  recorded : recordedOf i c = recordedOf i c'

theorem recorded_connection (qt : Qt Image) (s : Session Image) (j : Nat) (packet : QByteArray)
    (today : Nat → QDate) : ∀ p ∈ s.recorded qt j packet today, p.connection = j := by
  intro p member
  obtain ⟨entry, -, rfl⟩ := List.mem_map.mp member
  rfl

/-- The packages of another connection do not count. -/
theorem filter_theirs {j : Nat} (other : j ≠ i) {new : List (Recorded Image)}
    (theirs : ∀ p ∈ new, p.connection = j) (recorded : List (Recorded Image)) :
    (recorded ++ new).filter (fun p => p.connection = i) =
      recorded.filter fun p => p.connection = i := by
  have none : new.filter (fun p => p.connection = i) = [] := by
    rw [List.filter_eq_nil_iff]
    intro p member
    simpa [theirs p member] using other
  rw [List.filter_append, none, List.append_nil]

/-- What happens to another session does not show. -/
theorem agree_aside {j : Nat} (other : j ≠ i) (s : Session Image) {new : List (Recorded Image)}
    (theirs : ∀ p ∈ new, p.connection = j) (agree : Agree i c c') :
    Agree i { c with sessions := c.sessions.set j s, recorded := c.recorded ++ new } c' where
  server := agree.server
  count := by simpa using agree.count
  session := (List.getElem?_set_ne other).trans agree.session
  recorded := (filter_theirs other theirs c.recorded).trans agree.recorded

/-- The same without a package. -/
theorem agree_set {j : Nat} (other : j ≠ i) (s : Session Image) (agree : Agree i c c') :
    Agree i { c with sessions := c.sessions.set j s } c' := by
  have nothing : ∀ p ∈ ([] : List (Recorded Image)), p.connection = j := by simp
  simpa using agree_aside other s nothing agree

theorem agree_dropped {event : Event} (other : concerns i event = false) (agree : Agree i c c') :
    Agree i (c.step qt event) c' := by
  cases event with
  | incomingConnection size count counter => simp [concerns] at other
  | sighup => simp [concerns] at other
  | received j packet today =>
    have elsewhere : j ≠ i := by simpa [concerns] using other
    simp only [step]
    split
    · exact agree
    · split
      · exact agree_aside elsewhere _ (recorded_connection qt _ j packet today) agree
      · exact agree
  | closed j =>
    have elsewhere : j ≠ i := by simpa [concerns] using other
    simp only [step]
    split
    · exact agree
    · split
      · exact agree_set elsewhere _ agree
      · exact agree
  | deferredDelete j =>
    have elsewhere : j ≠ i := by simpa [concerns] using other
    simp only [step]
    split
    · exact agree
    · split
      · exact agree_set elsewhere _ agree
      · exact agree

/-- The same turn of session `i` in both states. -/
theorem agree_turn (agree : Agree i c c') (s : Session Image) (new : List (Recorded Image)) :
    Agree i { c with sessions := c.sessions.set i s, recorded := c.recorded ++ new }
      { c' with sessions := c'.sessions.set i s, recorded := c'.recorded ++ new } where
  server := agree.server
  count := by simpa using agree.count
  session := by simp [List.getElem?_set_self', agree.session]
  recorded := by
    have same := agree.recorded
    simp only [recordedOf, List.filter_append] at same ⊢
    rw [same]

theorem agree_turn_silent (agree : Agree i c c') (s : Session Image) :
    Agree i { c with sessions := c.sessions.set i s }
      { c' with sessions := c'.sessions.set i s } := by
  simpa using agree_turn agree s []

theorem agree_kept {event : Event} (own : concerns i event = true) (agree : Agree i c c') :
    Agree i (c.step qt event) (c'.step qt event) := by
  cases event with
  | incomingConnection size count counter =>
    refine ⟨agree.server, by simp [step, agree.count], ?_, agree.recorded⟩
    simp only [step, List.getElem?_append, agree.count, agree.session, agree.server]
  | received j packet today =>
    obtain rfl : j = i := by simpa [concerns] using own
    simp only [step, agree.session]
    split
    · exact agree
    · split
      · exact agree_turn agree _ _
      · exact agree
  | closed j =>
    obtain rfl : j = i := by simpa [concerns] using own
    simp only [step, agree.session]
    split
    · exact agree
    · split
      · exact agree_turn_silent agree _
      · exact agree
  | deferredDelete j =>
    obtain rfl : j = i := by simpa [concerns] using own
    simp only [step, agree.session]
    split
    · exact agree
    · split
      · exact agree_turn_silent agree _
      · exact agree
  | sighup =>
    refine ⟨by simp [step, handleSigHup, agree.server], by simp [step, handleSigHup, agree.count],
      ?_, agree.recorded⟩
    simp only [step, handleSigHup, List.getElem?_map, agree.session, agree.server]

/-- In every run of the recorder a connection ends up with the same session and the
same packages as in the run without the packets and the ends of the others. -/
theorem connections_isolated (qt : Qt Image) (events : List Event) (i : Nat) :
    let c := after (step qt) new events
    let alone := after (step qt) new (events.filter (concerns i))
    c.sessions[i]? = alone.sessions[i]? ∧ recordedOf i c = recordedOf i alone := by
  have start : Agree i (new : Console Image) new := ⟨rfl, rfl, rfl, rfl⟩
  have agree : Agree i (after (step qt) new events)
      (after (step qt) new (events.filter (concerns i))) :=
    after_filter (fun own => agree_kept own) (fun other => agree_dropped other) start events
  exact ⟨agree.session, agree.recorded⟩

end Videovigilancia.IsolationProofs
