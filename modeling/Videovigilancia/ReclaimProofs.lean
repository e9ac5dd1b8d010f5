import Videovigilancia.CallProofs
import Videovigilancia.ServerProofs

/-! What happens to the thread object of a connection that has ended. The server
connects its `finished()` to `deleteLater()`; a wrong protocol line makes the
thread disconnect its own signals, that one included, and its object then stays
until the server is deleted. Nothing else takes the connection away. -/
namespace Videovigilancia.ReclaimProofs
open ClientThread Server Console Runs ServerProofs

variable {Image : Type} {qt : Qt Image}

/-! ## The signal of one thread -/

section Signal

variable {t : ClientThread Image} {buffer : QByteArray}

/-- The next line stands where a package begins, and is no protocol line. -/
def WrongLine (t : ClientThread Image) (buffer : QByteArray) : Prop :=
  t.protocol_state_ = .protocolName ∧
    ∃ line rest, buffer = line ++ newline :: rest ∧ newline ∉ line ∧ line ≠ glp

/-- A call that this call makes finds such a line. -/
def Intrusion (qt : Qt Image) (t : ClientThread Image) (buffer : QByteArray) : Prop :=
  ∃ t' buffer', Calls qt t buffer t' buffer' ∧ WrongLine t' buffer'

/-- One `switch` disconnects at a wrong line only, and fails there. -/
theorem switchCase_disconnects (qt : Qt Image) (t : ClientThread Image) (buffer : QByteArray) :
    ((switchCase qt t buffer).1.thread.finishedConnected = true ↔
        t.finishedConnected = true ∧ ¬ WrongLine t buffer) ∧
      (WrongLine t buffer → (switchCase qt t buffer).1.error = true) := by
  by_cases wrong : WrongLine t buffer
  · obtain ⟨state, line, rest, rfl, whole, other⟩ := id wrong
    rw [switchCase_takes_line (by simp [state]) rest whole, onLine, state]
    simp [protocolNameCase, other, disconnect, wrong]
  · refine ⟨?_, fun found => absurd found wrong⟩
    simp only [wrong, not_false_eq_true, and_true]
    cases enabled : t.ready buffer with
    | false => rw [switchCase_waits enabled, goes_thread]
    | true =>
      by_cases state : t.protocol_state_ = .image
      · rw [switchCase_image state]
        split <;> rfl
      · obtain ⟨line, rest, rfl, whole⟩ := exists_line (by simpa [ready, state] using enabled)
        rw [switchCase_takes_line state rest whole, onLine]
        cases at_state : t.protocol_state_ with
        | protocolName =>
          have known : line = glp := by
            by_contra other
            exact wrong ⟨at_state, line, rest, rfl, whole, other⟩
          simp [protocolNameCase, known]
        | boundingRects =>
          simp only [boundingRectsCase]
          split
          · rfl
          · split <;> rfl
        | _ => rfl

/-- A call disconnects exactly when it meets a wrong protocol line, and fails then. -/
theorem readByProtocol_disconnects (qt : Qt Image) (t : ClientThread Image) (buffer : QByteArray) :
    ((readByProtocol qt t buffer).thread.finishedConnected = true ↔
        t.finishedConnected = true ∧ ¬ Intrusion qt t buffer) ∧
      (Intrusion qt t buffer → (readByProtocol qt t buffer).error = true) := by
  induction t, buffer using CallProofs.call_induction qt with
  | fails t buffer failed =>
    have here : Intrusion qt t buffer ↔ WrongLine t buffer := by
      constructor
      · rintro ⟨t', buffer', calls, wrong⟩
        cases calls with
        | self => exact wrong
        | again going => simp [failed] at going
      · exact fun wrong => ⟨t, buffer, .self t buffer, wrong⟩
    rw [CallProofs.readByProtocol_fails failed, here]
    exact ⟨(switchCase_disconnects qt t buffer).1, fun _ => rfl⟩
  | stops t buffer going stops =>
    have clean : ¬ WrongLine t buffer := fun wrong => by
      simp [(switchCase_disconnects qt t buffer).2 wrong] at going
    have none : ¬ Intrusion qt t buffer := by
      rintro ⟨t', buffer', calls, wrong⟩
      cases calls with
      | self => exact clean wrong
      | again _ again => simp [stops] at again
    rw [CallProofs.readByProtocol_stops going stops]
    simpa [clean, none] using (switchCase_disconnects qt t buffer).1
  | calls t buffer going again ih =>
    have clean : ¬ WrongLine t buffer := fun wrong => by
      simp [(switchCase_disconnects qt t buffer).2 wrong] at going
    have later : Intrusion qt t buffer ↔
        Intrusion qt (switchCase qt t buffer).1.thread (switchCase qt t buffer).2 := by
      constructor
      · rintro ⟨t', buffer', calls, wrong⟩
        cases calls with
        | self => exact absurd wrong clean
        | again _ _ later => exact ⟨t', buffer', later, wrong⟩
      · rintro ⟨t', buffer', calls, wrong⟩
        exact ⟨t', buffer', .again going again calls, wrong⟩
    have kept := (switchCase_disconnects qt t buffer).1
    simp only [clean, not_false_eq_true, and_true] at kept
    rw [CallProofs.readByProtocol_calls going again, later, ← kept]
    exact ih

end Signal

/-! ## All threads -/

variable {c : Console Image} {s : Session Image}

/-- A thread the server owns runs, or has returned from `run()` with `finished()`
still connected and is scheduled for deletion. -/
def Reclaimed (c : Console Image) : Prop :=
  ∀ s ∈ c.sessions, s.destroyed = false →
    s.running = true ∨ s.thread.finishedConnected = true ∧ s.deletePosted = true

/-- No packet brings a wrong line where a package begins. -/
def protocolGuard (qt : Qt Image) (c : Console Image) : Event → Prop
  | .received connection packet _ => ∀ s, c.sessions[connection]? = some s → s.running = true →
      s.destroyed = false → ¬ Intrusion qt s.thread (s.unread ++ packet)
  | _ => True

/-- The signal is connected, and it has done its work if it was due. -/
def Attached (s : Session Image) : Prop :=
  s.thread.finishedConnected = true ∧ (s.running = false → s.deletePosted = true)

theorem Attached.finish (attached : Attached s) : Attached s.finish := by
  refine ⟨attached.1, fun _ => ?_⟩
  simp [Session.finish, attached.1]

theorem Attached.receive (attached : Attached s) {packet : QByteArray}
    (clean : ¬ Intrusion qt s.thread (s.unread ++ packet)) : Attached (s.receive qt packet) := by
  have connected := (readByProtocol_disconnects qt s.thread (s.unread ++ packet)).1.mpr
    ⟨attached.1, clean⟩
  rw [Session.receive]
  split
  · exact Attached.finish (s := { s with thread := _, unread := _, packages := _ })
      ⟨connected, attached.2⟩
  · exact ⟨connected, attached.2⟩

theorem attached_step (attached : ∀ s ∈ c.sessions, Attached s) {event : Event}
    (guarded : protocolGuard qt c event) : ∀ s ∈ (c.step qt event).sessions, Attached s := by
  have kept (i : Nat) {s' : Session Image} (keeps : Attached s') :
      ∀ s ∈ c.sessions.set i s', Attached s := by
    intro s member
    rcases List.mem_or_eq_of_mem_set member with old | rfl
    · exact attached s old
    · exact keeps
  cases event with
  | incomingConnection size count counter =>
    intro s member
    rcases List.mem_append.mp member with old | new
    · exact attached s old
    · rw [List.mem_singleton.mp new]
      exact ⟨rfl, fun stopped => by simp [Session.start] at stopped⟩
  | received i packet today =>
    simp only [step]
    split
    · exact attached
    · rename_i s found
      split
      · rename_i enabled
        have before := attached s (List.mem_of_getElem? found)
        exact kept i (before.receive (guarded s found enabled.1 enabled.2))
      · exact attached
  | closed i =>
    simp only [step]
    split
    · exact attached
    · rename_i s found
      split
      · exact kept i (attached s (List.mem_of_getElem? found)).finish
      · exact attached
  | deferredDelete i =>
    simp only [step]
    split
    · exact attached
    · rename_i s found
      split
      · exact kept i (attached s (List.mem_of_getElem? found))
      · exact attached
  | sighup =>
    intro s member
    obtain ⟨s, present, rfl⟩ := List.mem_map.mp member
    have before := attached s present
    split <;> exact before

/-- A wrong protocol line leaves an object that nobody deletes. -/
theorem leaked {event : Event} (unguarded : ¬ protocolGuard qt c event) :
    ¬ Reclaimed (c.step qt event) := by
  cases event with
  | received i packet today =>
    simp only [protocolGuard, not_forall, not_not] at unguarded
    obtain ⟨s, found, running, living, intrusion⟩ := unguarded
    obtain ⟨inside, -⟩ := List.getElem?_eq_some_iff.mp found
    obtain ⟨connected, fails⟩ := readByProtocol_disconnects qt s.thread (s.unread ++ packet)
    have stays : s.receive qt packet ∈ (c.step qt (.received i packet today)).sessions := by
      simp only [step, found, running, living, and_self, if_true]
      exact List.mem_set inside _
    intro reclaimed
    have failed := fails intrusion
    rcases reclaimed _ stays (by simp [Session.receive, failed, Session.finish, living]) with
      still | ⟨still, -⟩
    · simp [Session.receive, failed, Session.finish] at still
    · simp only [Session.receive, failed, if_true, Session.finish] at still
      exact (connected.mp still).2 intrusion
  | _ => exact absurd trivial unguarded

/-- In a run of the recorder every thread object it owns is running or scheduled
for deletion exactly when no peer sends a wrong line where a package begins. -/
theorem reclaimed_iff (qt : Qt Image) (events : List Event) :
    Throughout (step qt) Reclaimed new events ↔ Meets (step qt) (protocolGuard qt) new events := by
  apply throughout_iff_meets (fun c : Console Image => ∀ s ∈ c.sessions, Attached s)
  · intro c attached s present _
    cases running : s.running with
    | true => exact .inl rfl
    | false => exact .inr ⟨(attached s present).1, (attached s present).2 running⟩
  · exact fun _ _ attached guarded => attached_step attached guarded
  · exact fun _ _ _ unguarded => leaked unguarded
  · simp [new]

/-- A peer that speaks another protocol. -/
theorem intruder_leaked : ¬ Throughout (step Qt.reference) Reclaimed new
    [.incomingConnection 0 0 0, .received 0 [71, 69, 84, newline] fun _ => .newYear] := by
  intro always
  have last := always.last
  rcases last _ (List.mem_singleton_self _) (by decide +kernel) with running | ⟨connected, -⟩
  · exact absurd running (by decide +kernel)
  · exact absurd connected (by decide +kernel)

end Videovigilancia.ReclaimProofs
