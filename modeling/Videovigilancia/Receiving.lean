import Videovigilancia.CallProofs
import Videovigilancia.Runs

/-! The receiver between two calls of `readByProtocol`, the ones it makes of
itself included. `lines` is not in the code: it holds the lines that were read in
the rectangle state since the last count line. Every state that a call or a whole
run of the receive loop comes through is reached by events. -/
namespace Videovigilancia

/-- The members, the unread bytes, and whether a call has returned an error. -/
structure Receiving (Image : Type) where
  thread : ClientThread Image
  unread : QByteArray
  lines : List QByteArray
  ended : Bool

namespace Receiving
open ClientThread

variable {Image : Type}

/-- A packet arrives, or `readByProtocol` is called. -/
inductive Event where
  | packet (bytes : QByteArray)
  | call

/-- `run` starts to receive. -/
def start (t : ClientThread Image) : Receiving Image :=
  ⟨{ t with protocol_state_ := .protocolName }, [], [], false⟩

/-- The first line of the buffer, as a case copies it. -/
def line (s : Receiving Image) : QByteArray := copyLine (readLine s.unread).1

/-- The lines since the last count line, behind the case that is enabled. -/
def linesAfter (s : Receiving Image) : List QByteArray :=
  match s.thread.protocol_state_ with
  | .bbCount => []
  | .boundingRects => s.lines ++ [s.line]
  | _ => s.lines

/-- One call without those it makes of itself. Nothing happens behind an error. -/
def step (qt : Qt Image) (s : Receiving Image) : Event → Receiving Image
  | .packet bytes => if s.ended then s else { s with unread := s.unread ++ bytes }
  | .call =>
    if s.ended = true ∨ s.thread.ready s.unread = false then s
    else
      let turn := switchCase qt s.thread s.unread
      ⟨turn.1.thread, turn.2, s.linesAfter, turn.1.error⟩

/-! ## Every call is reached -/

variable {qt : Qt Image} {s : Receiving Image}

theorem step_call (going : s.ended = false) (ready : s.thread.ready s.unread = true) :
    s.step qt .call = ⟨(switchCase qt s.thread s.unread).1.thread,
      (switchCase qt s.thread s.unread).2, s.linesAfter,
      (switchCase qt s.thread s.unread).1.error⟩ := by
  simp [step, going, ready]

/-- A call that reads a line. -/
theorem step_line (qt : Qt Image) {text rest : QByteArray} (going : s.ended = false)
    (state : s.thread.protocol_state_ ≠ .image) (split : s.unread = text ++ newline :: rest)
    (whole : newline ∉ text) : s.line = text ∧ s.step qt .call =
      ⟨(onLine qt s.thread text).thread, rest, s.linesAfter, (onLine qt s.thread text).error⟩ := by
  have ready : s.thread.ready s.unread = true := by
    simp [ClientThread.ready, state, canReadLine, split]
  rw [step_call going ready, line, split, readLine_line rest whole, copyLine_line whole,
    switchCase_takes_line state rest whole]
  exact ⟨rfl, rfl⟩

/-- A call that waits changes nothing but for the calls it does not make. -/
theorem step_idle (waits : s.thread.ready s.unread = false) : s.step qt .call = s := by
  simp [step, waits]

/-- A call has the members, the bytes and the error of its `switch`. -/
theorem step_switch (qt : Qt Image) (going : s.ended = false) :
    (s.step qt .call).thread = (switchCase qt s.thread s.unread).1.thread ∧
      (s.step qt .call).unread = (switchCase qt s.thread s.unread).2 ∧
      (s.step qt .call).ended = (switchCase qt s.thread s.unread).1.error := by
  cases ready : s.thread.ready s.unread with
  | true => simp [step_call going ready]
  | false => simp [step_idle ready, switchCase_waits ready, going]

/-- The calls that a call makes, at any depth. -/
theorem calls_reached {t t' : ClientThread Image} {buffer buffer' : QByteArray}
    (chain : Calls qt t buffer t' buffer') (members : s.thread = t) (bytes : s.unread = buffer)
    (going : s.ended = false) :
    ∃ n, let s' := Runs.after (step qt) s (List.replicate n .call)
      s'.thread = t' ∧ s'.unread = buffer' ∧ s'.ended = false := by
  induction chain generalizing s with
  | self => exact ⟨0, members, bytes, going⟩
  | again clean ready later ih =>
    subst members bytes
    obtain ⟨thread, unread, ended⟩ := step_switch qt going
    obtain ⟨n, reached⟩ := ih (s := s.step qt .call) thread unread (ended.trans clean)
    exact ⟨n + 1, reached⟩

/-- The state in which a call returns. -/
theorem readByProtocol_reached (qt : Qt Image) (t : ClientThread Image) (buffer : QByteArray)
    (members : s.thread = t) (bytes : s.unread = buffer) (going : s.ended = false) :
    ∃ n, let s' := Runs.after (step qt) s (List.replicate n .call)
      let r := readByProtocol qt t buffer
      s'.thread = r.thread ∧ s'.unread = r.unread ∧ s'.ended = r.error := by
  induction t, buffer using CallProofs.call_induction qt generalizing s with
  | fails t buffer failed =>
    subst members bytes
    rw [CallProofs.readByProtocol_fails failed, ← failed]
    exact ⟨1, step_switch qt going⟩
  | stops t buffer clean stops =>
    subst members bytes
    rw [CallProofs.readByProtocol_stops clean stops, ← clean]
    exact ⟨1, step_switch qt going⟩
  | calls t buffer clean ready ih =>
    subst members bytes
    obtain ⟨thread, unread, ended⟩ := step_switch qt going
    obtain ⟨n, reached⟩ := ih (s := s.step qt .call) thread unread (ended.trans clean)
    rw [CallProofs.readByProtocol_calls clean ready]
    exact ⟨n + 1, reached⟩

theorem receive_reached (chunks : List QByteArray) (going : s.ended = false) :
    ∃ events, let s' := Runs.after (step qt) s events
      let r := receive qt s.thread s.unread chunks
      s'.thread = r.thread ∧ s'.unread = r.unread ∧ s'.ended = r.error := by
  induction chunks generalizing s with
  | nil => exact ⟨[], rfl, rfl, going⟩
  | cons chunk chunks ih =>
    let fed : Receiving Image := { s with unread := s.unread ++ chunk }
    have arrives : s.step qt (.packet chunk) = fed := by simp [step, going, fed]
    obtain ⟨n, thread, unread, ended⟩ :=
      readByProtocol_reached qt (s := fed) _ _ rfl rfl going
    unfold receive
    cases failed : (readByProtocol qt s.thread (s.unread ++ chunk)).error with
    | true =>
      refine ⟨.packet chunk :: List.replicate n .call, ?_⟩
      rw [Runs.after_cons, arrives]
      simpa only [failed, ↓reduceIte] using ⟨thread, unread, ended.trans failed⟩
    | false =>
      obtain ⟨events, reached⟩ := ih (s := Runs.after (step qt) fed (List.replicate n .call))
        (ended.trans failed)
      refine ⟨.packet chunk :: (List.replicate n .call ++ events), ?_⟩
      rw [Runs.after_cons, arrives, Runs.after_append]
      rw [thread, unread] at reached
      simpa only [failed, Bool.false_eq_true, ↓reduceIte] using reached

/-- The state in which a whole run of the receive loop ends. -/
theorem run_reached (qt : Qt Image) (t : ClientThread Image) (chunks : List QByteArray) :
    ∃ events, let s := Runs.after (step qt) (start t) events
      s.thread = (run qt t chunks).thread ∧ s.unread = (run qt t chunks).unread ∧
        s.ended = (run qt t chunks).error :=
  receive_reached (s := start t) chunks rfl

end Receiving

end Videovigilancia
