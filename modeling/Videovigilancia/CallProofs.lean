import Videovigilancia.GlpPackage

/-! What one call of `readByProtocol` comes to. Here its copy loops run over
their index and its recursion is counted, so that both could go wrong: a loop
could leave its line, and the calls could go on. Neither happens, and what the
call returns tells why it stopped. -/
namespace Videovigilancia
namespace ClientThread

variable {Image : Type} (qt : Qt Image)

/-- The loop `while(aux[i] != '\n')` over its index, `none` behind the line. -/
def copyLoop (aux : QByteArray) (i : Nat) (copied : QByteArray) : Option QByteArray :=
  if inside : i < aux.length then
    if aux[i] = newline then some copied else copyLoop aux (i + 1) (copied ++ [aux[i]])
  else none
termination_by aux.length - i

/-- The `switch`, with the loop that copies a line. -/
def switchLoop (t : ClientThread Image) (buffer : QByteArray) :
    Option (Effect Image × QByteArray) :=
  if t.protocol_state_ = .image ∨ canReadLine buffer = false then some (switchCase qt t buffer)
  else (copyLoop (readLine buffer).1 0 []).map fun line => (onLine qt t line, (readLine buffer).2)

/-- `readByProtocol` with at most `calls` calls, itself included. -/
def readByProtocolWithin : Nat → ClientThread Image → QByteArray → Option (Reading Image)
  | 0, _, _ => none
  | calls + 1, t, buffer =>
    (switchLoop qt t buffer).bind fun turn =>
      let completed := turn.1.completed.toList
      if turn.1.error then some ⟨turn.1.thread, turn.2, completed, true⟩
      else if turn.1.thread.ready turn.2 then
        (readByProtocolWithin calls turn.1.thread turn.2).map fun more =>
          { more with completed := completed ++ more.completed }
      else some ⟨turn.1.thread, turn.2, completed, false⟩

/-- From a call of `readByProtocol` to a call that it makes, at any depth. -/
inductive Calls : ClientThread Image → QByteArray → ClientThread Image → QByteArray → Prop where
  | self (t : ClientThread Image) (buffer : QByteArray) : Calls t buffer t buffer
  | again {t t' : ClientThread Image} {buffer buffer' : QByteArray}
      (going : (switchCase qt t buffer).1.error = false)
      (ready : (switchCase qt t buffer).1.thread.ready (switchCase qt t buffer).2 = true)
      (later : Calls (switchCase qt t buffer).1.thread (switchCase qt t buffer).2 t' buffer') :
      Calls t buffer t' buffer'

/-- The line that a call takes for an intrusion or a broken rectangle. -/
def Rejects (t : ClientThread Image) (line : QByteArray) : Prop :=
  t.protocol_state_ = .protocolName ∧ line ≠ glp ∨
    t.protocol_state_ = .boundingRects ∧ ((qt.fromUtf8 line).split '_').length ≠ 4

/-- A call ends after boundedly many calls of itself. Without an error nothing
more can be done with the buffer, and an error comes right after the line that
causes it. -/
structure Returns (t : ClientThread Image) (buffer : QByteArray) (r : Reading Image) : Prop where
  ends : ∀ calls, t.work buffer < calls → readByProtocolWithin qt calls t buffer = some r
  drained : r.error = false →
    r.thread.protocol_state_ = .image ∧ (r.unread.length : Int) < r.thread.next_image_size_.toInt ∨
      r.thread.protocol_state_ ≠ .image ∧ newline ∉ r.unread
  rejected : r.error = true → ∃ t' line, Calls qt t buffer t' (line ++ newline :: r.unread) ∧
    newline ∉ line ∧ Rejects qt t' line

end ClientThread

namespace CallProofs
open ClientThread

variable {Image : Type} {qt : Qt Image} {t : ClientThread Image} {buffer : QByteArray}

/-- The loop stops at the newline of its line, whatever it has copied so far. -/
theorem copyLoop_line (done line : QByteArray) (whole : newline ∉ line) :
    copyLoop (done ++ (line ++ [newline])) done.length done = some (done ++ line) := by
  induction line generalizing done with
  | nil =>
    rw [copyLoop]
    simp
  | cons byte line ih =>
    have other : byte ≠ newline := fun same => whole (by simp [same])
    have later := ih (done ++ [byte]) fun member => whole (List.mem_cons_of_mem _ member)
    rw [copyLoop]
    simpa [other] using later

theorem switchLoop_eq (qt : Qt Image) (t : ClientThread Image) (buffer : QByteArray) :
    switchLoop qt t buffer = some (switchCase qt t buffer) := by
  unfold switchLoop
  split
  · rfl
  · rename_i readable
    obtain ⟨state, readable⟩ := not_or.mp readable
    obtain ⟨line, rest, rfl, whole⟩ := exists_line (by simpa using readable)
    have copied : copyLoop (line ++ [newline]) 0 [] = some line := copyLoop_line [] line whole
    rw [readLine_line rest whole, copied, switchCase_takes_line state rest whole]
    rfl

theorem readByProtocol_fails (failed : (switchCase qt t buffer).1.error = true) :
    readByProtocol qt t buffer = ⟨(switchCase qt t buffer).1.thread, (switchCase qt t buffer).2,
      (switchCase qt t buffer).1.completed.toList, true⟩ := by
  rw [readByProtocol]
  simp [failed]

theorem readByProtocol_stops (going : (switchCase qt t buffer).1.error = false)
    (stops : (switchCase qt t buffer).1.thread.ready (switchCase qt t buffer).2 = false) :
    readByProtocol qt t buffer = ⟨(switchCase qt t buffer).1.thread, (switchCase qt t buffer).2,
      (switchCase qt t buffer).1.completed.toList, false⟩ := by
  rw [readByProtocol]
  simp [going, stops]

theorem readByProtocol_calls (going : (switchCase qt t buffer).1.error = false)
    (ready : (switchCase qt t buffer).1.thread.ready (switchCase qt t buffer).2 = true) :
    readByProtocol qt t buffer =
      let more := readByProtocol qt (switchCase qt t buffer).1.thread (switchCase qt t buffer).2
      { more with completed := (switchCase qt t buffer).1.completed.toList ++ more.completed } := by
  rw [readByProtocol]
  simp [going, ready]

/-- A call fails, stops, or calls itself with less work left. -/
theorem call_induction (qt : Qt Image) {motive : ClientThread Image → QByteArray → Prop}
    (fails : ∀ t buffer, (switchCase qt t buffer).1.error = true → motive t buffer)
    (stops : ∀ t buffer, (switchCase qt t buffer).1.error = false →
      (switchCase qt t buffer).1.thread.ready (switchCase qt t buffer).2 = false →
      motive t buffer)
    (calls : ∀ t buffer, (switchCase qt t buffer).1.error = false →
      (switchCase qt t buffer).1.thread.ready (switchCase qt t buffer).2 = true →
      motive (switchCase qt t buffer).1.thread (switchCase qt t buffer).2 → motive t buffer)
    (t : ClientThread Image) (buffer : QByteArray) : motive t buffer := by
  induction size : t.work buffer using Nat.strongRecOn generalizing t buffer with
  | _ n ih =>
    cases failed : (switchCase qt t buffer).1.error with
    | true => exact fails t buffer failed
    | false =>
      cases ready : (switchCase qt t buffer).1.thread.ready (switchCase qt t buffer).2 with
      | false => exact stops t buffer failed ready
      | true =>
        have less := switchCase_progress_of_ready ready
        exact calls t buffer failed ready (ih _ (size ▸ less) _ _ rfl)

/-- Every call that a call makes has less work left, so their number is bounded. -/
theorem readByProtocolWithin_eq {calls : Nat} (enough : t.work buffer < calls) :
    readByProtocolWithin qt calls t buffer = some (readByProtocol qt t buffer) := by
  obtain ⟨more, rfl⟩ := Nat.exists_eq_add_one_of_ne_zero (Nat.ne_zero_of_lt enough)
  induction t, buffer using call_induction qt generalizing more with
  | fails t buffer failed =>
    rw [readByProtocol_fails failed, readByProtocolWithin, switchLoop_eq]
    simp [failed]
  | stops t buffer going stops =>
    rw [readByProtocol_stops going stops, readByProtocolWithin, switchLoop_eq]
    simp [going, stops]
  | calls t buffer going ready ih =>
    have less := switchCase_progress_of_ready ready
    obtain ⟨fewer, rfl⟩ := Nat.exists_eq_add_one_of_ne_zero (n := more) (by omega)
    rw [readByProtocol_calls going ready, readByProtocolWithin, switchLoop_eq, Option.bind_some]
    simp [going, ready, ih fewer (by omega)]

theorem ready_false (waits : t.ready buffer = false) :
    t.protocol_state_ = .image ∧ (buffer.length : Int) < t.next_image_size_.toInt ∨
      t.protocol_state_ ≠ .image ∧ newline ∉ buffer := by
  by_cases state : t.protocol_state_ = .image
  · exact .inl ⟨state, by simpa [ready, state] using waits⟩
  · exact .inr ⟨state, by simpa [ready, state, canReadLine] using waits⟩

/-- A call that returns without an error has left nothing enabled. -/
theorem readByProtocol_drained (going : (readByProtocol qt t buffer).error = false) :
    (readByProtocol qt t buffer).thread.ready (readByProtocol qt t buffer).unread = false := by
  induction t, buffer using call_induction qt with
  | fails t buffer failed => simp [readByProtocol_fails failed] at going
  | stops t buffer clean stops => simpa [readByProtocol_stops clean stops] using stops
  | calls t buffer clean ready ih =>
    rw [readByProtocol_calls clean ready] at going ⊢
    exact ih going

/-- A case fails on the first line of the buffer. -/
theorem switchCase_rejects (failed : (switchCase qt t buffer).1.error = true) :
    ∃ line, buffer = line ++ newline :: (switchCase qt t buffer).2 ∧ newline ∉ line ∧
      Rejects qt t line := by
  have enabled : t.ready buffer = true := by
    by_contra waits
    rw [switchCase_waits (by simpa using waits)] at failed
    simp at failed
  by_cases state : t.protocol_state_ = .image
  · rw [switchCase_image state] at failed
    split at failed <;> simp [imageCase] at failed
  · obtain ⟨line, rest, rfl, whole⟩ := exists_line (by simpa [ready, state] using enabled)
    rw [switchCase_takes_line state rest whole] at failed ⊢
    refine ⟨line, rfl, whole, ?_⟩
    simp only [onLine] at failed
    cases at_state : t.protocol_state_ with
    | protocolName =>
      left
      refine ⟨at_state, fun same => ?_⟩
      simp [at_state, protocolNameCase, same] at failed
    | boundingRects =>
      right
      refine ⟨at_state, fun four => ?_⟩
      obtain ⟨rect, read⟩ := Option.isSome_iff_exists.mp ((rectOfLine_isSome qt line).mpr four)
      simp only [at_state, boundingRectsCase, read] at failed
      split at failed <;> simp at failed
    | _ => simp [at_state, clientNameCase, timestampCase, imageSizeCase, bbCountCase] at failed

/-- An error comes from a call in the chain, right after the line it rejects. -/
theorem readByProtocol_rejected (failed : (readByProtocol qt t buffer).error = true) :
    ∃ t' line, Calls qt t buffer t' (line ++ newline :: (readByProtocol qt t buffer).unread) ∧
      newline ∉ line ∧ Rejects qt t' line := by
  induction t, buffer using call_induction qt with
  | fails t buffer wrong =>
    obtain ⟨line, split, whole, rejects⟩ := switchCase_rejects wrong
    rw [readByProtocol_fails wrong]
    exact ⟨t, line, split ▸ .self t buffer, whole, rejects⟩
  | stops t buffer going stops => simp [readByProtocol_stops going stops] at failed
  | calls t buffer going ready ih =>
    rw [readByProtocol_calls going ready] at failed ⊢
    obtain ⟨t', line, chain, whole, rejects⟩ := ih failed
    exact ⟨t', line, .again going ready chain, whole, rejects⟩

/-- In every state and on every buffer `readByProtocol` ends, and it stops for
one of its two reasons. -/
theorem call_returns (qt : Qt Image) (t : ClientThread Image) (buffer : QByteArray) :
    Returns qt t buffer (readByProtocol qt t buffer) where
  ends _ enough := readByProtocolWithin_eq enough
  drained going := ready_false (readByProtocol_drained going)
  rejected failed := readByProtocol_rejected failed

end CallProofs

end Videovigilancia
