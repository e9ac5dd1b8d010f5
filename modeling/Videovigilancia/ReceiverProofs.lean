import Videovigilancia.ClientThread
import Videovigilancia.StreamFraming

/-! The receiver is a stream machine: its enabled cases read from the front of
the socket's buffer and do not look behind what they read. Everything about
chunks then comes from `StreamMachine`. -/
namespace Videovigilancia.ReceiverProofs
open ClientThread StreamMachine StreamFraming

variable {Image : Type} {qt : Qt Image} {t : ClientThread Image} {buffer : QByteArray}

/-- An enabled case does the same with more bytes behind, and leaves them. -/
theorem switch_append (qt : Qt Image) (enabled : t.ready buffer = true) (more : QByteArray) :
    t.ready (buffer ++ more) = true ∧
      switchCase qt t (buffer ++ more) =
        ((switchCase qt t buffer).1, (switchCase qt t buffer).2 ++ more) := by
  by_cases state : t.protocol_state_ = .image
  · have fits : t.next_image_size_.toInt ≤ buffer.length := by simpa [ready, state] using enabled
    have room : t.next_image_size_.toNatClampNeg ≤ buffer.length := by
      rw [Int32.toNatClampNeg]
      omega
    have fitsMore : t.next_image_size_.toInt ≤ (buffer ++ more).length := by
      rw [List.length_append]
      omega
    refine ⟨by simpa [ready, state] using fitsMore, ?_⟩
    rw [switchCase_image state, switchCase_image state, if_pos fits, if_pos fitsMore,
      List.take_append_of_le_length room, List.drop_append_of_le_length room]
  · obtain ⟨line, rest, rfl, whole⟩ := exists_line (by simpa [ready, state] using enabled)
    have split : line ++ newline :: rest ++ more = line ++ newline :: (rest ++ more) := by simp
    refine ⟨by simp [ready, state, canReadLine], ?_⟩
    rw [split, switchCase_takes_line state _ whole, switchCase_takes_line state _ whole]

/-- An enabled case leaves an end of the buffer unread. -/
theorem switch_consumes (enabled : t.ready buffer = true) :
    (switchCase qt t buffer).2 <:+ buffer := by
  by_cases state : t.protocol_state_ = .image
  · have fits : t.next_image_size_.toInt ≤ buffer.length := by simpa [ready, state] using enabled
    rw [switchCase_image state, if_pos fits]
    exact List.drop_suffix _ _
  · obtain ⟨line, rest, rfl, whole⟩ := exists_line (by simpa [ready, state] using enabled)
    rw [switchCase_takes_line state rest whole]
    exact (List.suffix_cons newline rest).trans (List.suffix_append line _)

/-- The rectangles collected so far; the vector is emptied only by the first line. -/
def collected (t : ClientThread Image) : List QRect :=
  if t.bb_counter_ = 0 then [] else t.last_boundingboxes_

/-- A rectangle before the announced last one is added to the others. -/
theorem boundingRectsCase_more {data : QByteArray} {rect : QRect}
    (read : rectOfLine qt data = some rect) (more : t.bb_counter_ ≠ t.next_bb_count_ - 1) :
    boundingRectsCase qt t data = goes { t with
      last_boundingboxes_ := collected t ++ [rect], bb_counter_ := t.bb_counter_ + 1 } := by
  simp only [boundingRectsCase, read, if_neg more, collected]

/-- The announced last rectangle completes the package and makes the receiver idle. -/
theorem boundingRectsCase_last {data : QByteArray} {rect : QRect}
    (read : rectOfLine qt data = some rect) (last : t.bb_counter_ = t.next_bb_count_ - 1) :
    boundingRectsCase qt t data =
      ⟨{ t with
          last_boundingboxes_ := collected t ++ [rect]
          protocol_state_ := .protocolName
          frameCounter_ := t.frameCounter_ + 1
          bb_counter_ := t.bb_counter_ + 1 },
        some { t with last_boundingboxes_ := collected t ++ [rect] }.complete, false⟩ := by
  simp only [boundingRectsCase, read, if_pos last, collected]

private theorem onLine_error {data : QByteArray} (error : (onLine qt t data).error = true) :
    (onLine qt t data).completed = none := by
  rw [onLine] at error ⊢
  cases state : t.protocol_state_ with
  | protocolName =>
    simp only [state, protocolNameCase] at error ⊢
    split <;> rfl
  | boundingRects =>
    simp only [state, boundingRectsCase] at error ⊢
    split
    · rfl
    · rename_i rect read
      simp only [read] at error
      split at error <;> simp at error
  | _ => rfl

/-- A case that returns an error completes nothing. -/
theorem switch_error (error : (switchCase qt t buffer).1.error = true) :
    (switchCase qt t buffer).1.completed = none := by
  by_cases state : t.protocol_state_ = .image
  · rw [switchCase_image state]
    split <;> rfl
  · rw [switchCase_line state, lineCase] at error ⊢
    split
    · rename_i readable
      rw [if_pos readable] at error
      exact onLine_error error
    · rfl

/-- One enabled `switch` as a move. -/
def move (qt : Qt Image) (t : ClientThread Image) (buffer : QByteArray) :
    Move (ClientThread Image) UInt8 (Completed Image) :=
  ⟨(switchCase qt t buffer).1.thread, (switchCase qt t buffer).2,
    (switchCase qt t buffer).1.completed, (switchCase qt t buffer).1.error⟩

/-- The receiver waits where the readiness test fails. -/
def receiverStep (qt : Qt Image) (t : ClientThread Image) (buffer : QByteArray) :
    Option (Move (ClientThread Image) UInt8 (Completed Image)) :=
  if t.ready buffer then some (move qt t buffer) else none

theorem receiverStep_some {m : Move (ClientThread Image) UInt8 (Completed Image)}
    (moved : receiverStep qt t buffer = some m) :
    t.ready buffer = true ∧ move qt t buffer = m := by
  simpa [receiverStep] using moved

/-- The receiver as a machine that reads a growing buffer. -/
def receiver (qt : Qt Image) : Machine (ClientThread Image) UInt8 (Completed Image) where
  step := receiverStep qt
  weight t buffer := t.work buffer
  stable := by
    intro t buffer m more moved
    obtain ⟨enabled, rfl⟩ := receiverStep_some moved
    obtain ⟨later, same⟩ := switch_append qt enabled more
    simp [receiverStep, later, move, same]
  consumes := by
    intro t buffer m moved
    obtain ⟨enabled, rfl⟩ := receiverStep_some moved
    exact switch_consumes enabled
  progress := by
    intro t buffer m moved
    obtain ⟨enabled, rfl⟩ := receiverStep_some moved
    exact switchCase_progress enabled

theorem step_ready (enabled : t.ready buffer = true) :
    (receiver qt).step t buffer = some (move qt t buffer) := if_pos enabled

theorem step_waits (waits : t.ready buffer = false) : (receiver qt).step t buffer = none :=
  if_neg (by simp [waits])

/-- What a run of the machine means for the receiver. -/
def reading (o : Outcome (ClientThread Image) UInt8 (Completed Image)) : Reading Image :=
  ⟨o.state, o.rest, o.outputs, o.failed⟩

/-- `readByProtocol` drains: its recursion stops exactly where no case is
enabled, or at the first error. -/
theorem readByProtocol_drains (t : ClientThread Image) (buffer : QByteArray) :
    readByProtocol qt t buffer = reading ((receiver qt).drain t buffer) := by
  induction t, buffer using Machine.drain_induction (M := receiver qt) with
  | waiting t buffer waits =>
    have idle : t.ready buffer = false := by
      by_contra enabled
      rw [step_ready (by simpa using enabled)] at waits
      cases waits
    rw [Machine.drain_waiting waits, readByProtocol, switchCase_waits idle]
    simp [goes, idle, reading]
  | failing t buffer m moved failed =>
    obtain ⟨enabled, rfl⟩ := receiverStep_some moved
    have error : (switchCase qt t buffer).1.error = true := failed
    rw [Machine.drain_failed moved failed, readByProtocol]
    simp [error, reading, move]
  | moving t buffer m moved running ih =>
    obtain ⟨enabled, rfl⟩ := receiverStep_some moved
    have going : (switchCase qt t buffer).1.error = false := running
    rw [Machine.drain_moved moved running, readByProtocol]
    cases again : (switchCase qt t buffer).1.thread.ready (switchCase qt t buffer).2 with
    | true =>
      have rest : readByProtocol qt (switchCase qt t buffer).1.thread (switchCase qt t buffer).2 =
        reading ((receiver qt).drain (move qt t buffer).state (move qt t buffer).rest) := ih
      simp [going, rest, reading, move]
    | false =>
      have stops := Machine.drain_waiting (M := receiver qt) (step_waits again)
      simp only [move, going, stops, reading]
      simp

/-- The receive loop feeds. -/
theorem receive_feeds (t : ClientThread Image) (buffer : QByteArray) (chunks : List QByteArray) :
    receive qt t buffer chunks = reading ((receiver qt).feed t buffer chunks) := by
  induction chunks generalizing t buffer with
  | nil => rfl
  | cons chunk chunks ih =>
    simp only [receive, Machine.feed, readByProtocol_drains, ih]
    cases failed : ((receiver qt).drain t (buffer ++ chunk)).failed <;> simp [reading, failed]

/-- A thread that starts has nothing to do on an empty buffer. -/
theorem start_waits (state : t.protocol_state_ ≠ .image) : (receiver qt).step t [] = none :=
  step_waits (by simp [ready, state, canReadLine])

/-- Everything the loop of `run` does over a stream it does at one stroke, but
for the bytes that stay undelivered after an error. -/
theorem run_drains (qt : Qt Image) (t : ClientThread Image) (chunks : List QByteArray) :
    ∃ undelivered,
      (receiver qt).drain { t with protocol_state_ := .protocolName } chunks.flatten =
        ((receiver qt).feed { t with protocol_state_ := .protocolName } [] chunks).extend
          undelivered ∧
      ((run qt t chunks).error = false → undelivered = []) := by
  have waits : (receiver qt).step { t with protocol_state_ := .protocolName } [] = none :=
    start_waits (by simp)
  obtain ⟨undelivered, drains, complete⟩ := Machine.feed_drains _ _ chunks waits
  refine ⟨undelivered, by simpa using drains, fun going => complete ?_⟩
  rw [run, receive_feeds] at going
  exact going

/-- Two runs that completed the same, ended in the same members and, when they
did not fail, left the same bytes unread. -/
structure SameDelivery (first second : Reading Image) : Prop where
  completed : first.completed = second.completed
  error : first.error = second.error
  thread : first.thread = second.thread
  unread : first.error = false → first.unread = second.unread

/-- However the network cuts a stream, the receiver delivers the same. -/
theorem delivery_ignores_cuts (t : ClientThread Image) {first second : List QByteArray}
    (same : first.flatten = second.flatten) :
    SameDelivery (run qt t first) (run qt t second) := by
  have waits : (receiver qt).step { t with protocol_state_ := .protocolName } [] = none :=
    start_waits (by simp)
  obtain ⟨completed, error, thread, unread⟩ := Machine.feed_chunking waits same
  rw [run, run, receive_feeds, receive_feeds]
  exact ⟨completed, error, thread, unread⟩

/-- A package without an image, in two packets and in three. -/
theorem delivery_ignores_cuts_package :
    SameDelivery
      (run Qt.reference (create 0 0 0)
        [glp ++ [10, 97, 10, 53, 10, 48], [10, 49, 10, 49, 95, 49, 95, 49, 95, 49, 10]])
      (run Qt.reference (create 0 0 0)
        [glp, [10, 97, 10, 53, 10, 48, 10, 49], [10, 49, 95, 49, 95, 49, 95, 49, 10]]) :=
  delivery_ignores_cuts _ (by decide)

end Videovigilancia.ReceiverProofs
