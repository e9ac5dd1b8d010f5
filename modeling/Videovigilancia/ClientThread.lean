import Videovigilancia.QtValues

/-! The receiver of the GLP/1.0 protocol, `Server/clientthread.cpp`. The members
of `ClientThread`, the cases of `readByProtocol` with its recursion, and the
loop of `run`. A package is handed over at the moment its last rectangle is
read; what is then stored is in `Storage`. -/
namespace Videovigilancia

/-- `protocol_state_`, the values 0 to 6 in the order of the `switch`. -/
inductive ProtocolState where
  | protocolName
  | clientName
  | timestamp
  | imageSize
  | image
  | bbCount
  | boundingRects
  deriving DecidableEq

/-- The members of `ClientThread` that `readByProtocol` reads and writes, and
whether `finished()` is still connected to `deleteLater()`. -/
structure ClientThread (Image : Type) where
  frameCounter_ : Int32
  protocol_state_ : ProtocolState
  next_image_size_ : Int32
  next_bb_count_ : Int32
  bb_counter_ : Int32
  last_boundingboxes_ : List QRect
  name_ : QString
  last_timestamp_ : QString
  protocolName_ : QString
  last_image_ : Option Image
  finishedConnected : Bool

/-- The members as the storing code finds them when a package is complete. -/
structure Completed (Image : Type) where
  name_ : QString
  last_timestamp_ : QString
  last_image_ : Option Image
  last_boundingboxes_ : List QRect
  frameCounter_ : Int32
  deriving DecidableEq

/-- What one case of the `switch` does with the bytes it read. -/
structure Effect (Image : Type) where
  thread : ClientThread Image
  completed : Option (Completed Image)
  error : Bool

/-! ## The socket's buffer -/

/-- `canReadLine`. -/
def canReadLine (buffer : QByteArray) : Bool := newline ∈ buffer

/-- `readLine`: up to and including the first newline, and what stays unread. -/
def readLine : QByteArray → QByteArray × QByteArray
  | [] => ([], [])
  | byte :: buffer =>
    if byte = newline then ([byte], buffer)
    else (byte :: (readLine buffer).1, (readLine buffer).2)

/-- The loop `while(aux[i] != '\n')` that copies a line without its newline. -/
def copyLine : QByteArray → QByteArray
  | [] => []
  | byte :: aux => if byte = newline then [] else byte :: copyLine aux

namespace ClientThread

variable {Image : Type} (qt : Qt Image) (t : ClientThread Image)

/-- The assignments of a case that neither completes a package nor fails. -/
def goes (t : ClientThread Image) : Effect Image := ⟨t, none, false⟩

@[simp] theorem goes_thread : (goes t).thread = t := rfl
@[simp] theorem goes_completed : (goes t).completed = none := rfl
@[simp] theorem goes_error : (goes t).error = false := rfl

/-- `ClientThread::ClientThread`. It leaves the numbers of the package in transit
uninitialised, so their values are arguments; the state is set by `run`. -/
def create (next_image_size_ next_bb_count_ bb_counter_ : Int32) : ClientThread Image :=
  ⟨0, .protocolName, next_image_size_, next_bb_count_, bb_counter_, [], [], [], [], none, false⟩

/-- `QObject::disconnect()` without arguments, called on the thread object. -/
def disconnect : ClientThread Image := { t with finishedConnected := false }

/-- `"GLP/1.0"`. -/
def glp : QByteArray := [71, 76, 80, 47, 49, 46, 48]

/-! ## The cases of the switch -/

def protocolNameCase (protocolName : QByteArray) : Effect Image :=
  if protocolName ≠ glp then ⟨t.disconnect, none, true⟩
  else goes { t with protocolName_ := qt.fromUtf8 protocolName, protocol_state_ := .clientName }

def clientNameCase (clientName : QByteArray) : Effect Image :=
  goes { t with name_ := qt.fromUtf8 clientName, protocol_state_ := .timestamp }

def timestampCase (timestamp : QByteArray) : Effect Image :=
  goes { t with last_timestamp_ := qt.fromUtf8 timestamp, protocol_state_ := .imageSize }

def imageSizeCase (sizeIm : QByteArray) : Effect Image :=
  goes { t with next_image_size_ := QByteArray.toInt sizeIm, protocol_state_ := .image }

def imageCase (data : QByteArray) : Effect Image :=
  goes { t with last_image_ := some (qt.loadJpeg data), protocol_state_ := .bbCount }

def bbCountCase (bbCount : QByteArray) : Effect Image :=
  goes { t with
    next_bb_count_ := QByteArray.toInt bbCount
    bb_counter_ := 0
    -- a package without rectangles is dropped
    protocol_state_ := if QByteArray.toInt bbCount = 0 then .protocolName else .boundingRects }

/-- The package as the members hold it. -/
def complete : Completed Image :=
  ⟨t.name_, t.last_timestamp_, t.last_image_, t.last_boundingboxes_, t.frameCounter_⟩

/-- The rectangle of one line, `none` unless it has four parts. -/
def rectOfLine (data : QByteArray) : Option QRect :=
  match (qt.fromUtf8 data).split '_' with
  | [x, y, width, height] => some (QRect.ofSize x.toInt y.toInt width.toInt height.toInt)
  | _ => none

def boundingRectsCase (data : QByteArray) : Effect Image :=
  let boxes := if t.bb_counter_ = 0 then [] else t.last_boundingboxes_
  match rectOfLine qt data with
  | none => ⟨{ t with last_boundingboxes_ := boxes, protocol_state_ := .protocolName }, none, true⟩
  | some rect =>
    let t : ClientThread Image := { t with last_boundingboxes_ := boxes ++ [rect] }
    if t.bb_counter_ = t.next_bb_count_ - 1 then
      ⟨{ t with
          protocol_state_ := .protocolName
          frameCounter_ := t.frameCounter_ + 1
          bb_counter_ := t.bb_counter_ + 1 }, some t.complete, false⟩
    else goes { t with bb_counter_ := t.bb_counter_ + 1 }

/-- The six cases that wait for a line share this frame. -/
def lineCase (buffer : QByteArray) (use : QByteArray → Effect Image) : Effect Image × QByteArray :=
  if canReadLine buffer then (use (copyLine (readLine buffer).1), (readLine buffer).2)
  else (goes t, buffer)

/-- The `switch` of `readByProtocol`, with the bytes left in the buffer. -/
def switchCase (buffer : QByteArray) : Effect Image × QByteArray :=
  match t.protocol_state_ with
  | .protocolName => t.lineCase buffer (protocolNameCase qt t)
  | .clientName => t.lineCase buffer (clientNameCase qt t)
  | .timestamp => t.lineCase buffer (timestampCase qt t)
  | .imageSize => t.lineCase buffer (imageSizeCase t)
  | .image =>
    if t.next_image_size_.toInt ≤ buffer.length then
      -- `read` of a negative size reads nothing
      (imageCase qt t (buffer.take t.next_image_size_.toNatClampNeg),
        buffer.drop t.next_image_size_.toNatClampNeg)
    else (goes t, buffer)
  | .bbCount => t.lineCase buffer (bbCountCase t)
  | .boundingRects => t.lineCase buffer (boundingRectsCase qt t)

/-- The readiness test behind the `switch`. -/
def ready (buffer : QByteArray) : Bool :=
  if t.protocol_state_ = .image then t.next_image_size_.toInt ≤ buffer.length
  else canReadLine buffer

/-- The bytes of the buffer count twice, the image case that may read none of
them once. -/
def work (buffer : QByteArray) : Nat :=
  2 * buffer.length + if t.protocol_state_ = .image then 1 else 0

end ClientThread

/-! ## Where a line ends -/

theorem canReadLine_iff {buffer : QByteArray} : canReadLine buffer = true ↔ newline ∈ buffer := by
  simp [canReadLine]

/-- A buffer with a newline is its first line and the rest. -/
theorem exists_line {buffer : QByteArray} (readable : canReadLine buffer = true) :
    ∃ line rest, buffer = line ++ newline :: rest ∧ newline ∉ line :=
  List.eq_append_cons_of_mem (canReadLine_iff.mp readable)

@[simp] theorem readLine_line {line : QByteArray} (rest : QByteArray) (whole : newline ∉ line) :
    readLine (line ++ newline :: rest) = (line ++ [newline], rest) := by
  induction line with
  | nil => simp [readLine]
  | cons byte line ih =>
    have other : byte ≠ newline := fun same => whole (by simp [same])
    simp [readLine, other, ih fun member => whole (List.mem_cons_of_mem _ member)]

@[simp] theorem copyLine_line {line : QByteArray} (whole : newline ∉ line) :
    copyLine (line ++ [newline]) = line := by
  induction line with
  | nil => simp [copyLine]
  | cons byte line ih =>
    have other : byte ≠ newline := fun same => whole (by simp [same])
    simp [copyLine, other, ih fun member => whole (List.mem_cons_of_mem _ member)]

namespace ClientThread

variable {Image : Type} (qt : Qt Image) (t : ClientThread Image)

/-- The case of a waiting line, chosen by the state. -/
def onLine (line : QByteArray) : Effect Image :=
  match t.protocol_state_ with
  | .protocolName => protocolNameCase qt t line
  | .clientName => clientNameCase qt t line
  | .timestamp => timestampCase qt t line
  | .imageSize => imageSizeCase t line
  | .image => goes t
  | .bbCount => bbCountCase t line
  | .boundingRects => boundingRectsCase qt t line

variable {qt t} {buffer : QByteArray}

theorem switchCase_line (state : t.protocol_state_ ≠ .image) (buffer : QByteArray) :
    switchCase qt t buffer = t.lineCase buffer (onLine qt t) := by
  unfold switchCase onLine
  split <;> first | rfl | contradiction

theorem switchCase_image (state : t.protocol_state_ = .image) (buffer : QByteArray) :
    switchCase qt t buffer =
      if t.next_image_size_.toInt ≤ buffer.length then
        (imageCase qt t (buffer.take t.next_image_size_.toNatClampNeg),
          buffer.drop t.next_image_size_.toNatClampNeg)
      else (goes t, buffer) := by
  rw [switchCase, state]

/-- A state that waits for a line takes exactly the first one. -/
theorem switchCase_takes_line (state : t.protocol_state_ ≠ .image) {line : QByteArray}
    (rest : QByteArray) (whole : newline ∉ line) :
    switchCase qt t (line ++ newline :: rest) = (onLine qt t line, rest) := by
  have readable : canReadLine (line ++ newline :: rest) = true := canReadLine_iff.mpr (by simp)
  rw [switchCase_line state, lineCase, if_pos readable, readLine_line rest whole,
    copyLine_line whole]

/-- Without readiness the `switch` does nothing. -/
theorem switchCase_waits (waits : t.ready buffer = false) :
    switchCase qt t buffer = (goes t, buffer) := by
  by_cases state : t.protocol_state_ = .image
  · rw [switchCase_image state, if_neg (by simpa [ready, state] using waits)]
  · rw [switchCase_line state, lineCase, if_neg (by simpa [ready, state] using waits)]

/-- The image state is entered only by a line. -/
theorem imageCase_leaves (data : QByteArray) :
    (imageCase qt t data).thread.protocol_state_ ≠ .image := by
  simp [imageCase, goes]

/-- Every enabled `switch` leaves less work. -/
theorem switchCase_progress (enabled : t.ready buffer = true) :
    (switchCase qt t buffer).1.thread.work (switchCase qt t buffer).2 < t.work buffer := by
  by_cases state : t.protocol_state_ = .image
  · have fits : t.next_image_size_.toInt ≤ buffer.length := by simpa [ready, state] using enabled
    rw [switchCase_image state, if_pos fits]
    simp only [work, imageCase_leaves, state, ↓reduceIte, List.length_drop]
    omega
  · obtain ⟨line, rest, rfl, whole⟩ := exists_line (by simpa [ready, state] using enabled)
    rw [switchCase_takes_line state rest whole]
    simp only [work, state, ↓reduceIte, List.length_append, List.length_cons]
    split <;> omega

/-- The readiness test behind the `switch` passes only after some progress. -/
theorem switchCase_progress_of_ready
    (again : (switchCase qt t buffer).1.thread.ready (switchCase qt t buffer).2 = true) :
    (switchCase qt t buffer).1.thread.work (switchCase qt t buffer).2 < t.work buffer := by
  cases enabled : t.ready buffer with
  | true => exact switchCase_progress enabled
  | false =>
    rw [switchCase_waits enabled] at again
    exact absurd again (by simp [goes, enabled])

end ClientThread

/-! ## The recursion and the receive loop -/

/-- What calls of `readByProtocol` leave: the members, the unread bytes, the
packages completed in order, and the returned error. -/
structure Reading (Image : Type) where
  thread : ClientThread Image
  unread : QByteArray
  completed : List (Completed Image)
  error : Bool

namespace ClientThread

variable {Image : Type} (qt : Qt Image)

/-- `ClientThread::readByProtocol`: the `switch`, and the call to itself while
more data can be processed. -/
def readByProtocol (t : ClientThread Image) (buffer : QByteArray) : Reading Image :=
  let turn := switchCase qt t buffer
  let completed := turn.1.completed.toList
  if turn.1.error then ⟨turn.1.thread, turn.2, completed, true⟩
  else if _again : turn.1.thread.ready turn.2 then
    let more := readByProtocol turn.1.thread turn.2
    { more with completed := completed ++ more.completed }
  else ⟨turn.1.thread, turn.2, completed, false⟩
termination_by t.work buffer
decreasing_by exact switchCase_progress_of_ready _again

/-- The loop of `run`: each packet is appended to the buffer and read, until the
first error; the list ends where the socket closes or times out. -/
def receive (t : ClientThread Image) (buffer : QByteArray) : List QByteArray → Reading Image
  | [] => ⟨t, buffer, [], false⟩
  | chunk :: chunks =>
    let now := readByProtocol qt t (buffer ++ chunk)
    if now.error then now
    else
      let later := receive now.thread now.unread chunks
      { later with completed := now.completed ++ later.completed }

/-- `ClientThread::run`. -/
def run (t : ClientThread Image) (chunks : List QByteArray) : Reading Image :=
  receive qt { t with protocol_state_ := .protocolName } [] chunks

end ClientThread

end Videovigilancia
