import Videovigilancia.ClientConsole
import Videovigilancia.MotionDetector
import Videovigilancia.ServerConsole
import Videovigilancia.Workers

/-! One camera and the recorder. The main thread of the camera gives its frames to
the thread of the motion detector, takes the results and writes packages on its
present connection; the bytes of each connection arrive at a session of the server
in any portions and at any time; other cameras, or anybody, may use the server
too. Each of these things is an event, and they happen in any order. -/
namespace Videovigilancia
open Client Workers

/-! ## Connections that a handler opens -/

namespace Client.Console

/-- The calls of `connectToHostEncrypted` in one call of `reconnect`. -/
def reconnectDials : Attempt → Console → Nat
  | attempt, c =>
    if c.sslSocket_.state = .unconnected then
      match attempt with
      | .lost retry =>
        if c.sslSocket_.disconnectedSlot = true ∧ c.exit_ = false then
          1 + reconnectDials retry (c.enter .unconnected).offline
        else 1
      | _ => 1
    else 0

/-- Those of a lost connection, which calls `disconnect()` if that is connected. -/
def lostDials (retry : Attempt) (c : Console) : Nat :=
  if c.sslSocket_.state = .connected ∧ c.sslSocket_.disconnectedSlot = true ∧ c.exit_ = false then
    reconnectDials retry (c.enter .unconnected).offline
  else 0

/-- Those of an event. -/
def dials (c : Console) : Client.Event → Nat
  | .established => 0
  | .encrypted => 0
  | .lost retry => c.lostDials retry
  | .error retry => if c.sslSocket_.errorSlot then c.lostDials retry else 0
  | .timeout attempt => if c.timers = 0 then 0 else c.reconnectDials attempt
  | .sighup attempt => { c with sslSocket_ := QSslSocket.new }.reconnectDials attempt

end Client.Console

/-! ## The state -/

/-- What both programs are run with. `jpeg` is what `QImageWriter` makes of the image. -/
structure Setup (S Image : Type) where
  qt : Qt Image
  cv : OpenCV S
  convertToFormat : QtOcv.ConvertToFormat
  byteOrder : ByteOrder
  jpeg : Detected → QByteArray
  clientName_ : QString

/-- A connection that the camera opened: the session of the server that it reached,
the packages written on it, and how many of their bytes the session has read. -/
structure Link where
  session : Option Nat
  packages : List Capture
  read : Nat

namespace Link

def new : Link := ⟨none, [], 0⟩

/-- Everything written on it. -/
def stream (link : Link) : QByteArray := (link.packages.map (Capture.motionDetected true)).flatten

def write (c : Capture) (link : Link) : Link := { link with packages := link.packages ++ [c] }

end Link

/-- The camera's connection and its detector, all connections it opened in this
order, and the server. -/
structure Surveillance (S Image : Type) where
  client : Client.Console
  detector : Worker S Frame Detected
  links : List Link
  server : Server.Console Image

/-- What happens at the camera, on its connections, and at the server otherwise. -/
inductive Surveillance.Event where
  | frame (image : Frame)
  | detect
  | result (timestamp : Int64)
  | connection (event : Client.Event)
  | accept (link : Nat) (next_image_size_ next_bb_count_ bb_counter_ : Int32)
  | packet (link size : Nat) (today : Nat → QDate)
  | server (event : Server.Event)

namespace Surveillance

variable {S Image : Type} (setup : Setup S Image)

/-- `MotionDetector::detectMotion`. -/
def detectMotion : S → Frame → S × Detected :=
  MotionDetector.detectMotion setup.cv setup.convertToFormat setup.byteOrder

/-- What `motionDetected` has to send. -/
def capture (timestamp : Int64) (detected : Detected) : Capture :=
  ⟨setup.clientName_, timestamp, setup.jpeg detected, detected.boundingRects⟩

/-- The first connection is under way, and the server waits. -/
def start : Surveillance S Image :=
  ⟨.new, .start setup.cv.backgroundSubtractor, [.new], .new⟩

/-- `Console::motionDetected` writes on the present socket. An unconnected one keeps
nothing: the next `connectToHostEncrypted` begins with empty buffers. -/
def motionDetected (timestamp : Int64) (detected : Detected) (s : Surveillance S Image) :
    Surveillance S Image :=
  let c := capture setup timestamp detected
  if c.motionDetected s.client.connectedServer_ = [] ∨
      s.client.sslSocket_.state = .unconnected then s
  else { s with links := s.links.modify (s.links.length - 1) (Link.write c) }

/-- A session of the camera. -/
def Mine (s : Surveillance S Image) (connection : Nat) : Prop :=
  ∃ link ∈ s.links, link.session = some connection

instance (s : Surveillance S Image) (connection : Nat) : Decidable (s.Mine connection) :=
  inferInstanceAs (Decidable (∃ link ∈ s.links, link.session = some connection))

/-- The next bytes of a connection arrive at a thread that is still receiving. -/
def packet (k size : Nat) (today : Nat → QDate) (s : Surveillance S Image) : Surveillance S Image :=
  match s.links[k]? with
  | none => s
  | some link =>
    match link.session with
    | none => s
    | some i =>
      match s.server.sessions[i]? with
      | none => s
      | some session =>
        if session.running = true ∧ session.destroyed = false then
          let bytes := (link.stream.drop link.read).take size
          { s with
            server := s.server.step setup.qt (.received i bytes today)
            links := s.links.modify k fun link => { link with read := link.read + bytes.length } }
        else s

/-- An event that cannot occur changes nothing. -/
def step (s : Surveillance S Image) : Event → Surveillance S Image
  -- `image1`
  | .frame image => { s with detector := s.detector.post image }
  | .detect => { s with detector := s.detector.turn (detectMotion setup) }
  | .result timestamp =>
    match s.detector.take with
    | none => s
    | some (detected, detector) =>
      motionDetected setup timestamp detected { s with detector }
  | .connection event => { s with
      client := s.client.step event
      links := s.links ++ List.replicate (s.client.dials event) .new }
  | .accept k size count counter =>
    match s.links[k]? with
    | none => s
    | some link =>
      if link.session = none then
        { s with
          server := s.server.step setup.qt (.incomingConnection size count counter)
          links := s.links.modify k fun link =>
            { link with session := some s.server.sessions.length } }
      else s
  | .packet k size today => s.packet setup k size today
  | .server event =>
    match event with
    | .received connection _ _ =>
      -- only the camera writes on its connections
      if s.Mine connection then s else { s with server := s.server.step setup.qt event }
    | _ => { s with server := s.server.step setup.qt event }

/-- What the programs rely on: a plain name of one line of C text, an image and a number
of rectangles that an `int` counts. -/
structure Reliable (setup : Setup S Image) : Prop where
  utf8 : setup.qt.DecodesUtf8
  one_line : newline ∉ setup.clientName_.toUtf8
  no_nul : 0 ∉ setup.clientName_.toUtf8
  plain_name : setup.clientName_.Plain
  image_size : ∀ detected, (setup.jpeg detected).length < 2 ^ 31
  rect_count : ∀ s img, (detectMotion setup s img).2.boundingRects.length < 2 ^ 31

end Surveillance

/-- A setup for examples. -/
def Setup.sample : Setup Unit QByteArray where
  qt := .reference
  cv := .reference
  convertToFormat := QtOcv.sameFormat
  byteOrder := .littleEndian
  jpeg detected := [255, 216, UInt8.ofNat detected.width, UInt8.ofNat detected.height]
  clientName_ := ['c', 'a', 'm']

end Videovigilancia
