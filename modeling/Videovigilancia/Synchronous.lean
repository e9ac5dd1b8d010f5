import Videovigilancia.ImagePath

/-! The recorder without threads, `BackupBenchmarkSincrono/Server`. One `Server` object
reads all its clients in turn: each `readyRead()` of a socket is one call of
`readByProtocol`, which does not call itself, and only the packages of the first
client in the list are saved. -/
namespace Videovigilancia.Synchronous

/-- The members of `Client` that `readByProtocol` reads and writes. -/
structure Client (Image : Type) where
  protocol_state_ : ProtocolState
  next_image_size_ : Int32
  next_bb_count_ : Int32
  bb_counter_ : Int32
  last_boundingboxes_ : List QRect
  name_ : QString
  last_timestamp_ : QString
  protocolName_ : QString
  last_image_ : Option Image

/-- What a call of `readByProtocol` leads to: nothing else, a signal, or the end of the
program, where an index is out of range. -/
inductive Signal where
  | silent
  | receivedCompletePackage
  | disconnected
  | aborted
  deriving DecidableEq

namespace Client

variable {Image : Type} (qt : Qt Image) (c : Client Image)

/-- `Client::Client`, which leaves the numbers of the package in transit uninitialised. -/
def create (next_image_size_ next_bb_count_ bb_counter_ : Int32) : Client Image :=
  ⟨.protocolName, next_image_size_, next_bb_count_, bb_counter_, [], [], [], [], none⟩

/-! ## The cases of the switch -/

def protocolNameCase (protocolName : QByteArray) : Client Image × Signal :=
  if protocolName ≠ ClientThread.glp then (c, .disconnected)
  else ({ c with protocolName_ := qt.fromUtf8 protocolName, protocol_state_ := .clientName }, .silent)

def clientNameCase (clientName : QByteArray) : Client Image × Signal :=
  ({ c with name_ := qt.fromUtf8 clientName, protocol_state_ := .timestamp }, .silent)

def timestampCase (timestamp : QByteArray) : Client Image × Signal :=
  ({ c with last_timestamp_ := qt.fromUtf8 timestamp, protocol_state_ := .imageSize }, .silent)

def imageSizeCase (sizeIm : QByteArray) : Client Image × Signal :=
  ({ c with next_image_size_ := QByteArray.toInt sizeIm, protocol_state_ := .image }, .silent)

def imageCase (data : QByteArray) : Client Image × Signal :=
  ({ c with last_image_ := some (qt.loadJpeg data), protocol_state_ := .bbCount }, .silent)

/-- A count of 0 is not looked at here. -/
def bbCountCase (bbCount : QByteArray) : Client Image × Signal :=
  ({ c with
      next_bb_count_ := QByteArray.toInt bbCount
      bb_counter_ := 0
      protocol_state_ := .boundingRects }, .silent)

/-- Nor is the number of parts, so that more than four are read as four. -/
def boundingRectsCase (data : QByteArray) : Client Image × Signal :=
  let boxes := if c.bb_counter_ = 0 then [] else c.last_boundingboxes_
  match (qt.fromUtf8 data).split '_' with
  | x :: y :: width :: height :: _ =>
    let c : Client Image := { c with
      last_boundingboxes_ := boxes ++ [QRect.ofSize x.toInt y.toInt width.toInt height.toInt] }
    if c.bb_counter_ = c.next_bb_count_ - 1 then
      ({ c with protocol_state_ := .protocolName, bb_counter_ := c.bb_counter_ + 1 },
        .receivedCompletePackage)
    else ({ c with bb_counter_ := c.bb_counter_ + 1 }, .silent)
  | _ => ({ c with last_boundingboxes_ := boxes }, .aborted)

/-- The six cases that wait for a line, with the bytes left in the buffer. -/
def lineCase (buffer : QByteArray) (use : QByteArray → Client Image × Signal) :
    (Client Image × Signal) × QByteArray :=
  if canReadLine buffer then (use (copyLine (readLine buffer).1), (readLine buffer).2)
  else ((c, .silent), buffer)

/-- `Client::readByProtocol`. -/
def readByProtocol (buffer : QByteArray) : (Client Image × Signal) × QByteArray :=
  match c.protocol_state_ with
  | .protocolName => c.lineCase buffer (protocolNameCase qt c)
  | .clientName => c.lineCase buffer (clientNameCase qt c)
  | .timestamp => c.lineCase buffer (timestampCase qt c)
  | .imageSize => c.lineCase buffer (imageSizeCase c)
  | .image =>
    if c.next_image_size_.toInt ≤ buffer.length then
      (imageCase qt c (buffer.take c.next_image_size_.toNatClampNeg),
        buffer.drop c.next_image_size_.toNatClampNeg)
    else ((c, .silent), buffer)
  | .bbCount => c.lineCase buffer (bbCountCase c)
  | .boundingRects => c.lineCase buffer (boundingRectsCase qt c)

end Client

/-! ## A connection -/

/-- A `Client` with the bytes of its socket that are unread, and the members as they
were at each `receivedCompletePackage()`. -/
structure Connection (Image : Type) where
  client : Client Image
  unread : QByteArray
  completed : List (Client Image)

namespace Connection

variable {Image : Type} (qt : Qt Image)

def new (client : Client Image) : Connection Image := ⟨client, [], []⟩

/-- `readyRead()`: a packet is there, and `readByProtocol` is called once. -/
def readyRead (packet : QByteArray) (k : Connection Image) : Connection Image × Signal :=
  let ((client, signal), unread) := k.client.readByProtocol qt (k.unread ++ packet)
  let completed := if signal = .receivedCompletePackage then k.completed ++ [client] else k.completed
  (⟨client, unread, completed⟩, signal)

/-- Packets one after the other, as long as nothing ends the connection. -/
def receive (k : Connection Image) : List QByteArray → Connection Image × Signal
  | [] => (k, .silent)
  | packet :: packets =>
    let now := k.readyRead qt packet
    match now.2 with
    | .silent | .receivedCompletePackage => receive now.1 packets
    | _ => now

end Connection

/-! ## The server -/

/-- An image that was to be saved, and the number of the client that sent it. -/
structure Saved (Image : Type) where
  client : Nat
  fullpath : QString
  last_image_ : Option Image

/-- `Server`, with every `Client` it ever made, of which `clientConnections_` are in its
list, and every image that was to be saved. -/
structure Server (Image : Type) where
  frameCounter : Int32
  clients : List (Connection Image)
  clientConnections_ : List Nat
  saved : List (Saved Image)
  aborted : Bool

/-- What the sockets of a server tell it, with the date at which an image is saved. -/
inductive Event where
  | incomingConnection (next_image_size_ next_bb_count_ bb_counter_ : Int32)
  | readyRead (client : Nat) (packet : QByteArray) (today : QDate)
  | disconnected (client : Nat)

namespace Server

variable {Image : Type} (qt : Qt Image) (outputDestination_ : QString)

/-- `Server::Server`. -/
def new : Server Image := ⟨0, [], [], [], false⟩

/-- `Server::clientDisconnected`. -/
def clientDisconnected (i : Nat) (s : Server Image) : Server Image :=
  { s with clientConnections_ := s.clientConnections_.filter (· ≠ i) }

/-- `Server::clientCompletePackage`: only the first client of the list counts. -/
def clientCompletePackage (i : Nat) (client : Client Image) (today : QDate) (s : Server Image) :
    Server Image :=
  if s.clientConnections_.head? = some i then
    { s with
      frameCounter := s.frameCounter + 1
      saved := s.saved ++ [⟨i, ImagePath.fullpath outputDestination_ client.name_
        (ImagePath.dateText today) s.frameCounter, client.last_image_⟩] }
  else s

/-- A client that is not in the list any more is deleted before its socket is heard of
again. -/
def readClientData (i : Nat) (packet : QByteArray) (today : QDate) (s : Server Image) :
    Server Image :=
  match s.clients[i]? with
  | none => s
  | some k =>
    if i ∈ s.clientConnections_ then
      let (k, signal) := k.readyRead qt packet
      let s := { s with clients := s.clients.set i k }
      match signal with
      | .silent => s
      | .receivedCompletePackage =>
        s.clientCompletePackage outputDestination_ i k.client today
      | .disconnected => s.clientDisconnected i
      | .aborted => { s with aborted := true }
    else s

/-- After an abort nothing happens any more. -/
def step (s : Server Image) (event : Event) : Server Image :=
  if s.aborted then s
  else
    match event with
    | .incomingConnection size count counter => { s with
        clients := s.clients ++ [.new (.create size count counter)]
        clientConnections_ := s.clientConnections_ ++ [s.clients.length] }
    | .readyRead i packet today => s.readClientData qt outputDestination_ i packet today
    | .disconnected i => s.clientDisconnected i

end Server

end Videovigilancia.Synchronous
