import Videovigilancia.Storage

/-! The recorder, `Server/server.cpp` and `Server/console.cpp`: the client threads
that incoming connections make, who owns them, and what ends them. Completed
packages are kept with the connection and the date they came with. -/
namespace Videovigilancia.Server

variable {Image : Type}

/-- `outputDestination_` as `Server::Server` sets it. -/
def outputDestination (outputDestination : QString) : QString :=
  if ['/'] <:+ outputDestination then outputDestination else outputDestination ++ ['/']

def databaseName : QString := "my.db.sqlite".toList

/-- The path of the database, below the destination as it was given. -/
def databasePath (outputDestination_ : QString) : QString := outputDestination_ ++ '/' :: databaseName

/-- A `ClientThread` object. `parent` tells which of the servers, counted from the
first one, owns it; `running` is whether its `run()` has not returned, and
`packages` counts what it completed. -/
structure Session (Image : Type) where
  thread : ClientThread Image
  unread : QByteArray
  packages : Nat
  parent : Nat
  running : Bool
  deletePosted : Bool
  destroyed : Bool

/-- A completed package, the `number`-th of its connection. -/
structure Recorded (Image : Type) where
  connection : Nat
  number : Nat
  package : Completed Image
  today : QDate

/-- `Console`: how many servers there were before `server_`, every thread object
ever made, and every package in the order of completion. -/
structure Console (Image : Type) where
  server_ : Nat
  sessions : List (Session Image)
  recorded : List (Recorded Image)

/-- `received` is a packet with the date at which each package it completes is
stored; `closed` is the end of a connection or 30 s without data. -/
inductive Event where
  | incomingConnection (next_image_size_ next_bb_count_ bb_counter_ : Int32)
  | received (connection : Nat) (packet : QByteArray) (today : Nat → QDate)
  | closed (connection : Nat)
  | deferredDelete (connection : Nat)
  | sighup

namespace Session

/-- The `ClientThread` that `Server::incomingConnection` makes, connects and
starts. -/
def start (thread : ClientThread Image) (server_ : Nat) : Session Image :=
  ⟨{ thread with finishedConnected := true }, [], 0, server_, true, false, false⟩

/-- `run()` returns, and `finished()` calls `deleteLater()` if it is still
connected to it. -/
def finish (s : Session Image) : Session Image :=
  { s with running := false, deletePosted := s.deletePosted || s.thread.finishedConnected }

/-- One turn of the loop of `run`. -/
def receive (qt : Qt Image) (packet : QByteArray) (s : Session Image) : Session Image :=
  let now := ClientThread.readByProtocol qt s.thread (s.unread ++ packet)
  let s := { s with
    thread := now.thread
    unread := now.unread
    packages := s.packages + now.completed.length }
  if now.error then s.finish else s

/-- The packages of that turn. -/
def recorded (qt : Qt Image) (connection : Nat) (packet : QByteArray) (today : Nat → QDate)
    (s : Session Image) : List (Recorded Image) :=
  (ClientThread.readByProtocol qt s.thread (s.unread ++ packet)).completed.zipIdx.map
    fun (package, i) => ⟨connection, s.packages + i, package, today i⟩

/-- The destructor of the object. -/
def destroy (s : Session Image) : Session Image := { s with destroyed := true }

end Session

namespace Console

/-- `Console::Console`: a server and no connection yet. -/
def new : Console Image := ⟨0, [], []⟩

/-- `handleSigHup`: `server_->disconnect()` ends no thread, and deleting the
server destroys its children; the next server has none. -/
def handleSigHup (c : Console Image) : Console Image :=
  { c with
    server_ := c.server_ + 1
    sessions := c.sessions.map fun s => if s.parent = c.server_ then s.destroy else s }

/-- An event that cannot occur changes nothing. -/
def step (qt : Qt Image) (c : Console Image) : Event → Console Image
  | .incomingConnection size count counter => { c with
      sessions := c.sessions ++ [.start (.create size count counter) c.server_] }
  | .received connection packet today =>
    match c.sessions[connection]? with
    | none => c
    | some s =>
      if s.running = true ∧ s.destroyed = false then
        { c with
          sessions := c.sessions.set connection (s.receive qt packet)
          recorded := c.recorded ++ s.recorded qt connection packet today }
      else c
  | .closed connection =>
    match c.sessions[connection]? with
    | none => c
    | some s =>
      if s.running = true ∧ s.destroyed = false then
        { c with sessions := c.sessions.set connection s.finish }
      else c
  | .deferredDelete connection =>
    match c.sessions[connection]? with
    | none => c
    | some s =>
      if s.deletePosted then { c with sessions := c.sessions.set connection s.destroy } else c
  | .sighup => c.handleSigHup

end Console

end Videovigilancia.Server
