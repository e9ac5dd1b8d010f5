import Videovigilancia.GlpPackage

/-! The connection of the camera client, `Client/console.cpp`: the socket with
the slots its signals are connected to, the reconnection timers, and the
handlers that run when an event arrives. What the network does while a handler
blocks is part of the event (`Attempt`). The camera and `exit_`, which is never
set, change nothing here; `exit_` is kept because `disconnect` asks for it. -/
namespace Videovigilancia.Client

/-- `QAbstractSocket::state()`. -/
inductive SocketState where
  | unconnected
  | connecting
  | connected
  deriving DecidableEq

/-- A `QSslSocket` and its connections: how often `encrypted()` is connected to
`connected()`, and whether `disconnected()` and `error()` are connected to
`disconnect()` and `socketError()`. -/
structure QSslSocket where
  state : SocketState
  isEncrypted : Bool
  encryptedSlots : Nat
  disconnectedSlot : Bool
  errorSlot : Bool
  deriving DecidableEq

/-- `new QSslSocket`. -/
def QSslSocket.new : QSslSocket := ⟨.unconnected, false, 0, false, false⟩

/-- What happens to `connectToHostEncrypted` while `waitForEncrypted(8000)`
blocks. A connection that is lost in the meantime may run `disconnect()` and so a
nested attempt. -/
inductive Attempt where
  | encrypted
  | established
  | pending
  | refused
  | lost (retry : Attempt)
  deriving DecidableEq

/-- `Console`, with the number of running timers that are connected to
`reconnect()`. A stopped timer is never started again. -/
structure Console where
  connectedServer_ : Bool
  exit_ : Bool
  timers : Nat
  sslSocket_ : QSslSocket
  deriving DecidableEq

namespace Console

/-- `Console::Console` with `on_actionCapturar_triggered`: everything is connected
once and the first attempt is under way. -/
def new : Console :=
  ⟨false, false, 0, { QSslSocket.new with
    state := .connecting, encryptedSlots := 1, disconnectedSlot := true, errorSlot := true }⟩

/-- A socket that enters another state has no encrypted connection any more. -/
def enter (state : SocketState) (c : Console) : Console :=
  { c with sslSocket_ := { c.sslSocket_ with state, isEncrypted := false } }

/-- `Console::connected`. -/
def connected (c : Console) : Console := { c with connectedServer_ := true }

/-- The handshake completes: `encrypted()` calls `connected()` once for each
connection. -/
def handshake (c : Console) : Console :=
  connected^[c.sslSocket_.encryptedSlots]
    { c with sslSocket_ := { c.sslSocket_ with state := .connected, isEncrypted := true } }

/-- `connectedServer_ = 0`. -/
def offline (c : Console) : Console := { c with connectedServer_ := false }

/-- `Console::disconnect`, where `reconnect` is what its last call does. -/
def disconnectWith (reconnect : Console → Console) (c : Console) : Console :=
  if c.offline.exit_ then c.offline else reconnect c.offline

/-- An established connection is lost: `disconnected()` is emitted. -/
def lose (disconnect : Console → Console) (c : Console) : Console :=
  let c := c.enter .unconnected
  if c.sslSocket_.disconnectedSlot then disconnect c else c

/-- The end of `reconnect`: its own timer is stopped if the socket is connected,
and `encrypted()` is connected to `connected()`. -/
def settle (c : Console) : Console :=
  { c with
    timers := if c.sslSocket_.state = .connected then c.timers else c.timers + 1
    sslSocket_ := { c.sslSocket_ with encryptedSlots := c.sslSocket_.encryptedSlots + 1 } }

/-- `Console::reconnect`. -/
def reconnect : Attempt → Console → Console
  | attempt, c =>
    if c.sslSocket_.state = .unconnected then
      match attempt with
      | .encrypted => c.handshake.settle
      | .established => (c.enter .connected).settle
      | .pending => (c.enter .connecting).settle
      -- `socketError` closes a socket that is unconnected already
      | .refused => (c.enter .unconnected).settle
      | .lost retry => (c.lose (disconnectWith (reconnect retry))).settle
    else c.settle

/-- `Console::disconnect`. -/
def disconnect (retry : Attempt) : Console → Console := disconnectWith (reconnect retry)

/-- `Console::socketError`: `close()`, which loses an established connection. -/
def socketError (retry : Attempt) (c : Console) : Console :=
  if c.sslSocket_.state = .connected then c.lose (disconnect retry) else c.enter .unconnected

/-- `Console::handleSigHup`: the old socket is disconnected from its slots and
left to be deleted; the new one is connected by `reconnect` only. -/
def handleSigHup (attempt : Attempt) (c : Console) : Console :=
  reconnect attempt { c with sslSocket_ := QSslSocket.new }

end Console

/-- The events of the main loop that concern the connection. -/
inductive Event where
  | established
  | encrypted
  | lost (retry : Attempt)
  | error (retry : Attempt)
  | timeout (attempt : Attempt)
  | sighup (attempt : Attempt)
  deriving DecidableEq

/-- An event that cannot occur in a state changes nothing. -/
def Console.step (c : Console) : Event → Console
  | .established => if c.sslSocket_.state = .connecting then c.enter .connected else c
  | .encrypted =>
    if c.sslSocket_.state = .connected ∧ c.sslSocket_.isEncrypted = false then c.handshake else c
  | .lost retry => if c.sslSocket_.state = .connected then c.lose (disconnect retry) else c
  | .error retry =>
    -- an attempt that fails has left the socket unconnected when `error()` is emitted
    let c := if c.sslSocket_.state = .connecting then c.enter .unconnected else c
    if c.sslSocket_.errorSlot then c.socketError retry else c
  | .timeout attempt => if c.timers = 0 then c else reconnect attempt c
  | .sighup attempt => c.handleSigHup attempt

/-! ## What the handlers leave alone -/

namespace Console

variable {c : Console}

@[simp] theorem enter_flag (state : SocketState) :
    (c.enter state).connectedServer_ = c.connectedServer_ := rfl
@[simp] theorem enter_exit (state : SocketState) : (c.enter state).exit_ = c.exit_ := rfl
@[simp] theorem enter_timers (state : SocketState) : (c.enter state).timers = c.timers := rfl
@[simp] theorem enter_socket (state : SocketState) : (c.enter state).sslSocket_ =
    { c.sslSocket_ with state, isEncrypted := false } := rfl
@[simp] theorem enter_enter (first second : SocketState) :
    (c.enter first).enter second = c.enter second := rfl
@[simp] theorem offline_flag : c.offline.connectedServer_ = false := rfl
@[simp] theorem offline_exit : c.offline.exit_ = c.exit_ := rfl
@[simp] theorem offline_timers : c.offline.timers = c.timers := rfl
@[simp] theorem offline_socket : c.offline.sslSocket_ = c.sslSocket_ := rfl

/-- Any number of calls of `connected()` but none sets the flag. -/
theorem connected_iterate (n : Nat) (c : Console) :
    connected^[n] c = { c with connectedServer_ := c.connectedServer_ || decide (0 < n) } := by
  induction n generalizing c with
  | zero => simp
  | succ n ih => simp [ih, connected]

theorem handshake_eq (c : Console) : c.handshake = { c with
    connectedServer_ := c.connectedServer_ || decide (0 < c.sslSocket_.encryptedSlots)
    sslSocket_ := { c.sslSocket_ with state := .connected, isEncrypted := true } } := by
  rw [handshake, connected_iterate]

end Console

end Videovigilancia.Client
