import Videovigilancia.OptionWords
import Videovigilancia.QtValues

/-! The option loops of both `main` functions. A turn of a loop compares `argv[i]`
with every option word and takes the value from `argv[i+1]`, which behind the last
argument is a null pointer; the settings start with what `QSettings` read. In the
server the word `d` makes the process a daemon in the middle of the loop. -/
namespace Videovigilancia
open OptionWords

/-- The bytes of an ASCII literal. -/
def literal (s : String) : QByteArray := s.toList.map fun c => UInt8.ofNat c.toNat

/-- The words that print the help, of both programs. -/
def IsHelp (word : QByteArray) : Prop :=
  word = literal "h" ∨ word = literal "help" ∨ word = literal "?"

instance (word : QByteArray) : Decidable (IsHelp word) := inferInstanceAs (Decidable (_ ∨ _ ∨ _))

/-! ## Client/main.cpp -/

namespace ClientMain

/-- The variables of `main`, and how often the help was printed. -/
structure Options where
  disp : QByteArray
  port : QByteArray
  host : QString
  nameClient : QString
  helps : Nat

inductive Setting where
  | disp
  | port
  | host
  | nameClient
  deriving DecidableEq

/-- The option words, as the help and the example arguments give them. -/
def spelling : Spelling Setting Empty QByteArray where
  pair
    | .disp, long => literal (if long then "disp" else "d")
    | .port, long => literal (if long then "port" else "p")
    | .host, long => literal (if long then "host" else "o")
    | .nameClient, long => literal (if long then "name" else "n")
  alone flag := nomatch flag

/-- One turn of the loop. -/
def turn {Image : Type} (qt : Qt Image) (m : Options) (argv_i : QByteArray)
    (next : Option QByteArray) : Options :=
  let m := if IsHelp argv_i then { m with helps := m.helps + 1 } else m
  let m := if argv_i = literal "d" ∨ argv_i = literal "disp" then { m with disp := next.getD [] }
    else m
  let m := if argv_i = literal "p" ∨ argv_i = literal "port" then { m with port := next.getD [] }
    else m
  let m := if argv_i = literal "o" ∨ argv_i = literal "host" then
      { m with host := (next.map qt.fromUtf8).getD [] }
    else m
  if argv_i = literal "n" ∨ argv_i = literal "name" then
    { m with nameClient := (next.map qt.fromUtf8).getD [] }
  else m

/-- The loop over `argv`, the program's name left out. -/
def loop {Image : Type} (qt : Qt Image) (m : Options) (argv : List QByteArray) : Option Options :=
  scan (fun m argv_i next => some (turn qt m argv_i next)) m argv

end ClientMain

/-! ## Server/main.cpp -/

namespace ServerMain

/-- The effective user and group of the process. The real and the saved ones are
root's. -/
structure Ids where
  euid : Nat
  egid : Nat
  deriving DecidableEq

namespace Ids

def root : Ids := ⟨0, 0⟩

/-- Root takes every user id, another user only the saved one; a failed call
changes nothing. -/
def seteuid (uid : Nat) (ids : Ids) : Ids :=
  if ids.euid = 0 ∨ uid = 0 then { ids with euid := uid } else ids

/-- Only root takes every group id. -/
def setegid (gid : Nat) (ids : Ids) : Ids :=
  if ids.euid = 0 ∨ gid = 0 then { ids with egid := gid } else ids

end Ids

/-- The users and groups of the system, `none` where `getpwnam` and `getgrnam`
return a null pointer. -/
structure Accounts where
  getpwnam : QByteArray → Option Nat
  getgrnam : QByteArray → Option Nat

/-- The variables of `main`, how often the help was printed, and the identity of
the process. -/
structure Options where
  port : QByteArray
  key : QByteArray
  cert : QByteArray
  uid : QByteArray
  gid : QByteArray
  outputdest : QByteArray
  daemon : Bool
  helps : Nat
  ids : Ids

inductive Setting where
  | port
  | key
  | cert
  | uid
  | gid
  | outputdest
  deriving DecidableEq

/-- The option words; `d` and `daemon` stand alone. -/
def spelling : Spelling Setting Unit QByteArray where
  pair
    | .port, long => literal (if long then "port" else "p")
    | .key, long => literal (if long then "key" else "k")
    | .cert, long => literal (if long then "cert" else "c")
    | .uid, long => literal (if long then "uid" else "u")
    | .gid, long => literal (if long then "gid" else "g")
    | .outputdest, long => literal (if long then "output" else "o")
  alone _ long := literal (if long then "daemon" else "d")

/-- The word that makes the process a daemon. -/
def IsDaemon (word : QByteArray) : Prop := word = literal "d" ∨ word = literal "daemon"

instance (word : QByteArray) : Decidable (IsDaemon word) := inferInstanceAs (Decidable (_ ∨ _))

/-- The daemon's branch, in the child that `fork`, `setsid` and `chdir` leave. A
null pointer from `getpwnam` or `getgrnam` is dereferenced. -/
def becomeDaemon (accounts : Accounts) (m : Options) : Option Options :=
  (accounts.getpwnam m.uid).bind fun pw_uid =>
    (accounts.getgrnam m.gid).map fun gr_gid =>
      { m with daemon := true, ids := (m.ids.seteuid pw_uid).setegid gr_gid }

/-- One turn of the loop. -/
def turn (accounts : Accounts) (m : Options) (argv_i : QByteArray) (next : Option QByteArray) :
    Option Options :=
  let m := if IsHelp argv_i then { m with helps := m.helps + 1 } else m
  let m := if argv_i = literal "p" ∨ argv_i = literal "port" then { m with port := next.getD [] }
    else m
  let m := if argv_i = literal "k" ∨ argv_i = literal "key" then { m with key := next.getD [] }
    else m
  let m := if argv_i = literal "c" ∨ argv_i = literal "cert" then { m with cert := next.getD [] }
    else m
  let m := if argv_i = literal "u" ∨ argv_i = literal "uid" then { m with uid := next.getD [] }
    else m
  let m := if argv_i = literal "g" ∨ argv_i = literal "gid" then { m with gid := next.getD [] }
    else m
  let m := if argv_i = literal "o" ∨ argv_i = literal "output" then
      { m with outputdest := next.getD [] }
    else m
  if IsDaemon argv_i then becomeDaemon accounts m else some m

/-- The loop over `argv`, the program's name left out. -/
def loop (accounts : Accounts) (m : Options) (argv : List QByteArray) : Option Options :=
  scan (turn accounts) m argv

end ServerMain

end Videovigilancia
