import Videovigilancia.CommandLine

/-! What the option loops make of the pairs that a user types. Every word is
compared with every option word, the values too, so the settings are the last
values typed as long as no value happens to be an option word; any value that is
one is taken for it. -/
namespace Videovigilancia
open OptionWords

/-! ## The client -/

namespace ClientMain

variable {Image : Type} {qt : Qt Image}

/-- A word that some comparison of the loop finds. -/
def OptionWord (word : QByteArray) : Prop :=
  IsHelp word ∨ ∃ setting long, word = spelling.pair setting long

/-- The settings are the last values typed, or what the configuration said. -/
structure AsTyped (qt : Qt Image) (items : List (Item Setting Empty QByteArray))
    (conf m : Options) : Prop where
  disp : m.disp = (lastValue .disp items).getD conf.disp
  port : m.port = (lastValue .port items).getD conf.port
  host : m.host = ((lastValue .host items).map qt.fromUtf8).getD conf.host
  nameClient : m.nameClient = ((lastValue .nameClient items).map qt.fromUtf8).getD conf.nameClient

/-- The loop ends with the settings as typed, and nothing happens at a value. -/
structure MeansTyped (qt : Qt Image) (items : List (Item Setting Empty QByteArray)) : Prop where
  settings : ∀ conf, ∃ m, loop qt conf (typed spelling items) = some m ∧ AsTyped qt items conf m
  values : ValuesIgnored (fun m argv_i next => some (turn qt m argv_i next)) spelling items

/-- The assignment of one option. -/
def set (qt : Qt Image) (m : Options) (next : Option QByteArray) : Setting → Options
  | .disp => { m with disp := next.getD [] }
  | .port => { m with port := next.getD [] }
  | .host => { m with host := (next.map qt.fromUtf8).getD [] }
  | .nameClient => { m with nameClient := (next.map qt.fromUtf8).getD [] }

theorem turn_pair (m : Options) (setting : Setting) (long : Bool) (next : Option QByteArray) :
    turn qt m (spelling.pair setting long) next = set qt m next setting := by
  cases setting <;> cases long <;> rfl

theorem turn_help {word : QByteArray} (help : IsHelp word) (m : Options)
    (next : Option QByteArray) : turn qt m word next = { m with helps := m.helps + 1 } := by
  rcases help with rfl | rfl | rfl <;> rfl

theorem turn_other {word : QByteArray} (other : ¬ OptionWord word) (m : Options)
    (next : Option QByteArray) : turn qt m word next = m := by
  have unlike (setting : Setting) (long : Bool) : word ≠ spelling.pair setting long :=
    fun same => other (.inr ⟨setting, long, same⟩)
  have noHelp : ¬ IsHelp word := fun help => other (.inl help)
  have disp := not_or.mpr ⟨unlike .disp false, unlike .disp true⟩
  have port := not_or.mpr ⟨unlike .port false, unlike .port true⟩
  have host := not_or.mpr ⟨unlike .host false, unlike .host true⟩
  have name := not_or.mpr ⟨unlike .nameClient false, unlike .nameClient true⟩
  unfold turn
  rw [if_neg noHelp]
  simp only [spelling, Bool.false_eq_true, if_true, if_false] at disp port host name
  simp only [disp, port, host, name, if_false]

/-- A turn that does nothing, whatever the settings, is at no option word. -/
theorem not_optionWord {word : QByteArray} {next : Option QByteArray}
    (quiet : ∀ m, turn qt m word next = m) : ¬ OptionWord word := by
  rintro (help | ⟨setting, long, rfl⟩)
  · have printed := congrArg Options.helps (quiet ⟨[], [], [], [], 0⟩)
    rw [turn_help help] at printed
    cases printed
  · -- settings that are longer than what would be assigned
    have assigned := quiet ⟨0 :: next.getD [], 0 :: next.getD [],
      'x' :: (next.map qt.fromUtf8).getD [], 'x' :: (next.map qt.fromUtf8).getD [], 0⟩
    rw [turn_pair] at assigned
    cases setting <;> simp [set] at assigned

theorem asTyped_kept {conf : Options} (past : List (Item Setting Empty QByteArray))
    (item : Item Setting Empty QByteArray) (m m' : Options) (asTyped : AsTyped qt past conf m)
    (moved : ItemTurn (fun m argv_i next => some (turn qt m argv_i next)) spelling item m m') :
    AsTyped qt (past ++ [item]) conf m' := by
  cases moved with
  | @pair setting long value _ _ moved =>
    rw [turn_pair] at moved
    cases moved
    cases setting <;> constructor <;>
      simp [set, asTyped.disp, asTyped.port, asTyped.host, asTyped.nameClient]
  | @alone flag => exact flag.elim

theorem asTyped_nil (conf : Options) : AsTyped qt [] conf conf := by
  constructor <;> simp

/-- The client's settings mean what was typed exactly when no value is an option word. -/
theorem meansTyped_iff (items : List (Item Setting Empty QByteArray)) : MeansTyped qt items ↔
    ∀ setting long value, .pair setting long value ∈ items → ¬ OptionWord value := by
  constructor
  · intro means setting long value member
    obtain ⟨front, back, split⟩ := List.append_of_mem member
    have quiet (m : Options) : turn qt m value (typed spelling back).head? = m :=
      Option.some.inj (means.values front setting long value back split m)
    exact not_optionWord quiet
  · intro plain
    have ignored : ValuesIgnored (fun m argv_i next => some (turn qt m argv_i next)) spelling
        items := by
      rintro front setting long value back rfl m
      exact congrArg some (turn_other (plain setting long value (by simp)) m _)
    refine ⟨fun conf => ?_, ignored⟩
    obtain ⟨m, ends⟩ := Option.isSome_iff_exists.mp (scan_typed_isSome ignored
      (fun _ _ _ _ _ => rfl) (fun _ flag => flag.elim) conf)
    have asTyped := scan_typed (fun past m => AsTyped qt past conf m) asTyped_kept ignored
      (asTyped_nil conf) ends
    exact ⟨m, ends, asTyped⟩

end ClientMain

/-! ## The server -/

namespace ServerMain

variable {accounts : Accounts}

/-- A word that some comparison of the loop finds. -/
def OptionWord (word : QByteArray) : Prop :=
  IsHelp word ∨ IsDaemon word ∨ ∃ setting long, word = spelling.pair setting long

/-- The settings are the last values typed, or what the configuration said, and a
word alone makes the daemon. -/
structure AsTyped (items : List (Item Setting Unit QByteArray)) (conf m : Options) : Prop where
  port : m.port = (lastValue .port items).getD conf.port
  key : m.key = (lastValue .key items).getD conf.key
  cert : m.cert = (lastValue .cert items).getD conf.cert
  uid : m.uid = (lastValue .uid items).getD conf.uid
  gid : m.gid = (lastValue .gid items).getD conf.gid
  outputdest : m.outputdest = (lastValue .outputdest items).getD conf.outputdest
  daemon : m.daemon = true ↔ ∃ long, .alone () long ∈ items

/-- When the loop ends, which it does unless a typed daemon has no account, the
settings are as typed, and nothing happens at a value. -/
structure MeansTyped (items : List (Item Setting Unit QByteArray)) : Prop where
  ends : ∀ accounts conf, (∀ long, .alone () long ∈ items →
    ∀ m, (becomeDaemon accounts m).isSome = true) →
      (loop accounts conf (typed spelling items)).isSome = true
  settings : ∀ accounts conf m, conf.daemon = false →
    loop accounts conf (typed spelling items) = some m → AsTyped items conf m
  values : ∀ accounts, ValuesIgnored (turn accounts) spelling items

/-- The assignment of one option. -/
def set (m : Options) (next : Option QByteArray) : Setting → Options
  | .port => { m with port := next.getD [] }
  | .key => { m with key := next.getD [] }
  | .cert => { m with cert := next.getD [] }
  | .uid => { m with uid := next.getD [] }
  | .gid => { m with gid := next.getD [] }
  | .outputdest => { m with outputdest := next.getD [] }

theorem turn_pair (m : Options) (setting : Setting) (long : Bool) (next : Option QByteArray) :
    turn accounts m (spelling.pair setting long) next = some (set m next setting) := by
  cases setting <;> cases long <;> rfl

theorem turn_daemon {word : QByteArray} (daemon : IsDaemon word) (m : Options)
    (next : Option QByteArray) : turn accounts m word next = becomeDaemon accounts m := by
  rcases daemon with rfl | rfl <;> rfl

theorem turn_help {word : QByteArray} (help : IsHelp word) (m : Options)
    (next : Option QByteArray) : turn accounts m word next = some { m with helps := m.helps + 1 } := by
  rcases help with rfl | rfl | rfl <;> rfl

theorem turn_other {word : QByteArray} (other : ¬ OptionWord word) (m : Options)
    (next : Option QByteArray) : turn accounts m word next = some m := by
  have unlike (setting : Setting) (long : Bool) : word ≠ spelling.pair setting long :=
    fun same => other (.inr (.inr ⟨setting, long, same⟩))
  have noHelp : ¬ IsHelp word := fun help => other (.inl help)
  have noDaemon : ¬ IsDaemon word := fun daemon => other (.inr (.inl daemon))
  have port := not_or.mpr ⟨unlike .port false, unlike .port true⟩
  have key := not_or.mpr ⟨unlike .key false, unlike .key true⟩
  have cert := not_or.mpr ⟨unlike .cert false, unlike .cert true⟩
  have uid := not_or.mpr ⟨unlike .uid false, unlike .uid true⟩
  have gid := not_or.mpr ⟨unlike .gid false, unlike .gid true⟩
  have output := not_or.mpr ⟨unlike .outputdest false, unlike .outputdest true⟩
  unfold turn
  rw [if_neg noHelp, if_neg noDaemon]
  simp only [spelling, Bool.false_eq_true, if_true, if_false] at port key cert uid gid output
  simp only [port, key, cert, uid, gid, output, if_false]

/-- The accounts of a system without users. -/
def nobody : Accounts := ⟨fun _ => none, fun _ => none⟩

/-- A turn that does nothing, whatever the settings, is at no option word. -/
theorem not_optionWord {word : QByteArray} {next : Option QByteArray}
    (quiet : ∀ m, turn nobody m word next = some m) : ¬ OptionWord word := by
  rintro (help | daemon | ⟨setting, long, rfl⟩)
  · have printed := quiet ⟨[], [], [], [], [], [], false, 0, .root⟩
    rw [turn_help help] at printed
    cases printed
  · have ended := quiet ⟨[], [], [], [], [], [], false, 0, .root⟩
    rw [turn_daemon daemon] at ended
    cases ended
  · -- settings that are longer than what would be assigned
    have assigned := quiet ⟨0 :: next.getD [], 0 :: next.getD [], 0 :: next.getD [],
      0 :: next.getD [], 0 :: next.getD [], 0 :: next.getD [], false, 0, .root⟩
    rw [turn_pair] at assigned
    cases setting <;> simp [set] at assigned

theorem becomeDaemon_some {m m' : Options} (started : becomeDaemon accounts m = some m') :
    ∃ pw_uid gr_gid, accounts.getpwnam m.uid = some pw_uid ∧
      accounts.getgrnam m.gid = some gr_gid ∧
      m' = { m with daemon := true, ids := (m.ids.seteuid pw_uid).setegid gr_gid } := by
  obtain ⟨pw_uid, user, started⟩ := Option.bind_eq_some_iff.mp started
  obtain ⟨gr_gid, group, rfl⟩ := Option.map_eq_some_iff.mp started
  exact ⟨pw_uid, gr_gid, user, group, rfl⟩

theorem spelling_daemon (flag : Unit) (long : Bool) :
    IsDaemon (spelling.alone flag long : QByteArray) := by
  cases long
  · exact .inl rfl
  · exact .inr rfl

theorem asTyped_kept {conf : Options} (past : List (Item Setting Unit QByteArray))
    (item : Item Setting Unit QByteArray) (m m' : Options) (asTyped : AsTyped past conf m)
    (moved : ItemTurn (turn accounts) spelling item m m') : AsTyped (past ++ [item]) conf m' := by
  cases moved with
  | @pair setting long value _ _ moved =>
    rw [turn_pair] at moved
    cases moved
    cases setting <;> constructor <;>
      simp [set, asTyped.port, asTyped.key, asTyped.cert, asTyped.uid, asTyped.gid,
        asTyped.outputdest, asTyped.daemon]
  | @alone flag long next _ _ moved =>
    rw [turn_daemon (spelling_daemon flag long)] at moved
    obtain ⟨pw_uid, gr_gid, -, -, rfl⟩ := becomeDaemon_some moved
    constructor
    case daemon => simp
    all_goals simp [asTyped.port, asTyped.key, asTyped.cert, asTyped.uid, asTyped.gid,
      asTyped.outputdest]

theorem asTyped_nil {conf : Options} (foreground : conf.daemon = false) :
    AsTyped [] conf conf := by
  constructor <;> simp [foreground]

/-- The server's settings mean what was typed exactly when no value is an option word. -/
theorem meansTyped_iff (items : List (Item Setting Unit QByteArray)) : MeansTyped items ↔
    ∀ setting long value, .pair setting long value ∈ items → ¬ OptionWord value := by
  constructor
  · intro means setting long value member
    obtain ⟨front, back, split⟩ := List.append_of_mem member
    exact not_optionWord (means.values nobody front setting long value back split)
  · intro plain
    have ignored (accounts : Accounts) : ValuesIgnored (turn accounts) spelling items := by
      rintro front setting long value back rfl m
      exact turn_other (plain setting long value (by simp)) m _
    refine ⟨fun accounts conf starts => ?_, fun accounts conf m foreground ends => ?_, ignored⟩
    · apply scan_typed_isSome (ignored accounts)
      · intro m setting long value _
        rw [turn_pair]
        rfl
      · intro m flag long next member
        rw [turn_daemon (spelling_daemon flag long)]
        exact starts long member m
    · have asTyped := scan_typed (fun past m => AsTyped past conf m) asTyped_kept
        (ignored accounts) (asTyped_nil foreground) ends
      exact asTyped

end ServerMain

/-! ## Both programs -/

/-- The options of both programs mean what was typed exactly when no value is an
option word of the program. -/
theorem options_mean_typed_iff {Image : Type} (qt : Qt Image) :
    (∀ items, ClientMain.MeansTyped qt items ↔
      ∀ setting long value, .pair setting long value ∈ items → ¬ ClientMain.OptionWord value) ∧
    ∀ items, ServerMain.MeansTyped items ↔
      ∀ setting long value, .pair setting long value ∈ items → ¬ ServerMain.OptionWord value :=
  ⟨ClientMain.meansTyped_iff, ServerMain.meansTyped_iff⟩

/-- A camera that is called `p`. -/
theorem client_named_p : ¬ ClientMain.MeansTyped Qt.reference
    [.pair .nameClient false (literal "p"), .pair .disp false (literal "0")] := by
  intro means
  obtain ⟨m, ends, asTyped⟩ := means.settings ⟨[], literal "9600", [], [], 0⟩
  have port : m.port = literal "d" := by
    cases ends
    rfl
  rw [asTyped.port] at port
  exact absurd port (by decide +kernel)

end Videovigilancia
