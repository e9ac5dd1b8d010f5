import Videovigilancia.CompletionProofs
import Videovigilancia.GlpPackage
import Videovigilancia.PathProofs
import Videovigilancia.ServerConsole
import Videovigilancia.Runs

/-! Runs of the recorder: which thread objects are destroyed, and under which
paths the packages of all connections are saved. -/
namespace Videovigilancia.ServerProofs
open Server Console Runs

variable {Image : Type} {qt : Qt Image} {c : Console Image}

/-! ## What an event can do -/

/-- What becomes of session `i` in one event, with the packages it completes. -/
inductive Turn (qt : Qt Image) (i : Nat) (s : Session Image) :
    Session Image → List (Recorded Image) → Prop where
  | received (packet : QByteArray) (today : Nat → QDate) :
      Turn qt i s (s.receive qt packet) (s.recorded qt i packet today)
  | closed : Turn qt i s s.finish []
  | deleted (posted : s.deletePosted = true) : Turn qt i s s.destroy []

/-- An event other than SIGHUP does nothing, adds a session, or is the turn of one. -/
inductive Changes (qt : Qt Image) (c : Console Image) : Console Image → Prop where
  | nothing : Changes qt c c
  | added (size count counter : Int32) : Changes qt c
      { c with sessions := c.sessions ++ [.start (.create size count counter) c.server_] }
  | turned {i : Nat} {s s' : Session Image} {new : List (Recorded Image)}
      (found : c.sessions[i]? = some s) (turn : Turn qt i s s' new) : Changes qt c
      { c with sessions := c.sessions.set i s', recorded := c.recorded ++ new }

theorem step_changes (qt : Qt Image) (c : Console Image) {event : Event} (other : event ≠ .sighup) :
    Changes qt c (c.step qt event) := by
  cases event with
  | incomingConnection size count counter => exact .added size count counter
  | sighup => exact absurd rfl other
  | received i packet today =>
    simp only [step]
    split
    · exact .nothing
    · rename_i s found
      split
      · exact .turned found (.received packet today)
      · exact .nothing
  | closed i =>
    simp only [step]
    split
    · exact .nothing
    · rename_i s found
      split
      · have turned : Changes qt c _ := .turned found .closed
        simpa using turned
      · exact .nothing
  | deferredDelete i =>
    simp only [step]
    split
    · exact .nothing
    · rename_i s found
      split
      · rename_i posted
        have turned : Changes qt c _ := .turned found (.deleted posted)
        simpa using turned
      · exact .nothing

/-- What holds of every session still holds when a new one has it and every turn
keeps it. -/
theorem Changes.sessions {good : Session Image → Prop} {c' : Console Image}
    (changes : Changes qt c c') (all : ∀ s ∈ c.sessions, good s)
    (start : ∀ size count counter, good (.start (.create size count counter) c.server_))
    (turns : ∀ {i s s' new}, Turn qt i s s' new → good s → good s') :
    ∀ s ∈ c'.sessions, good s := by
  cases changes with
  | nothing => exact all
  | added size count counter =>
    intro s member
    rcases List.mem_append.mp member with old | new
    · exact all s old
    · rw [List.mem_singleton.mp new]
      exact start size count counter
  | turned found turn =>
    intro s member
    rcases List.mem_or_eq_of_mem_set member with old | rfl
    · exact all s old
    · exact turns turn (all _ (List.mem_of_getElem? found))

theorem Changes.recorded {good : Recorded Image → Prop} {c' : Console Image}
    (changes : Changes qt c c') (all : ∀ p ∈ c.recorded, good p)
    (turns : ∀ {i s s' new}, c.sessions[i]? = some s → Turn qt i s s' new → ∀ p ∈ new, good p) :
    ∀ p ∈ c'.recorded, good p := by
  cases changes with
  | nothing => exact all
  | added size count counter => exact all
  | turned found turn =>
    intro p member
    rcases List.mem_append.mp member with old | new
    · exact all p old
    · exact turns found turn p new

theorem Changes.server {c' : Console Image} (changes : Changes qt c c') :
    c'.server_ = c.server_ := by
  cases changes <;> rfl

/-! ## Destruction -/

/-- No object was destroyed while its `run()` had not returned. -/
def NoneDestroyedRunning (c : Console Image) : Prop :=
  ∀ s ∈ c.sessions, s.destroyed = true → s.running = false

/-- SIGHUP arrives when no thread is running. -/
def hupGuard (c : Console Image) : Event → Prop
  | .sighup => ∀ s ∈ c.sessions, s.running = false
  | _ => True

/-- A living thread belongs to the present server, and deletion is posted only
behind the end of `run()`. -/
structure WellOwned (server_ : Nat) (s : Session Image) : Prop where
  safe : s.destroyed = true → s.running = false
  owner : s.destroyed = false → s.parent = server_
  posted : s.deletePosted = true → s.running = false

theorem WellOwned.start (thread : ClientThread Image) (server_ : Nat) :
    WellOwned server_ (.start thread server_) where
  safe gone := by simp [Session.start] at gone
  owner _ := rfl
  posted waits := by simp [Session.start] at waits

theorem WellOwned.finish {server_ : Nat} {s : Session Image} (owned : WellOwned server_ s) :
    WellOwned server_ s.finish :=
  ⟨fun _ => rfl, owned.owner, fun _ => rfl⟩

theorem WellOwned.receive {server_ : Nat} {s : Session Image} (owned : WellOwned server_ s)
    (packet : QByteArray) : WellOwned server_ (s.receive qt packet) := by
  rw [Session.receive]
  split
  · exact ⟨fun _ => rfl, owned.owner, fun _ => rfl⟩
  · exact ⟨owned.safe, owned.owner, owned.posted⟩

theorem WellOwned.destroy {server_ : Nat} {s : Session Image} (owned : WellOwned server_ s)
    (posted : s.deletePosted = true) : WellOwned server_ s.destroy :=
  ⟨fun _ => owned.posted posted, fun living => by simp [Session.destroy] at living, owned.posted⟩

theorem WellOwned.turn {server_ i : Nat} {s s' : Session Image} {new : List (Recorded Image)}
    (owned : WellOwned server_ s) (turn : Turn qt i s s' new) : WellOwned server_ s' := by
  cases turn with
  | received packet today => exact owned.receive packet
  | closed => exact owned.finish
  | deleted posted => exact owned.destroy posted

theorem owned_step (owned : ∀ s ∈ c.sessions, WellOwned c.server_ s) {event : Event}
    (guarded : hupGuard c event) :
    ∀ s ∈ (c.step qt event).sessions, WellOwned (c.step qt event).server_ s := by
  by_cases hup : event = .sighup
  · subst hup
    intro s' member
    obtain ⟨s, present, rfl⟩ := List.mem_map.mp member
    have stopped := guarded s present
    split
    · exact ⟨fun _ => stopped, fun living => by simp [Session.destroy] at living, fun _ => stopped⟩
    · rename_i foreign
      exact ⟨fun _ => stopped, fun living => absurd ((owned s present).owner living) foreign,
        fun _ => stopped⟩
  · have changes := step_changes qt c hup
    rw [changes.server]
    exact changes.sessions owned (fun _ _ _ => WellOwned.start _ _) fun turn owned => owned.turn turn

/-- SIGHUP destroys every thread that is still running. -/
theorem destroyed_running (owned : ∀ s ∈ c.sessions, WellOwned c.server_ s) {event : Event}
    (unguarded : ¬ hupGuard c event) : ¬ NoneDestroyedRunning (c.step qt event) := by
  cases event with
  | sighup =>
    simp only [hupGuard, not_forall, Bool.not_eq_false] at unguarded
    obtain ⟨s, present, running⟩ := unguarded
    have living : s.destroyed = false := by
      by_contra gone
      simp [(owned s present).safe (by simpa using gone)] at running
    intro safe
    have destroyed : s.destroy ∈ (c.step qt .sighup).sessions :=
      List.mem_map.mpr ⟨s, present, if_pos ((owned s present).owner living)⟩
    have stopped : s.running = false := safe s.destroy destroyed rfl
    simp [stopped] at running
  | _ => exact absurd trivial unguarded

/-- In a run of the recorder no running thread is destroyed exactly when every
SIGHUP arrives while no thread is running. -/
theorem none_destroyed_running_iff (qt : Qt Image) (events : List Event) :
    Throughout (step qt) NoneDestroyedRunning new events ↔ Meets (step qt) hupGuard new events :=
  throughout_iff_meets (fun c : Console Image => ∀ s ∈ c.sessions, WellOwned c.server_ s)
    (fun _ owned s present => (owned s present).safe)
    (fun _ _ owned guarded => owned_step owned guarded)
    (fun _ _ owned unguarded => destroyed_running owned unguarded) (by simp [new]) events

/-- SIGHUP while one client is connected. -/
theorem running_destroyed_by_sighup : ¬ Throughout (step Qt.reference) NoneDestroyedRunning new
    [.incomingConnection 0 0 0, .sighup] := by
  intro always
  have stopped := always.last _ (List.mem_singleton_self _) rfl
  cases stopped

/-! ## Paths -/

/-- The file a package is saved as, by the names that its path leads through. -/
def file (destination : QString) (p : Recorded Image) : List QString :=
  Paths.resolve '/' '.' (p.package.fullpath (outputDestination destination) p.today)

/-- The folder that the name of a package leads to on its day, the end of the name, the
date, and the number of the package in its connection as an `int` counts it. -/
def frame (destination : QString) (p : Recorded Image) : List QString × QString × QDate × Nat :=
  (PathProofs.imageFolder (outputDestination destination) p.package.name_ p.today,
    Paths.last '/' (ImagePath.clientName p.package.name_), p.today, p.number % 2 ^ 32)

/-- The thread's frame counter is the number of the packages it completed. -/
def Counted (s : Session Image) : Prop := s.thread.frameCounter_ = Int32.ofNat s.packages

/-- The package holds its number as its frame counter. -/
def HoldsNumber (p : Recorded Image) : Prop := p.package.frameCounter_ = Int32.ofNat p.number

/-- Frame counters are the numbers of the packages in their connections. -/
structure Numbered (c : Console Image) : Prop where
  sessions : ∀ s ∈ c.sessions, Counted s
  recorded : ∀ p ∈ c.recorded, HoldsNumber p

theorem Counted.receive {s : Session Image} (counted : Counted s) (packet : QByteArray) :
    Counted (s.receive qt packet) := by
  have numbered := (CompletionProofs.frames_numbered qt (s.unread ++ packet) counted).2
  rw [Session.receive]
  split <;> exact numbered

theorem Counted.recorded {s : Session Image} (counted : Counted s) (connection : Nat)
    (packet : QByteArray) (today : Nat → QDate) :
    ∀ p ∈ s.recorded qt connection packet today, HoldsNumber p := by
  have numbered := (CompletionProofs.frames_numbered qt (s.unread ++ packet) counted).1
  intro p member
  obtain ⟨⟨package, i⟩, entry, rfl⟩ := List.mem_map.mp member
  have found := List.mk_mem_zipIdx_iff_getElem?.mp entry
  obtain ⟨inside, rfl⟩ := List.getElem?_eq_some_iff.mp found
  have same := congrArg (fun l => l[i]?) numbered
  simpa [HoldsNumber, inside] using same

/-- A turn counts the packages it completes and hands over their numbers. -/
theorem Counted.turn {i : Nat} {s s' : Session Image} {new : List (Recorded Image)}
    (counted : Counted s) (turn : Turn qt i s s' new) :
    Counted s' ∧ ∀ p ∈ new, HoldsNumber p := by
  cases turn with
  | received packet today => exact ⟨counted.receive packet, counted.recorded i packet today⟩
  | closed => exact ⟨counted, by simp⟩
  | deleted posted => exact ⟨counted, by simp⟩

theorem Numbered.step (numbered : Numbered c) (event : Event) : Numbered (c.step qt event) := by
  by_cases hup : event = .sighup
  · subst hup
    refine ⟨fun s' member => ?_, numbered.recorded⟩
    obtain ⟨s, present, rfl⟩ := List.mem_map.mp member
    have counted := numbered.sessions s present
    split <;> exact counted
  · have changes := step_changes qt c hup
    constructor
    · exact changes.sessions numbered.sessions (fun _ _ _ => rfl) fun turn counted =>
        (counted.turn turn).1
    · exact changes.recorded numbered.recorded fun found turn =>
        ((numbered.sessions _ (List.mem_of_getElem? found)).turn turn).2

theorem numbered_run (qt : Qt Image) (events : List Event) :
    Numbered (after (step qt) new events) := by
  have always : Throughout (step qt) Numbered new events :=
    throughout_of_keeps (fun _ event numbered => numbered.step event)
      ⟨by simp [new], by simp [new]⟩ events
  exact always.last

/-- Packages are numbered in their connections from 0 on, each once. -/
structure Distinct (c : Console Image) : Prop where
  below : ∀ p ∈ c.recorded, ∃ s, c.sessions[p.connection]? = some s ∧ p.number < s.packages
  once : (c.recorded.map fun p => (p.connection, p.number)).Nodup

/-- A turn numbers on from what the session has counted. -/
theorem turn_numbers {i : Nat} {s s' : Session Image} {new : List (Recorded Image)}
    (turn : Turn qt i s s' new) : s.packages ≤ s'.packages ∧
      (∀ p ∈ new, p.connection = i ∧ s.packages ≤ p.number ∧ p.number < s'.packages) ∧
      (new.map fun p => (p.connection, p.number)).Nodup := by
  cases turn with
  | received packet today =>
    have packages : (s.receive qt packet).packages = s.packages +
        (ClientThread.readByProtocol qt s.thread (s.unread ++ packet)).completed.length := by
      rw [Session.receive]
      split <;> rfl
    rw [packages]
    refine ⟨Nat.le_add_right _ _, fun p member => ?_, ?_⟩
    · obtain ⟨⟨package, k⟩, entry, rfl⟩ := List.mem_map.mp member
      obtain ⟨inside, -⟩ :=
        List.getElem?_eq_some_iff.mp (List.mk_mem_zipIdx_iff_getElem?.mp entry)
      exact ⟨rfl, Nat.le_add_right _ _, Nat.add_lt_add_left inside _⟩
    · have numbers : (s.recorded qt i packet today).map (fun p => (p.connection, p.number)) =
          (List.range' 0 (ClientThread.readByProtocol qt s.thread
            (s.unread ++ packet)).completed.length).map fun k => (i, s.packages + k) := by
        rw [← List.zipIdx_map_snd, List.map_map, Session.recorded, List.map_map]
        rfl
      rw [numbers]
      refine List.Nodup.map (fun first second same => ?_) List.nodup_range'
      simpa using same
  | closed => exact ⟨le_rfl, by simp, List.nodup_nil⟩
  | deleted posted => exact ⟨le_rfl, by simp, List.nodup_nil⟩

/-- No event takes a session away or forgets what it counted. -/
theorem Changes.grow {c' : Console Image} (changes : Changes qt c c') {i : Nat} {s : Session Image}
    (found : c.sessions[i]? = some s) :
    ∃ s', c'.sessions[i]? = some s' ∧ s.packages ≤ s'.packages := by
  obtain ⟨inside, -⟩ := List.getElem?_eq_some_iff.mp found
  cases changes with
  | nothing => exact ⟨s, found, le_rfl⟩
  | added size count counter =>
    exact ⟨s, (List.getElem?_append_left inside).trans found, le_rfl⟩
  | @turned j s₁ s' new found' turn =>
    by_cases same : j = i
    · subst same
      rw [found] at found'
      cases found'
      exact ⟨s', List.getElem?_set_self inside, (turn_numbers turn).1⟩
    · exact ⟨s, (List.getElem?_set_ne same).trans found, le_rfl⟩

theorem Changes.distinct {c' : Console Image} (changes : Changes qt c c') (distinct : Distinct c) :
    Distinct c' := by
  have older (p) (member : p ∈ c.recorded) :
      ∃ s, c'.sessions[p.connection]? = some s ∧ p.number < s.packages := by
    obtain ⟨s, found, below⟩ := distinct.below p member
    obtain ⟨s', found', grown⟩ := changes.grow found
    exact ⟨s', found', below.trans_le grown⟩
  cases changes with
  | nothing => exact distinct
  | added size count counter => exact ⟨older, distinct.once⟩
  | @turned i s s' new found turn =>
    obtain ⟨-, numbers, once⟩ := turn_numbers turn
    obtain ⟨inside, -⟩ := List.getElem?_eq_some_iff.mp found
    refine ⟨fun p member => ?_, ?_⟩
    · rcases List.mem_append.mp member with old | added
      · exact older p old
      · obtain ⟨rfl, -, below⟩ := numbers p added
        exact ⟨s', List.getElem?_set_self inside, below⟩
    · rw [List.map_append, List.nodup_append]
      refine ⟨distinct.once, once, fun key present other member same => ?_⟩
      obtain ⟨p, old, rfl⟩ := List.mem_map.mp present
      obtain ⟨q, added, rfl⟩ := List.mem_map.mp member
      obtain ⟨connection, number⟩ := Prod.mk.inj same
      obtain ⟨here, above, -⟩ := numbers q added
      obtain ⟨s₀, found₀, below⟩ := distinct.below p old
      rw [connection, here, found] at found₀
      cases found₀
      omega

theorem Distinct.step (distinct : Distinct c) (event : Event) : Distinct (c.step qt event) := by
  by_cases hup : event = .sighup
  · subst hup
    refine ⟨fun p member => ?_, distinct.once⟩
    obtain ⟨s, found, below⟩ := distinct.below p member
    refine ⟨_, (List.getElem?_map ..).trans (congrArg _ found), ?_⟩
    dsimp only
    split <;> exact below
  · exact (step_changes qt c hup).distinct distinct

/-- In every run the packages of a connection are numbered, each once. -/
theorem numbers_distinct (qt : Qt Image) (events : List Event) :
    Distinct (after (step qt) new events) := by
  have always : Throughout (step qt) Distinct new events :=
    throughout_of_keeps (fun _ event distinct => distinct.step event)
      ⟨by simp [new], by simp [new]⟩ events
  exact always.last

theorem ofNat_eq_iff (a b : Nat) : Int32.ofNat a = Int32.ofNat b ↔ a % 2 ^ 32 = b % 2 ^ 32 := by
  rw [← counter_ofNat, ← counter_ofNat]
  exact ⟨fun same => by rw [same], counter_injective⟩

/-- The file of a package tells its frame and nothing more. -/
theorem file_eq_iff (destination : QString) {p q : Recorded Image}
    (counted : HoldsNumber p) (counted' : HoldsNumber q) :
    file destination p = file destination q ↔ frame destination p = frame destination q := by
  rw [HoldsNumber] at counted counted'
  rw [file, file, Completed.fullpath, Completed.fullpath, PathProofs.resolve_fullpath_inj, counted,
    counted', ofNat_eq_iff, frame, frame, Prod.mk.injEq, Prod.mk.injEq, Prod.mk.injEq]

/-- Of clients with folders of their own a frame tells the name, and that is all. -/
theorem frame_oneFolder (destination : QString) {p q : Recorded Image}
    (plain : PathProofs.OneFolder p.package.name_) (plain' : PathProofs.OneFolder q.package.name_) :
    frame destination p = frame destination q ↔
      ImagePath.clientName p.package.name_ = ImagePath.clientName q.package.name_ ∧
        p.today = q.today ∧ p.number % 2 ^ 32 = q.number % 2 ^ 32 := by
  rw [frame, frame, PathProofs.imageFolder_oneFolder destination plain,
    PathProofs.imageFolder_oneFolder destination plain',
    Paths.last_whole (PathProofs.oneFolder_clientName plain).whole,
    Paths.last_whole (PathProofs.oneFolder_clientName plain').whole]
  constructor
  · intro same
    simp only [Prod.mk.injEq] at same
    exact same.2
  · rintro ⟨name, today, number⟩
    rw [name, today, number]

/-- In a run of the recorder all packages are saved as different files exactly when no
two of them have the same date, the same number in their connections, and names that
lead to one folder and end in the same way. -/
theorem files_differ_iff (qt : Qt Image) (destination : QString) (events : List Event) :
    ((after (step qt) new events).recorded.map (file destination)).Nodup ↔
      ((after (step qt) new events).recorded.map (frame destination)).Nodup := by
  have numbered := (numbered_run qt events).recorded
  rw [List.Nodup, List.Nodup, List.pairwise_map, List.pairwise_map]
  exact ⟨fun apart => apart.imp_of_mem fun first second differ same =>
      differ ((file_eq_iff destination (numbered _ first) (numbered _ second)).mpr same),
    fun apart => apart.imp_of_mem fun first second differ same =>
      differ ((file_eq_iff destination (numbered _ first) (numbered _ second)).mp same)⟩

/-- A camera that connects twice on one day, the second time under this name. -/
def twice (name : QString) : List Event :=
  [.incomingConnection 0 0 0, .received 0 (Capture.sample.motionDetected true) fun _ => .newYear,
    .closed 0, .incomingConnection 0 0 0,
    .received 1 ({ Capture.sample with clientName_ := name }.motionDetected true) fun _ => .newYear]

/-- The second frame is saved over the first one: under the same name it has the same path,
and under another name for the same folder it has a path to the same file. -/
theorem frame_overwritten :
    ¬ ((after (step Qt.reference) new (twice "cam".toList)).recorded.map fun p =>
        p.package.fullpath (outputDestination ['/']) p.today).Nodup ∧
      ¬ ((after (step Qt.reference) new (twice "cam".toList)).recorded.map (file ['/'])).Nodup ∧
      ¬ ((after (step Qt.reference) new (twice "./cam".toList)).recorded.map (file ['/'])).Nodup := by
  decide +kernel

end Videovigilancia.ServerProofs
