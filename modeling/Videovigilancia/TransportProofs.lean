import Videovigilancia.IsolationProofs
import Videovigilancia.RoundTripProofs
import Videovigilancia.ServerProofs
import Videovigilancia.Surveillance

/-! From a connection of the camera to its session. `HasRead` says that a session of
the server has read some bytes and nothing else, which no event of another session
changes, `Follows` that the session of a connection has read the beginning of what was
written on it, and `Carries` that this is so for all connections at once. -/
namespace Videovigilancia.TransportProofs
open ClientThread IsolationProofs ReceiverProofs RoundTripProofs Runs Server StreamFraming
  StreamMachine Surveillance

variable {Image : Type} {qt : Qt Image} {c : Console Image}

/-! ## One session of the server -/

/-- The packages of a connection, in the order of their completion. -/
def packagesOf (c : Console Image) (i : Nat) : List (Completed Image) :=
  (recordedOf i c).map Recorded.package

/-- Session `i` began idle and has read these bytes. -/
def HasRead (qt : Qt Image) (c : Console Image) (i : Nat) (bytes : QByteArray) : Prop :=
  ∃ s t, c.sessions[i]? = some s ∧ t.protocol_state_ = .protocolName ∧
    (receiver qt).drain t bytes = ⟨s.thread, s.unread, packagesOf c i, false⟩

theorem HasRead.inside {i : Nat} {bytes : QByteArray} (reads : HasRead qt c i bytes) :
    i < c.sessions.length := by
  obtain ⟨s, t, found, -⟩ := reads
  exact (List.getElem?_eq_some_iff.mp found).1

/-- The session of a new connection has read nothing. -/
theorem hasRead_new (distinct : ServerProofs.Distinct c) (size count counter : Int32) :
    HasRead qt (c.step qt (.incomingConnection size count counter)) c.sessions.length [] := by
  let s : Session Image := .start (.create size count counter) c.server_
  have idle : s.thread.protocol_state_ = .protocolName := rfl
  have nothing : packagesOf (c.step qt (.incomingConnection size count counter))
      c.sessions.length = [] := by
    rw [packagesOf, List.map_eq_nil_iff, recordedOf, List.filter_eq_nil_iff]
    intro p member
    obtain ⟨s, found, -⟩ := distinct.below p member
    have := (List.getElem?_eq_some_iff.mp found).1
    simp
    omega
  refine ⟨s, s.thread, by simp [Console.step, s], idle, ?_⟩
  rw [nothing, Machine.drain_waiting (start_waits (by simp [idle]))]
  rfl

/-- A session that keeps its members and its buffer has read what it had. -/
theorem HasRead.set {i j : Nat} {bytes : QByteArray} (reads : HasRead qt c i bytes)
    {s s' : Session Image} (found : c.sessions[j]? = some s) (thread : s'.thread = s.thread)
    (unread : s'.unread = s.unread) :
    HasRead qt { c with sessions := c.sessions.set j s' } i bytes := by
  obtain ⟨s₀, t, found₀, idle, drains⟩ := reads
  obtain ⟨inside, -⟩ := List.getElem?_eq_some_iff.mp found
  by_cases same : j = i
  · subst same
    rw [found] at found₀
    cases found₀
    refine ⟨s', t, List.getElem?_set_self inside, idle, ?_⟩
    rw [drains, thread, unread]
    rfl
  · exact ⟨s₀, t, (List.getElem?_set_ne same).trans found₀, idle, drains⟩

/-- What session `i` has read changes only with a packet for it. -/
theorem HasRead.step {i : Nat} {bytes : QByteArray} (reads : HasRead qt c i bytes)
    (event : Server.Event) (other : ∀ packet today, event ≠ .received i packet today) :
    HasRead qt (c.step qt event) i bytes := by
  have inside := reads.inside
  cases event with
  | incomingConnection size count counter =>
    obtain ⟨s, t, found, idle, drains⟩ := reads
    exact ⟨s, t, (List.getElem?_append_left inside).trans found, idle, drains⟩
  | received j packet today =>
    have elsewhere : j ≠ i := by
      rintro rfl
      exact other packet today rfl
    simp only [Console.step]
    split
    · exact reads
    · rename_i sender present
      split
      · obtain ⟨s, t, found, idle, drains⟩ := reads
        refine ⟨s, t, (List.getElem?_set_ne elsewhere).trans found, idle, drains.trans ?_⟩
        have silent := filter_theirs elsewhere (recorded_connection qt sender j packet today)
          c.recorded
        rw [packagesOf, packagesOf, recordedOf, recordedOf, silent]
      · exact reads
  | closed j =>
    simp only [Console.step]
    split
    · exact reads
    · rename_i s found
      split
      · exact reads.set found rfl rfl
      · exact reads
  | deferredDelete j =>
    simp only [Console.step]
    split
    · exact reads
    · rename_i s found
      split
      · exact reads.set found rfl rfl
      · exact reads
  | sighup =>
    obtain ⟨s, t, found, idle, drains⟩ := reads
    refine ⟨_, t, (List.getElem?_map ..).trans (congrArg _ found), idle, drains.trans ?_⟩
    dsimp only
    split <;> rfl

/-- The packages a turn of session `i` records. -/
theorem packagesOf_turn (s : Session Image) (i : Nat) (packet : QByteArray) (today : Nat → QDate) :
    ((s.recorded qt i packet today).filter fun p => p.connection = i).map Recorded.package =
      (readByProtocol qt s.thread (s.unread ++ packet)).completed := by
  have own := recorded_connection qt s i packet today
  rw [List.filter_eq_self.mpr fun p member => by simpa using own p member, Session.recorded,
    List.map_map]
  exact List.zipIdx_map_fst 0 _

/-- A packet adds its bytes, unless they are malformed. -/
theorem HasRead.received {i : Nat} {bytes packet : QByteArray} {today : Nat → QDate}
    (reads : HasRead qt c i bytes) {s : Session Image} (found : c.sessions[i]? = some s)
    (receives : s.running = true ∧ s.destroyed = false)
    (clean : ∀ t : ClientThread Image, t.protocol_state_ = .protocolName →
      ((receiver qt).drain t (bytes ++ packet)).failed = false) :
    HasRead qt (c.step qt (.received i packet today)) i (bytes ++ packet) := by
  obtain ⟨s₀, t, found₀, idle, drains⟩ := reads
  rw [found] at found₀
  cases found₀
  obtain ⟨inside, -⟩ := List.getElem?_eq_some_iff.mp found
  have going := clean t idle
  rw [Machine.drain_append, drains] at going
  simp only [Bool.false_eq_true, ↓reduceIte, after_failed] at going
  have turn : readByProtocol qt s.thread (s.unread ++ packet) =
    reading ((receiver qt).drain s.thread (s.unread ++ packet)) := readByProtocol_drains _ _
  have stepped : c.step qt (.received i packet today) = { c with
      sessions := c.sessions.set i (s.receive qt packet)
      recorded := c.recorded ++ s.recorded qt i packet today } := by
    simp [Console.step, found, receives]
  refine ⟨s.receive qt packet, t, ?_, idle, ?_⟩
  · rw [stepped]
    exact List.getElem?_set_self inside
  · have recorded : packagesOf (c.step qt (.received i packet today)) i =
        packagesOf c i ++ ((receiver qt).drain s.thread (s.unread ++ packet)).outputs := by
      rw [stepped, packagesOf, recordedOf, List.filter_append, List.map_append, packagesOf_turn, turn]
      rfl
    rw [Machine.drain_append, drains, recorded]
    simp [Session.receive, turn, reading, going, Outcome.after]

/-! ## One connection -/

/-- A package that is written and can be read back. -/
structure Deliverable (c : Capture) : Prop extends c.Sendable where
  plain_name : c.clientName_.Plain
  rect_count : c.boundingRects.length < 2 ^ 31

/-- The packages of a stream that end within its first bytes, as they are stored. -/
def arrived (qt : Qt Image) (packages : List Capture) (read : Nat) :
    List (QString × QString × Option Image × List QRect) :=
  endedWithin read (packages.map fun c => (c.motionDetected true, meaning qt c))

/-- An idle receiver completes of any beginning of a stream what ends in it. -/
theorem stream_drained (utf8 : qt.DecodesUtf8) {packages : List Capture}
    (deliverable : ∀ c ∈ packages, Deliverable c) {t : ClientThread Image}
    (idle : t.protocol_state_ = .protocolName) {bytes : QByteArray} (cut : bytes <+: sent packages) :
    ((receiver qt).drain t bytes).failed = false ∧
      ((receiver qt).drain t bytes).outputs.map view = arrived qt packages bytes.length := by
  let frames := packages.map fun c => (c.motionDetected true, meaning qt c)
  have accepts : ∀ frame ∈ frames, ∀ s : ClientThread Image, s.protocol_state_ = .protocolName →
      ∃ s' o, Accepts (receiver qt) s frame.1 s' o ∧ view o = frame.2 ∧
        s'.protocol_state_ = .protocolName := by
    intro frame member s idle
    obtain ⟨c, present, rfl⟩ := List.mem_map.mp member
    have here := deliverable c present
    exact capture_accepted utf8 here.toSendable here.plain_name here.rect_count idle
  have stream : (frames.map Prod.fst).flatten = sent packages := by
    simp [frames, sent, Function.comp_def]
  obtain ⟨going, ended, -⟩ := drain_frames (p := bytes) (fun s => s.protocol_state_ = .protocolName)
    view frames accepts idle (fun s idle => start_waits (by simp [idle])) (by rwa [stream])
  exact ⟨going, ended⟩

/-- The session of a connection has read the beginning of its stream. -/
structure Follows (qt : Qt Image) (c : Console Image) (link : Link) : Prop where
  deliverable : ∀ p ∈ link.packages, Deliverable p
  within : link.read ≤ link.stream.length
  unread : link.session = none → link.read = 0
  reads : ∀ i, link.session = some i → HasRead qt c i (link.stream.take link.read)

variable {link : Link}

theorem follows_new : Follows qt c .new :=
  ⟨by simp [Link.new], Nat.zero_le _, fun _ => rfl, by simp [Link.new]⟩

/-- What is written behind the bytes that were read does not touch them. -/
theorem Follows.write (follows : Follows qt c link) {p : Capture} (deliverable : Deliverable p) :
    Follows qt c (link.write p) := by
  have stream : (link.write p).stream = link.stream ++ p.motionDetected true := by
    simp [Link.write, Link.stream]
  constructor
  · intro other member
    rcases List.mem_append.mp member with old | new
    · exact follows.deliverable other old
    · exact List.mem_singleton.mp new ▸ deliverable
  · rw [stream, List.length_append]
    exact follows.within.trans (Nat.le_add_right _ _)
  · exact follows.unread
  · intro i session
    have same : (link.write p).stream.take link.read = link.stream.take link.read := by
      rw [stream, List.take_append_of_le_length follows.within]
    exact same ▸ follows.reads i session

theorem Follows.step (follows : Follows qt c link) (event : Server.Event)
    (other : ∀ i, link.session = some i → ∀ packet today, event ≠ .received i packet today) :
    Follows qt (c.step qt event) link :=
  ⟨follows.deliverable, follows.within, follows.unread, fun i session =>
    (follows.reads i session).step event (other i session)⟩

theorem Follows.accept (follows : Follows qt c link) (distinct : ServerProofs.Distinct c)
    (fresh : link.session = none) (size count counter : Int32) :
    Follows qt (c.step qt (.incomingConnection size count counter))
      { link with session := some c.sessions.length } := by
  refine ⟨follows.deliverable, follows.within, by simp, fun i session => ?_⟩
  cases session
  have nothing : link.stream.take link.read = [] := by rw [follows.unread fresh, List.take_zero]
  exact nothing ▸ hasRead_new distinct size count counter

/-- The session has recorded what ends in the bytes it has read. -/
theorem Follows.recorded (follows : Follows qt c link) (utf8 : qt.DecodesUtf8) {i : Nat}
    (session : link.session = some i) :
    (packagesOf c i).map view = arrived qt link.packages link.read := by
  obtain ⟨thread, t, -, idle, drains⟩ := follows.reads i session
  obtain ⟨-, ended⟩ := stream_drained utf8 follows.deliverable idle
    (List.take_prefix link.read link.stream)
  rwa [drains, List.length_take, Nat.min_eq_left follows.within] at ended

/-- All packages of a stream end in it. -/
theorem arrived_all (qt : Qt Image) (link : Link) :
    arrived qt link.packages link.stream.length = link.packages.map (meaning qt) := by
  have whole := endedWithin_all (link.packages.map fun c => (c.motionDetected true, meaning qt c))
  simpa [arrived, Function.comp_def, Link.stream] using whole

/-- The next bytes of the stream reach a session that receives. -/
theorem Follows.packet (follows : Follows qt c link) (utf8 : qt.DecodesUtf8) {i : Nat}
    (session : link.session = some i) {s : Session Image} (found : c.sessions[i]? = some s)
    (receives : s.running = true ∧ s.destroyed = false) (size : Nat) (today : Nat → QDate) :
    let bytes := (link.stream.drop link.read).take size
    Follows qt (c.step qt (.received i bytes today))
      { link with read := link.read + bytes.length } := by
  intro bytes
  have fits : link.read + bytes.length ≤ link.stream.length := by
    have := follows.within
    simp only [bytes, List.length_take, List.length_drop]
    omega
  have more : link.stream.take (link.read + bytes.length) =
      link.stream.take link.read ++ bytes := by
    rw [List.take_add, List.append_cancel_left_eq, List.length_take, List.take_eq_take_iff]
    omega
  refine ⟨follows.deliverable, fits, by simp [session], fun j same => ?_⟩
  have known : j = i := by simpa [session] using same.symm
  subst known
  have read : Link.stream { link with read := link.read + bytes.length } = link.stream := rfl
  rw [read, more]
  refine (follows.reads j session).received found receives fun t idle => ?_
  rw [← more]
  exact (stream_drained utf8 follows.deliverable idle (List.take_prefix _ _)).1

/-- What is sent, without the time. -/
def content (c : Capture) : QString × QByteArray × List QRect :=
  (c.clientName_, c.bytes, c.boundingRects)

/-- A stored package without its time and number. -/
def picture (p : Completed Image) : QString × Option Image × List QRect :=
  (p.name_, p.last_image_, p.last_boundingboxes_)

/-- What is sent, as it is stored. -/
def loaded (qt : Qt Image) : QString × QByteArray × List QRect → QString × Option Image × List QRect
  | (name, bytes, rects) => (name, some (qt.loadJpeg bytes), rects)

/-- The picture of a package as the server sees it. -/
def pictured (v : QString × QString × Option Image × List QRect) :
    QString × Option Image × List QRect := (v.1, v.2.2.1, v.2.2.2)

/-- What a connection has stored was written on it. -/
theorem Follows.stored_sublist (follows : Follows qt c link) (utf8 : qt.DecodesUtf8) :
    ((link.session.elim [] (packagesOf c)).map picture).Sublist
      (link.packages.map fun c => loaded qt (content c)) := by
  cases session : link.session with
  | none => simp
  | some i =>
    have stored : (packagesOf c i).map picture = (arrived qt link.packages link.read).map pictured := by
      rw [← follows.recorded utf8 session, List.map_map]
      rfl
    have first := (endedWithin_cut link.read
      (link.packages.map fun c => (c.motionDetected true, meaning qt c))).sublist.map pictured
    rw [Option.elim_some, stored]
    simpa [arrived, Function.comp_def, meaning, loaded, content, pictured] using first

/-! ## All connections -/

/-- The sessions of all connections have read beginnings of their streams, and no
session belongs to two connections. -/
structure Carries (qt : Qt Image) (c : Console Image) (links : List Link) : Prop where
  distinct : ServerProofs.Distinct c
  follows : ∀ {k : Nat} {link : Link}, links[k]? = some link → Follows qt c link
  apart : ∀ {k l : Nat} {a b : Link} {i : Nat}, links[k]? = some a → links[l]? = some b →
    a.session = some i → b.session = some i → k = l

variable {links : List Link}

/-- An entry of a list in which one entry was changed. -/
theorem found_modify {k l : Nat} {f : Link → Link} (found : (links.modify k f)[l]? = some link) :
    ∃ old, links[l]? = some old ∧ (if k = l then f old else old) = link := by
  rw [List.getElem?_modify] at found
  exact Option.map_eq_some_iff.mp found

/-- One connection changes, and keeps its session or gets one that is new. -/
theorem Carries.modify {c' : Console Image} (carries : Carries qt c links)
    (distinct : ServerProofs.Distinct c') {k : Nat} {f : Link → Link}
    (here : ∀ link, links[k]? = some link → Follows qt c' (f link))
    (others : ∀ (l : Nat) link, k ≠ l → links[l]? = some link → Follows qt c' link)
    (session : ∀ link i, links[k]? = some link → (f link).session = some i →
      link.session = some i ∨ c.sessions.length ≤ i) : Carries qt c' (links.modify k f) where
  distinct := distinct
  follows := by
    intro l link found
    obtain ⟨old, present, rfl⟩ := found_modify found
    split
    · rename_i same
      exact here old (same ▸ present)
    · rename_i other
      exact others l old other present
  apart := by
    have known {l : Nat} {link : Link} {i : Nat} (found : (links.modify k f)[l]? = some link)
        (mine : link.session = some i) : ∃ old, links[l]? = some old ∧
          (old.session = some i ∨ k = l ∧ c.sessions.length ≤ i) := by
      obtain ⟨old, present, rfl⟩ := found_modify found
      refine ⟨old, present, ?_⟩
      split at mine
      · rename_i same
        exact (session old i (same ▸ present) mine).imp_right fun new => ⟨same, new⟩
      · exact .inl mine
    intro l m a b i first second mine mine'
    obtain ⟨old, present, mine⟩ := known first mine
    obtain ⟨old', present', mine'⟩ := known second mine'
    rcases mine with mine | ⟨rfl, new⟩ <;> rcases mine' with mine' | ⟨rfl, new'⟩
    · exact carries.apart present present' mine mine'
    · have := ((carries.follows present).reads i mine).inside
      omega
    · have := ((carries.follows present').reads i mine').inside
      omega
    · rfl

/-- An event of the server that is no packet for the camera's connections. -/
theorem Carries.step (carries : Carries qt c links) (event : Server.Event)
    (other : ∀ (k : Nat) link i, links[k]? = some link → link.session = some i →
      ∀ packet today, event ≠ .received i packet today) : Carries qt (c.step qt event) links where
  distinct := carries.distinct.step event
  follows found := (carries.follows found).step event (other _ _ · found)
  apart := carries.apart

theorem Carries.dial (carries : Carries qt c links) (n : Nat) :
    Carries qt c (links ++ List.replicate n .new) where
  distinct := carries.distinct
  follows := by
    intro k link found
    rcases List.mem_append.mp (List.mem_of_getElem? found) with old | new
    · obtain ⟨l, present⟩ := List.getElem?_of_mem old
      exact carries.follows present
    · rw [List.eq_of_mem_replicate new]
      exact follows_new
  apart := by
    have known {k : Nat} {link : Link} {i : Nat}
        (found : (links ++ List.replicate n .new)[k]? = some link) (mine : link.session = some i) :
        links[k]? = some link := by
      rw [List.getElem?_append] at found
      split at found
      · exact found
      · have new := List.eq_of_mem_replicate (List.mem_of_getElem? found)
        simp [new, Link.new] at mine
    intro k l a b i first second mine mine'
    exact carries.apart (known first mine) (known second mine') mine mine'

theorem Carries.write (carries : Carries qt c links) (k : Nat) {p : Capture}
    (deliverable : Deliverable p) : Carries qt c (links.modify k (Link.write p)) :=
  carries.modify carries.distinct (fun _ found => (carries.follows found).write deliverable)
    (fun _ _ _ found => carries.follows found) fun _ _ _ mine => .inl mine

theorem Carries.accept (carries : Carries qt c links) {k : Nat} (found : links[k]? = some link)
    (fresh : link.session = none) (size count counter : Int32) :
    Carries qt (c.step qt (.incomingConnection size count counter))
      (links.modify k fun link => { link with session := some c.sessions.length }) := by
  refine carries.modify (carries.distinct.step _) (fun other present => ?_)
    (fun l other _ present => (carries.follows present).step _ fun _ _ _ _ => by simp)
    fun other i present mine => .inr (Option.some.inj mine).le
  rw [found] at present
  cases present
  exact (carries.follows found).accept carries.distinct fresh size count counter

theorem Carries.packet (carries : Carries qt c links) (utf8 : qt.DecodesUtf8) {k i : Nat}
    (found : links[k]? = some link) (session : link.session = some i) {s : Session Image}
    (present : c.sessions[i]? = some s) (receives : s.running = true ∧ s.destroyed = false)
    (size : Nat) (today : Nat → QDate) :
    let bytes := (link.stream.drop link.read).take size
    Carries qt (c.step qt (.received i bytes today))
      (links.modify k fun link => { link with read := link.read + bytes.length }) := by
  intro bytes
  refine carries.modify (carries.distinct.step _) (fun other here => ?_)
    (fun l other elsewhere there => ?_) fun _ _ _ mine => .inl mine
  · rw [found] at here
    cases here
    exact (carries.follows found).packet utf8 session present receives size today
  · refine (carries.follows there).step _ fun j mine packet day same => ?_
    injection same with same
    exact elsewhere (carries.apart found there session (same ▸ mine))

end Videovigilancia.TransportProofs
