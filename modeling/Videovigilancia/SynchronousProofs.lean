import Videovigilancia.PathProofs
import Videovigilancia.Polling
import Videovigilancia.RoundTripProofs
import Videovigilancia.Runs
import Videovigilancia.ServerProofs
import Videovigilancia.Synchronous

/-! The recorder without threads beside the one with them. It reads the same packages,
but one line for each notification, so that it completes at most one package in seven
of them and what it lacks piles up unread. Its one counter keeps all files apart, which
the counters of the threads do not. -/
namespace Videovigilancia.SynchronousProofs
open ImagePath PathProofs Paths ReceiverProofs RoundTripProofs StreamMachine StreamMachine.Machine
open Runs Synchronous

variable {Image : Type} {qt : Qt Image}

/-! ## Seven notifications for a package -/

/-- The lines and the image that were read of a package before its rectangles. -/
def stage : ProtocolState → Nat
  | .protocolName => 0
  | .clientName => 1
  | .timestamp => 2
  | .imageSize => 3
  | .image => 4
  | .bbCount => 5
  | .boundingRects => 6

/-- A case that goes one stage further at most, and completes at the last one only. -/
def Advances (c : Client Image) (turn : Client Image × Signal) : Prop :=
  stage turn.1.protocol_state_ + (if turn.2 = .receivedCompletePackage then 7 else 0) ≤
    stage c.protocol_state_ + 1

theorem advances_idle (c : Client Image) : Advances c (c, .silent) := by
  simp [Advances]

theorem advances_line {c : Client Image} {use : QByteArray → Client Image × Signal}
    (each : ∀ line, Advances c (use line)) (buffer : QByteArray) :
    Advances c (c.lineCase buffer use).1 := by
  rw [Client.lineCase]
  split
  · exact each _
  · exact advances_idle c

theorem advances_rects {c : Client Image} (state : c.protocol_state_ = .boundingRects)
    (data : QByteArray) : Advances c (Client.boundingRectsCase qt c data) := by
  rw [Client.boundingRectsCase]
  split
  · dsimp only
    split <;> simp [Advances, stage, state]
  · simp [Advances, stage, state]

theorem readByProtocol_advances (qt : Qt Image) (c : Client Image) (buffer : QByteArray) :
    Advances c (c.readByProtocol qt buffer).1 := by
  rw [Client.readByProtocol]
  split
  · rename_i state
    refine advances_line (fun line => ?_) buffer
    rw [Client.protocolNameCase]
    split <;> simp [Advances, stage, state]
  · rename_i state
    exact advances_line (fun line => by simp [Advances, Client.clientNameCase, stage, state]) buffer
  · rename_i state
    exact advances_line (fun line => by simp [Advances, Client.timestampCase, stage, state]) buffer
  · rename_i state
    exact advances_line (fun line => by simp [Advances, Client.imageSizeCase, stage, state]) buffer
  · rename_i state
    split
    · simp [Advances, Client.imageCase, stage, state]
    · exact advances_idle c
  · rename_i state
    exact advances_line (fun line => by simp [Advances, Client.bbCountCase, stage, state]) buffer
  · rename_i state
    exact advances_line (advances_rects state) buffer

theorem readyRead_advances (qt : Qt Image) (k : Connection Image) (packet : QByteArray) :
    7 * (k.readyRead qt packet).1.completed.length +
        stage (k.readyRead qt packet).1.client.protocol_state_ ≤
      7 * k.completed.length + stage k.client.protocol_state_ + 1 := by
  have advances := readByProtocol_advances qt k.client (k.unread ++ packet)
  simp only [Connection.readyRead]
  generalize k.client.readByProtocol qt (k.unread ++ packet) = turn at *
  obtain ⟨⟨client, signal⟩, unread⟩ := turn
  simp only [Advances] at advances ⊢
  split at advances
  · rename_i complete
    rw [if_pos complete, List.length_append, List.length_singleton]
    omega
  · rename_i incomplete
    rw [if_neg incomplete]
    omega

/-- However many packages are there to read, every seventh notification completes one
at most. -/
theorem receive_advances (qt : Qt Image) (k : Connection Image) (packets : List QByteArray) :
    7 * (k.receive qt packets).1.completed.length +
        stage (k.receive qt packets).1.client.protocol_state_ ≤
      7 * k.completed.length + stage k.client.protocol_state_ + packets.length := by
  induction packets generalizing k with
  | nil => simp [Connection.receive]
  | cons packet packets ih =>
    have now := readyRead_advances qt k packet
    have later := ih (k.readyRead qt packet).1
    rw [List.length_cons]
    simp only [Connection.receive]
    split <;> omega

/-! ## The same packages -/

/-- The members of a thread that a client has, too. -/
def ofThread (t : ClientThread Image) : Client Image :=
  ⟨t.protocol_state_, t.next_image_size_, t.next_bb_count_, t.bb_counter_, t.last_boundingboxes_,
    t.name_, t.last_timestamp_, t.protocolName_, t.last_image_⟩

/-- A package as the members of a client hold it. -/
def package (c : Client Image) : QString × QString × Option Image × List QRect :=
  (c.name_, c.last_timestamp_, c.last_image_, c.last_boundingboxes_)

/-- A `switch` of the thread that rejects nothing and drops no package. -/
structure Regular (qt : Qt Image) (t : ClientThread Image) (buffer : QByteArray) : Prop where
  going : (ClientThread.switchCase qt t buffer).1.error = false
  kept : t.protocol_state_ = .bbCount →
    (ClientThread.switchCase qt t buffer).1.thread.protocol_state_ = .boundingRects

/-- The same case of both, on a line. -/
def Alike (turn : Client Image × Signal) (effect : Effect Image) : Prop :=
  turn.1 = ofThread effect.thread ∧
    match effect.completed with
    | none => turn.2 = .silent
    | some c => turn.2 = .receivedCompletePackage ∧ view c = package turn.1

/-- A line of four parts is the same rectangle for both. -/
theorem client_rect {t : ClientThread Image} {data : QByteArray} {rect : QRect}
    (read : ClientThread.rectOfLine qt data = some rect) :
    Client.boundingRectsCase qt (ofThread t) data =
      let c : Client Image := { ofThread t with
        last_boundingboxes_ := collected t ++ [rect], bb_counter_ := t.bb_counter_ + 1 }
      if t.bb_counter_ = t.next_bb_count_ - 1 then
        ({ c with protocol_state_ := .protocolName }, .receivedCompletePackage)
      else (c, .silent) := by
  rw [ClientThread.rectOfLine] at read
  split at read
  · rename_i x y width height parts
    cases read
    simp only [Client.boundingRectsCase, parts]
    rfl
  · cases read

theorem alike_rects {t : ClientThread Image} {data : QByteArray}
    (going : (ClientThread.boundingRectsCase qt t data).error = false) :
    Alike (Client.boundingRectsCase qt (ofThread t) data)
      (ClientThread.boundingRectsCase qt t data) := by
  cases read : ClientThread.rectOfLine qt data with
  | none => simp [ClientThread.boundingRectsCase, read] at going
  | some rect =>
    rw [client_rect read]
    by_cases last : t.bb_counter_ = t.next_bb_count_ - 1
    · rw [boundingRectsCase_last read last, if_pos last]
      exact ⟨rfl, rfl, rfl⟩
    · rw [boundingRectsCase_more read last, if_neg last]
      exact ⟨rfl, rfl⟩

theorem takes_line (c : Client Image) {line : QByteArray} (rest : QByteArray)
    (whole : newline ∉ line) (use : QByteArray → Client Image × Signal) :
    c.lineCase (line ++ newline :: rest) use = (use line, rest) := by
  have readable : canReadLine (line ++ newline :: rest) = true := canReadLine_iff.mpr (by simp)
  rw [Client.lineCase, if_pos readable, readLine_line rest whole, copyLine_line whole]

/-- One call of `readByProtocol` is the `switch` of the thread. -/
theorem readByProtocol_alike {t : ClientThread Image} {buffer : QByteArray}
    (enabled : t.ready buffer = true) (regular : Regular qt t buffer) :
    Alike ((ofThread t).readByProtocol qt buffer).1 (ClientThread.switchCase qt t buffer).1 ∧
      ((ofThread t).readByProtocol qt buffer).2 = (ClientThread.switchCase qt t buffer).2 := by
  obtain ⟨going, kept⟩ := regular
  by_cases image : t.protocol_state_ = .image
  · have fits : t.next_image_size_.toInt ≤ buffer.length := by
      simpa [ClientThread.ready, image] using enabled
    have same : (ofThread t).readByProtocol qt buffer =
        (Client.imageCase qt (ofThread t) (buffer.take t.next_image_size_.toNatClampNeg),
          buffer.drop t.next_image_size_.toNatClampNeg) := by
      simp only [Client.readByProtocol, ofThread, image, if_pos fits]
    rw [same, ClientThread.switchCase_image image, if_pos fits]
    exact ⟨⟨rfl, rfl⟩, rfl⟩
  · obtain ⟨line, rest, rfl, whole⟩ :=
      exists_line (by simpa [ClientThread.ready, image] using enabled)
    rw [ClientThread.switchCase_takes_line image rest whole, ClientThread.onLine] at going kept ⊢
    rw [Client.readByProtocol]
    simp only [takes_line _ rest whole]
    have members : (ofThread t).protocol_state_ = t.protocol_state_ := rfl
    cases state : t.protocol_state_ with
    | protocolName =>
      simp only [members, state] at going ⊢
      by_cases glp : line = ClientThread.glp
      · simp [Client.protocolNameCase, ClientThread.protocolNameCase, glp, Alike, ofThread]
      · simp [ClientThread.protocolNameCase, glp] at going
    | image => exact absurd state image
    | bbCount =>
      simp only [members, state] at kept ⊢
      have some_rect : QByteArray.toInt line ≠ 0 := by
        intro zero
        have rects := kept trivial
        simp [ClientThread.bbCountCase, zero] at rects
      simp [Client.bbCountCase, ClientThread.bbCountCase, some_rect, Alike, ofThread]
    | boundingRects =>
      simp only [members, state] at going ⊢
      exact ⟨alike_rects going, trivial⟩
    | _ =>
      simp only [members, state]
      exact ⟨⟨rfl, rfl⟩, trivial⟩

/-- Without readiness nothing happens on either side. -/
theorem readByProtocol_waits {t : ClientThread Image} {buffer : QByteArray}
    (waits : t.ready buffer = false) :
    (ofThread t).readByProtocol qt buffer = ((ofThread t, .silent), buffer) := by
  have members : (ofThread t).protocol_state_ = t.protocol_state_ := rfl
  rw [Client.readByProtocol, members]
  by_cases image : t.protocol_state_ = .image
  · have short : ¬ t.next_image_size_.toInt ≤ buffer.length := by
      simpa [ClientThread.ready, image] using waits
    simp only [image]
    exact if_neg short
  · have no_line : ¬ canReadLine buffer = true := by
      simpa [ClientThread.ready, image] using waits
    have idle (use : QByteArray → Client Image × Signal) :
        (ofThread t).lineCase buffer use = ((ofThread t, .silent), buffer) := if_neg no_line
    simp only [idle]
    split
    all_goals first | rfl | exact absurd ‹_› image

/-- What lies behind the bytes that are read does not matter. -/
theorem Regular.cut {t : ClientThread Image} {buffer more : QByteArray}
    (enabled : t.ready buffer = true) (regular : Regular qt t (buffer ++ more)) :
    Regular qt t buffer := by
  obtain ⟨going, kept⟩ := regular
  rw [(switch_append qt enabled more).2] at going kept
  exact ⟨going, kept⟩

/-- One notification while nothing is there to read. -/
theorem readyRead_waits {t : ClientThread Image} {b packet : QByteArray}
    (waits : t.ready (b ++ packet) = false) (done : List (Client Image)) :
    (⟨ofThread t, b, done⟩ : Connection Image).readyRead qt packet =
      (⟨ofThread t, b ++ packet, done⟩, .silent) := by
  simp [Connection.readyRead, readByProtocol_waits waits]

/-- One notification that is heard. -/
theorem readyRead_moves {t : ClientThread Image} {b packet : QByteArray}
    (enabled : t.ready (b ++ packet) = true) (regular : Regular qt t (b ++ packet))
    (done : List (Client Image)) :
    ∃ done' signal, (⟨ofThread t, b, done⟩ : Connection Image).readyRead qt packet =
        (⟨ofThread (move qt t (b ++ packet)).state, (move qt t (b ++ packet)).rest, done'⟩,
          signal) ∧
      (signal = .silent ∨ signal = .receivedCompletePackage) ∧
      done'.map package =
        done.map package ++ (move qt t (b ++ packet)).output.toList.map view := by
  obtain ⟨⟨members, signals⟩, rest⟩ := readByProtocol_alike enabled regular
  simp only [Connection.readyRead, move]
  generalize (ofThread t).readByProtocol qt (b ++ packet) = turn at *
  obtain ⟨⟨client, signal⟩, unread⟩ := turn
  dsimp only at members rest
  subst members rest
  cases completed : (ClientThread.switchCase qt t (b ++ packet)).1.completed with
  | none =>
    rw [completed] at signals
    have silent : signal = .silent := signals
    exact ⟨done, signal, by rw [if_neg (by simp [silent])], .inl silent, by simp⟩
  | some c =>
    rw [completed] at signals
    obtain ⟨received, same⟩ := signals
    exact ⟨_, signal, by rw [if_pos received], .inr received, by simp [same]⟩

/-- As long as everything is regular a client is where the polled thread is. -/
theorem receive_polls (t : ClientThread Image) (b : QByteArray) (done : List (Client Image))
    (packets : List QByteArray)
    (along : (receiver qt).Along (Regular qt) t (b ++ packets.flatten)) :
    let k := ((⟨ofThread t, b, done⟩ : Connection Image).receive qt packets).1
    let o := (receiver qt).poll t b packets
    k.client = ofThread o.state ∧ k.unread = o.rest ∧ o.failed = false ∧
      k.completed.map package = done.map package ++ o.outputs.map view := by
  induction packets generalizing t b done with
  | nil => simp [Connection.receive, poll]
  | cons packet packets ih =>
    have whole : b ++ (packet :: packets).flatten = (b ++ packet) ++ packets.flatten := by simp
    rw [whole] at along
    cases enabled : t.ready (b ++ packet) with
    | false =>
      rw [Connection.receive, readyRead_waits enabled, poll_waiting (step_waits enabled)]
      exact ih t (b ++ packet) done along
    | true =>
      have moved : (receiver qt).step t (b ++ packet) = some (move qt t (b ++ packet)) :=
        step_ready enabled
      obtain ⟨regular, going, later⟩ := along.step ((receiver qt).stable packets.flatten moved)
      obtain ⟨done', signal, reads, goes_on, same⟩ :=
        readyRead_moves enabled (regular.cut enabled) done
      rw [Connection.receive, reads, poll_moved moved going]
      have rest := ih _ _ done' later
      rcases goes_on with rfl | rfl
      all_goals simpa [same] using rest

/-- One call of `readByProtocol` for each notification completes one package in seven
notifications at most. As long as nothing is rejected or dropped these are the first
ones that a thread completes, and it reads the others from what is left unread. -/
theorem reads_behind (qt : Qt Image) (size count counter : Int32) (packets : List QByteArray) :
    let k := ((Connection.new (.create size count counter)).receive qt packets).1
    let thread := ClientThread.create size count counter
    7 * k.completed.length ≤ packets.length ∧
      ((receiver qt).Along (Regular qt) thread packets.flatten →
        ∃ t, k.client = ofThread t ∧ (ClientThread.run qt thread packets).completed.map view =
          k.completed.map package ++
            (ClientThread.readByProtocol qt t k.unread).completed.map view) := by
  intro k thread
  constructor
  · have advances := receive_advances qt (Connection.new (.create size count counter)) packets
    simp only [Connection.new, Client.create, List.length_nil, stage] at advances
    exact (Nat.le_add_right _ _).trans (advances.trans (by omega))
  · intro along
    obtain ⟨client, unread, going, completed⟩ := receive_polls thread [] [] packets along
    obtain ⟨undelivered, drains, -⟩ := run_drains qt thread packets
    have left := drain_polled (M := receiver qt) thread [] packets going
    refine ⟨((receiver qt).poll thread [] packets).state, client, ?_⟩
    have whole := congrArg Outcome.outputs (drains.symm.trans left)
    rw [extend_outputs, after_outputs] at whole
    rw [ClientThread.run, receive_feeds, readByProtocol_drains]
    have first : k.completed.map package =
        ((receiver qt).poll thread [] packets).outputs.map view := completed
    have rest : k.unread = ((receiver qt).poll thread [] packets).rest := unread
    simp only [reading, whole, List.map_append, first, rest]

/-- A `switch` that is regular, and what follows it. -/
theorem along_moves {t : ClientThread Image} {buffer : QByteArray}
    (enabled : t.ready buffer = true) (regular : Regular qt t buffer)
    (later : (receiver qt).Along (Regular qt) (move qt t buffer).state (move qt t buffer).rest) :
    (receiver qt).Along (Regular qt) t buffer :=
  .moves (step_ready enabled) regular regular.going later

instance (t : ClientThread Image) (buffer : QByteArray) : Decidable (Regular qt t buffer) :=
  decidable_of_iff ((ClientThread.switchCase qt t buffer).1.error = false ∧
    (t.protocol_state_ = .bbCount →
      (ClientThread.switchCase qt t buffer).1.thread.protocol_state_ = .boundingRects))
    ⟨fun ⟨going, kept⟩ => ⟨going, kept⟩, fun ⟨going, kept⟩ => ⟨going, kept⟩⟩

/-- A package of one rectangle that one notification announces is not completed yet. -/
theorem reads_behind_sample :
    let k := ((Connection.new (.create 0 0 0)).receive Qt.reference
      [Capture.sample.motionDetected true]).1
    7 * k.completed.length ≤ 1 ∧
      ∃ t, k.client = ofThread t ∧
        (ClientThread.run Qt.reference (ClientThread.create 0 0 0)
            [Capture.sample.motionDetected true]).completed.map view =
          k.completed.map package ++
            (ClientThread.readByProtocol Qt.reference t k.unread).completed.map view := by
  have behind := reads_behind Qt.reference 0 0 0 [Capture.sample.motionDetected true]
  refine ⟨behind.1, behind.2 ?_⟩
  iterate 7 refine along_moves (by decide +kernel) (by decide +kernel) ?_
  exact .waits (step_waits (by decide +kernel))

/-! ## What is saved -/

section Saved
variable {out : QString} {s : Server Image}

/-- The list has the numbers of clients in the order they came, and no client of it came
before one whose image was saved; the counter counts the images. -/
structure Ordered (out : QString) (s : Server Image) : Prop where
  increasing : s.clientConnections_.Pairwise (· < ·)
  made : ∀ i ∈ s.clientConnections_, i < s.clients.length
  sent : ∀ p ∈ s.saved, p.client < s.clients.length
  later : ∀ p ∈ s.saved, ∀ i ∈ s.clientConnections_, p.client ≤ i
  in_turn : (s.saved.map Saved.client).Pairwise (· ≤ ·)
  counted : s.frameCounter = Int32.ofNat s.saved.length
  numbered : ∀ n p, s.saved[n]? = some p →
    ∃ name_ date, p.fullpath = fullpath out name_ (dateText date) (Int32.ofNat n)

theorem new_ordered : Ordered out (Server.new : Server Image) := by
  constructor <;> simp [Server.new]

theorem Ordered.clientDisconnected (ordered : Ordered out s) (i : Nat) :
    Ordered out (s.clientDisconnected i) where
  increasing := ordered.increasing.filter _
  made j member := ordered.made j (List.mem_of_mem_filter member)
  sent := ordered.sent
  later p saved j member := ordered.later p saved j (List.mem_of_mem_filter member)
  in_turn := ordered.in_turn
  counted := ordered.counted
  numbered := ordered.numbered

theorem Ordered.incomingConnection (ordered : Ordered out s) (k : Connection Image) :
    Ordered out { s with
      clients := s.clients ++ [k]
      clientConnections_ := s.clientConnections_ ++ [s.clients.length] } where
  increasing := by
    refine List.pairwise_append.mpr ⟨ordered.increasing, List.pairwise_singleton _ _, ?_⟩
    intro i member j last
    exact List.mem_singleton.mp last ▸ ordered.made i member
  made i member := by
    rw [List.length_append, List.length_singleton]
    rcases List.mem_append.mp member with old | new
    · exact (ordered.made i old).trans (Nat.lt_succ_self _)
    · exact List.mem_singleton.mp new ▸ Nat.lt_succ_self _
  sent p saved := by
    rw [List.length_append, List.length_singleton]
    exact (ordered.sent p saved).trans (Nat.lt_succ_self _)
  later p saved i member := by
    rcases List.mem_append.mp member with old | new
    · exact ordered.later p saved i old
    · exact List.mem_singleton.mp new ▸ (ordered.sent p saved).le
  in_turn := ordered.in_turn
  counted := ordered.counted
  numbered := ordered.numbered

/-- A client read something. -/
theorem Ordered.set (ordered : Ordered out s) (i : Nat) (k : Connection Image) :
    Ordered out { s with clients := s.clients.set i k } := by
  obtain ⟨increasing, made, sent, later, in_turn, counted, numbered⟩ := ordered
  exact ⟨increasing, by simpa using made, by simpa using sent, later, in_turn, counted, numbered⟩

theorem Ordered.clientCompletePackage (ordered : Ordered out s) (i : Nat) (client : Client Image)
    (today : QDate) : Ordered out (s.clientCompletePackage out i client today) := by
  rw [Server.clientCompletePackage]
  split
  · rename_i first
    have member : i ∈ s.clientConnections_ := List.mem_of_mem_head? first
    obtain ⟨others, split⟩ := List.head?_eq_some_iff.mp first
    refine ⟨ordered.increasing, ordered.made, ?_, ?_, ?_, ?_, ?_⟩
    · intro p saved
      rcases List.mem_append.mp saved with old | new
      · exact ordered.sent p old
      · rw [List.mem_singleton.mp new]
        exact ordered.made i member
    · intro p saved j listed
      rcases List.mem_append.mp saved with old | new
      · exact ordered.later p old j listed
      · rw [List.mem_singleton.mp new]
        have increasing := ordered.increasing
        rw [split, List.pairwise_cons] at increasing
        rw [split] at listed
        rcases List.mem_cons.mp listed with same | behind
        · exact same.ge
        · exact (increasing.1 j behind).le
    · rw [List.map_append, List.pairwise_append]
      refine ⟨ordered.in_turn, List.pairwise_singleton _ _, fun earlier old last new => ?_⟩
      obtain ⟨p, saved, rfl⟩ := List.mem_map.mp old
      rw [List.mem_singleton.mp new]
      exact ordered.later p saved i member
    · rw [List.length_append, List.length_singleton, Int32.ofNat_add, ordered.counted]
      rfl
    · intro n p found
      rw [List.getElem?_append] at found
      split at found
      · exact ordered.numbered n p found
      · rename_i behind
        obtain ⟨last, same⟩ := List.getElem?_eq_some_iff.mp found
        have number : n = s.saved.length := by
          rw [List.length_singleton] at last
          omega
        rw [List.getElem_singleton] at same
        exact ⟨client.name_, today, by rw [← same, ordered.counted, number]⟩
  · exact ordered

theorem Ordered.readClientData (ordered : Ordered out s) (qt : Qt Image) (i : Nat)
    (packet : QByteArray) (today : QDate) : Ordered out (s.readClientData qt out i packet today) := by
  rw [Server.readClientData]
  split
  · exact ordered
  · rename_i k found
    split
    · generalize k.readyRead qt packet = turn
      obtain ⟨k', signal⟩ := turn
      have read := ordered.set i k'
      cases signal with
      | silent => exact read
      | receivedCompletePackage => exact read.clientCompletePackage i k'.client today
      | disconnected => exact read.clientDisconnected i
      | aborted =>
        exact ⟨read.increasing, read.made, read.sent, read.later, read.in_turn, read.counted,
          read.numbered⟩
    · exact ordered

theorem Ordered.step (ordered : Ordered out s) (qt : Qt Image) (event : Synchronous.Event) :
    Ordered out (s.step qt out event) := by
  unfold Server.step
  split
  · exact ordered
  · cases event with
    | incomingConnection size count counter => exact ordered.incomingConnection _
    | disconnected i => exact ordered.clientDisconnected i
    | readyRead i packet today => exact ordered.readClientData qt i packet today

theorem ordered_run (qt : Qt Image) (out : QString) (events : List Synchronous.Event) :
    Ordered out (after (Server.step qt out) Server.new events) :=
  (throughout_of_keeps (fun _ event ordered => ordered.step qt event) new_ordered events).last

end Saved

/-- In every run of a server the images come from one client at a time: behind an image
of a later client there is none of an earlier one. -/
theorem one_client_at_a_time (qt : Qt Image) (out : QString) (events : List Synchronous.Event) :
    ((after (Server.step qt out) Server.new events).saved.map Saved.client).Pairwise (· ≤ ·) :=
  (ordered_run qt out events).in_turn

/-- And no image replaces another one, whoever sent them and whatever they are called,
until the counter of the server has run over. -/
theorem saved_files_apart (qt : Qt Image) (out : QString) (events : List Synchronous.Event)
    (i j : Nat) (before : i < j) (near : j < i + 2 ^ 32) :
    let saved := (after (Server.step qt out) Server.new events).saved
    ∀ p ∈ saved[i]?, ∀ q ∈ saved[j]?,
      resolve '/' '.' p.fullpath ≠ resolve '/' '.' q.fullpath := by
  intro saved p first q second same
  obtain ⟨name, date, path⟩ := (ordered_run qt out events).numbered i p first
  obtain ⟨name', date', path'⟩ := (ordered_run qt out events).numbered j q second
  rw [path, path'] at same
  have wrapped := (ServerProofs.ofNat_eq_iff i j).mp (resolve_fullpath_inj.mp same).2.2.2
  omega

/-- A camera sends a package with each of fourteen notifications. -/
def fourteen : List Synchronous.Event :=
  .incomingConnection 0 0 0 ::
    List.replicate 14 (.readyRead 0 (Capture.sample.motionDetected true) .newYear)

theorem saved_files_apart_fourteen :
    let saved := (after (Server.step Qt.reference ['/']) Server.new fourteen).saved
    ∀ p ∈ saved[0]?, ∀ q ∈ saved[1]?,
      resolve '/' '.' p.fullpath ≠ resolve '/' '.' q.fullpath :=
  saved_files_apart Qt.reference ['/'] fourteen 0 1 (by decide) (by decide)

example : (after (Server.step Qt.reference ['/']) Server.new fourteen).saved.length = 2 := by
  decide +kernel

end Videovigilancia.SynchronousProofs
