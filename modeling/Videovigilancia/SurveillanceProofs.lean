import Videovigilancia.MotionProofs
import Videovigilancia.TransportProofs

/-! From the camera to the recorder. In every run the sessions of the camera have
recorded the packages that were written on their connections, as far as they arrived,
and over all connections these are results of the detector in their order; each fits
motion in a frame, and while the connection lasts none is missing. -/
namespace Videovigilancia.SurveillanceProofs
open Runs RoundTripProofs Server StreamFraming Surveillance TransportProofs Workers

variable {S Image : Type} {setup : Setup S Image} {qt : Qt Image} {c : Console Image}
  {link : Link} {links : List Link}

/-! ## What was written -/

/-- A change of one connection, as far as what was written is concerned. -/
theorem packages_modify (links : List Link) (k : Nat) {f : Link → Link}
    {g : List Capture → List Capture} (changes : ∀ link, (f link).packages = g link.packages) :
    (links.modify k f).map Link.packages = (links.map Link.packages).modify k g := by
  apply List.ext_getElem?
  intro l
  simp only [List.getElem?_map, List.getElem?_modify, Option.map_eq_map, Option.map_map]
  congr 1
  funext link
  simp only [Function.comp_apply]
  split
  · exact changes link
  · rfl

/-- Nothing else changes what was written. -/
theorem packages_kept (links : List Link) (k : Nat) {f : Link → Link}
    (keeps : ∀ link, (f link).packages = link.packages) :
    (links.modify k f).map Link.packages = links.map Link.packages := by
  rw [packages_modify (g := id) links k keeps, List.modify_id]

/-- A package is written on the last connection. -/
theorem packages_write {earlier : List (List Capture)} {present : List Capture}
    (written : links.map Link.packages = earlier ++ [present]) (p : Capture) :
    (links.modify (links.length - 1) (Link.write p)).map Link.packages =
      earlier ++ [present ++ [p]] := by
  have length : links.length - 1 = earlier.length := by
    rw [← List.length_map Link.packages, written]
    simp
  rw [packages_modify (g := (· ++ [p])) links _ fun _ => rfl, written, length,
    List.modify_eq_take_cons_drop (by simp)]
  simp

/-! ## Runs -/

/-- The frames of a run. -/
def frames (events : List Surveillance.Event) : List Frame :=
  events.filterMap fun
    | .frame image => some image
    | _ => none

/-- What the detector makes of them. -/
def detections (setup : Setup S Image) (images : List Frame) : List Detected :=
  results (detectMotion setup) setup.cv.backgroundSubtractor images

/-- A result as it is sent, without the time. -/
def shown (setup : Setup S Image) (detected : Detected) : QString × QByteArray × List QRect :=
  (setup.clientName_, setup.jpeg detected, detected.boundingRects)

/-- Behind events with these frames. -/
structure Holds (setup : Setup S Image) (images : List Frame) (s : Surveillance S Image) : Prop where
  carries : Carries setup.qt s.server s.links
  some_link : s.links ≠ []
  ordered : ∃ taken,
    Owes (detectMotion setup) setup.cv.backgroundSubtractor images taken s.detector ∧
      ((s.links.map Link.packages).flatten.map content).Sublist (taken.map (shown setup))

theorem holds_start (setup : Setup S Image) : Holds setup [] (start setup) where
  carries :=
    { distinct := ServerProofs.numbers_distinct setup.qt []
      follows := by
        intro k link found
        rw [List.mem_singleton.mp (List.mem_of_getElem? found)]
        exact follows_new
      apart := by
        intro k l a b i first second mine
        rw [List.mem_singleton.mp (List.mem_of_getElem? first)] at mine
        cases mine }
  some_link := by simp [start]
  ordered := ⟨[], owes_nothing (w := (start setup).detector) ⟨rfl, rfl⟩, by simp [start, Link.new]⟩

/-- What is written shows motion and can be read back. -/
theorem deliverable_of_written (reliable : Reliable setup) {detected : Detected}
    (few : detected.boundingRects.length < 2 ^ 31) {timestamp : Int64} {connectedServer_ : Bool}
    (written : (capture setup timestamp detected).motionDetected connectedServer_ ≠ []) :
    Deliverable (capture setup timestamp detected) := by
  refine ⟨⟨reliable.one_line, reliable.no_nul, reliable.image_size detected, fun none => ?_⟩,
    reliable.plain_name, few⟩
  cases connectedServer_ with
  | false => exact written rfl
  | true => exact written (motionDetected_silent _ (by rw [none]; decide))

variable {s : Surveillance S Image} {images : List Frame}

theorem few_rects (reliable : Reliable setup) {seen : S} {taken : List Detected}
    {detected : Detected} {detector : Worker S Frame Detected}
    (owes : Owes (detectMotion setup) seen images (taken ++ [detected]) detector) :
    detected.boundingRects.length < 2 ^ 31 := by
  have present : detected ∈ results (detectMotion setup) seen images :=
    owes.taken_first.subset (by simp)
  obtain ⟨before, image, behind, -, rfl⟩ := exists_input present
  exact reliable.rect_count _ image

/-- A result is dropped, or written behind everything else. -/
theorem Holds.result (reliable : Reliable setup) (holds : Holds setup images s)
    (timestamp : Int64) : Holds setup images (s.step setup (.result timestamp)) := by
  simp only [Surveillance.step]
  split
  · exact holds
  · rename_i detected detector takes
    obtain ⟨taken, owes, ordered⟩ := holds.ordered
    have owes' := owes.take takes
    have few := few_rects reliable owes'
    rw [motionDetected]
    split
    · refine ⟨holds.carries, holds.some_link, taken ++ [detected], owes', ?_⟩
      rw [List.map_append]
      exact ordered.trans (List.sublist_append_left _ _)
    · rename_i sent
      have deliverable := deliverable_of_written reliable few (not_or.mp sent).1
      refine ⟨holds.carries.write _ deliverable, by simpa using holds.some_link,
        taken ++ [detected], owes', ?_⟩
      obtain ⟨earlier, present, written⟩ :=
        (List.eq_nil_or_concat' (s.links.map Link.packages)).resolve_left
          (by simpa using holds.some_link)
      dsimp only
      rw [packages_write written]
      rw [written] at ordered
      simpa [content, shown, capture] using ordered.append_right [shown setup detected]

/-- What the server does by itself. -/
theorem Holds.server (holds : Holds setup images s) (event : Server.Event) :
    Holds setup images (s.step setup (.server event)) := by
  have quiet (other : ∀ i, s.Mine i → ∀ packet today, event ≠ .received i packet today) :
      Holds setup images { s with server := s.server.step setup.qt event } :=
    ⟨holds.carries.step event fun k link i found mine =>
      other i ⟨link, List.mem_of_getElem? found, mine⟩, holds.some_link, holds.ordered⟩
  cases event with
  | received connection packet today =>
    simp only [Surveillance.step]
    split
    · exact holds
    · rename_i stranger
      refine quiet fun i mine packet' today' same => stranger ?_
      injection same with same
      exact same ▸ mine
  | _ => exact quiet (by simp)

/-- A connection changes, but not what was written on it. -/
theorem Holds.carried (holds : Holds setup images s) {server : Console Image} {k : Nat}
    {f : Link → Link} (keeps : ∀ link, (f link).packages = link.packages)
    (carries : Carries setup.qt server (s.links.modify k f)) :
    Holds setup images { s with server, links := s.links.modify k f } where
  carries := carries
  some_link := by simpa using holds.some_link
  ordered := by
    dsimp only
    rw [packages_kept s.links k keeps]
    exact holds.ordered

theorem Holds.accept (holds : Holds setup images s) (k : Nat) (size count counter : Int32) :
    Holds setup images (s.step setup (.accept k size count counter)) := by
  simp only [Surveillance.step]
  split
  · exact holds
  · rename_i link found
    split
    · rename_i fresh
      exact holds.carried (fun _ => rfl) (holds.carries.accept found fresh size count counter)
    · exact holds

theorem Holds.packet (reliable : Reliable setup) (holds : Holds setup images s) (k size : Nat)
    (today : Nat → QDate) : Holds setup images (s.step setup (.packet k size today)) := by
  simp only [Surveillance.step, Surveillance.packet]
  split
  · exact holds
  · rename_i link found
    split
    · exact holds
    · rename_i i session
      split
      · exact holds
      · rename_i thread present
        split
        · rename_i receives
          exact holds.carried (fun _ => rfl)
            (holds.carries.packet reliable.utf8 found session present receives size today)
        · exact holds

theorem Holds.connection (holds : Holds setup images s) (event : Client.Event) :
    Holds setup images (s.step setup (.connection event)) where
  carries := holds.carries.dial _
  some_link := by simp [Surveillance.step, holds.some_link]
  ordered := by
    have silent (n : Nat) : ((List.replicate n Link.new).map Link.packages).flatten = [] := by
      simp [Link.new]
    obtain ⟨taken, owes, ordered⟩ := holds.ordered
    refine ⟨taken, owes, ?_⟩
    rw [Surveillance.step, List.map_append, List.flatten_append, silent, List.append_nil]
    exact ordered

theorem Holds.step (reliable : Reliable setup) (holds : Holds setup images s)
    (event : Surveillance.Event) : Holds setup (images ++ frames [event]) (s.step setup event) := by
  cases event with
  | frame image =>
    obtain ⟨carries, some_link, taken, owes, ordered⟩ := holds
    exact ⟨carries, some_link, taken, owes.post image, ordered⟩
  | detect =>
    obtain ⟨carries, some_link, taken, owes, ordered⟩ := holds
    simp only [frames, List.filterMap_cons, List.filterMap_nil, List.append_nil]
    exact ⟨carries, some_link, taken, owes.turn, ordered⟩
  | result timestamp => simpa [frames] using holds.result reliable timestamp
  | connection event => simpa [frames] using holds.connection event
  | accept k size count counter => simpa [frames] using holds.accept k size count counter
  | packet k size today => simpa [frames] using holds.packet reliable k size today
  | server event => simpa [frames] using holds.server event

/-- In every run. -/
theorem holds_run (reliable : Reliable setup) (events : List Surveillance.Event) :
    Holds setup (frames events) (after (Surveillance.step setup) (start setup) events) := by
  induction events using List.reverseRecOn with
  | nil => exact holds_start setup
  | append_singleton events event ih =>
    rw [after_append, frames, List.filterMap_append]
    exact ih.step reliable event

theorem sample_reliable : Reliable Setup.sample where
  utf8 := Qt.reference_decodes
  one_line := by decide
  no_nul := by decide
  plain_name := QString.plain_of_ascii (by simp [Setup.sample])
  image_size detected := by
    change 4 < 2 ^ 31
    omega
  rect_count seen img := by
    have one (rows cols : Nat) (mask : Mask rows cols) :
        (OpenCV.reference.findContours rows cols mask).length ≤ 1 := by
      simp only [OpenCV.reference]
      split <;> simp
    have contours := one img.height img.width (MotionDetector.cleaned .reference
      (MotionDetector.foreground .reference QtOcv.sameFormat .littleEndian () img).2)
    change (List.map _ _).length < _
    rw [List.length_map]
    exact contours.trans_lt (by omega)

/-- The camera gets connected, and the server knows it. -/
def connecting : List Surveillance.Event :=
  [.connection .established, .connection .encrypted, .accept 0 0 0 0]

/-- A frame that is detected, sent and read. -/
def watching : List Surveillance.Event :=
  [.frame .black, .detect, .result 5, .packet 0 1000 fun _ => .newYear]

/-! ## What the recorder has of the camera -/

/-- Whatever happens, and in whatever order, the session of each connection has
recorded exactly the packages that were written on the connection and whose last byte
it has read, and all of them if it has read everything. -/
theorem recorded_as_written (reliable : Reliable setup) (events : List Surveillance.Event) :
    let s := after (Surveillance.step setup) (start setup) events
    ∀ link ∈ s.links, ∀ i, link.session = some i →
      (packagesOf s.server i).map view = arrived setup.qt link.packages link.read ∧
        (link.read = link.stream.length →
          (packagesOf s.server i).map view = link.packages.map (meaning setup.qt)) := by
  intro s link member i session
  obtain ⟨k, found⟩ := List.getElem?_of_mem member
  have recorded := ((holds_run reliable events).carries.follows found).recorded reliable.utf8 session
  exact ⟨recorded, fun everything => recorded.trans (everything ▸ arrived_all setup.qt link)⟩

theorem recorded_as_written_watching :
    let s := after (Surveillance.step .sample) (start .sample) (connecting ++ watching)
    ∀ link ∈ s.links, ∀ i, link.session = some i →
      (packagesOf s.server i).map view = arrived .reference link.packages link.read ∧
        (link.read = link.stream.length →
          (packagesOf s.server i).map view = link.packages.map (meaning .reference)) :=
  recorded_as_written sample_reliable _

/-- Everything the sessions of the camera recorded, connection by connection. -/
def storedOfCamera (s : Surveillance S Image) : List (Completed Image) :=
  s.links.flatMap fun link => link.session.elim [] (packagesOf s.server)

/-- Over all connections the recorder has stored results of the detector, each at
most once and in their order, under the name of the camera. -/
theorem stored_in_order (reliable : Reliable setup) (events : List Surveillance.Event) :
    let s := after (Surveillance.step setup) (start setup) events
    ((storedOfCamera s).map picture).Sublist
      ((detections setup (frames events)).map fun d => loaded setup.qt (shown setup d)) := by
  intro s
  obtain ⟨carries, -, taken, owes, ordered⟩ := holds_run reliable events
  rw [storedOfCamera, List.map_flatMap]
  have each : ∀ link ∈ s.links, ((link.session.elim [] (packagesOf s.server)).map picture).Sublist
      (link.packages.map fun c => loaded setup.qt (content c)) := by
    intro link member
    obtain ⟨k, found⟩ := List.getElem?_of_mem member
    exact (carries.follows found).stored_sublist reliable.utf8
  apply (List.Sublist.flatMap_right _ each).trans
  have results := (ordered.trans (owes.taken_first.sublist.map (shown setup))).map
    (loaded setup.qt)
  rw [← List.flatMap_def, List.map_map, List.map_flatMap, List.map_map] at results
  exact results

theorem stored_in_order_watching :
    let s := after (Surveillance.step .sample) (start .sample) (connecting ++ watching)
    ((storedOfCamera s).map picture).Sublist
      ((detections .sample (frames (connecting ++ watching))).map fun d =>
        loaded .reference (shown .sample d)) :=
  stored_in_order sample_reliable _

example : (storedOfCamera (after (Surveillance.step .sample) (start .sample)
    (connecting ++ watching))).length = 1 := by
  decide +kernel

/-- Every stored package of the camera is what the detector made of one of its frames
behind those before it: some rectangles, all of which fit motion in this frame. -/
theorem stored_shows_motion (reliable : Reliable setup) (documented : setup.cv.Documented)
    (events : List Surveillance.Event) :
    ∀ p ∈ storedOfCamera (after (Surveillance.step setup) (start setup) events),
      ∃ past image future, frames events = past ++ image :: future ∧
        let seen := last (detectMotion setup) setup.cv.backgroundSubtractor past
        let mask := (MotionDetector.foreground setup.cv setup.convertToFormat setup.byteOrder
          seen image).2
        picture p = loaded setup.qt (shown setup (detectMotion setup seen image).2) ∧
          p.last_boundingboxes_ ≠ [] ∧ ∀ r ∈ p.last_boundingboxes_, MotionProofs.Fits mask r := by
  intro p stored
  obtain ⟨carries, -, taken, owes, ordered⟩ := holds_run reliable events
  obtain ⟨link, member, present⟩ := List.mem_flatMap.mp stored
  obtain ⟨k, found⟩ := List.getElem?_of_mem member
  have follows := carries.follows found
  obtain ⟨c, written, same⟩ := List.mem_map.mp
    ((follows.stored_sublist reliable.utf8).subset (List.mem_map_of_mem present))
  have sent : c ∈ ((after (Surveillance.step setup) (start setup) events).links.map
      Link.packages).flatten := List.mem_flatten.mpr ⟨_, List.mem_map_of_mem member, written⟩
  obtain ⟨d, took, shows⟩ := List.mem_map.mp (ordered.subset (List.mem_map_of_mem sent))
  obtain ⟨past, image, future, split, rfl⟩ := exists_input (owes.taken_first.subset took)
  have rects : p.last_boundingboxes_ = c.boundingRects := (congrArg (fun v => v.2.2) same).symm
  have moved : c.boundingRects ≠ [] := (follows.deliverable c written).moved
  refine ⟨past, image, future, split, ?_, rects ▸ moved, fun r reported => ?_⟩
  · rw [shows, same]
  · have detected : (detectMotion setup _ image).2.boundingRects = c.boundingRects :=
      congrArg (fun v => v.2.2) shows
    rw [rects, ← detected] at reported
    exact MotionProofs.rect_fits documented reported

theorem stored_shows_motion_watching :
    let s := after (Surveillance.step .sample) (start .sample) (connecting ++ watching)
    ∀ p ∈ storedOfCamera s,
      ∃ past image future, frames (connecting ++ watching) = past ++ image :: future ∧
        let seen := last (detectMotion .sample) () past
        let mask := (MotionDetector.foreground .reference QtOcv.sameFormat .littleEndian
          seen image).2
        picture p = loaded .reference (shown .sample (detectMotion .sample seen image).2) ∧
          p.last_boundingboxes_ ≠ [] ∧ ∀ r ∈ p.last_boundingboxes_, MotionProofs.Fits mask r :=
  stored_shows_motion sample_reliable MotionProofs.reference_documented _

/-! ## While the camera is connected -/

/-- The camera believes itself connected and its socket takes what is written; its
detector is idle, and nothing was written on the present connection. -/
structure Online (s : Surveillance S Image) : Prop where
  flag : s.client.connectedServer_ = true
  open_ : s.client.sslSocket_.state ≠ .unconnected
  idle : s.detector.Idle
  fresh : ∃ earlier, s.links.map Link.packages = earlier ++ [[]]

/-- The results that show something. -/
def moved (detected : Detected) : Bool := detected.boundingRects ≠ []

/-- What was written since the camera was in the state `s₀`. -/
structure WritesAll (setup : Setup S Image) (s₀ : Surveillance S Image) (earlier : List (List Capture))
    (images : List Frame) (s : Surveillance S Image) : Prop where
  client : s.client = s₀.client
  written : ∃ taken present,
    Owes (detectMotion setup) s₀.detector.state images taken s.detector ∧
      s.links.map Link.packages = earlier ++ [present] ∧
      present.map content = (taken.filter moved).map (shown setup)

theorem writes_when_moved {detected : Detected}
    (few : detected.boundingRects.length < 2 ^ 31) (timestamp : Int64) :
    (capture setup timestamp detected).motionDetected true = [] ↔ moved detected = false := by
  constructor
  · intro silent
    by_contra some_rect
    have present : detected.boundingRects ≠ [] := by simpa [moved] using some_rect
    refine Capture.motionDetected_ne_nil ?_ silent
    rw [Int32.lt_iff_toInt_lt, Int32.toInt_zero]
    have positive := List.length_pos_iff.mpr present
    have length : (Int32.ofNat detected.boundingRects.length).toInt = detected.boundingRects.length :=
      Int32.toInt_ofNat_of_lt few
    exact length ▸ (by omega)
  · intro none
    refine motionDetected_silent _ ?_
    have empty : detected.boundingRects = [] := by simpa [moved] using none
    simp [capture, empty]

theorem WritesAll.step (reliable : Reliable setup) {s₀ s : Surveillance S Image}
    {earlier : List (List Capture)} {images : List Frame} (online : Online s₀)
    (writes : WritesAll setup s₀ earlier images s) (event : Surveillance.Event)
    (other : ∀ e, event ≠ .connection e) :
    WritesAll setup s₀ earlier (images ++ frames [event]) (s.step setup event) := by
  obtain ⟨client, taken, present, owes, written, shows⟩ := writes
  have kept {server : Console Image} {links : List Link}
      (packages : links.map Link.packages = s.links.map Link.packages) :
      WritesAll setup s₀ earlier images { s with server, links } :=
    ⟨client, taken, present, owes, packages.trans written, shows⟩
  cases event with
  | frame image => exact ⟨client, taken, present, owes.post image, written, shows⟩
  | detect =>
    simp only [frames, List.filterMap_cons, List.filterMap_nil, List.append_nil]
    exact ⟨client, taken, present, owes.turn, written, shows⟩
  | result timestamp =>
    simp only [frames, List.filterMap_cons, List.filterMap_nil, List.append_nil, Surveillance.step]
    split
    · exact ⟨client, taken, present, owes, written, shows⟩
    · rename_i detected detector takes
      have owes' := owes.take takes
      have few := few_rects reliable owes'
      cases motion : moved detected with
      | false =>
        have silent : (capture setup timestamp detected).motionDetected true = [] :=
          (writes_when_moved few timestamp).mpr motion
        rw [motionDetected, if_pos (.inl (by rwa [client, online.flag]))]
        exact ⟨client, taken ++ [detected], present, owes', written, by simp [motion, shows]⟩
      | true =>
        have written' : ¬ ((capture setup timestamp detected).motionDetected
            s.client.connectedServer_ = [] ∨ s.client.sslSocket_.state = .unconnected) := by
          rw [client, online.flag, writes_when_moved few]
          simp [motion, online.open_]
        rw [motionDetected, if_neg written']
        refine ⟨client, taken ++ [detected], present ++ [capture setup timestamp detected], owes',
          packages_write written _, ?_⟩
        rw [List.map_append, shows]
        simp [motion, content, shown, capture]
  | connection event => exact absurd rfl (other event)
  | accept k size count counter =>
    simp only [frames, List.filterMap_cons, List.filterMap_nil, List.append_nil, Surveillance.step]
    split
    · exact kept rfl
    · split
      · exact kept (packages_kept s.links k fun _ => rfl)
      · exact kept rfl
  | packet k size today =>
    simp only [frames, List.filterMap_cons, List.filterMap_nil, List.append_nil, Surveillance.step,
      Surveillance.packet]
    split
    · exact kept rfl
    · split
      · exact kept rfl
      · split
        · exact kept rfl
        · split
          · exact kept (packages_kept s.links k fun _ => rfl)
          · exact kept rfl
  | server event =>
    simp only [frames, List.filterMap_cons, List.filterMap_nil, List.append_nil]
    cases event <;> simp only [Surveillance.step] <;> first | exact kept rfl | split <;> exact kept rfl

theorem WritesAll.run (reliable : Reliable setup) {s₀ : Surveillance S Image}
    {earlier : List (List Capture)} (online : Online s₀)
    (fresh : s₀.links.map Link.packages = earlier ++ [[]]) (events : List Surveillance.Event)
    (other : ∀ e, .connection e ∉ events) :
    WritesAll setup s₀ earlier (frames events) (after (Surveillance.step setup) s₀ events) := by
  induction events using List.reverseRecOn with
  | nil => exact ⟨rfl, [], [], owes_nothing online.idle, fresh, rfl⟩
  | append_singleton events event ih =>
    rw [after_append, frames, List.filterMap_append]
    have before := ih fun e member => other e (by simp [member])
    exact before.step reliable online event fun e same => other e (by simp [same])

/-- Once the detector is idle and the session has read everything, exactly the frames
that moved are stored. -/
theorem WritesAll.stored (reliable : Reliable setup) {s₀ s : Surveillance S Image}
    {earlier : List (List Capture)} {images : List Frame}
    (writes : WritesAll setup s₀ earlier images s) (carries : Carries setup.qt s.server s.links)
    (idle : s.detector.Idle) {link : Link} {i : Nat} (present : s.links.getLast? = some link)
    (session : link.session = some i) (everything : link.read = link.stream.length) :
    (packagesOf s.server i).map picture =
      ((results (detectMotion setup) s₀.detector.state images).filter moved).map
        fun d => loaded setup.qt (shown setup d) := by
  obtain ⟨-, taken, packages, owes, written, shows⟩ := writes
  obtain ⟨k, found⟩ := List.getElem?_of_mem (List.mem_of_getLast? present)
  have last : link.packages = packages := by
    have ends := congrArg List.getLast? written
    rw [List.getLast?_map, List.getLast?_concat] at ends
    exact Option.some.inj ((congrArg (Option.map Link.packages) present).symm.trans ends)
  have recorded : (packagesOf s.server i).map view = packages.map (meaning setup.qt) := by
    rw [(carries.follows found).recorded reliable.utf8 session, everything, arrived_all, last]
  calc (packagesOf s.server i).map picture
      = ((packagesOf s.server i).map view).map pictured := by rw [List.map_map]; rfl
    _ = (packages.map content).map (loaded setup.qt) := by
        rw [recorded, List.map_map, List.map_map]
        rfl
    _ = _ := by rw [shows, owes.settled idle, List.map_map]; rfl

/-- In a run that goes on online, what was written is on its way to the server. -/
theorem Online.run (reliable : Reliable setup) {past events : List Surveillance.Event}
    (online : Online (after (Surveillance.step setup) (start setup) past))
    (other : ∀ e, .connection e ∉ events) :
    let s₀ := after (Surveillance.step setup) (start setup) past
    let s := after (Surveillance.step setup) s₀ events
    Carries setup.qt s.server s.links ∧ ∃ earlier, WritesAll setup s₀ earlier (frames events) s := by
  intro s₀ s
  obtain ⟨earlier, fresh⟩ := online.fresh
  have carries := (holds_run reliable (past ++ events)).carries
  rw [after_append] at carries
  exact ⟨carries, earlier, WritesAll.run reliable online fresh events other⟩

/-- As long as the connection lasts nothing is lost: once the detector is idle and
the session has read everything, exactly the frames that moved are stored, in order. -/
theorem stored_while_online (reliable : Reliable setup) (past events : List Surveillance.Event)
    (online : Online (after (Surveillance.step setup) (start setup) past))
    (other : ∀ e, .connection e ∉ events) :
    let s₀ := after (Surveillance.step setup) (start setup) past
    let s := after (Surveillance.step setup) s₀ events
    s.detector.Idle → ∀ link i, s.links.getLast? = some link → link.session = some i →
      link.read = link.stream.length → (packagesOf s.server i).map picture =
        ((results (detectMotion setup) s₀.detector.state (frames events)).filter moved).map
          fun d => loaded setup.qt (shown setup d) := by
  intro s₀ s idle link i present session everything
  obtain ⟨carries, earlier, writes⟩ := online.run reliable other
  exact writes.stored reliable carries idle present session everything

theorem connecting_online : Online (after (Surveillance.step .sample) (start .sample) connecting) where
  flag := by decide
  open_ := by decide
  idle := ⟨rfl, rfl⟩
  fresh := ⟨[], rfl⟩

theorem stored_while_online_watching :
    (packagesOf (after (Surveillance.step .sample)
        (after (Surveillance.step .sample) (start .sample) connecting) watching).server 0).map picture =
      ((results (detectMotion .sample) () [.black]).filter moved).map
        fun d => loaded .reference (shown .sample d) :=
  stored_while_online sample_reliable connecting watching connecting_online
    (by simp [watching]) ⟨rfl, rfl⟩ _ 0 rfl rfl (by decide +kernel)

end Videovigilancia.SurveillanceProofs
