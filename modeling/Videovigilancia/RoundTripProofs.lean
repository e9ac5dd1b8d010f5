import Videovigilancia.GlpPackage
import Videovigilancia.ReceiverProofs

/-! A well-formed package is received as it was sent. The receiver accepts the
bytes of every well-formed segment from every idle state, and completes nothing
before their last newline; the sender writes well-formed segments. A stream of
packages, cut at any byte and delivered in any chunks, therefore completes
exactly the packages that end inside the cut. -/
namespace Videovigilancia.RoundTripProofs
open ClientThread ReceiverProofs StreamMachine StreamFraming

variable {Image : Type} {qt : Qt Image} {t : ClientThread Image}

/-! ## The receiver accepts well-formed segments -/

/-- A state that waits for a line reads one as a single piece. -/
theorem line_piece (state : t.protocol_state_ ≠ .image) (line : Line)
    (going : (onLine qt t line.text).error = false) :
    Piece (receiver qt) t line.bytes (onLine qt t line.text).thread
      (onLine qt t line.text).completed where
  moves := by
    have ready : t.ready line.bytes = true := by simp [ready, state, Line.bytes, canReadLine]
    apply (step_ready ready).trans
    rw [move, Line.bytes, switchCase_takes_line state [] line.whole, going]
  waits := by
    intro part cut short
    have inside : part <+: line.text := (List.prefix_concat_iff.mp cut).resolve_left short
    have silent : newline ∉ part := fun member => line.whole (inside.subset member)
    exact step_waits (by simp [ready, state, canReadLine, silent])

private theorem quiet_piece {t' : ClientThread Image} (state : t.protocol_state_ ≠ .image)
    (line : Line) (quiet : onLine qt t line.text = goes t') :
    Piece (receiver qt) t line.bytes t' none := by
  have going : (onLine qt t line.text).error = false := by rw [quiet]; rfl
  have piece := line_piece state line going
  rwa [quiet] at piece

/-- The image state reads the announced number of bytes as a single piece. -/
theorem image_piece (state : t.protocol_state_ = .image) {image : QByteArray}
    (size : (image.length : Int) = max 0 t.next_image_size_.toInt) :
    Piece (receiver qt) t image (imageCase qt t image).thread none where
  moves := by
    have fits : t.next_image_size_.toInt ≤ image.length := by omega
    have all : t.next_image_size_.toNatClampNeg = image.length := by
      rw [Int32.toNatClampNeg]
      omega
    apply (step_ready (by simpa [ready, state] using fits)).trans
    rw [move, switchCase_image state, if_pos fits, all, List.take_length, List.drop_length]
    rfl
  waits := by
    intro part cut short
    have shorter : part.length < image.length :=
      Nat.lt_of_le_of_ne cut.length_le fun same => short (cut.eq_of_length same)
    apply step_waits
    simp only [ready, state, ↓reduceIte, decide_eq_false_iff_not]
    omega

/-- The rectangle state reads the announced lines and completes with the last. -/
theorem rects_accepted (lines : List Line) (rects : List QRect) (some_lines : lines ≠ [])
    (read : lines.map (fun line => rectOfLine qt line.text) = rects.map some) (k : Nat)
    (state : t.protocol_state_ = .boundingRects) (counted : t.bb_counter_ = Int32.ofNat k)
    (announced : t.next_bb_count_ = Int32.ofNat (k + lines.length))
    (bound : k + lines.length < 2 ^ 31) :
    ∃ t' c, Accepts (receiver qt) t (lines.flatMap Line.bytes) t' c ∧
      t'.protocol_state_ = .protocolName ∧ c.name_ = t.name_ ∧
      c.last_timestamp_ = t.last_timestamp_ ∧ c.last_image_ = t.last_image_ ∧
      c.last_boundingboxes_ = collected t ++ rects := by
  induction lines generalizing t rects k with
  | nil => exact absurd rfl some_lines
  | cons line lines ih =>
    obtain ⟨rect, rects, rfl⟩ : ∃ r rs, rects = r :: rs := by
      cases rects with
      | nil => simp at read
      | cons r rs => exact ⟨r, rs, rfl⟩
    obtain ⟨head, tail⟩ : rectOfLine qt line.text = some rect ∧
        lines.map (fun line => rectOfLine qt line.text) = rects.map some := by simpa using read
    have notImage : t.protocol_state_ ≠ .image := by simp [state]
    have onRect : onLine qt t line.text = boundingRectsCase qt t line.text := by
      rw [onLine, state]
    cases lines with
    | nil =>
      have noMore : rects = [] := by simpa using tail.symm
      subst noMore
      have last : t.bb_counter_ = t.next_bb_count_ - 1 := by
        rw [counted, announced]
        simp
      have effect := onRect.trans (boundingRectsCase_last head last)
      have going : (onLine qt t line.text).error = false := by rw [effect]
      have piece := line_piece notImage line going
      rw [effect] at piece
      have one : [line].flatMap Line.bytes = line.bytes := by simp
      have accepted := Accepts.last piece (by simp [Line.bytes])
      rw [one]
      refine ⟨_, _, accepted, rfl, rfl, rfl, rfl, ?_⟩
      simp [complete]
    | cons next lines =>
      have notLast : t.bb_counter_ ≠ t.next_bb_count_ - 1 := by
        intro last
        have shift : t.next_bb_count_ - 1 = Int32.ofNat (k + (lines.length + 1)) := by
          rw [announced, List.length_cons, List.length_cons, ← Nat.add_assoc, Int32.ofNat_add _ 1]
          simp
        rw [counted, shift] at last
        have := ofNat_inj (by omega) (by simp at bound; omega) last
        omega
      have piece := quiet_piece notImage line
        (onRect.trans (boundingRectsCase_more head notLast))
      obtain ⟨t', c, accepted, idle, name, timestamp, image, boxes⟩ :=
        ih (t := { t with
            last_boundingboxes_ := collected t ++ [rect], bb_counter_ := t.bb_counter_ + 1 })
          rects (by simp) tail (k + 1) state (by rw [counted, Int32.ofNat_add]; rfl)
          (by rw [announced]; congr 1; simp; omega) (by simp at bound ⊢; omega)
      refine ⟨t', c, ?_, idle, name, timestamp, image, ?_⟩
      · rw [List.flatMap_cons]
        exact .cons piece accepted
      · have started : t.bb_counter_ + 1 ≠ 0 := by
          rw [counted]
          intro zero
          have := ofNat_inj (a := k + 1) (b := 0) (by simp at bound; omega) (by omega)
            ((Int32.ofNat_add k 1).trans zero)
          omega
        rw [boxes]
        simp [collected, started]

private theorem rects_of_four_parts (lines : List Line)
    (four : ∀ line ∈ lines, ((qt.fromUtf8 line.text).split '_').length = 4) :
    ∃ rects : List QRect, lines.map (fun line => rectOfLine qt line.text) = rects.map some := by
  induction lines with
  | nil => exact ⟨[], rfl⟩
  | cons line lines ih =>
    obtain ⟨rects, read⟩ := ih fun l member => four l (List.mem_cons_of_mem _ member)
    obtain ⟨rect, head⟩ := Option.isSome_iff_exists.mp
      ((rectOfLine_isSome qt line.text).mpr (four line (by simp)))
    exact ⟨rect :: rects, by simp [head, read]⟩

/-- From every idle state, whatever its other members hold, the bytes of a
well-formed segment are one frame, and the completed members are its fields. -/
theorem segment_accepted (s : Segment) (wellFormed : s.WellFormed qt) (moved : s.rects ≠ [])
    (idle : t.protocol_state_ = .protocolName) :
    ∃ t' c, Accepts (receiver qt) t s.bytes t' c ∧ s.Gives qt c ∧
      t'.protocol_state_ = .protocolName := by
  obtain ⟨rects, read⟩ := rects_of_four_parts s.rects wellFormed.four_parts
  have count : QByteArray.toInt s.count.text = Int32.ofNat s.rects.length := by
    rw [← Int32.ofInt_toInt (QByteArray.toInt s.count.text), ← wellFormed.rect_count]
    exact Int32.ofInt_eq_ofNat
  have bound : s.rects.length < 2 ^ 31 := by
    have := (QByteArray.toInt s.count.text).toInt_lt
    have := wellFormed.rect_count
    omega
  have positive : 0 < s.rects.length := List.length_pos_iff.mpr moved
  have counted : QByteArray.toInt s.count.text ≠ 0 := by
    rw [count]
    intro zero
    have := ofNat_inj (a := s.rects.length) (b := 0) (by omega) (by omega) zero
    omega
  let t₁ : ClientThread Image :=
    { t with protocolName_ := qt.fromUtf8 glp, protocol_state_ := .clientName }
  let t₂ : ClientThread Image :=
    { t₁ with name_ := qt.fromUtf8 s.name.text, protocol_state_ := .timestamp }
  let t₃ : ClientThread Image :=
    { t₂ with last_timestamp_ := qt.fromUtf8 s.timestamp.text, protocol_state_ := .imageSize }
  let t₄ : ClientThread Image :=
    { t₃ with next_image_size_ := QByteArray.toInt s.size.text, protocol_state_ := .image }
  let t₅ : ClientThread Image :=
    { t₄ with last_image_ := some (qt.loadJpeg s.image), protocol_state_ := .bbCount }
  let t₆ : ClientThread Image :=
    { t₅ with
      next_bb_count_ := QByteArray.toInt s.count.text
      bb_counter_ := 0
      protocol_state_ := .boundingRects }
  have onName : onLine qt t Segment.protocolLine.text = goes t₁ := by
    rw [onLine, idle]
    simp [protocolNameCase, Segment.protocolLine, t₁]
  have onCount : onLine qt t₅ s.count.text = goes t₆ := by
    change bbCountCase t₅ s.count.text = goes t₆
    simp [bbCountCase, counted, t₆]
  have name : Piece (receiver qt) t Segment.protocolLine.bytes t₁ none :=
    quiet_piece (by simp [idle]) _ onName
  have client : Piece (receiver qt) t₁ s.name.bytes t₂ none :=
    quiet_piece (by simp [t₁]) _ rfl
  have timestamp : Piece (receiver qt) t₂ s.timestamp.bytes t₃ none :=
    quiet_piece (by simp [t₂]) _ rfl
  have size : Piece (receiver qt) t₃ s.size.bytes t₄ none :=
    quiet_piece (by simp [t₃]) _ rfl
  have image : Piece (receiver qt) t₄ s.image t₅ none :=
    image_piece rfl wellFormed.image_length
  have bbCount : Piece (receiver qt) t₅ s.count.bytes t₆ none :=
    quiet_piece (by simp [t₅]) _ onCount
  obtain ⟨t', c, accepted, idle', cName, cTimestamp, cImage, cBoxes⟩ :=
    rects_accepted (t := t₆) s.rects rects moved read 0 rfl rfl
      (by simpa [t₆] using count) (by omega)
  have whole := Accepts.cons name (.cons client (.cons timestamp (.cons size
    (.cons image (.cons bbCount accepted)))))
  refine ⟨t', c, whole, ⟨cName, cTimestamp, cImage, ?_⟩, idle'⟩
  rw [read, cBoxes]
  simp [collected, t₆]

/-! ## The sender writes well-formed segments -/

private theorem number_clean (n : Int) {b : UInt8} (low : b.toNat < 45 ∨ 58 ≤ b.toNat) :
    b ∉ QByteArray.number n := by
  intro member
  obtain ⟨c, code, rfl⟩ := List.mem_map.mp member
  have range := numberCodes_range code
  rw [UInt8.toNat_ofNat_of_lt' (show c < 256 by omega)] at low
  omega

/-- The text of a number as one line. -/
def numberLine (n : Int) : Line := ⟨QByteArray.number n, number_clean n (.inl (by decide))⟩

theorem toInt_numberLine (n : Int32) : QByteArray.toInt (numberLine n.toInt).text = n :=
  QByteArray.toInt_number n

/-- The text of a rectangle as one line. -/
def rectLine (r : QRect) : Line where
  text := Capture.rectText r
  whole := by
    have digits (n : Int) : newline ∉ QByteArray.number n := number_clean n (.inl (by decide))
    have separator : newline ∉ Capture.underscore := by decide
    simp [Capture.rectText, digits, separator]

/-- The segment of a capture that can be sent. -/
def segment (c : Capture) (sendable : c.Sendable) : Segment where
  name := ⟨c.clientName_.toUtf8, sendable.one_line⟩
  timestamp := numberLine c.timestamp.toInt
  size := numberLine (Int32.ofNat c.bytes.length).toInt
  image := c.bytes
  count := numberLine (Int32.ofNat c.boundingRects.length).toInt
  rects := c.boundingRects.map rectLine

/-- As long as the number of rectangles is an `int`, `motionDetected` writes
exactly the bytes of the segment. -/
theorem motionDetected_writes (c : Capture) (sendable : c.Sendable)
    (count : c.boundingRects.length < 2 ^ 31) :
    c.motionDetected true = (segment c sendable).bytes := by
  have positive : ¬ Int32.ofNat c.boundingRects.length ≤ 0 := by
    have some_rects := List.length_pos_iff.mpr sendable.moved
    rw [Int32.le_iff_toInt_le, Int32.toInt_ofNat_of_lt count, Int32.toInt_zero]
    omega
  rw [Capture.motionDetected, if_pos rfl, if_neg positive]
  simp only [Segment.bytes, segment, Line.bytes, numberLine, Segment.protocolLine, rectLine,
    List.flatMap_map, List.append_assoc]

/-- The four numbers of a rectangle come back as its position and size. -/
theorem rectOfLine_rectText (utf8 : qt.DecodesUtf8) (r : QRect) :
    rectOfLine qt (Capture.rectText r) = some r := by
  have codes : Capture.rectText r =
      (numberCodes r.x.toInt ++ 95 :: (numberCodes r.y.toInt ++ 95 ::
        (numberCodes r.width.toInt ++ 95 :: numberCodes r.height.toInt))).map UInt8.ofNat := by
    simp [Capture.rectText, Capture.underscore, QByteArray.number]
  have ascii : ∀ code ∈ numberCodes r.x.toInt ++ 95 :: (numberCodes r.y.toInt ++ 95 ::
      (numberCodes r.width.toInt ++ 95 :: numberCodes r.height.toInt)), 0 < code ∧ code < 128 := by
    intro code member
    have range : (45 ≤ code ∧ code < 58) ∨ code = 95 := by
      simp only [List.mem_append, List.mem_cons] at member
      rcases member with x | rfl | y | rfl | width | rfl | height
      · exact .inl (numberCodes_range x)
      · exact .inr rfl
      · exact .inl (numberCodes_range y)
      · exact .inr rfl
      · exact .inl (numberCodes_range width)
      · exact .inr rfl
      · exact .inl (numberCodes_range height)
    omega
  have clean (n : Int) : '_' ∉ QString.number n := by
    intro member
    obtain ⟨code, printed, same⟩ := List.mem_map.mp member
    have range := numberCodes_range printed
    have back := ascii_toNat code (by omega)
    rw [same] at back
    simp at back
    omega
  have parts : (qt.fromUtf8 (Capture.rectText r)).split '_' =
      [QString.number r.x.toInt, QString.number r.y.toInt, QString.number r.width.toInt,
        QString.number r.height.toInt] := by
    rw [codes, utf8.ascii ascii]
    simp only [List.map_append, List.map_cons, QString.split]
    rw [show Char.ofNat 95 = '_' from rfl]
    simp only [← QString.number.eq_1]
    rw [List.splitOn_append_cons_self_of_not_mem (clean _),
      List.splitOn_append_cons_self_of_not_mem (clean _),
      List.splitOn_append_cons_self_of_not_mem (clean _), List.splitOn_eq_singleton (clean _)]
  rw [rectOfLine, parts]
  simp

/-- The segment of a capture announces its actual sizes. -/
theorem segment_wellFormed (utf8 : qt.DecodesUtf8) (c : Capture) (sendable : c.Sendable)
    (count : c.boundingRects.length < 2 ^ 31) : (segment c sendable).WellFormed qt where
  image_length := by
    change (c.bytes.length : Int) =
      max 0 (QByteArray.toInt (numberLine (Int32.ofNat c.bytes.length).toInt).text).toInt
    rw [toInt_numberLine, Int32.toInt_ofNat_of_lt sendable.image_size]
    omega
  rect_count := by
    change ((c.boundingRects.map rectLine).length : Int) =
      (QByteArray.toInt (numberLine (Int32.ofNat c.boundingRects.length).toInt).text).toInt
    rw [toInt_numberLine, Int32.toInt_ofNat_of_lt count, List.length_map]
  four_parts := by
    intro line member
    obtain ⟨r, _, rfl⟩ := List.mem_map.mp member
    apply (rectOfLine_isSome qt _).mp
    simp [rectLine, rectOfLine_rectText utf8]

/-- What a capture is on the other side: the name, the text of the time, the
image loaded from the same bytes, and the rectangles in order. -/
def meaning (qt : Qt Image) (c : Capture) : QString × QString × Option Image × List QRect :=
  (c.clientName_, QString.number c.timestamp.toInt, some (qt.loadJpeg c.bytes), c.boundingRects)

/-- The same view of a completed package. -/
def view (c : Completed Image) : QString × QString × Option Image × List QRect :=
  (c.name_, c.last_timestamp_, c.last_image_, c.last_boundingboxes_)

theorem view_of_gives (utf8 : qt.DecodesUtf8) (c : Capture) (sendable : c.Sendable)
    (plain : c.clientName_.Plain) {done : Completed Image}
    (gives : (segment c sendable).Gives qt done) : view done = meaning qt c := by
  have name : done.name_ = c.clientName_ := by
    rw [gives.name]
    refine utf8 _ (fun nul => ?_) plain
    apply sendable.no_nul
    exact List.mem_flatMap.mpr ⟨'\x00', nul, by decide⟩
  have timestamp : done.last_timestamp_ = QString.number c.timestamp.toInt :=
    gives.timestamp.trans (utf8.number c.timestamp.toInt)
  have rects : done.last_boundingboxes_ = c.boundingRects := by
    have read := gives.rects
    simp only [segment, List.map_map, Function.comp_def, rectLine, rectOfLine_rectText utf8] at read
    exact ((List.map_injective_iff.mpr (Option.some_injective _)) read).symm
  rw [view, meaning, name, timestamp, gives.image, rects]
  rfl

/-- From every idle state the bytes of a capture are one frame, and it is completed. -/
theorem capture_accepted (utf8 : qt.DecodesUtf8) {c : Capture} (sendable : c.Sendable)
    (plain : c.clientName_.Plain) (count : c.boundingRects.length < 2 ^ 31)
    (idle : t.protocol_state_ = .protocolName) :
    ∃ t' o, Accepts (receiver qt) t (c.motionDetected true) t' o ∧ view o = meaning qt c ∧
      t'.protocol_state_ = .protocolName := by
  have some_rects : (segment c sendable).rects ≠ [] := by simpa [segment] using sendable.moved
  obtain ⟨t', o, accepted, gives, idle'⟩ := segment_accepted (segment c sendable)
    (segment_wellFormed utf8 c sendable count) some_rects idle
  exact ⟨t', o, by rwa [motionDetected_writes c sendable count],
    view_of_gives utf8 c sendable plain gives, idle'⟩

/-! ## A stream of packages, cut anywhere -/

/-- The bytes a client writes for some packages one after the other. -/
def sent (captures : List Capture) : QByteArray := (captures.map (Capture.motionDetected true)).flatten

/-- What the round trip promises for a stream `captures` of which the bytes `p`
arrive, cut into `chunks`, at a thread that starts: no error, exactly the
packages that end inside `p`, and after the whole stream an idle receiver. -/
def RoundTrips (qt : Qt Image) (t : ClientThread Image) (captures : List Capture)
    (p : QByteArray) (chunks : List QByteArray) : Prop :=
  let r := run qt t chunks
  r.error = false ∧
    r.completed.map view =
      endedWithin p.length (captures.map fun c => (c.motionDetected true, meaning qt c)) ∧
    (p = sent captures → r.completed.map view = captures.map (meaning qt) ∧
      r.thread.protocol_state_ = .protocolName ∧ r.unread = [])

/-- Packages of fewer than `2 ^ 31` rectangles, under a plain name, survive truncation
and chunking. -/
theorem packages_round_trip (utf8 : qt.DecodesUtf8) (t : ClientThread Image)
    (captures : List Capture) (sendable : ∀ c ∈ captures, c.Sendable)
    (names : ∀ c ∈ captures, c.clientName_.Plain)
    (counts : ∀ c ∈ captures, c.boundingRects.length < 2 ^ 31)
    (p : QByteArray) (cut : p <+: sent captures) (chunks : List QByteArray)
    (delivered : chunks.flatten = p) : RoundTrips qt t captures p chunks := by
  let frames := captures.map fun c => (c.motionDetected true, meaning qt c)
  let start : ClientThread Image := { t with protocol_state_ := .protocolName }
  have stream : (frames.map Prod.fst).flatten = sent captures := by
    simp [frames, sent, Function.comp_def]
  have accepts : ∀ frame ∈ frames, ∀ s : ClientThread Image, s.protocol_state_ = .protocolName →
      ∃ s' o, Accepts (receiver qt) s frame.1 s' o ∧ view o = frame.2 ∧
        s'.protocol_state_ = .protocolName := by
    intro frame member s idle
    obtain ⟨c, sentHere, rfl⟩ := List.mem_map.mp member
    exact capture_accepted utf8 (sendable c sentHere) (names c sentHere) (counts c sentHere) idle
  obtain ⟨going, ended, complete⟩ := drain_frames (p := p) (s := start)
    (fun s => s.protocol_state_ = .protocolName) view frames accepts rfl
    (fun s idle => start_waits (by simp [idle])) (by rwa [stream])
  obtain ⟨undelivered, drains, whole⟩ := run_drains qt t chunks
  rw [delivered] at drains
  have error : (run qt t chunks).error = false := by
    rw [run, receive_feeds]
    exact (congrArg Outcome.failed drains).symm.trans going
  rw [whole error, extend_nil] at drains
  have ran : run qt t chunks = reading ((receiver qt).drain start p) := by
    rw [run, receive_feeds, drains]
  refine ⟨error, ?_, fun all => ?_⟩
  · rw [ran]
    exact ended
  · obtain ⟨idle, empty⟩ := complete (all.trans stream.symm)
    rw [ran]
    refine ⟨?_, idle, empty⟩
    have everything := endedWithin_all frames
    rw [stream, ← all] at everything
    exact ended.trans (everything.trans (by simp [frames, Function.comp_def]))

/-- Two packages, cut behind thirty bytes of the second one and delivered in three chunks. -/
theorem packages_round_trip_cut :
    let captures := [Capture.sample, Capture.patio]
    let p := (sent captures).take ((Capture.sample.motionDetected true).length + 30)
    let chunks := [p.take 7, (p.drop 7).take 25, p.drop 32]
    RoundTrips Qt.reference (create 0 0 0) captures p chunks ∧
      (run Qt.reference (create 0 0 0) chunks).completed.map view =
        [meaning Qt.reference Capture.sample] := by
  have each : ∀ c ∈ [Capture.sample, Capture.patio], c.Sendable ∧ c.clientName_.Plain ∧
      c.boundingRects.length < 2 ^ 31 := by
    simp only [List.mem_cons, List.not_mem_nil, or_false, forall_eq_or_imp, forall_eq]
    refine ⟨⟨⟨?_, ?_, ?_, ?_⟩, QString.plain_of_ascii (by simp [Capture.sample]), ?_⟩,
      ⟨?_, ?_, ?_, ?_⟩, QString.plain_of_ascii (by simp [Capture.patio]), ?_⟩ <;> decide
  refine ⟨packages_round_trip Qt.reference_decodes (create 0 0 0) [Capture.sample, Capture.patio]
    (fun c member => (each c member).1) (fun c member => (each c member).2.1)
    (fun c member => (each c member).2.2) _ (List.take_prefix _ _) _ (by decide +kernel), ?_⟩
  decide +kernel

/-- A count that is not positive as an `int` is taken for "nothing moved". -/
theorem motionDetected_silent (c : Capture) (count : Int32.ofNat c.boundingRects.length ≤ 0) :
    c.motionDetected true = [] := by
  rw [Capture.motionDetected, if_pos rfl, if_pos count]

/-- The sample with one rectangle repeated. -/
def crowd (n : Nat) : Capture :=
  { Capture.sample with boundingRects := List.replicate n (QRect.ofSize 1 2 3 4) }

theorem crowd_sendable {n : Nat} (some_rects : n ≠ 0) : (crowd n).Sendable where
  one_line := by simp only [crowd]; decide
  no_nul := by simp only [crowd]; decide
  image_size := by simp only [crowd]; decide
  moved := by simpa [crowd] using some_rects

theorem crowd_plain {n : Nat} : (crowd n).clientName_.Plain :=
  QString.plain_of_ascii (by simp [crowd, Capture.sample])

theorem crowd_lost {n : Nat} (count : Int32.ofNat n ≤ 0) :
    ¬ RoundTrips Qt.reference (create 0 0 0) [crowd n] [] [] := by
  intro arrives
  have silent := motionDetected_silent (crowd n) (by simpa [crowd] using count)
  have ended := arrives.2.1
  simp [silent, endedWithin, run, receive] at ended

/-- The sample under another name. -/
def named (clientName_ : QString) : Capture := { Capture.sample with clientName_ }

/-- What holds of a package with such a name, but it does not arrive. -/
def Renamed (c : Capture) : Prop :=
  c.Sendable ∧ c.boundingRects.length < 2 ^ 31 ∧
    ¬ RoundTrips Qt.reference (create 0 0 0) [c] (sent [c]) [sent [c]]

theorem renamed_of_view {c : Capture} (sendable : c.Sendable) (count : c.boundingRects.length < 2 ^ 31)
    (other : (run Qt.reference (create 0 0 0) [sent [c]]).completed.map view ≠
      [meaning Qt.reference c]) : Renamed c :=
  ⟨sendable, count, fun arrives => other (arrives.2.2 rfl).1⟩

/-- A package of `2 ^ 31` rectangles is never written, so it does not arrive; and a name
that begins with a byte order mark, or has something in it that is not a character,
does not arrive as it was. -/
theorem round_trip_needs_int_count_and_plain_name :
    ((crowd (2 ^ 31)).Sendable ∧ (crowd (2 ^ 31)).clientName_.Plain ∧
      ¬ RoundTrips Qt.reference (create 0 0 0) [crowd (2 ^ 31)] [] []) ∧
      Renamed (named [byteOrderMark, 'c', 'a', 'm']) ∧
      Renamed (named ['c', 'a', 'm', Char.ofNat 0xFFFE]) := by
  refine ⟨⟨crowd_sendable (by omega), crowd_plain, crowd_lost (by decide)⟩,
    renamed_of_view ⟨?_, ?_, ?_, ?_⟩ ?_ ?_, renamed_of_view ⟨?_, ?_, ?_, ?_⟩ ?_ ?_⟩
  all_goals decide +kernel

end Videovigilancia.RoundTripProofs
