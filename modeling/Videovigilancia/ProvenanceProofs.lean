import Videovigilancia.RoundTripProofs

/-! Every stored package comes from one stretch of the stream. The members of
the receiver live on from package to package, so the account kept here says, in
each state, which of them were computed from the bytes consumed since the last
protocol line (`Holds`), and that the bytes are the matching front of one
segment. It assumes nothing about the stream. -/
namespace Videovigilancia

/-- The value of `protocol_state_`. -/
def ProtocolState.number : ProtocolState → Nat
  | .protocolName => 0
  | .clientName => 1
  | .timestamp => 2
  | .imageSize => 3
  | .image => 4
  | .bbCount => 5
  | .boundingRects => 6

/-- The bytes of a segment that are consumed when the state is reached, the
rectangle lines as far as they are there. -/
def Segment.before (s : Segment) : ProtocolState → QByteArray
  | .protocolName => []
  | .clientName => protocolLine.bytes
  | .timestamp => protocolLine.bytes ++ s.name.bytes
  | .imageSize => protocolLine.bytes ++ (s.name.bytes ++ s.timestamp.bytes)
  | .image => protocolLine.bytes ++ (s.name.bytes ++ (s.timestamp.bytes ++ s.size.bytes))
  | .bbCount =>
    protocolLine.bytes ++ (s.name.bytes ++ (s.timestamp.bytes ++ (s.size.bytes ++ s.image)))
  | .boundingRects => s.bytes

namespace ProvenanceProofs
open ClientThread ReceiverProofs StreamMachine StreamFraming RoundTripProofs

variable {Image : Type} {qt : Qt Image} {t : ClientThread Image}

/-- The members that the states so far have assigned hold what the fields of
the segment say. The rectangle counter counts the lines of this segment and has
not passed the line at which the package completes. -/
structure Holds (qt : Qt Image) (t : ClientThread Image) (s : Segment) : Prop where
  name : 2 ≤ t.protocol_state_.number → t.name_ = qt.fromUtf8 s.name.text
  timestamp : 3 ≤ t.protocol_state_.number → t.last_timestamp_ = qt.fromUtf8 s.timestamp.text
  size : 4 ≤ t.protocol_state_.number → t.next_image_size_ = QByteArray.toInt s.size.text
  image : 5 ≤ t.protocol_state_.number →
    (s.image.length : Int) = max 0 (QByteArray.toInt s.size.text).toInt ∧
      t.last_image_ = some (qt.loadJpeg s.image)
  count : 6 ≤ t.protocol_state_.number → t.next_bb_count_ = QByteArray.toInt s.count.text
  rects : 6 ≤ t.protocol_state_.number →
    s.rects.map (fun line => rectOfLine qt line.text) = (collected t).map some
  counter : 6 ≤ t.protocol_state_.number → t.bb_counter_ = Int32.ofNat s.rects.length ∧
    s.rects.length ≤ (t.next_bb_count_ - 1).toUInt32.toNat

/-- The bytes `seg` are the front of a segment that the members hold. -/
def Owns (qt : Qt Image) (t : ClientThread Image) (seg : QByteArray) : Prop :=
  ∃ s : Segment, seg = s.before t.protocol_state_ ∧ Holds qt t s

/-- A completed package of fewer than `2 ^ 31` rectangles was made of exactly the
bytes of one well-formed segment. -/
def Made (qt : Qt Image) (seg : QByteArray) (c : Completed Image) : Prop :=
  c.last_boundingboxes_.length < 2 ^ 31 →
    ∃ s : Segment, seg = s.bytes ∧ s.WellFormed qt ∧ s.Gives qt c

/-- A completed package holds the fields of a segment that has the announced image
size and, as an `int` counts them, the announced number of rectangle lines. -/
structure MadeOf (qt : Qt Image) (s : Segment) (c : Completed Image) : Prop where
  image_length : (s.image.length : Int) = max 0 (QByteArray.toInt s.size.text).toInt
  count : QByteArray.toInt s.count.text = Int32.ofNat s.rects.length
  some_rects : s.rects ≠ []
  gives : s.Gives qt c

/-- Below `2 ^ 31` rectangles the segment is well formed. -/
theorem MadeOf.wellFormed {s : Segment} {c : Completed Image} (made : MadeOf qt s c)
    (short : c.last_boundingboxes_.length < 2 ^ 31) : s.WellFormed qt := by
  have lengths := congrArg List.length made.gives.rects
  simp only [List.length_map] at lengths
  refine ⟨made.image_length, ?_, fun line member => ?_⟩
  · rw [made.count, Int32.toInt_ofNat_of_lt (by omega)]
  · apply (rectOfLine_isSome qt line.text).mp
    have among := List.mem_map_of_mem (f := fun line : Line => rectOfLine qt line.text) member
    rw [made.gives.rects] at among
    obtain ⟨rect, -, read⟩ := List.mem_map.mp among
    rw [← read]
    rfl

/-- An idle receiver owns nothing, whatever its members hold. -/
theorem owns_nothing (idle : t.protocol_state_ = .protocolName) : Owns qt t [] := by
  let none : Line := ⟨[], by simp⟩
  refine ⟨⟨none, none, none, [], none, []⟩, by simp [Segment.before, idle], ?_⟩
  constructor <;> intro later <;> simp [idle, ProtocolState.number] at later

/-! ## What one step consumes -/

theorem line_step {used rest : QByteArray} {m : Move (ClientThread Image) UInt8 (Completed Image)}
    (state : t.protocol_state_ ≠ .image) (moved : (receiver qt).step t (used ++ rest) = some m)
    (left : m.rest = rest) :
    ∃ line : Line, used = line.bytes ∧ m.state = (onLine qt t line.text).thread ∧
      m.output = (onLine qt t line.text).completed ∧
      m.failed = (onLine qt t line.text).error := by
  obtain ⟨enabled, rfl⟩ := receiverStep_some moved
  obtain ⟨line, more, split, whole⟩ := exists_line (by simpa [ready, state] using enabled)
  have taken : switchCase qt t (line ++ newline :: more) = (onLine qt t line, more) :=
    switchCase_takes_line state more whole
  rw [← split] at taken
  simp only [move, taken] at left ⊢
  subst left
  refine ⟨⟨line, whole⟩, ?_, rfl, rfl, rfl⟩
  exact List.append_cancel_right (split.trans (by simp [Line.bytes]))

theorem image_step {used rest : QByteArray} {m : Move (ClientThread Image) UInt8 (Completed Image)}
    (state : t.protocol_state_ = .image) (moved : (receiver qt).step t (used ++ rest) = some m)
    (left : m.rest = rest) :
    (used.length : Int) = max 0 t.next_image_size_.toInt ∧
      m.state = (imageCase qt t used).thread ∧ m.output = none := by
  obtain ⟨enabled, rfl⟩ := receiverStep_some moved
  have fits : t.next_image_size_.toInt ≤ (used ++ rest).length := by
    simpa [ready, state] using enabled
  simp only [move, switchCase_image state, if_pos fits] at left ⊢
  have lengths := congrArg List.length left
  rw [List.length_drop, List.length_append, Int32.toNatClampNeg] at lengths
  rw [List.length_append] at fits
  have taken : t.next_image_size_.toNatClampNeg = used.length := by
    rw [Int32.toNatClampNeg]
    omega
  refine ⟨?_, by rw [taken, List.take_left], rfl⟩
  rw [Int32.toNatClampNeg] at taken
  omega

/-! ## The account of each case -/

private theorem count_kept {s : Segment} (holds : Holds qt t s)
    (state : t.protocol_state_ = .bbCount) (line : Line) :
    Owns qt (bbCountCase t line.text).thread (s.before .bbCount ++ line.bytes) ∨
      Owns qt (bbCountCase t line.text).thread [] := by
  by_cases faulty : QByteArray.toInt line.text = 0
  · exact .inr (owns_nothing (by simp [bbCountCase, goes, faulty]))
  · left
    have name := holds.name (by simp [state, ProtocolState.number])
    have timestamp := holds.timestamp (by simp [state, ProtocolState.number])
    have size := holds.size (by simp [state, ProtocolState.number])
    have image := holds.image (by simp [state, ProtocolState.number])
    refine ⟨{ s with count := line, rects := [] }, ?_, ?_⟩
    · simp [bbCountCase, goes, faulty, Segment.before, Segment.bytes]
    · constructor <;> intro _ <;>
        simp [bbCountCase, goes, name, timestamp, size, image, collected]

/-- At the announced last line the counter is one below the count, without
having wrapped around. -/
private theorem last_line {s : Segment} (holds : Holds qt t s)
    (state : t.protocol_state_ = .boundingRects) :
    t.bb_counter_ = t.next_bb_count_ - 1 ↔
      s.rects.length = (t.next_bb_count_ - 1).toUInt32.toNat := by
  obtain ⟨counted, within⟩ := holds.counter (by simp [state, ProtocolState.number])
  have bound := (t.next_bb_count_ - 1).toUInt32.toNat_lt
  constructor
  · intro last
    rw [← last, counted, counter_ofNat]
    omega
  · intro last
    apply counter_injective
    rw [counted, counter_ofNat]
    omega

/-- One more rectangle extends the segment by its line. -/
private theorem rects_extended {s : Segment} (holds : Holds qt t s)
    (state : t.protocol_state_ = .boundingRects) {line : Line} {rect : QRect}
    (read : rectOfLine qt line.text = some rect) :
    (s.rects ++ [line]).map (fun line => rectOfLine qt line.text) =
      (collected t ++ [rect]).map some := by
  rw [List.map_append, List.map_append, holds.rects (by simp [state, ProtocolState.number])]
  simp [read]

private theorem rect_kept {s : Segment} (holds : Holds qt t s)
    (state : t.protocol_state_ = .boundingRects) (line : Line) {rect : QRect}
    (read : rectOfLine qt line.text = some rect) (more : t.bb_counter_ ≠ t.next_bb_count_ - 1) :
    Owns qt (boundingRectsCase qt t line.text).thread (s.before .boundingRects ++ line.bytes) := by
  obtain ⟨counted, within⟩ := holds.counter (by simp [state, ProtocolState.number])
  have bound := (t.next_bb_count_ - 1).toUInt32.toNat_lt
  have open_line : s.rects.length ≠ (t.next_bb_count_ - 1).toUInt32.toNat :=
    fun same => more ((last_line holds state).mpr same)
  have count : t.bb_counter_ + 1 = Int32.ofNat (s.rects.length + 1) := by
    rw [counted, Int32.ofNat_add]
    rfl
  have started : t.bb_counter_ + 1 ≠ 0 := by
    intro zero
    have := ofNat_inj (a := s.rects.length + 1) (b := 0) (by omega) (by omega)
      (count.symm.trans zero)
    omega
  rw [boundingRectsCase_more read more, goes_thread]
  refine ⟨{ s with rects := s.rects ++ [line] }, ?_, ?_⟩
  · simp [state, Segment.before, Segment.bytes]
  · refine ⟨holds.name, holds.timestamp, holds.size, holds.image, holds.count, fun _ => ?_,
      fun _ => ?_⟩
    · have extended := rects_extended holds state read
      simpa [collected, started] using extended
    · simp only [List.length_append, List.length_singleton]
      exact ⟨count, Nat.lt_of_le_of_ne within open_line⟩

/-- The last rectangle line makes the package of the segment. -/
theorem rect_madeOf {s : Segment} (holds : Holds qt t s)
    (state : t.protocol_state_ = .boundingRects) (line : Line) {rect : QRect}
    (read : rectOfLine qt line.text = some rect) (last : t.bb_counter_ = t.next_bb_count_ - 1) :
    ∃ s' : Segment, s.before .boundingRects ++ line.bytes = s'.bytes ∧
      MadeOf qt s' { t with last_boundingboxes_ := collected t ++ [rect] }.complete := by
  obtain ⟨counted, _⟩ := holds.counter (by simp [state, ProtocolState.number])
  obtain ⟨imageLength, image⟩ := holds.image (by simp [state, ProtocolState.number])
  have announced : t.next_bb_count_ = Int32.ofNat (s.rects.length + 1) := by
    rw [Int32.ofNat_add, ← counted, last]
    change t.next_bb_count_ = t.next_bb_count_ - 1 + 1
    grind
  have count := holds.count (by simp [state, ProtocolState.number])
  refine ⟨{ s with rects := s.rects ++ [line] }, by simp [Segment.before, Segment.bytes],
    imageLength, ?_, by simp, ?_, ?_, image, rects_extended holds state read⟩
  · simpa using count.symm.trans announced
  · exact holds.name (by simp [state, ProtocolState.number])
  · exact holds.timestamp (by simp [state, ProtocolState.number])

/-- What a line does to the account: without an output the receiver owns one
line more or nothing; an output was made of everything owned. -/
def LineAccount (qt : Qt Image) (seg : QByteArray) (effect : Effect Image) : Prop :=
  (effect.completed = none → Owns qt effect.thread seg ∨ Owns qt effect.thread []) ∧
    ∀ c, effect.completed = some c → (∃ s : Segment, seg = s.bytes ∧ MadeOf qt s c) ∧
      Owns qt effect.thread []

private theorem quiet_account {seg : QByteArray} {t' : ClientThread Image}
    (kept : Owns qt t' seg ∨ Owns qt t' []) : LineAccount qt seg (goes t') :=
  ⟨fun _ => kept, fun c some => by simp at some⟩

private theorem line_account {s : Segment} (holds : Holds qt t s)
    (state : t.protocol_state_ ≠ .image) (line : Line)
    (going : (onLine qt t line.text).error = false) :
    LineAccount qt (s.before t.protocol_state_ ++ line.bytes) (onLine qt t line.text) := by
  have name : 2 ≤ t.protocol_state_.number → _ := holds.name
  have timestamp : 3 ≤ t.protocol_state_.number → _ := holds.timestamp
  rw [onLine] at going ⊢
  cases at_state : t.protocol_state_ with
  | image => exact absurd at_state state
  | protocolName =>
    simp only [at_state] at going ⊢
    have glpLine : line.text = glp := by
      by_contra other
      simp [protocolNameCase, other] at going
    have same : line = Segment.protocolLine := by
      cases line
      cases glpLine
      rfl
    rw [protocolNameCase, if_neg (by simpa using glpLine)]
    refine quiet_account (.inl ⟨s, by simp [Segment.before, same], ?_⟩)
    constructor <;> intro later <;> simp [ProtocolState.number] at later
  | clientName =>
    refine quiet_account (.inl ⟨{ s with name := line }, by simp [Segment.before], ?_⟩)
    constructor <;> intro later <;> simp [ProtocolState.number] at later ⊢
  | timestamp =>
    simp only [at_state, ProtocolState.number, Nat.le_refl, forall_const] at name
    refine quiet_account (.inl ⟨{ s with timestamp := line }, by simp [Segment.before], ?_⟩)
    constructor <;> intro later <;> simp [ProtocolState.number, name] at later ⊢
  | imageSize =>
    simp only [at_state, ProtocolState.number, Nat.reduceLeDiff, forall_const] at name timestamp
    refine quiet_account (.inl ⟨{ s with size := line }, by simp [Segment.before], ?_⟩)
    constructor <;> intro later <;> simp [ProtocolState.number, name, timestamp] at later ⊢
  | bbCount => exact quiet_account (count_kept holds at_state line)
  | boundingRects =>
    simp only [at_state] at going ⊢
    cases read : rectOfLine qt line.text with
    | none => simp [boundingRectsCase, read] at going
    | some rect =>
      by_cases last : t.bb_counter_ = t.next_bb_count_ - 1
      · have made := rect_madeOf holds at_state line read last
        rw [boundingRectsCase_last read last]
        refine ⟨fun none => by simp at none, fun c some => ?_⟩
        cases some
        exact ⟨made, owns_nothing rfl⟩
      · have kept := rect_kept holds at_state line read last
        rw [boundingRectsCase_more read last] at kept ⊢
        exact quiet_account (.inl kept)

private theorem image_kept {s : Segment} (holds : Holds qt t s)
    (state : t.protocol_state_ = .image) {image : QByteArray}
    (size : (image.length : Int) = max 0 t.next_image_size_.toInt) :
    Owns qt (imageCase qt t image).thread (s.before .image ++ image) := by
  have name := holds.name (by simp [state, ProtocolState.number])
  have timestamp := holds.timestamp (by simp [state, ProtocolState.number])
  have announced := holds.size (by simp [state, ProtocolState.number])
  rw [announced] at size
  refine ⟨{ s with image := image }, by simp [imageCase, Segment.before], ?_⟩
  constructor <;> intro later <;>
    simp [imageCase, ProtocolState.number, name, timestamp, announced, size] at later ⊢

/-- The receiver keeps the account on every stream. -/
theorem receiver_accounts (qt : Qt Image) : Accounts (receiver qt) (Owns qt)
    (fun seg c => ∃ s : Segment, seg = s.bytes ∧ MadeOf qt s c) where
  quiet := by
    rintro t seg used rest m ⟨s, rfl, holds⟩ moved left going silent
    by_cases state : t.protocol_state_ = .image
    · obtain ⟨size, next, _⟩ := image_step state moved left
      rw [next, state]
      exact .inl (image_kept holds state size)
    · obtain ⟨line, rfl, next, completed, error⟩ := line_step state moved left
      have account := line_account holds state line (error.symm.trans going)
      rw [next]
      exact account.1 (completed.symm.trans silent)
  made := by
    rintro t seg used rest m ⟨s, rfl, holds⟩ moved left going c done
    by_cases state : t.protocol_state_ = .image
    · obtain ⟨_, _, silent⟩ := image_step state moved left
      rw [silent] at done
      cases done
    · obtain ⟨line, rfl, next, completed, error⟩ := line_step state moved left
      have account := line_account holds state line (error.symm.trans going)
      rw [next]
      exact account.2 c (completed.symm.trans done)
  failed := by
    intro t buffer m moved failed
    obtain ⟨_, rfl⟩ := receiverStep_some moved
    exact switch_error failed

/-- What the receiver accounts for, a whole run of the receive loop does. -/
theorem run_segmented {Makes : QByteArray → Completed Image → Prop}
    (accounts : Accounts (receiver qt) (Owns qt) Makes) (t : ClientThread Image)
    (chunks : List QByteArray) : Segmented Makes chunks.flatten (run qt t chunks).completed := by
  obtain ⟨undelivered, drains, _⟩ := run_drains qt t chunks
  have parts := drain_segmented accounts (b := chunks.flatten)
    (owns_nothing (t := { t with protocol_state_ := .protocolName }) rfl)
  rw [drains] at parts
  rw [run, receive_feeds]
  exact parts

/-- **Nothing is mixed.** Whatever bytes arrive and however they are cut, the
packages a connection stores were made, one after the other, of disjoint
contiguous stretches of the stream; each stretch is one well-formed segment and
the stored members are computed from it alone. -/
theorem stored_packages_unmixed (qt : Qt Image) (t : ClientThread Image)
    (chunks : List QByteArray) :
    Segmented (Made qt) chunks.flatten (run qt t chunks).completed :=
  (run_segmented (receiver_accounts qt) t chunks).imp
    fun _ _ ⟨s, bytes, made⟩ short => ⟨s, bytes, made.wellFormed short, made.gives⟩

end ProvenanceProofs

end Videovigilancia
