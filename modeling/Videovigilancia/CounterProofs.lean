import Videovigilancia.ReceiverProofs
import Videovigilancia.Receiving

/-! The counters of the receiver. Sizes and counts come from the peer, and only a
count of zero is refused. As long as no size line and no count line is negative,
the counters stay in order in every state; the first negative one breaks them. -/
namespace Videovigilancia.CounterProofs
open ClientThread ReceiverProofs Receiving Runs

variable {Image : Type} {qt : Qt Image} {s : Receiving Image}

/-- The announced size is one, the rectangle counter stays below the announced
count and counts the lines since the count line, and the vector holds exactly
their rectangles, never more than were announced. -/
structure CountersHold (qt : Qt Image) (s : Receiving Image) : Prop where
  size : s.thread.protocol_state_ = .image → 0 ≤ s.thread.next_image_size_.toInt
  counter : s.thread.protocol_state_ = .boundingRects →
    0 ≤ s.thread.bb_counter_.toInt ∧ s.thread.bb_counter_.toInt < s.thread.next_bb_count_.toInt
  counted : s.thread.protocol_state_ = .boundingRects →
    s.thread.bb_counter_.toInt = s.lines.length
  rects : s.thread.protocol_state_ = .boundingRects → 0 < s.thread.bb_counter_.toInt →
    s.lines.map (rectOfLine qt) = s.thread.last_boundingboxes_.map some
  next : s.thread.protocol_state_ = .boundingRects →
    (s.thread.bb_counter_ + 1).toInt = s.thread.bb_counter_.toInt + 1
  within : s.lines ≠ [] → (s.lines.length : Int) ≤ s.thread.next_bb_count_.toInt ∧
    (s.thread.last_boundingboxes_.length : Int) ≤ s.thread.next_bb_count_.toInt

/-- A size line or a count line that is read gives no negative number. -/
def countGuard (s : Receiving Image) : Event → Prop
  | .packet _ => True
  | .call => s.ended = false → canReadLine s.unread = true →
    s.thread.protocol_state_ = .imageSize ∨ s.thread.protocol_state_ = .bbCount →
    0 ≤ (QByteArray.toInt s.line).toInt

/-! ## Counting without overflow -/

theorem toInt_next {n m : Int32} (below : n.toInt < m.toInt) : (n + 1).toInt = n.toInt + 1 := by
  have := n.le_toInt
  have := m.toInt_lt
  rw [Int32.toInt_add, Int32.toInt_one]
  apply Int.bmod_eq_of_le <;> omega

/-- The equality test of the rectangle state finds the last line. -/
theorem last_iff {n m : Int32} (below : n.toInt < m.toInt) :
    n = m - 1 ↔ n.toInt + 1 = m.toInt := by
  have next := toInt_next below
  constructor
  · intro last
    rw [← next, last]
    congr 1
    grind
  · intro last
    have same : n + 1 = m := Int32.toInt_inj.mp (next.trans last)
    grind

/-! ## One call -/

/-- Outside the rectangle state only the lines that were read count. -/
theorem CountersHold.idle (size : s.thread.protocol_state_ = .image →
      0 ≤ s.thread.next_image_size_.toInt)
    (elsewhere : s.thread.protocol_state_ ≠ .boundingRects)
    (within : s.lines ≠ [] → (s.lines.length : Int) ≤ s.thread.next_bb_count_.toInt ∧
      (s.thread.last_boundingboxes_.length : Int) ≤ s.thread.next_bb_count_.toInt) :
    CountersHold qt s :=
  ⟨size, fun state => absurd state elsewhere, fun state => absurd state elsewhere,
    fun state => absurd state elsewhere, fun state => absurd state elsewhere, within⟩

theorem start_holds (t : ClientThread Image) : CountersHold qt (start t) :=
  .idle (by simp [start]) (by simp [start]) (by simp [start])

/-- The rectangles collected so far are those of the lines since the count line. -/
theorem CountersHold.held (holds : CountersHold qt s)
    (state : s.thread.protocol_state_ = .boundingRects) :
    s.lines.map (rectOfLine qt) = (collected s.thread).map some := by
  obtain ⟨positive, -⟩ := holds.counter state
  by_cases first : s.thread.bb_counter_ = 0
  · have counted := holds.counted state
    rw [first, Int32.toInt_zero] at counted
    have none : s.lines = [] := List.length_eq_zero_iff.mp (by omega)
    simp [collected, first, none]
  · have apart : s.thread.bb_counter_.toInt ≠ 0 := fun zero => first (Int32.toInt_inj.mp zero)
    rw [collected, if_neg first]
    exact holds.rects state (by omega)

/-- A rectangle line keeps the counters, whether it is refused, completes the
package, or is one of several. -/
theorem CountersHold.rectangle (holds : CountersHold qt s)
    (state : s.thread.protocol_state_ = .boundingRects) (rest : QByteArray) :
    CountersHold qt ⟨(onLine qt s.thread s.line).thread, rest, s.lines ++ [s.line],
      (onLine qt s.thread s.line).error⟩ := by
  obtain ⟨positive, below⟩ := holds.counter state
  have counted := holds.counted state
  have held := holds.held state
  have boxes : (collected s.thread).length = s.lines.length := by
    simpa using (congrArg List.length held).symm
  have next := toInt_next below
  have room : ((s.lines ++ [s.line]).length : Int) ≤ s.thread.next_bb_count_.toInt := by
    rw [List.length_append, List.length_singleton]
    omega
  rw [onLine, state]
  cases read : rectOfLine qt s.line with
  | none =>
    have refused : (boundingRectsCase qt s.thread s.line).thread = { s.thread with
        last_boundingboxes_ := collected s.thread, protocol_state_ := .protocolName } := by
      simp [boundingRectsCase, read, collected]
    have few : ((collected s.thread).length : Int) ≤ s.thread.next_bb_count_.toInt := by omega
    rw [refused]
    exact .idle (by simp) (by simp) fun _ => ⟨room, few⟩
  | some rect =>
    have few : ((collected s.thread ++ [rect]).length : Int) ≤ s.thread.next_bb_count_.toInt := by
      rw [List.length_append, List.length_singleton]
      omega
    by_cases last : s.thread.bb_counter_ = s.thread.next_bb_count_ - 1
    · rw [boundingRectsCase_last read last]
      exact .idle (by simp) (by simp) fun _ => ⟨room, few⟩
    · rw [boundingRectsCase_more read last]
      have more : (s.thread.bb_counter_ + 1).toInt < s.thread.next_bb_count_.toInt := by
        have apart : s.thread.bb_counter_.toInt + 1 ≠ s.thread.next_bb_count_.toInt :=
          fun same => last ((last_iff below).mpr same)
        omega
      have nonnegative : 0 ≤ (s.thread.bb_counter_ + 1).toInt := by omega
      have counts : (s.thread.bb_counter_ + 1).toInt = ((s.lines ++ [s.line]).length : Int) := by
        rw [List.length_append, List.length_singleton]
        omega
      have holding : (s.lines ++ [s.line]).map (rectOfLine qt) =
          (collected s.thread ++ [rect]).map some := by
        rw [List.map_append, List.map_append, held]
        simp [read]
      exact ⟨by simp [state], fun _ => ⟨nonnegative, more⟩, fun _ => counts, fun _ _ => holding,
        fun _ => toInt_next more, fun _ => ⟨room, few⟩⟩

/-- A count line that is not negative starts the counters, or drops the package. -/
theorem CountersHold.count (state : s.thread.protocol_state_ = .bbCount)
    (announced : 0 ≤ (QByteArray.toInt s.line).toInt) (rest : QByteArray) (error : Bool) :
    CountersHold qt ⟨(onLine qt s.thread s.line).thread, rest, [], error⟩ := by
  rw [onLine, state]
  by_cases faulty : QByteArray.toInt s.line = 0
  · refine .idle ?_ ?_ ?_ <;> simp [bbCountCase, faulty]
  · have apart : (QByteArray.toInt s.line).toInt ≠ 0 := fun zero =>
      faulty (Int32.toInt_inj.mp zero)
    have below : (0 : Int32).toInt < (QByteArray.toInt s.line).toInt := by
      rw [Int32.toInt_zero]
      omega
    constructor <;> simp [bbCountCase, faulty]
    omega

/-- Every call keeps the counters unless it reads a negative size or count. -/
theorem CountersHold.call (holds : CountersHold qt s) (guarded : countGuard s .call) :
    CountersHold qt (s.step qt .call) := by
  cases ended : s.ended with
  | true => simpa [step, ended] using holds
  | false =>
    cases ready : s.thread.ready s.unread with
    | false => simpa [step_idle ready] using holds
    | true =>
      by_cases image : s.thread.protocol_state_ = .image
      · have fits : s.thread.next_image_size_.toInt ≤ s.unread.length := by
          simpa [ClientThread.ready, image] using ready
        rw [step_call ended ready, switchCase_image image, if_pos fits, linesAfter, image]
        exact .idle (by simp [imageCase]) (by simp [imageCase]) holds.within
      · have readable : canReadLine s.unread = true := by
          simpa [ClientThread.ready, image] using ready
        obtain ⟨text, rest, split, whole⟩ := exists_line readable
        obtain ⟨line, stepped⟩ := step_line qt ended image split whole
        have announced := guarded ended readable
        rw [stepped, ← line, linesAfter]
        cases state : s.thread.protocol_state_ with
        | image => exact absurd state image
        | boundingRects => exact holds.rectangle state rest
        | bbCount => exact .count state (announced (.inr state)) rest _
        | imageSize =>
          rw [onLine, state]
          exact .idle (fun _ => announced (.inl state)) (by simp [imageSizeCase]) holds.within
        | protocolName =>
          rw [onLine, state]
          simp only [protocolNameCase]
          split <;> exact .idle (by simp [ClientThread.disconnect, state])
            (by simp [ClientThread.disconnect, state]) holds.within
        | _ =>
          rw [onLine, state]
          exact .idle (by simp [clientNameCase, timestampCase])
            (by simp [clientNameCase, timestampCase]) holds.within

theorem CountersHold.step (holds : CountersHold qt s) {event : Event}
    (guarded : countGuard s event) : CountersHold qt (s.step qt event) := by
  cases event with
  | packet bytes =>
    simp only [Receiving.step]
    split
    · exact holds
    · exact ⟨holds.size, holds.counter, holds.counted, holds.rects, holds.next, holds.within⟩
  | call => exact holds.call guarded

/-- A negative size or count breaks the counters at once. -/
theorem counters_break {event : Event} (unguarded : ¬ countGuard s event) :
    ¬ CountersHold qt (s.step qt event) := by
  cases event with
  | packet bytes => exact absurd trivial unguarded
  | call =>
    simp only [countGuard, Classical.not_imp, Int.not_le] at unguarded
    obtain ⟨going, readable, state, negative⟩ := unguarded
    obtain ⟨text, rest, split, whole⟩ := exists_line readable
    have notImage : s.thread.protocol_state_ ≠ .image := by
      rcases state with state | state <;> simp [state]
    obtain ⟨line, stepped⟩ := step_line qt going notImage split whole
    rw [stepped, ← line]
    intro holds
    rcases state with state | state
    · rw [onLine, state] at holds
      have size : 0 ≤ (QByteArray.toInt s.line).toInt := holds.size rfl
      omega
    · have faulty : QByteArray.toInt s.line ≠ 0 := by
        intro zero
        rw [zero, Int32.toInt_zero] at negative
        omega
      have entered : (bbCountCase s.thread s.line).thread.protocol_state_ = .boundingRects := by
        simp [bbCountCase, faulty]
      rw [onLine, state] at holds
      have below : (0 : Int32).toInt < (QByteArray.toInt s.line).toInt := (holds.counter entered).2
      rw [Int32.toInt_zero] at below
      omega

/-- In every run of the receive loop the counters hold in every state exactly when
no size line and no count line that is read gives a negative number. -/
theorem counters_hold_iff (qt : Qt Image) (t : ClientThread Image) (events : List Event) :
    Throughout (step qt) (CountersHold qt) (start t) events ↔
      Meets (step qt) countGuard (start t) events :=
  throughout_iff_meets (CountersHold qt) (fun _ holds => holds)
    (fun _ _ holds guarded => holds.step guarded) (fun _ _ _ unguarded => counters_break unguarded)
    (start_holds t) events

/-- A count of -1. -/
def negativeCount : QByteArray :=
  glp ++ [newline, 97, newline, 53, newline, 48, newline, 45, 49, newline]

/-- The receiver then waits for rectangles without end. -/
theorem negative_count_accepted : ¬ Throughout (step Qt.reference) (CountersHold Qt.reference)
    (start (create 0 0 0)) (.packet negativeCount :: List.replicate 6 .call) := by
  intro always
  have below := (always.last.counter (by decide +kernel)).2
  exact absurd below (by decide +kernel)

end Videovigilancia.CounterProofs
