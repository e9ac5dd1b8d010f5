import Videovigilancia.ProvenanceProofs

/-! Which numbers reach the store. The count of a stored package is the number of
its rectangle lines, and every rectangle line has four parts; but the size and
the parts are read by `toInt` without asking whether they are numbers at all, so
a text that is none is stored as 0, and a size that is none as an empty image. -/
namespace Videovigilancia
namespace ProvenanceProofs
open ClientThread ReceiverProofs StreamFraming

variable {Image : Type} {qt : Qt Image}

/-! ## What a text is read as -/

/-- The number that `QByteArray::toInt` finds, without a bound. -/
def byteNumber (bytes : QByteArray) : Option Int :=
  readInt (((bytes.map UInt8.toNat).takeWhile (· ≠ 0)).dropWhile isSpaceByte)

/-- The number that `QString::toInt` finds, without a bound. -/
def charNumber (s : QString) : Option Int :=
  let trimmed := (((s.map Char.toNat).dropWhile isSpaceChar).reverse.dropWhile isSpaceChar).reverse
  readInt (trimmed.map fun c => if c = 0x2212 then 45 else c)

/-- The number itself when there is one and an `int` can hold it, or 0. -/
def intOrZero : Option Int → Int
  | some n => if -2147483648 ≤ n ∧ n < 2147483648 then n else 0
  | none => 0

theorem toIntResult_orZero (found : Option Int) : (toIntResult found).toInt = intOrZero found := by
  cases found with
  | none => rfl
  | some n =>
    simp only [toIntResult, intOrZero]
    split
    · rename_i fits
      exact Int32.toInt_ofInt_of_le (by omega) (by omega)
    · rfl

theorem toInt_bytes (bytes : QByteArray) :
    (QByteArray.toInt bytes).toInt = intOrZero (byteNumber bytes) :=
  toIntResult_orZero _

theorem toInt_chars (s : QString) : (QString.toInt s).toInt = intOrZero (charNumber s) :=
  toIntResult_orZero _

/-- Only a number is read as something else than 0. -/
theorem found_of_orZero {found : Option Int} (nonzero : intOrZero found ≠ 0) :
    found = some (intOrZero found) := by
  cases found with
  | none => exact absurd rfl nonzero
  | some n =>
    simp only [intOrZero] at nonzero ⊢
    split at nonzero
    · rename_i fits
      rw [if_pos fits]
    · exact absurd rfl nonzero

theorem orZero_of_fits {n : Int} (low : -2147483648 ≤ n) (high : n < 2147483648) :
    intOrZero (some n) = n := if_pos ⟨low, high⟩

/-! ## The numbers of a stored package -/

/-- A rectangle line of exactly four parts, with the rectangle they are read as. -/
def RectRead (qt : Qt Image) (line : Line) (rect : QRect) : Prop :=
  ∃ x y width height, (qt.fromUtf8 line.text).split '_' = [x, y, width, height] ∧
    rect.x.toInt = intOrZero (charNumber x) ∧ rect.y.toInt = intOrZero (charNumber y) ∧
    rect.width.toInt = intOrZero (charNumber width) ∧
    rect.height.toInt = intOrZero (charNumber height)

/-- The numbers of a stored package, as they are read from its segment. -/
structure NumbersRead (qt : Qt Image) (s : Segment) (c : Completed Image) : Prop where
  image : c.last_image_ = some (qt.loadJpeg s.image)
  size : byteNumber s.size.text = some (s.image.length : Int) ∧ s.image.length < 2 ^ 31 ∨
    (∀ n, byteNumber s.size.text = some n → n < 0 ∨ 2 ^ 31 ≤ n) ∧ s.image = []
  count : c.last_boundingboxes_.length < 2 ^ 31 →
    byteNumber s.count.text = some (c.last_boundingboxes_.length : Int) ∧
      0 < c.last_boundingboxes_.length
  lines : s.rects.length = c.last_boundingboxes_.length
  rects : List.Forall₂ (RectRead qt) s.rects c.last_boundingboxes_

theorem rectRead_of_read {line : Line} {rect : QRect}
    (read : rectOfLine qt line.text = some rect) : RectRead qt line rect := by
  obtain ⟨x, y, width, height, parts, left, top, wide, high⟩ := rectOfLine_parts read
  refine ⟨x, y, width, height, parts, ?_, ?_, ?_, ?_⟩
  · rw [left, toInt_chars]
  · rw [top, toInt_chars]
  · rw [wide, toInt_chars]
  · rw [high, toInt_chars]

theorem MadeOf.numbers {s : Segment} {c : Completed Image} (made : MadeOf qt s c) :
    NumbersRead qt s c := by
  have lengths : s.rects.length = c.last_boundingboxes_.length := by
    simpa using congrArg List.length made.gives.rects
  have some_rects : 0 < s.rects.length := List.length_pos_iff.mpr made.some_rects
  refine ⟨made.gives.image, ?_, fun short => ?_, lengths, ?_⟩
  · have announced := made.image_length
    rw [toInt_bytes] at announced
    cases found : byteNumber s.size.text with
    | none =>
      rw [found] at announced
      have empty : s.image = [] := List.length_eq_zero_iff.mp (by simpa [intOrZero] using announced)
      exact .inr ⟨fun n number => (by cases number), empty⟩
    | some n =>
      by_cases fits : 0 ≤ n ∧ n < 2 ^ 31
      · rw [found, orZero_of_fits (by omega) (by omega)] at announced
        have same : (s.image.length : Int) = n := by omega
        exact .inl ⟨by rw [same], by omega⟩
      · have empty : s.image = [] := by
          apply List.length_eq_zero_iff.mp
          rw [found] at announced
          simp only [intOrZero] at announced
          split at announced <;> omega
        refine .inr ⟨fun m number => ?_, empty⟩
        cases number
        omega
  · have counted := congrArg Int32.toInt made.count
    rw [toInt_bytes, Int32.toInt_ofNat_of_lt (by omega), lengths] at counted
    refine ⟨?_, by omega⟩
    have nonzero : intOrZero (byteNumber s.count.text) ≠ 0 := by omega
    rw [found_of_orZero nonzero, counted]
  · exact made.gives.each_rect.imp fun _ _ => rectRead_of_read

/-- The numbers of every stored package are read from its own segment: the count is
the number of its rectangle lines, and each of these has four parts; a size or a
part that is no number, or one that does not fit, is read as 0. -/
theorem stored_numbers_read (qt : Qt Image) (t : ClientThread Image) (chunks : List QByteArray) :
    Segmented (fun seg c => ∃ s : Segment, seg = s.bytes ∧ NumbersRead qt s c) chunks.flatten
      (run qt t chunks).completed :=
  (run_segmented (receiver_accounts qt) t chunks).imp
    fun _ _ ⟨s, bytes, made⟩ => ⟨s, bytes, made.numbers⟩

/-! ## Texts that are no numbers -/

/-- A decimal integer between two bounds, and nothing else. -/
def IsDecimal (low high : Int) (codes : List Nat) : Prop :=
  ∃ n, readInt codes = some n ∧ low ≤ n ∧ n ≤ high

/-- Every number of the segment is written as one, in its range. -/
structure WellWritten (qt : Qt Image) (s : Segment) : Prop where
  size : IsDecimal 0 (2 ^ 31 - 1) (s.size.text.map UInt8.toNat)
  count : IsDecimal 1 (2 ^ 31 - 1) (s.count.text.map UInt8.toNat)
  rects : ∀ line ∈ s.rects, ∃ x y width height,
    (qt.fromUtf8 line.text).split '_' = [x, y, width, height] ∧
    ∀ part ∈ [x, y, width, height], IsDecimal (-2 ^ 31) (2 ^ 31 - 1) (part.map Char.toNat)

theorem Line.bytes_inj {first second : Line} {rest rest' : QByteArray}
    (same : first.bytes ++ rest = second.bytes ++ rest') : first = second ∧ rest = rest' := by
  have read := congrArg readLine same
  simp only [Line.bytes, List.append_assoc, List.singleton_append,
    readLine_line _ first.whole, readLine_line _ second.whole, Prod.mk.injEq,
    List.append_cancel_right_eq] at read
  cases first
  cases second
  exact ⟨by simpa using read.1, read.2⟩

/-- A package that says `x` where its image size should be. -/
def sizeless : Segment :=
  ⟨⟨[97], by decide⟩, ⟨[53], by decide⟩, ⟨[120], by decide⟩, [], ⟨[49], by decide⟩,
    [⟨[49, 95, 49, 95, 49, 95, 49], by decide⟩]⟩

/-- It is stored, with an empty image. -/
theorem sizeless_stored : (run Qt.reference (create 0 0 0) [sizeless.bytes]).completed =
    [⟨['a'], ['5'], some [], [QRect.ofSize 1 1 1 1], 0⟩] := by
  decide +kernel

/-- The only package in those bytes is the whole of them. -/
theorem sizeless_alone {gap more : QByteArray} {s : Segment}
    (inside : sizeless.bytes = gap ++ (s.bytes ++ more)) : s.size = sizeless.size := by
  have front : gap = [] := by
    cases gap with
    | nil => rfl
    | cons byte gap =>
      have again : (71 : UInt8) ∈ sizeless.bytes.tail := by
        rw [inside]
        simp [Segment.bytes, Segment.protocolLine, Line.bytes, glp]
      exact absurd again (by decide)
  subst front
  simp only [Segment.bytes, List.nil_append, List.append_assoc] at inside
  obtain ⟨-, inside⟩ := Line.bytes_inj inside
  obtain ⟨-, inside⟩ := Line.bytes_inj inside
  obtain ⟨-, inside⟩ := Line.bytes_inj inside
  exact (Line.bytes_inj inside).1.symm

/-- A size that is no number does not keep a package from being stored. -/
theorem malformed_size_stored :
    ¬ Segmented (fun seg _ => ∃ s : Segment, seg = s.bytes ∧ WellWritten Qt.reference s)
      [sizeless.bytes].flatten
      (run Qt.reference (create 0 0 0) [sizeless.bytes]).completed := by
  intro parts
  rw [sizeless_stored] at parts
  obtain ⟨gap, seg, more, inside, s, rfl, written⟩ := parts.first
  have alone := sizeless_alone (by simpa using inside)
  obtain ⟨n, number, -⟩ := written.size
  have unread : readInt (sizeless.size.text.map UInt8.toNat) = none := by decide
  rw [alone, unread] at number
  cases number

end ProvenanceProofs

end Videovigilancia
