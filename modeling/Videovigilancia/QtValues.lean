import Mathlib.Data.Char
import Mathlib.Data.List.Basic
import Mathlib.Data.List.TakeWhile
import Mathlib.Data.Int.Basic
import Videovigilancia.Positional

/-! The Qt values both programs compute with. Bytes and characters are lists,
`int` and `qint64` are fixed-width, and a number is written and read as decimal
text. The UTF-8 decoder, the image plugin and the database are Qt's own code: the model
takes them as parameters (`Qt`), and `Qt.DecodesUtf8` states what is relied on. -/
namespace Videovigilancia

abbrev QByteArray := List UInt8
abbrev QString := List Char

def newline : UInt8 := 10

/-! ## Numbers as text -/

/-- The character codes of a decimal integer, as `QByteArray::number` and
`QString::number` write them. -/
def numberCodes (n : Int) : List Nat :=
  (if n < 0 then [45] else []) ++ (Positional.text 10 n.natAbs).map (48 + ·)

/-- `QByteArray::number`. -/
def QByteArray.number (n : Int) : QByteArray := (numberCodes n).map UInt8.ofNat

/-- `QVariant::toString` of an integer column. -/
def QString.number (n : Int) : QString := (numberCodes n).map Char.ofNat

private def readDigits (codes : List Nat) : Option Nat :=
  if codes ≠ [] ∧ ∀ c ∈ codes, 48 ≤ c ∧ c < 58 then
    some (Positional.value 10 (codes.map (· - 48)))
  else none

/-- One optional sign and at least one digit, nothing else. -/
def readInt : List Nat → Option Int
  | 45 :: codes => (readDigits codes).map fun n : Nat => -(n : Int)
  | 43 :: codes => (readDigits codes).map fun n : Nat => (n : Int)
  | codes => (readDigits codes).map fun n : Nat => (n : Int)

/-- The result of Qt's `toInt`: 0 when nothing was read or it does not fit. -/
def toIntResult : Option Int → Int32
  | some n => if -2147483648 ≤ n ∧ n < 2147483648 then Int32.ofInt n else 0
  | none => 0

def isSpaceByte (c : Nat) : Bool := c = 32 || (9 ≤ c && c ≤ 13)

/-- `QChar::isSpace`: the ASCII white space and the Unicode separators. -/
def isSpaceChar (c : Nat) : Bool :=
  isSpaceByte c || c ∈ [0x85, 0xA0, 0x1680, 0x2028, 0x2029, 0x202F, 0x205F, 0x3000] ||
    (0x2000 ≤ c && c ≤ 0x200A)

/-- `QByteArray::toInt`: a C string, so a NUL ends the text; white space may
stand in front of the number and nothing behind it. -/
def QByteArray.toInt (bytes : QByteArray) : Int32 :=
  toIntResult (readInt (((bytes.map UInt8.toNat).takeWhile (· ≠ 0)).dropWhile isSpaceByte))

/-- `QString::toInt`: white space may stand on both sides of the number, and the
minus sign U+2212 counts as a hyphen. -/
def QString.toInt (s : QString) : Int32 :=
  let trimmed := (((s.map Char.toNat).dropWhile isSpaceChar).reverse.dropWhile isSpaceChar).reverse
  toIntResult (readInt (trimmed.map fun c => if c = 0x2212 then 45 else c))

/-- A printed number uses the minus sign and the digits only. -/
theorem numberCodes_range {n : Int} {c : Nat} (member : c ∈ numberCodes n) : 45 ≤ c ∧ c < 58 := by
  simp only [numberCodes, List.mem_append, List.mem_map] at member
  rcases member with sign | ⟨d, digit, rfl⟩
  · split at sign
    · have : c = 45 := by simpa using sign
      omega
    · simp at sign
  · have := Positional.text_lt (by omega) _ d digit
    omega

private theorem readDigits_text (n : Nat) :
    readDigits ((Positional.text 10 n).map (48 + ·)) = some n := by
  have digits : ∀ c ∈ (Positional.text 10 n).map (48 + ·), 48 ≤ c ∧ c < 58 := by
    intro c member
    obtain ⟨d, digit, rfl⟩ := List.mem_map.mp member
    have := Positional.text_lt (by omega) n d digit
    omega
  have back : ((Positional.text 10 n).map (48 + ·)).map (· - 48) = Positional.text 10 n := by
    rw [List.map_map]
    exact (List.map_congr_left fun d _ => by simp).trans (List.map_id _)
  rw [readDigits, if_pos ⟨by simpa using Positional.text_ne_nil n, digits⟩, back,
    Positional.value_text]

/-- Reading inverts printing on every integer. -/
theorem readInt_numberCodes (n : Int) : readInt (numberCodes n) = some n := by
  by_cases negative : n < 0
  · have magnitude : -(n.natAbs : Int) = n := by omega
    simp only [numberCodes, if_pos negative, List.cons_append, List.nil_append, readInt,
      readDigits_text, Option.map_some, magnitude]
  · have magnitude : (n.natAbs : Int) = n := by omega
    have unsigned : numberCodes n = (Positional.text 10 n.natAbs).map (48 + ·) := by
      simp [numberCodes, negative]
    have read : readInt (numberCodes n) =
        (readDigits (numberCodes n)).map fun k : Nat => (k : Int) := by
      rw [unsigned]
      cases Positional.text 10 n.natAbs with
      | nil => rfl
      | cons d ds =>
        rw [List.map_cons]
        unfold readInt
        split
        · rename_i same
          simp only [List.cons.injEq] at same
          omega
        · rename_i same
          simp only [List.cons.injEq] at same
          omega
        · rfl
    rw [read, unsigned, readDigits_text, Option.map_some, magnitude]

/-- An ASCII code survives the way through `QChar`. -/
theorem ascii_toNat : ∀ c < 128, (Char.ofNat c).toNat = c := by decide

private theorem dropWhile_of_all_false {l : List Nat} {p : Nat → Bool}
    (keeps : ∀ c ∈ l, p c = false) : l.dropWhile p = l := by
  cases l with
  | nil => rfl
  | cons c l => rw [List.dropWhile_cons_of_neg (by simp [keeps c (by simp)])]

private theorem not_space {c : Nat} (low : 45 ≤ c) (high : c < 58) : isSpaceChar c = false := by
  have cases : ∀ c < 58, 45 ≤ c → isSpaceChar c = false := by decide
  exact cases c high low

/-- No white space stands in front of a printed number. -/
theorem numberCodes_unspaced (n : Int) : (numberCodes n).dropWhile isSpaceByte = numberCodes n := by
  apply dropWhile_of_all_false
  intro c member
  have plain := not_space (numberCodes_range member).1 (numberCodes_range member).2
  simp only [isSpaceChar, Bool.or_eq_false_iff] at plain
  exact plain.1.1

theorem toIntResult_toInt (n : Int32) : toIntResult (some n.toInt) = n := by
  rw [toIntResult, if_pos ⟨n.le_toInt, n.toInt_lt⟩, Int32.ofInt_toInt]

@[simp] theorem QByteArray.toInt_number (n : Int32) :
    QByteArray.toInt (QByteArray.number n.toInt) = n := by
  have codes : (QByteArray.number n.toInt).map UInt8.toNat = numberCodes n.toInt := by
    rw [QByteArray.number, List.map_map]
    refine (List.map_congr_left fun c member => ?_).trans (List.map_id _)
    have := numberCodes_range member
    simp only [Function.comp, UInt8.toNat_ofNat', id]
    omega
  have noNul : (numberCodes n.toInt).takeWhile (· ≠ 0) = numberCodes n.toInt := by
    rw [List.takeWhile_eq_self_iff]
    intro c member
    have := numberCodes_range member
    simp only [ne_eq, decide_not, Bool.not_eq_true', decide_eq_false_iff_not]
    omega
  rw [QByteArray.toInt, codes, noNul, numberCodes_unspaced, readInt_numberCodes,
    toIntResult_toInt]

/-- The characters of a printed number. -/
theorem QString.number_codes (n : Int) : (QString.number n).map Char.toNat = numberCodes n := by
  rw [QString.number, List.map_map]
  refine (List.map_congr_left fun c member => ?_).trans (List.map_id _)
  have := numberCodes_range member
  exact ascii_toNat c (by omega)

/-- The text of any integer reads as that integer, or as 0 where it does not fit. -/
theorem QString.toInt_text (n : Int) : QString.toInt (QString.number n) = toIntResult (some n) := by
  have plain : ∀ c ∈ numberCodes n, isSpaceChar c = false := fun c member =>
    not_space (numberCodes_range member).1 (numberCodes_range member).2
  have backwards : (numberCodes n).reverse.dropWhile isSpaceChar = (numberCodes n).reverse :=
    dropWhile_of_all_false fun c member => plain c (List.mem_reverse.mp member)
  have hyphens : (numberCodes n).map (fun c => if c = 0x2212 then 45 else c) = numberCodes n := by
    refine (List.map_congr_left fun c member => ?_).trans (List.map_id _)
    have := numberCodes_range member
    exact if_neg (by omega)
  simp only [QString.toInt]
  rw [number_codes, dropWhile_of_all_false plain, backwards, List.reverse_reverse, hyphens,
    readInt_numberCodes]

@[simp] theorem QString.toInt_number (n : Int32) : QString.toInt (QString.number n.toInt) = n := by
  rw [QString.toInt_text, toIntResult_toInt]

/-- `QString::split` with one separator, empty parts kept. -/
def QString.split (s : QString) (sep : Char) : List QString := s.splitOn sep

/-! ## Counters -/

/-- An `int` that counts is its count modulo `2 ^ 32`. -/
theorem counter_ofNat (k : Nat) : (Int32.ofNat k).toUInt32.toNat = k % 2 ^ 32 := rfl

theorem counter_injective {m n : Int32} (same : m.toUInt32.toNat = n.toUInt32.toNat) : m = n := by
  cases m
  cases n
  exact congrArg Int32.ofUInt32 (UInt32.toNat_inj.mp same)

theorem ofNat_inj {a b : Nat} (ha : a < 2 ^ 32) (hb : b < 2 ^ 32)
    (same : Int32.ofNat a = Int32.ofNat b) : a = b := by
  have counted := congrArg (fun n : Int32 => n.toUInt32.toNat) same
  simp only [counter_ofNat] at counted
  omega

/-! ## Rectangles -/

/-- `QRect` stores corners; its sizes are computed from them in `int`. -/
structure QRect where
  x1 : Int32
  y1 : Int32
  x2 : Int32
  y2 : Int32
  deriving DecidableEq

namespace QRect

/-- The constructor from a position and a size. -/
def ofSize (x y width height : Int32) : QRect := ⟨x, y, x + width - 1, y + height - 1⟩

def x (r : QRect) : Int32 := r.x1
def y (r : QRect) : Int32 := r.y1
def width (r : QRect) : Int32 := r.x2 - r.x1 + 1
def height (r : QRect) : Int32 := r.y2 - r.y1 + 1

/-- A rectangle is determined by the four values that are sent, wrap-around of
the corners included. -/
@[simp] theorem ofSize_self (r : QRect) : ofSize r.x r.y r.width r.height = r := by
  cases r
  simp only [ofSize, x, y, width, height, QRect.mk.injEq, true_and]
  constructor <;> grind

@[simp] theorem x_ofSize (x y w h : Int32) : (ofSize x y w h).x = x := rfl
@[simp] theorem y_ofSize (x y w h : Int32) : (ofSize x y w h).y = y := rfl
@[simp] theorem width_ofSize (x y w h : Int32) : (ofSize x y w h).width = w := by
  simp only [ofSize, width]
  grind
@[simp] theorem height_ofSize (x y w h : Int32) : (ofSize x y w h).height = h := by
  simp only [ofSize, height]
  grind

end QRect

/-! ## What Qt does outside this repository -/

/-- The UTF-8 bytes of a string, as `QByteArray::append(QString)` adds them. -/
def QString.toUtf8 (s : QString) : QByteArray := s.flatMap String.utf8EncodeChar

/-- The characters Unicode sets aside: U+FDD0 to U+FDEF, and the last two of each plane. -/
def isNonCharacter (c : Char) : Bool :=
  (0xFDD0 ≤ c.toNat && c.toNat ≤ 0xFDEF) || 0xFFFE ≤ c.toNat % 0x10000

def byteOrderMark : Char := Char.ofNat 0xFEFF

/-- A text that a UTF-8 decoder leaves as it is: it skips a byte order mark at the
start, and may put something else for what is not a character. -/
structure QString.Plain (s : QString) : Prop where
  no_mark : s.head? ≠ some byteOrderMark
  no_nonCharacter : ∀ c ∈ s, isNonCharacter c = false

/-- A number in a table; a REAL is the bits of a double. -/
inductive SqlNumber where
  | integer (n : Int)
  | real (bits : UInt64)
  deriving DecidableEq

/-- Qt's decoders: `QString(QByteArray)`, `QImage::load(.., "jpeg")` into an
empty image, and whether the image came out null. `readReal` is what the SQLite
that comes with Qt makes of a text that is a number, but not just a 64-bit integer. -/
structure Qt (Image : Type) where
  fromUtf8 : QByteArray → QString
  loadJpeg : QByteArray → Image
  isNull : Image → Bool
  readReal : QString → SqlNumber

/-- `QString(QByteArray)` reads back the UTF-8 bytes of a plain string; it stops at a
NUL, so the string must have none. -/
def Qt.DecodesUtf8 {Image : Type} (qt : Qt Image) : Prop :=
  ∀ s : QString, '\x00' ∉ s → s.Plain → qt.fromUtf8 s.toUtf8 = s

/-- A concrete Qt for examples: Lean's own UTF-8 decoder behind the byte order mark,
with U+FFFD for what is not a character, an image that is its bytes, null when there
are none. No example has a real number. -/
def Qt.reference : Qt QByteArray where
  fromUtf8 bytes :=
    let s := ((ByteArray.utf8Decode? ⟨bytes.toArray⟩).getD #[]).toList
    let unmarked := if s.head? = some byteOrderMark then s.tail else s
    unmarked.map fun c => if isNonCharacter c then Char.ofNat 0xFFFD else c
  loadJpeg bytes := bytes
  isNull bytes := bytes.isEmpty
  readReal _ := .real 0

theorem Qt.reference_decodes : Qt.reference.DecodesUtf8 := by
  intro s _ plain
  have bytes : (⟨s.toUtf8.toArray⟩ : ByteArray) = s.utf8Encode := by
    rw [List.utf8Encode, ByteArray.ext_iff]
    simp [QString.toUtf8]
  have characters : s.map (fun c => if isNonCharacter c then Char.ofNat 0xFFFD else c) = s :=
    (List.map_congr_left fun c member => by simp [plain.no_nonCharacter c member]).trans
      (List.map_id _)
  simp only [Qt.reference]
  rw [bytes, List.utf8Decode?_utf8Encode]
  simpa [plain.no_mark] using characters

private theorem ascii_utf8 : ∀ c < 128, String.utf8EncodeChar (Char.ofNat c) = [UInt8.ofNat c] := by
  decide

private theorem ascii_nonzero : ∀ c < 128, 0 < c → Char.ofNat c ≠ '\x00' := by decide

/-- ASCII text is plain. -/
theorem QString.plain_of_ascii {s : QString} (ascii : ∀ c ∈ s, c.toNat < 128) : s.Plain where
  no_mark starts := by
    have mark : byteOrderMark.toNat = 0xFEFF := rfl
    have := ascii _ (List.mem_of_head? starts)
    omega
  no_nonCharacter c member := by
    have := ascii c member
    simp only [isNonCharacter, Bool.or_eq_false_iff, Bool.and_eq_false_iff, decide_eq_false_iff_not]
    omega

/-- ASCII text reaches the other side character by character. -/
theorem Qt.DecodesUtf8.ascii {Image : Type} {qt : Qt Image} (utf8 : qt.DecodesUtf8)
    {codes : List Nat} (ascii : ∀ c ∈ codes, 0 < c ∧ c < 128) :
    qt.fromUtf8 (codes.map UInt8.ofNat) = codes.map Char.ofNat := by
  have bytes : QString.toUtf8 (codes.map Char.ofNat) = codes.map UInt8.ofNat := by
    rw [QString.toUtf8, List.flatMap_map, List.map_eq_flatMap]
    exact List.flatMap_congr fun c member => ascii_utf8 c (ascii c member).2
  have plain : QString.Plain (codes.map Char.ofNat) := by
    apply QString.plain_of_ascii
    intro d member
    obtain ⟨c, listed, rfl⟩ := List.mem_map.mp member
    rw [ascii_toNat c (ascii c listed).2]
    exact (ascii c listed).2
  rw [← bytes]
  refine utf8 _ ?_ plain
  intro nul
  obtain ⟨c, member, same⟩ := List.mem_map.mp nul
  exact ascii_nonzero c (ascii c member).2 (ascii c member).1 same

/-- A printed number reaches the other side as it is. -/
theorem Qt.DecodesUtf8.number {Image : Type} {qt : Qt Image} (utf8 : qt.DecodesUtf8) (n : Int) :
    qt.fromUtf8 (QByteArray.number n) = QString.number n := by
  apply utf8.ascii
  intro code member
  have := numberCodes_range member
  omega

end Videovigilancia
