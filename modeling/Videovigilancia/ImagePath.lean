import Videovigilancia.ClientThread

/-! Where an image is saved: `outputDestination_/CLIENTNAME/DATE/FILE`, from the
name of the package, the current date and the thread's frame counter. The path
determines all three: the counter stands behind the last underscore, the date
has a fixed width, and the name is then found by its length, since the rest of
the path holds it twice. -/
namespace Videovigilancia

/-- A calendar date as `QDateTime::toString("yyyy-MM-dd")` prints it. -/
structure QDate where
  year : Nat
  month : Nat
  day : Nat
  year_lt : year < 10000
  month_lt : month < 100
  day_lt : day < 100
  deriving DecidableEq

/-- A day, for examples. -/
def QDate.newYear : QDate := ⟨2014, 1, 1, by decide, by decide, by decide⟩

namespace ImagePath

/-- Decimal digits with leading zeros. -/
def digitsText (width n : Nat) : QString :=
  (Positional.padded 10 width n).map fun d => Char.ofNat (48 + d)

def dateText (date : QDate) : QString :=
  digitsText 4 date.year ++ '-' :: (digitsText 2 date.month ++ '-' :: digitsText 2 date.day)

/-- `if (clientName == "") clientName = "UNNAMED"`. -/
def clientName (name_ : QString) : QString := if name_ = [] then "UNNAMED".toList else name_

/-- The value that `arg` prints in base 16: a negative `int` as 64 bits. -/
def hexValue (n : Int32) : Nat := (n.toInt % 2 ^ 64).toNat

def hexDigit (d : Nat) : Char := if d < 10 then Char.ofNat (48 + d) else Char.ofNat (55 + d)

/-- `QString("%1").arg(frameCounter_, 4, 16, QChar('0')).toUpper()`. -/
def frameText (frameCounter_ : Int32) : QString :=
  (Positional.padded 16 4 (hexValue frameCounter_)).map hexDigit

/-- The directory `dir`; its `path()` is what it was made from, as it ends in the
date and not in a separator. -/
def dirPath (outputDestination_ name_ : QString) (date : QString) : QString :=
  outputDestination_ ++ (clientName name_ ++ '/' :: date)

/-- `filename`. -/
def filename (name_ : QString) (date : QString) (frameCounter_ : Int32) : QString :=
  clientName name_ ++ '_' :: (date ++ '_' :: (frameText frameCounter_ ++ ".png".toList))

/-- `fullpath_`. -/
def fullpath (outputDestination_ name_ date : QString) (frameCounter_ : Int32) : QString :=
  dirPath outputDestination_ name_ date ++ '/' :: filename name_ date frameCounter_

/-! ## Every part can be read back -/

theorem digitsText_length {width n : Nat} (positive : 0 < width) (fits : n < 10 ^ width) :
    (digitsText width n).length = width := by
  rw [digitsText, List.length_map, Positional.padded_length (by omega) positive fits]

theorem digitsText_injective (width : Nat) : Function.Injective (digitsText width) :=
  Positional.padded_map_injective (fun c => c.toNat - 48) (by decide) (by decide) width

theorem dateText_length (date : QDate) : (dateText date).length = 10 := by
  have : (digitsText 4 date.year).length = 4 := digitsText_length (by omega) date.year_lt
  have : (digitsText 2 date.month).length = 2 := digitsText_length (by omega) date.month_lt
  have : (digitsText 2 date.day).length = 2 := digitsText_length (by omega) date.day_lt
  simp only [dateText, List.length_append, List.length_cons]
  omega

theorem dateText_injective : Function.Injective dateText := by
  intro first second same
  have years : (digitsText 4 first.year).length = (digitsText 4 second.year).length := by
    rw [digitsText_length (by omega) first.year_lt, digitsText_length (by omega) second.year_lt]
  have months : (digitsText 2 first.month).length = (digitsText 2 second.month).length := by
    rw [digitsText_length (by omega) first.month_lt, digitsText_length (by omega) second.month_lt]
  obtain ⟨year, rest⟩ := List.append_inj same years
  obtain ⟨month, rest⟩ := List.append_inj (List.cons.inj rest).2 months
  have day := (List.cons.inj rest).2
  cases first
  cases second
  simp only [QDate.mk.injEq]
  exact ⟨digitsText_injective 4 year, digitsText_injective 2 month, digitsText_injective 2 day⟩

theorem hexValue_injective : Function.Injective hexValue := by
  intro m n same
  have := m.le_toInt
  have := m.toInt_lt
  have := n.le_toInt
  have := n.toInt_lt
  apply Int32.toInt_inj.mp
  simp only [hexValue] at same
  omega

theorem frameText_injective : Function.Injective frameText := fun _ _ same =>
  hexValue_injective (Positional.padded_map_injective
    (fun c => if c.toNat < 58 then c.toNat - 48 else c.toNat - 55)
    (by decide) (by decide) 4 same)

theorem underscore_not_in_frameText (n : Int32) : '_' ∉ frameText n :=
  Positional.not_mem_padded_map (by omega) (by decide) 4 _

theorem slash_not_in_frameText (n : Int32) : '/' ∉ frameText n :=
  Positional.not_mem_padded_map (by omega) (by decide) 4 _

theorem slash_not_in_digitsText (width n : Nat) : '/' ∉ digitsText width n :=
  Positional.not_mem_padded_map (by omega) (by decide) width n

theorem slash_not_in_dateText (date : QDate) : '/' ∉ dateText date := by
  simp [dateText, slash_not_in_digitsText]

/-- What stands behind the last separator is determined. -/
theorem append_separator_inj {α : Type} {sep : α} {front front' back back' : List α}
    (last : sep ∉ back) (last' : sep ∉ back') (same : front ++ sep :: back = front' ++ sep :: back') :
    front = front' ∧ back = back' := by
  rcases List.append_eq_append_iff.mp same with ⟨between, rfl, rest⟩ | ⟨between, rfl, rest⟩
  · cases between with
    | nil => simpa using rest
    | cons c between =>
      rw [List.cons_append, List.cons.injEq] at rest
      exact absurd (by rw [rest.2]; simp) last
  · cases between with
    | nil => simpa using rest.symm
    | cons c between =>
      rw [List.cons_append, List.cons.injEq] at rest
      exact absurd (by rw [rest.2]; simp) last'

/-- Below one output folder, two paths are equal exactly when the names (with
UNNAMED for the empty one), the dates and the counters are. -/
theorem fullpath_inj {out name name' date date' : QString} {n n' : Int32}
    (width : date.length = date'.length) :
    fullpath out name date n = fullpath out name' date' n' ↔
      clientName name = clientName name' ∧ date = date' ∧ n = n' := by
  constructor
  · intro same
    simp only [fullpath, dirPath, filename, List.append_assoc, List.cons_append] at same
    have noExtension := List.append_cancel_left same
    have split (name date frame : QString) :
        name ++ '/' :: (date ++ '/' :: (name ++ '_' :: (date ++ '_' :: (frame ++ ".png".toList)))) =
          (name ++ '/' :: (date ++ '/' :: (name ++ '_' :: date))) ++ '_' :: frame ++
            ".png".toList := by
      simp
    rw [split, split] at noExtension
    obtain ⟨front, frame⟩ := append_separator_inj (underscore_not_in_frameText n)
      (underscore_not_in_frameText n') (List.append_cancel_right noExtension)
    have lengths := congrArg List.length front
    simp only [List.length_append, List.length_cons] at lengths
    have names : (clientName name).length = (clientName name').length := by omega
    obtain ⟨name, rest⟩ := List.append_inj front names
    obtain ⟨date, _⟩ := List.append_inj (List.cons.inj rest).2 width
    exact ⟨name, date, frameText_injective frame⟩
  · rintro ⟨name, rfl, rfl⟩
    simp only [fullpath, dirPath, filename, name]

end ImagePath

end Videovigilancia
