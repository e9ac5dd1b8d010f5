import Mathlib.Data.List.Basic

/-! Argument lists that are read word by word, each word with the one behind it at
hand. A user types pairs of an option word and a value, and words that stand
alone; the program means what was typed as long as nothing happens at a value
(`scan_typed`). Nothing here knows which words there are. -/
namespace Videovigilancia.OptionWords

variable {μ ω σ φ : Type}

/-- Every word in turn with the word behind it; `none` when a turn ends the program. -/
def scan (turn : μ → ω → Option ω → Option μ) : μ → List ω → Option μ
  | m, [] => some m
  | m, word :: words => (turn m word words.head?).bind fun m => scan turn m words

/-- A setting with its value, or a word that stands alone, spelled short or long. -/
inductive Item (σ φ ω : Type) where
  | pair (setting : σ) (long : Bool) (value : ω)
  | alone (flag : φ) (long : Bool)

/-- The two words of every option. -/
structure Spelling (σ φ ω : Type) where
  pair : σ → Bool → ω
  alone : φ → Bool → ω

/-- The words of one item. -/
def Item.words (spelling : Spelling σ φ ω) : Item σ φ ω → List ω
  | .pair setting long value => [spelling.pair setting long, value]
  | .alone flag long => [spelling.alone flag long]

/-- The argument list. -/
def typed (spelling : Spelling σ φ ω) (items : List (Item σ φ ω)) : List ω :=
  items.flatMap (Item.words spelling)

/-! ## What was typed last -/

section LastValue

variable [DecidableEq σ]

def Item.valueOf (setting : σ) : Item σ φ ω → Option ω
  | .pair other _ value => if other = setting then some value else none
  | .alone _ _ => none

/-- The value of the last pair for a setting. -/
def lastValue (setting : σ) (items : List (Item σ φ ω)) : Option ω :=
  (items.filterMap (Item.valueOf setting)).getLast?

@[simp] theorem lastValue_nil (setting : σ) : lastValue setting ([] : List (Item σ φ ω)) = none := rfl

@[simp] theorem lastValue_pair (setting other : σ) (long : Bool) (value : ω)
    (items : List (Item σ φ ω)) : lastValue setting (items ++ [.pair other long value]) =
      if other = setting then some value else lastValue setting items := by
  by_cases same : other = setting <;> simp [lastValue, Item.valueOf, same]

@[simp] theorem lastValue_alone (setting : σ) (flag : φ) (long : Bool) (items : List (Item σ φ ω)) :
    lastValue setting (items ++ [.alone flag long]) = lastValue setting items := by
  simp [lastValue, Item.valueOf]

end LastValue

/-! ## Reading what was typed -/

variable {turn : μ → ω → Option ω → Option μ} {spelling : Spelling σ φ ω}

/-- The turn at the option word of an item. A word alone does not know what stands
behind it. -/
inductive ItemTurn (turn : μ → ω → Option ω → Option μ) (spelling : Spelling σ φ ω) :
    Item σ φ ω → μ → μ → Prop where
  | pair {setting : σ} {long : Bool} {value : ω} {m m' : μ}
      (moved : turn m (spelling.pair setting long) (some value) = some m') :
      ItemTurn turn spelling (.pair setting long value) m m'
  | alone {flag : φ} {long : Bool} {next : Option ω} {m m' : μ}
      (moved : turn m (spelling.alone flag long) next = some m') :
      ItemTurn turn spelling (.alone flag long) m m'

/-- The turn at a value leaves every state as it is. -/
def ValuesIgnored (turn : μ → ω → Option ω → Option μ) (spelling : Spelling σ φ ω)
    (items : List (Item σ φ ω)) : Prop :=
  ∀ front setting long value back, items = front ++ .pair setting long value :: back →
    ∀ m, turn m value (typed spelling back).head? = some m

theorem ValuesIgnored.tail {item : Item σ φ ω} {items : List (Item σ φ ω)}
    (ignored : ValuesIgnored turn spelling (item :: items)) : ValuesIgnored turn spelling items :=
  fun front setting long value back split =>
    ignored (item :: front) setting long value back (by rw [split]; rfl)

/-- Items whose turns end nothing get through. -/
theorem scan_typed_isSome {items : List (Item σ φ ω)} (ignored : ValuesIgnored turn spelling items)
    (pairs : ∀ m setting long value, .pair setting long value ∈ items →
      (turn m (spelling.pair setting long) (some value)).isSome = true)
    (alones : ∀ m flag long next, .alone flag long ∈ items →
      (turn m (spelling.alone flag long) next).isSome = true) (m : μ) :
    (scan turn m (typed spelling items)).isSome = true := by
  induction items generalizing m with
  | nil => rfl
  | cons item items ih =>
    have later := ih ignored.tail
      (fun m setting long value member => pairs m setting long value (.tail _ member))
      (fun m flag long next member => alones m flag long next (.tail _ member))
    cases item with
    | pair setting long value =>
      have quiet := ignored [] setting long value items rfl
      obtain ⟨m₁, moved⟩ := Option.isSome_iff_exists.mp (pairs m setting long value (.head _))
      have first : scan turn m (typed spelling (.pair setting long value :: items)) =
          (turn m (spelling.pair setting long) (some value)).bind fun m =>
            (turn m value (typed spelling items).head?).bind fun m =>
              scan turn m (typed spelling items) := rfl
      rw [first, moved, Option.bind_some, quiet m₁, Option.bind_some]
      exact later m₁
    | alone flag long =>
      obtain ⟨m₁, moved⟩ := Option.isSome_iff_exists.mp
        (alones m flag long (typed spelling items).head? (.head _))
      have first : scan turn m (typed spelling (.alone flag long :: items)) =
          (turn m (spelling.alone flag long) (typed spelling items).head?).bind fun m =>
            scan turn m (typed spelling items) := rfl
      rw [first, moved, Option.bind_some]
      exact later m₁

/-- What the turn of every item keeps holds of the items that were typed. -/
theorem scan_typed (holds : List (Item σ φ ω) → μ → Prop)
    (keeps : ∀ past item m m', holds past m → ItemTurn turn spelling item m m' →
      holds (past ++ [item]) m')
    {items past : List (Item σ φ ω)} {m m' : μ} (ignored : ValuesIgnored turn spelling items)
    (start : holds past m) (ends : scan turn m (typed spelling items) = some m') :
    holds (past ++ items) m' := by
  induction items generalizing past m with
  | nil =>
    cases ends
    simpa using start
  | cons item items ih =>
    rw [List.append_cons]
    cases item with
    | pair setting long value =>
      have quiet := ignored [] setting long value items rfl
      obtain ⟨m₁, moved, later⟩ := Option.bind_eq_some_iff.mp ends
      obtain ⟨m₂, same, later⟩ := Option.bind_eq_some_iff.mp later
      cases (quiet m₁).symm.trans same
      exact ih ignored.tail (keeps past _ m m₁ start (.pair moved)) later
    | alone flag long =>
      obtain ⟨m₁, moved, later⟩ := Option.bind_eq_some_iff.mp ends
      exact ih ignored.tail (keeps past _ m m₁ start (.alone moved)) later

end Videovigilancia.OptionWords
