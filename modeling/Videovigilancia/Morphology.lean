import Mathlib.Order.GaloisConnection.Basic
import Mathlib.Order.Cover
import Mathlib.Logic.Relation
import Mathlib.Order.Fin.Basic

/-! Erosion and dilation of images whose values are ordered. An erosion is known
by what lies below it and a dilation by what lies above it, so nothing here
depends on how either is computed. Over a symmetric neighbourhood the two are
adjoint; their repetitions look further by as many steps, and eroding before
dilating keeps the bright places that hold a whole window (`opening_iff`). The
last part is about boxes on a grid. -/
namespace Videovigilancia.Morphology

variable {α L : Type} {near far : α → α → Prop}

/-- At each place the least value nearby. -/
def IsErosion [Preorder L] (near : α → α → Prop) (erode : (α → L) → α → L) : Prop :=
  ∀ f p v, v ≤ erode f p ↔ ∀ q, near p q → v ≤ f q

/-- At each place the greatest value nearby. -/
def IsDilation [Preorder L] (near : α → α → Prop) (dilate : (α → L) → α → L) : Prop :=
  ∀ f p v, dilate f p ≤ v ↔ ∀ q, near p q → f q ≤ v

/-- What is reached in `n` steps. -/
def Steps (near : α → α → Prop) : Nat → α → α → Prop
  | 0 => Eq
  | n + 1 => Relation.Comp near (Steps near n)

theorem steps_snoc {n : Nat} {p q r : α} (front : Steps near n p q) (last : near q r) :
    Steps near (n + 1) p r := by
  induction n generalizing p with
  | zero =>
    cases front
    exact ⟨r, last, rfl⟩
  | succ n ih =>
    obtain ⟨s, first, rest⟩ := front
    exact ⟨s, first, ih rest⟩

theorem steps_symm (symm : ∀ p q, near p q → near q p) {n : Nat} {p q : α}
    (steps : Steps near n p q) : Steps near n q p := by
  induction n generalizing p with
  | zero => exact steps.symm
  | succ n ih =>
    obtain ⟨r, first, rest⟩ := steps
    exact steps_snoc (ih rest) (symm p r first)

/-! ## Repeated filters -/

section Order
variable [Preorder L] {erode erode' dilate dilate' : (α → L) → α → L}

theorem IsErosion.comp (first : IsErosion near erode) (second : IsErosion far erode') :
    IsErosion (Relation.Comp near far) (erode ∘ erode') := by
  intro f p v
  rw [Function.comp_apply, first]
  constructor
  · rintro below r ⟨q, beside, further⟩
    exact (second f q v).mp (below q beside) r further
  · intro below q beside
    exact (second f q v).mpr fun r further => below r ⟨q, beside, further⟩

theorem IsDilation.comp (first : IsDilation near dilate) (second : IsDilation far dilate') :
    IsDilation (Relation.Comp near far) (dilate ∘ dilate') := by
  intro f p v
  rw [Function.comp_apply, first]
  constructor
  · rintro above r ⟨q, beside, further⟩
    exact (second f q v).mp (above q beside) r further
  · intro above q beside
    exact (second f q v).mpr fun r further => above r ⟨q, beside, further⟩

theorem IsErosion.iterate (erosion : IsErosion near erode) (n : Nat) :
    IsErosion (Steps near n) erode^[n] := by
  induction n with
  | zero => exact fun f p v => ⟨fun below q same => same ▸ below, fun below => below p rfl⟩
  | succ n ih =>
    rw [Function.iterate_succ']
    exact erosion.comp ih

theorem IsDilation.iterate (dilation : IsDilation near dilate) (n : Nat) :
    IsDilation (Steps near n) dilate^[n] := by
  induction n with
  | zero => exact fun f p v => ⟨fun above q same => same ▸ above, fun above => above p rfl⟩
  | succ n ih =>
    rw [Function.iterate_succ']
    exact dilation.comp ih

/-- Over a symmetric neighbourhood a dilation is the lower adjoint of the erosion. -/
theorem adjoint (symm : ∀ p q, near p q → near q p) (dilation : IsDilation near dilate)
    (erosion : IsErosion near erode) : GaloisConnection dilate erode := by
  intro f g
  constructor
  · intro above q
    exact (erosion g q _).mpr fun p beside => (dilation f p _).mp (above p) q (symm q p beside)
  · intro below p
    exact (dilation f p _).mpr fun q beside => (erosion g q _).mp (below q) p (symm p q beside)

end Order

/-! ## Opening -/

section Opening
variable {erode dilate : (α → L) → α → L}

/-- The `n` erosions are undone by `n` dilations as far as they can be. -/
def opening (erode dilate : (α → L) → α → L) (n : Nat) (f : α → L) : α → L :=
  dilate^[n] (erode^[n] f)

variable {n : Nat} {f : α → L}

theorem opening_le [Preorder L] (symm : ∀ p q, near p q → near q p)
    (dilation : IsDilation near dilate) (erosion : IsErosion near erode) :
    opening erode dilate n f ≤ f :=
  (adjoint (fun _ _ => steps_symm symm) (dilation.iterate n) (erosion.iterate n)).l_u_le f

/-- Opening twice is opening once. -/
theorem opening_idem [PartialOrder L] (symm : ∀ p q, near p q → near q p)
    (dilation : IsDilation near dilate) (erosion : IsErosion near erode) :
    opening erode dilate n (opening erode dilate n f) = opening erode dilate n f := by
  have connected := adjoint (fun _ _ => steps_symm symm) (dilation.iterate n) (erosion.iterate n)
  exact connected.l_u_l_eq_l _

/-- A place keeps the level `unit`, the next one above `low`, exactly when it lies in
a window that has this level everywhere. -/
theorem opening_iff [LinearOrder L] {low unit : L} (next : low ⋖ unit)
    (dilation : IsDilation near dilate) (erosion : IsErosion near erode) (p : α) :
    unit ≤ opening erode dilate n f p ↔
      ∃ c, Steps near n p c ∧ ∀ q, Steps near n c q → unit ≤ f q := by
  have level (v : L) : unit ≤ v ↔ ¬ v ≤ low := by
    rw [not_le]
    exact ⟨fun reached => next.lt.trans_le reached, next.ge_of_gt⟩
  rw [level, opening, dilation.iterate n, not_forall]
  simp only [Classical.not_imp, ← level, erosion.iterate n f]

end Opening

/-! ## Boxes on a grid -/

variable {rows cols n : Nat}

/-- At most `n` apart. -/
def Close {k : Nat} (n : Nat) (i j : Fin k) : Prop := i.val ≤ j.val + n ∧ j.val ≤ i.val + n

/-- In the square of side `2 n + 1` around `p`, as far as the grid goes. -/
def Box (n : Nat) (p q : Fin rows × Fin cols) : Prop := Close n p.1 q.1 ∧ Close n p.2 q.2

instance {k : Nat} (i j : Fin k) : Decidable (Close n i j) :=
  inferInstanceAs (Decidable (_ ∧ _))

instance (p q : Fin rows × Fin cols) : Decidable (Box n p q) :=
  inferInstanceAs (Decidable (_ ∧ _))

theorem box_symm (p q : Fin rows × Fin cols) (box : Box n p q) : Box n q p :=
  ⟨⟨box.1.2, box.1.1⟩, ⟨box.2.2, box.2.1⟩⟩

theorem box_self (p : Fin rows × Fin cols) : Box n p p := by
  simp [Box, Close]

/-- One step towards `k` stays between the two. -/
theorem close_step {m : Nat} {i k : Fin m} (close : Close (n + 1) i k) :
    ∃ j, Close 1 i j ∧ Close n j k ∧ min i k ≤ j ∧ j ≤ max i k := by
  obtain ⟨low, high⟩ := close
  rcases lt_trichotomy i k with less | rfl | more
  · have room : i.val + 1 < m := by omega
    refine ⟨⟨i + 1, room⟩, ⟨by simp; omega, by simp⟩, ⟨by simp; omega, by simp; omega⟩, ?_, ?_⟩
    · exact (min_le_left i k).trans (Fin.le_def.mpr (by simp))
    · exact le_max_of_le_right (Fin.le_def.mpr (by simp; omega))
  · exact ⟨i, ⟨by omega, by omega⟩, ⟨by omega, by omega⟩, min_le_left i i, le_max_left i i⟩
  · have room : i.val - 1 < m := by omega
    refine ⟨⟨i - 1, room⟩, ⟨by simp; omega, by simp; omega⟩, ⟨by simp; omega, by simp; omega⟩, ?_, ?_⟩
    · exact min_le_of_right_le (Fin.le_def.mpr (by simp; omega))
    · exact le_max_of_le_left (Fin.le_def.mpr (by simp))

/-- One step towards `q` stays in every box of the grid that holds both. -/
theorem box_step {p q : Fin rows × Fin cols} (box : Box (n + 1) p q) :
    ∃ r, Box 1 p r ∧ Box n r q ∧
      ∀ low high, p ∈ Set.Icc low high → q ∈ Set.Icc low high → r ∈ Set.Icc low high := by
  obtain ⟨row, beside, rest, above, below⟩ := close_step box.1
  obtain ⟨col, beside', rest', left, right⟩ := close_step box.2
  refine ⟨(row, col), ⟨beside, beside'⟩, ⟨rest, rest'⟩, ?_⟩
  rintro low high ⟨lowP, highP⟩ ⟨lowQ, highQ⟩
  exact ⟨⟨(le_min lowP.1 lowQ.1).trans above, (le_min lowP.2 lowQ.2).trans left⟩,
    ⟨below.trans (max_le highP.1 highQ.1), right.trans (max_le highP.2 highQ.2)⟩⟩

theorem box_zero {p q : Fin rows × Fin cols} (box : Box 0 p q) : p = q := by
  obtain ⟨⟨up, down⟩, left, right⟩ := box
  exact Prod.ext (Fin.ext (by omega)) (Fin.ext (by omega))

/-- Boxes are what single steps on the grid reach. -/
theorem steps_box {p q : Fin rows × Fin cols} : Steps (Box 1) n p q ↔ Box n p q := by
  induction n generalizing p with
  | zero => exact ⟨fun same => same ▸ box_self p, box_zero⟩
  | succ n ih =>
    constructor
    · rintro ⟨r, ⟨row, col⟩, rest⟩
      obtain ⟨row', col'⟩ := ih.mp rest
      simp only [Box, Close] at row col row' col' ⊢
      omega
    · intro box
      obtain ⟨r, beside, rest, -⟩ := box_step box
      exact ⟨r, beside, ih.mpr rest⟩

/-- Connected through places that satisfy `inside`. -/
def Linked (near : α → α → Prop) (inside : α → Prop) : α → α → Prop :=
  Relation.ReflTransGen fun p q => near p q ∧ inside p ∧ inside q

/-- A box of the grid hangs together. -/
theorem linked_box {inside : Fin rows × Fin cols → Prop} {low high p q : Fin rows × Fin cols}
    (full : ∀ r ∈ Set.Icc low high, inside r) (here : p ∈ Set.Icc low high)
    (there : q ∈ Set.Icc low high) : Linked (Box 1) inside p q := by
  have apart : Box (rows + cols) p q := by
    simp only [Box, Close]
    omega
  generalize rows + cols = n at apart
  induction n generalizing p with
  | zero => rw [box_zero apart]; exact .refl
  | succ n ih =>
    obtain ⟨r, beside, rest, stays⟩ := box_step apart
    have between := stays low high here there
    exact .head ⟨beside, full p here, full r between⟩ (ih between rest)

end Videovigilancia.Morphology
