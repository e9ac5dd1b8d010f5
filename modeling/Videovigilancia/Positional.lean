import Mathlib.Data.Nat.Digits.Lemmas

/-! Positional numerals as programs print and read them: most significant digit
first, zero printed as one digit. Reading inverts printing in every base, with
or without leading zeros. -/
namespace Videovigilancia.Positional

variable {b : Nat}

/-- The printed digits of `n` in base `b`. -/
def text (b n : Nat) : List Nat := if n = 0 then [0] else (Nat.digits b n).reverse

/-- Horner's rule, the loop of a number reader. -/
def value (b : Nat) (digits : List Nat) : Nat := digits.foldl (fun acc d => acc * b + d) 0

/-- Zero-padded to at least `width` digits. -/
def padded (b width n : Nat) : List Nat :=
  List.replicate (width - (text b n).length) 0 ++ text b n

theorem value_eq_ofDigits (digits : List Nat) : value b digits = Nat.ofDigits b digits.reverse := by
  rw [Nat.ofDigits_eq_foldr, List.foldr_reverse, value]
  congr 1
  funext acc d
  simp [Nat.add_comm, Nat.mul_comm]

@[simp] theorem value_text (n : Nat) : value b (text b n) = n := by
  unfold text
  split
  · subst n; simp [value]
  · rw [value_eq_ofDigits, List.reverse_reverse, Nat.ofDigits_digits]

theorem text_lt (base : 1 < b) (n : Nat) : ∀ d ∈ text b n, d < b := by
  unfold text
  split
  · simp; omega
  · intro d member
    exact Nat.digits_lt_base base (List.mem_reverse.mp member)

theorem text_ne_nil (n : Nat) : text b n ≠ [] := by
  unfold text
  split
  · simp
  · rename_i nonzero
    simpa using Nat.digits_ne_nil_iff_ne_zero.mpr nonzero

theorem value_replicate_zero (k : Nat) (digits : List Nat) :
    value b (List.replicate k 0 ++ digits) = value b digits := by
  induction k with
  | zero => rfl
  | succ k ih => simpa [value, List.replicate_succ] using ih

@[simp] theorem value_padded (width n : Nat) : value b (padded b width n) = n := by
  rw [padded, value_replicate_zero, value_text]

theorem padded_lt (base : 1 < b) (width n : Nat) : ∀ d ∈ padded b width n, d < b := by
  intro d member
  rcases List.mem_append.mp member with zero | digit
  · rw [(List.mem_replicate.mp zero).2]
    omega
  · exact text_lt base n d digit

/-- Padding never makes two numbers look alike, whatever the width. -/
theorem padded_injective (width : Nat) : Function.Injective (padded b width) := fun m n same => by
  rw [← value_padded (b := b) width m, same, value_padded]

/-- Neither do the characters of the digits, when each can be read back. -/
theorem padded_map_injective {α : Type} {print : Nat → α} (read : α → Nat) (base : 1 < b)
    (back : ∀ d < b, read (print d) = d) (width : Nat) :
    Function.Injective fun n => (padded b width n).map print := by
  have restore (n : Nat) : ((padded b width n).map print).map read = padded b width n := by
    rw [List.map_map]
    exact (List.map_congr_left fun d member => back d (padded_lt base width n d member)).trans
      (List.map_id _)
  intro m n same
  apply padded_injective (b := b) width
  rw [← restore m, ← restore n]
  exact congrArg (List.map read) same

/-- A character that prints no digit is not among those of a number. -/
theorem not_mem_padded_map {α : Type} {print : Nat → α} {c : α} (base : 1 < b)
    (unlike : ∀ d < b, print d ≠ c) (width n : Nat) : c ∉ (padded b width n).map print := by
  intro member
  obtain ⟨d, digit, same⟩ := List.mem_map.mp member
  exact unlike d (padded_lt base width n d digit) same

/-- A number that fits takes exactly the width. -/
theorem padded_length (base : 1 < b) {width n : Nat} (positive : 0 < width)
    (fits : n < b ^ width) : (padded b width n).length = width := by
  have short : (text b n).length ≤ width := by
    unfold text
    split
    · exact positive
    · rw [List.length_reverse]
      exact (Nat.digits_length_le_iff base n).mpr fits
  simp only [padded, List.length_append, List.length_replicate]
  omega

end Videovigilancia.Positional
