import Mathlib.Data.List.Induction
import Mathlib.Order.Bounds.Defs

/-! Sampling in windows. Samples are collected until there are `size` of them;
the window is then handed over and the next one starts empty. The `i`-th sample
closes a window exactly when `size` divides `i + 1`, the window is the last
`size` samples, and `i / size` windows were closed before it. The best sample of
a window is found by one pass over it. -/
namespace Videovigilancia.Windows

variable {α : Type} {size : Nat}

/-- The samples still open when one more has come. -/
def push (size : Nat) (collected : List α) (sample : α) : List α :=
  if collected.length + 1 = size then [] else collected ++ [sample]

/-- The window that a sample closes. -/
def close (size : Nat) (collected : List α) (sample : α) : Option (List α) :=
  if collected.length + 1 = size then some (collected ++ [sample]) else none

/-- What is open behind all samples. -/
def collected (size : Nat) (samples : List α) : List α := samples.foldl (push size) []

theorem collected_append (samples : List α) (sample : α) :
    collected size (samples ++ [sample]) = push size (collected size samples) sample := by
  simp [collected]

/-- The samples behind the last full window are open. -/
theorem collected_eq (positive : 0 < size) (samples : List α) :
    collected size samples = samples.drop (size * (samples.length / size)) := by
  induction samples using List.reverseRecOn with
  | nil => simp [collected]
  | append_singleton samples sample ih =>
    have fits := Nat.mul_div_le samples.length size
    have parts := Nat.div_add_mod samples.length size
    have below := Nat.mod_lt samples.length positive
    rw [collected_append, ih, push, List.length_drop, List.length_append, List.length_singleton]
    split
    · rename_i full
      have whole : samples.length + 1 = size * (samples.length / size + 1) := by
        rw [Nat.mul_add]
        omega
      rw [whole, Nat.mul_div_cancel_left _ positive, List.drop_of_length_le]
      simp [whole]
    · rename_i part
      have same : (samples.length + 1) / size = samples.length / size := by
        apply Nat.div_eq_of_lt_le
        · rw [Nat.mul_comm]
          omega
        · rw [Nat.add_mul, Nat.mul_comm]
          omega
      rw [same, List.drop_append_of_le_length fits]

theorem collected_length (positive : 0 < size) (samples : List α) :
    (collected size samples).length = samples.length % size := by
  rw [collected_eq positive, List.length_drop]
  have := Nat.div_add_mod samples.length size
  omega

theorem close_isSome (positive : 0 < size) (samples : List α) (sample : α) :
    (close size (collected size samples) sample).isSome = true ↔ size ∣ samples.length + 1 := by
  have parts := Nat.div_add_mod samples.length size
  have below := Nat.mod_lt samples.length positive
  have whole : size ∣ samples.length + 1 ↔ size ∣ samples.length % size + 1 := by
    have multiple := Nat.dvd_mul_right size (samples.length / size)
    have remainder : size ∣ size * (samples.length / size) + (samples.length % size + 1) ↔ _ :=
      Nat.dvd_add_right multiple
    rwa [← Nat.add_assoc, parts] at remainder
  rw [close, collected_length positive, whole]
  split
  · rename_i full
    simp [full]
  · rename_i part
    have short : ¬ size ∣ samples.length % size + 1 := fun divides => by
      have := Nat.le_of_dvd (Nat.succ_pos _) divides
      omega
    simpa using short

/-- A window that is closed holds the last samples. -/
theorem close_eq (positive : 0 < size) {samples window : List α} {sample : α}
    (closed : close size (collected size samples) sample = some window) :
    window = (samples ++ [sample]).drop (samples.length + 1 - size) := by
  have parts := Nat.div_add_mod samples.length size
  rw [close, collected_length positive] at closed
  split at closed
  · rename_i full
    cases closed
    rw [collected_eq positive, ← List.drop_append_of_le_length (Nat.mul_div_le _ _)]
    congr 1
    omega
  · cases closed

/-! ## A run of samples -/

/-- What each sample closes. -/
def closings (size : Nat) : List α → List α → List (Option (List α))
  | _, [] => []
  | opened, sample :: samples =>
    close size opened sample :: closings size (push size opened sample) samples

theorem closings_getElem? (opened samples : List α) (i : Nat) :
    (closings size opened samples)[i]? =
      samples[i]?.map (close size ((samples.take i).foldl (push size) opened)) := by
  induction samples generalizing opened i with
  | nil => simp [closings]
  | cons sample samples ih =>
    cases i with
    | zero => simp [closings]
    | succ i => simp [closings, ih]

theorem closings_length (opened samples : List α) :
    (closings size opened samples).length = samples.length := by
  induction samples generalizing opened with
  | nil => rfl
  | cons sample samples ih => simp [closings, ih]

/-- The `i`-th sample closes a window exactly when it is the last of `size` ones. -/
theorem closings_isSome (positive : 0 < size) (samples : List α) {i : Nat}
    (inside : i < samples.length) :
    ((closings size [] samples)[i]?.join).isSome = true ↔ size ∣ i + 1 := by
  have closed := close_isSome positive (samples.take i) samples[i]
  rw [List.length_take_of_le (by omega), collected] at closed
  rw [closings_getElem?, List.getElem?_eq_getElem inside]
  exact closed

/-- The window holds the samples up to the one that closes it. -/
theorem closings_eq (positive : 0 < size) {samples window : List α} {i : Nat}
    (closed : (closings size [] samples)[i]? = some (some window)) :
    window = (samples.drop (i + 1 - size)).take size := by
  rw [closings_getElem?] at closed
  obtain ⟨sample, found, closed⟩ := Option.map_eq_some_iff.mp closed
  obtain ⟨inside, rfl⟩ := List.getElem?_eq_some_iff.mp found
  have divides : size ∣ i + 1 := by
    have some_window := (close_isSome positive (samples.take i) samples[i]).mp
      (Option.isSome_iff_exists.mpr ⟨window, closed⟩)
    rwa [List.length_take_of_le (by omega)] at some_window
  have enough := Nat.le_of_dvd (Nat.succ_pos i) divides
  rw [close_eq positive closed, List.length_take_of_le (by omega), List.take_append_getElem inside,
    List.drop_take]
  congr 1
  omega

/-- So many windows were closed before. -/
theorem closings_count (positive : 0 < size) {samples : List α} {i : Nat}
    (inside : i ≤ samples.length) :
    ((closings size [] samples).take i).countP Option.isSome = i / size := by
  induction i with
  | zero => simp
  | succ i ih =>
    have present : i < (closings size [] samples).length := by
      rw [closings_length]
      omega
    have closed := closings_isSome positive samples (i := i) (by omega)
    rw [List.getElem?_eq_getElem present, Option.join_some] at closed
    rw [List.take_add_one, List.getElem?_eq_getElem present, List.countP_append, ih (by omega),
      Nat.succ_div]
    simp [closed]

/-! ## The best sample -/

/-- The sample kept so far, or a better one. -/
def keep (better : α → α → Prop) [DecidableRel better] (best sample : α) : α :=
  if better sample best then sample else best

/-- One pass keeps a sample that no other is better than. -/
theorem foldl_keep (better : α → α → Prop) [DecidableRel better] (irrefl : ∀ a, ¬ better a a)
    (trans : ∀ {a b c}, ¬ better a b → ¬ better b c → ¬ better a c)
    (asymm : ∀ {a b}, better a b → ¬ better b a) (first : α) (samples : List α) :
    samples.foldl (keep better) first ∈ first :: samples ∧
      ∀ a ∈ first :: samples, ¬ better a (samples.foldl (keep better) first) := by
  induction samples generalizing first with
  | nil => simpa using irrefl first
  | cons sample samples ih =>
    obtain ⟨member, best⟩ := ih (keep better first sample)
    rw [List.foldl_cons]
    have kept : ¬ better (keep better first sample)
        (samples.foldl (keep better) (keep better first sample)) := best _ (by simp)
    have chosen : keep better first sample = first ∨ keep better first sample = sample := by
      unfold keep
      split <;> simp
    have beaten : ¬ better first (keep better first sample) ∧
        ¬ better sample (keep better first sample) := by
      unfold keep
      split
      · rename_i improved
        exact ⟨asymm improved, irrefl sample⟩
      · rename_i worse
        exact ⟨irrefl first, worse⟩
    constructor
    · rcases List.mem_cons.mp member with same | later
      · rw [same]
        rcases chosen with same | same <;> simp [same]
      · exact List.mem_cons_of_mem _ (List.mem_cons_of_mem _ later)
    · intro a inside
      rcases List.mem_cons.mp inside with rfl | inside
      · exact trans beaten.1 kept
      · rcases List.mem_cons.mp inside with rfl | inside
        · exact trans beaten.2 kept
        · exact best a (List.mem_cons_of_mem _ inside)

end Videovigilancia.Windows
