import Videovigilancia.Benchmark
import Videovigilancia.GlpPackage
import Videovigilancia.Windows

/-! Which packages a benchmark report is about. The lists and the counter are a
window of 49 packages, since the counter is compared with 49 after it was
increased; the report calls itself a result for 50 frames. -/
namespace Videovigilancia.BenchmarkProofs
open Benchmark ClientThread Windows

/-! ## What a report should be -/

/-- The `k`-th report is printed at the `m`-th package, and it is `r`. -/
def KthReport (printed : List Printed) (k m : Nat) (r : Report) : Prop :=
  printed[m - 1]?.bind Printed.result = some r ∧
    (printed.take m).countP (fun p => p.result.isSome) = k

/-- The extremes of a report are those of the samples. -/
structure Covers (r : Report) (samples : List (Int32 × Int32)) : Prop where
  ms_min : IsLeast {ms | ms ∈ samples.map Prod.fst} r.ms_min
  ms_max : IsGreatest {ms | ms ∈ samples.map Prod.fst} r.ms_max
  roi_min : IsLeast {roi | roi ∈ samples.map Prod.snd} r.roi_min
  roi_max : IsGreatest {roi | roi ∈ samples.map Prod.snd} r.roi_max

/-- Every 50 packages have their report, at the last of them, and the labels count them
from 1 to 50. That nothing is printed for fewer packages is not asked for here. -/
structure ReportsRight (samples : List (Int32 × Int32)) (printed : List Printed) : Prop where
  reports : ∀ k, 1 ≤ k → 50 * k ≤ samples.length →
    ∃ r, KthReport printed k (50 * k) r ∧ Covers r ((samples.drop (50 * (k - 1))).take 50)
  progress : ∀ i p, printed[i]? = some p → p.progress = Int32.ofNat (i % 50 + 1)

/-! ## The loop of a report -/

theorem foldl_widen (r : Report) (samples : List (Int32 × Int32)) : samples.foldl widen r =
    { ms_min := (samples.map Prod.fst).foldl (keep (· < ·)) r.ms_min
      ms_max := (samples.map Prod.fst).foldl (keep (· > ·)) r.ms_max
      roi_min := (samples.map Prod.snd).foldl (keep (· < ·)) r.roi_min
      roi_max := (samples.map Prod.snd).foldl (keep (· > ·)) r.roi_max } := by
  induction samples generalizing r with
  | nil => rfl
  | cons sample samples ih =>
    rw [List.foldl_cons, ih]
    rfl

theorem foldl_least (first : Int32) (values : List Int32) :
    IsLeast {v | v ∈ first :: values} ((first :: values).foldl (keep (· < ·)) first) := by
  have start : keep (· < ·) first first = first := if_neg (Int32.lt_irrefl)
  obtain ⟨member, least⟩ := foldl_keep (· < · : Int32 → Int32 → Prop)
    (fun _ => Int32.lt_irrefl) (fun le le' => by grind) (fun less => by grind) first values
  rw [List.foldl_cons, start]
  exact ⟨member, fun v inside => Int32.not_lt.mp (least v inside)⟩

theorem foldl_greatest (first : Int32) (values : List Int32) :
    IsGreatest {v | v ∈ first :: values} ((first :: values).foldl (keep (· > ·)) first) := by
  have start : keep (· > ·) first first = first := if_neg (Int32.lt_irrefl)
  obtain ⟨member, greatest⟩ := foldl_keep (· > · : Int32 → Int32 → Prop)
    (fun _ => Int32.lt_irrefl) (fun le le' => by grind) (fun less => by grind) first values
  rw [List.foldl_cons, start]
  exact ⟨member, fun v inside => Int32.not_lt.mp (greatest v inside)⟩

/-- The result that the two lists of a window give. -/
def windowResult (window : List (Int32 × Int32)) : Report :=
  result (window.map Prod.fst) (window.map Prod.snd)

theorem windowResult_covers {window : List (Int32 × Int32)} (some_sample : window ≠ []) :
    Covers (windowResult window) window := by
  obtain ⟨first, later, rfl⟩ := List.exists_cons_of_ne_nil some_sample
  have pairs : (first :: later).map (fun s => (s.1, s.2)) = first :: later := by simp
  rw [windowResult, result, List.zip_map', pairs, foldl_widen]
  constructor
  · exact foldl_least first.1 (later.map Prod.fst)
  · exact foldl_greatest first.1 (later.map Prod.fst)
  · exact foldl_least first.2 (later.map Prod.snd)
  · exact foldl_greatest first.2 (later.map Prod.snd)

/-! ## The window of the code -/

/-- The members while these samples are in the lists. -/
def holding (opened : List (Int32 × Int32)) : Benchmark :=
  ⟨opened.map Prod.fst, opened.map Prod.snd, Int32.ofNat opened.length⟩

theorem received_window {opened : List (Int32 × Int32)} (short : opened.length < 49)
    (sample : Int32 × Int32) : (holding opened).received sample.1 sample.2 =
      (holding (push 49 opened sample),
        ⟨Int32.ofNat (opened.length + 1), (close 49 opened sample).map windowResult⟩) := by
  have counter : Int32.ofNat opened.length + 1 = Int32.ofNat (opened.length + 1) :=
    (Int32.ofNat_add ..).symm
  by_cases full : opened.length + 1 = 49
  · have closes : Int32.ofNat (opened.length + 1) = 49 := by
      rw [full]
      rfl
    unfold received
    simp only [holding, counter]
    rw [if_pos closes]
    simp [push, close, full, windowResult]
  · have stays : Int32.ofNat (opened.length + 1) ≠ 49 := fun same =>
      full (ofNat_inj (b := 49) (by omega) (by omega) same)
    unfold received
    simp only [holding, counter]
    rw [if_neg stays]
    simp [push, close, full]

theorem push_length_lt {opened : List (Int32 × Int32)} (short : opened.length < 49)
    (sample : Int32 × Int32) : (push 49 opened sample).length < 49 := by
  unfold push
  split
  · simp
  · rw [List.length_append, List.length_singleton]
    omega

theorem session_length (b : Benchmark) (samples : List (Int32 × Int32)) :
    (session b samples).length = samples.length := by
  induction samples generalizing b with
  | nil => rfl
  | cons sample samples ih => simp [session, ih]

/-- A session prints what the windows of 49 samples give. -/
theorem session_getElem? {opened : List (Int32 × Int32)} (short : opened.length < 49)
    (samples : List (Int32 × Int32)) (i : Nat) : (session (holding opened) samples)[i]? =
      samples[i]?.map fun sample =>
        let before := (samples.take i).foldl (push 49) opened
        ⟨Int32.ofNat (before.length + 1), (close 49 before sample).map windowResult⟩ := by
  induction samples generalizing opened i with
  | nil => simp [session]
  | cons sample samples ih =>
    rw [session, received_window short]
    cases i with
    | zero => simp
    | succ i => simpa using ih (push_length_lt short sample) i

/-- A session begins with an empty window. -/
theorem session_new_getElem? (samples : List (Int32 × Int32)) (i : Nat) :
    (session new samples)[i]? = samples[i]?.map fun sample =>
      let before := collected 49 (samples.take i)
      ⟨Int32.ofNat (before.length + 1), (close 49 before sample).map windowResult⟩ :=
  session_getElem? (show [].length < 49 from Nat.zero_lt_succ 48) samples i

theorem session_results (samples : List (Int32 × Int32)) :
    (session new samples).map Printed.result =
      (closings 49 [] samples).map (Option.map windowResult) := by
  apply List.ext_getElem?
  intro i
  rw [List.getElem?_map, List.getElem?_map, closings_getElem?, session_new_getElem?,
    Option.map_map, Option.map_map]
  rfl

theorem session_progress {samples : List (Int32 × Int32)} {i : Nat} {p : Printed}
    (printed : (session new samples)[i]? = some p) : p.progress = Int32.ofNat (i % 49 + 1) := by
  rw [session_new_getElem?] at printed
  obtain ⟨sample, found, rfl⟩ := Option.map_eq_some_iff.mp printed
  obtain ⟨inside, -⟩ := List.getElem?_eq_some_iff.mp found
  have count := collected_length (show 0 < 49 by omega) (samples.take i)
  rw [List.length_take_of_le (by omega)] at count
  simp only [count]

/-- The reports up to a package are the windows of 49 up to there. -/
theorem reports_counted {samples : List (Int32 × Int32)} {m : Nat} (inside : m ≤ samples.length) :
    ((session new samples).take m).countP (fun p => p.result.isSome) = m / 49 := by
  have windows := closings_count (show 0 < 49 by omega) inside
  have results := congrArg (fun l => (l.take m).countP Option.isSome) (session_results samples)
  simp only [← List.map_take, List.countP_map] at results
  rw [← windows]
  simpa [Function.comp_def] using results

theorem result_window {samples : List (Int32 × Int32)} {i : Nat} {r : Report} :
    (session new samples)[i]?.bind Printed.result = some r ↔
      ∃ window, (closings 49 [] samples)[i]? = some (some window) ∧ windowResult window = r := by
  have same := congrArg (fun l => l[i]?.join) (session_results samples)
  simp only [List.getElem?_map] at same
  rw [show (session new samples)[i]?.bind Printed.result =
    ((session new samples)[i]?.map Printed.result).join by cases (session new samples)[i]? <;> rfl,
    same]
  cases (closings 49 [] samples)[i]? with
  | none => simp
  | some window => simp

/-- The `k`-th report comes with package `49 k` and no other. -/
theorem kthReport_position {samples : List (Int32 × Int32)} {k m : Nat} {r : Report}
    (some_package : 0 < m) (inside : m ≤ samples.length)
    (report : KthReport (session new samples) k m r) : m = 49 * k := by
  obtain ⟨window, closed, -⟩ := result_window.mp report.1
  have divides := (closings_isSome (show 0 < 49 by omega) samples (i := m - 1) (by omega)).mp
    (by rw [closed]; rfl)
  have count := report.2
  rw [reports_counted inside] at count
  omega

/-- What the code reports: the `k`-th report is about the packages `49 (k - 1) + 1`
to `49 k`. -/
theorem report_every_49 {samples : List (Int32 × Int32)} {k : Nat} (positive : 1 ≤ k)
    (inside : 49 * k ≤ samples.length) : ∃ r, KthReport (session new samples) k (49 * k) r ∧
      Covers r ((samples.drop (49 * (k - 1))).take 49) := by
  have closes := (closings_isSome (show 0 < 49 by omega) samples (i := 49 * k - 1)
    (by omega)).mpr (by omega)
  obtain ⟨window, closed⟩ := Option.isSome_iff_exists.mp closes
  have found := Option.join_eq_some_iff.mp closed
  have whole := closings_eq (by omega) found
  have start : 49 * k - 1 + 1 - 49 = 49 * (k - 1) := by omega
  rw [start] at whole
  refine ⟨windowResult window, ⟨result_window.mpr ⟨window, found, rfl⟩, ?_⟩, ?_⟩
  · rw [reports_counted inside]
    omega
  · rw [← whole]
    apply windowResult_covers
    rw [whole, ← List.length_pos_iff, List.length_take, List.length_drop]
    omega

/-! ## 49 is not 50 -/

theorem reports_wrong {samples : List (Int32 × Int32)} (enough : 50 ≤ samples.length) :
    ¬ ReportsRight samples (session new samples) := by
  intro right
  obtain ⟨r, report, -⟩ := right.reports 1 le_rfl enough
  have := kthReport_position (by omega) enough report
  omega

theorem reports_right {samples : List (Int32 × Int32)} (few : samples.length < 50) :
    ReportsRight samples (session new samples) where
  reports k positive enough := by omega
  progress i p printed := by
    obtain ⟨inside, -⟩ := List.getElem?_eq_some_iff.mp printed
    rw [session_length] at inside
    have same : i % 49 = i % 50 := by omega
    rw [session_progress printed, same]

theorem samples_length {Image : Type} (elapsed : Nat → Int32) (packages : List (Completed Image)) :
    (samples elapsed packages).length = packages.length := by
  simp [samples]

/-- The reports of a session are about 50 packages each exactly when there are
not enough packages for a report. -/
theorem reports_right_iff {Image : Type} (qt : Qt Image) (t : ClientThread Image)
    (chunks : List QByteArray) (elapsed : Nat → Int32) :
    ReportsRight (samples elapsed (run qt t chunks).completed)
        (session new (samples elapsed (run qt t chunks).completed)) ↔
      (run qt t chunks).completed.length < 50 := by
  rw [← samples_length elapsed]
  constructor
  · intro right
    by_contra enough
    exact reports_wrong (by omega) right
  · exact reports_right

/-- A session of 50 packages. -/
theorem fiftieth_package_unreported : ¬ ReportsRight
    (samples (fun _ => 20) (run Qt.reference (create 0 0 0)
      (List.replicate 50 (Capture.sample.motionDetected true))).completed)
    (session new (samples (fun _ => 20) (run Qt.reference (create 0 0 0)
      (List.replicate 50 (Capture.sample.motionDetected true))).completed)) := by
  apply reports_wrong
  rw [samples_length]
  decide +kernel

end Videovigilancia.BenchmarkProofs
