import Videovigilancia.ClientThread

/-! The benchmark of `readByProtocol`, compiled in by `#define BENCHMARK`: the time
and the number of rectangles of every package, and a report on them from time to
time. The averages are floats and are left out; a clock cannot be predicted, so
what `timer_->elapsed()` returns for a package is an argument. -/
namespace Videovigilancia

/-- `"MS: min" .. "max"` and `"ROI: min" .. "max"`. -/
structure Report where
  ms_min : Int32
  ms_max : Int32
  roi_min : Int32
  roi_max : Int32
  deriving DecidableEq

/-- What is printed for a package: the number in `"( .. / 50 )"`, and the result if
there is one. -/
structure Printed where
  progress : Int32
  result : Option Report
  deriving DecidableEq

/-- The members that the benchmark adds to `ClientThread`. -/
structure Benchmark where
  ms_list_ : List Int32
  roi_list_ : List Int32
  benchmarkCounter_ : Int32
  deriving DecidableEq

namespace Benchmark

/-- As the constructor of `ClientThread` leaves them. -/
def new : Benchmark := ⟨[], [], 0⟩

/-- One turn of the loop over `ms_list_` and `roi_list_`. -/
def widen (r : Report) (ms_roi : Int32 × Int32) : Report where
  ms_max := if r.ms_max < ms_roi.1 then ms_roi.1 else r.ms_max
  roi_max := if r.roi_max < ms_roi.2 then ms_roi.2 else r.roi_max
  ms_min := if r.ms_min > ms_roi.1 then ms_roi.1 else r.ms_min
  roi_min := if r.roi_min > ms_roi.2 then ms_roi.2 else r.roi_min

/-- The loop; both lists begin with the values it starts from. -/
def result (ms_list_ roi_list_ : List Int32) : Report :=
  (ms_list_.zip roi_list_).foldl widen
    ⟨ms_list_.headD 0, ms_list_.headD 0, roi_list_.headD 0, roi_list_.headD 0⟩

/-- The `#ifdef BENCHMARK` part of the last rectangle's case. -/
def received (b : Benchmark) (runtime size : Int32) : Benchmark × Printed :=
  let ms_list_ := b.ms_list_ ++ [runtime]
  let roi_list_ := b.roi_list_ ++ [size]
  let benchmarkCounter_ := b.benchmarkCounter_ + 1
  if benchmarkCounter_ = 49 then
    (⟨[], [], 0⟩, ⟨b.benchmarkCounter_ + 1, some (result ms_list_ roi_list_)⟩)
  else (⟨ms_list_, roi_list_, benchmarkCounter_⟩, ⟨b.benchmarkCounter_ + 1, none⟩)

/-- The lines of a whole session. -/
def session : Benchmark → List (Int32 × Int32) → List Printed
  | _, [] => []
  | b, (runtime, size) :: samples =>
    (b.received runtime size).2 :: session (b.received runtime size).1 samples

/-- The time and the number of rectangles of each package, the `i`-th of which took
`elapsed i`. -/
def samples {Image : Type} (elapsed : Nat → Int32) (packages : List (Completed Image)) :
    List (Int32 × Int32) :=
  packages.zipIdx.map fun (c, i) => (elapsed i, Int32.ofNat c.last_boundingboxes_.length)

end Benchmark

end Videovigilancia
