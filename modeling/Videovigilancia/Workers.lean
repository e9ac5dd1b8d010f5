import Mathlib.Data.List.Basic

/-! A worker on a thread of its own. What is posted waits in its queue, what it has
done waits in another until it is taken, and posting, working and taking may follow
each other in any order. `Owes` is kept by all three: what was taken and what is
still to come are together the results of working on everything in order. -/
namespace Videovigilancia.Workers

variable {σ α β : Type} (work : σ → α → σ × β)

/-- The state behind some work. -/
def last (s : σ) (inputs : List α) : σ := inputs.foldl (fun s a => (work s a).1) s

/-- What comes out of it. -/
def results : σ → List α → List β
  | _, [] => []
  | s, a :: inputs => (work s a).2 :: results (work s a).1 inputs

/-- A worker with what was posted to it and what it has ready. -/
structure Worker (σ α β : Type) where
  state : σ
  posted : List α
  ready : List β

namespace Worker

/-- A worker that was given nothing yet. -/
def start (s : σ) : Worker σ α β := ⟨s, [], []⟩

def post (a : α) (w : Worker σ α β) : Worker σ α β := { w with posted := w.posted ++ [a] }

/-- It works on the oldest input. -/
def turn (w : Worker σ α β) : Worker σ α β :=
  match w.posted with
  | [] => w
  | a :: posted => ⟨(work w.state a).1, posted, w.ready ++ [(work w.state a).2]⟩

/-- It has nothing to do and nothing to give. -/
def Idle (w : Worker σ α β) : Prop := w.posted = [] ∧ w.ready = []

/-- The oldest result, and the worker without it. -/
def take (w : Worker σ α β) : Option (β × Worker σ α β) :=
  match w.ready with
  | [] => none
  | b :: ready => some (b, { w with ready })

end Worker

variable {work} {s : σ} {inputs : List α}

@[simp] theorem last_nil : last work s [] = s := rfl
@[simp] theorem results_nil : results work s [] = [] := rfl

theorem last_append (more : List α) :
    last work s (inputs ++ more) = last work (last work s inputs) more :=
  List.foldl_append

theorem results_append (more : List α) : results work s (inputs ++ more) =
    results work s inputs ++ results work (last work s inputs) more := by
  induction inputs generalizing s with
  | nil => rfl
  | cons a inputs ih =>
    simp only [List.cons_append, results, ih]
    rfl

/-- Every result is the work on one of the inputs, behind those before it. -/
theorem exists_input {b : β} (member : b ∈ results work s inputs) : ∃ before a behind,
    inputs = before ++ a :: behind ∧ b = (work (last work s before) a).2 := by
  induction inputs generalizing s with
  | nil => simp at member
  | cons a inputs ih =>
    rcases List.mem_cons.mp member with rfl | later
    · exact ⟨[], a, inputs, rfl, rfl⟩
    · obtain ⟨before, a', behind, rfl, rfl⟩ := ih later
      exact ⟨a :: before, a', behind, rfl, rfl⟩

/-- The worker began with `s`, was given `inputs`, and `taken` was taken from it. -/
structure Owes (work : σ → α → σ × β) (s : σ) (inputs : List α) (taken : List β)
    (w : Worker σ α β) : Prop where
  state : last work w.state w.posted = last work s inputs
  all : taken ++ (w.ready ++ results work w.state w.posted) = results work s inputs

variable {w w' : Worker σ α β} {taken : List β}

/-- An idle worker owes nothing. -/
theorem owes_nothing (idle : w.Idle) : Owes work w.state [] [] w := by
  obtain ⟨posted, ready⟩ := idle
  exact ⟨by rw [posted], by simp [posted, ready]⟩

/-- When it is idle again, everything was taken. -/
theorem Owes.settled (owes : Owes work s inputs taken w) (idle : w.Idle) :
    taken = results work s inputs := by
  rw [← owes.all, idle.1, idle.2]
  simp

theorem Owes.post (owes : Owes work s inputs taken w) (a : α) :
    Owes work s (inputs ++ [a]) taken (w.post a) where
  state := by rw [Worker.post, last_append, last_append, owes.state]
  all := by
    rw [Worker.post, results_append, results_append, owes.state, ← owes.all]
    simp

theorem Owes.turn (owes : Owes work s inputs taken w) : Owes work s inputs taken (w.turn work) := by
  unfold Worker.turn
  split
  · exact owes
  · rename_i a posted next
    obtain ⟨state, all⟩ := owes
    rw [next] at state all
    exact ⟨state, by simpa [results] using all⟩

theorem Owes.take (owes : Owes work s inputs taken w) {b : β} (takes : w.take = some (b, w')) :
    Owes work s inputs (taken ++ [b]) w' := by
  unfold Worker.take at takes
  split at takes
  · cases takes
  · rename_i ready next
    cases takes
    exact ⟨owes.state, by simpa [next] using owes.all⟩

/-- Whatever was taken is a result. -/
theorem Owes.taken_first (owes : Owes work s inputs taken w) : taken <+: results work s inputs :=
  ⟨_, owes.all⟩

end Videovigilancia.Workers
