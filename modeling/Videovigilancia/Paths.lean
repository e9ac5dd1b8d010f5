import Mathlib.Data.List.Basic
import Mathlib.Data.List.TakeWhile

/-! Paths as texts with a separator and a dot, over any alphabet. `resolve` gives
the names a path leads through once `.` and `..` are carried out; a path that is
put together from plain names below a folder leads through exactly these names
(`resolve_below`), and no name it leads through is empty or a dot or has a
separator in it (`resolve_proper`). -/
namespace Videovigilancia.Paths

variable {α : Type} [DecidableEq α] {sep dot : α}

/-- The next component, entered from where `names` led. `..` leaves the last name,
stays at the root of an absolute path and is kept where a relative one starts. -/
def enter (dot : α) (absolute : Bool) (names : List (List α)) (component : List α) :
    List (List α) :=
  if component = [] ∨ component = [dot] then names
  else if component = [dot, dot] then
    match names.getLast? with
    | none => if absolute then [] else [component]
    | some name => if name = [dot, dot] then names ++ [component] else names.dropLast
  else names ++ [component]

/-- The names behind the root, or behind the working directory of a relative path. -/
def resolve (sep dot : α) (path : List α) : List (List α) :=
  (path.splitOn sep).foldl (enter dot (path.head? = some sep)) []

/-- What stands in front of the last separator. -/
def parent (sep : α) (path : List α) : List α :=
  (path.reverse.dropWhile (· ≠ sep)).tail.reverse

/-- What stands behind the last separator. -/
def last (sep : α) (path : List α) : List α := (path.reverse.takeWhile (· ≠ sep)).reverse

/-- A component that is entered as it is written, `..` included. -/
structure Proper (sep dot : α) (name : List α) : Prop where
  some_char : name ≠ []
  whole : sep ∉ name
  not_dot : name ≠ [dot]

/-- A name that leads one folder down, whatever it is below. -/
structure Plain (sep dot : α) (name : List α) : Prop extends Proper sep dot name where
  not_dots : name ≠ [dot, dot]

theorem enter_plain {name : List α} (plain : Plain sep dot name) (absolute : Bool)
    (names : List (List α)) : enter dot absolute names name = names ++ [name] := by
  rw [enter, if_neg (not_or.mpr ⟨plain.some_char, plain.not_dot⟩), if_neg plain.not_dots]

theorem enter_plains {names : List (List α)} (plain : ∀ name ∈ names, Plain sep dot name)
    (absolute : Bool) (front : List (List α)) :
    names.foldl (enter dot absolute) front = front ++ names := by
  induction names generalizing front with
  | nil => simp
  | cons name names ih =>
    rw [List.foldl_cons, enter_plain (plain name (by simp)),
      ih fun other member => plain other (List.mem_cons_of_mem _ member)]
    simp

/-- A path below a folder goes on from where the folder is. -/
theorem resolve_append (base rest : List α) : resolve sep dot (base ++ sep :: rest) =
    (rest.splitOn sep).foldl (enter dot ((base ++ [sep]).head? = some sep))
      (resolve sep dot (base ++ [sep])) := by
  have heads : (base ++ sep :: rest).head? = (base ++ [sep]).head? := by cases base <;> rfl
  rw [resolve, resolve, heads, List.splitOn_append_cons_self, List.splitOn_append_cons_self,
    List.foldl_append, List.foldl_append]
  simp [enter]

theorem resolve_below (base : List α) {names : List (List α)}
    (plain : ∀ name ∈ names, Plain sep dot name) (some_name : names ≠ []) :
    resolve sep dot (base ++ sep :: [sep].intercalate names) =
      resolve sep dot (base ++ [sep]) ++ names := by
  rw [resolve_append, List.splitOn_intercalate sep (fun name member => (plain name member).whole)
    some_name, enter_plains plain]

/-- No component has a separator. -/
theorem splitOn_whole (path : List α) : ∀ component ∈ path.splitOn sep, sep ∉ component := by
  induction path with
  | nil => simp
  | cons c path ih =>
    rw [List.splitOn_cons_eq_if_modifyHead]
    split
    · simpa using ih
    · rename_i other
      obtain ⟨first, later, split⟩ := List.exists_cons_of_ne_nil (List.splitOn_ne_nil sep path)
      rw [split] at ih ⊢
      intro component member
      rcases List.mem_cons.mp member with rfl | member
      · have : c ≠ sep := by simpa using other
        simpa [this.symm] using ih first (by simp)
      · exact ih component (List.mem_cons_of_mem _ member)

/-- A component without a separator adds a proper name, or none. -/
theorem enter_proper {absolute : Bool} {names : List (List α)} {component : List α}
    (whole : sep ∉ component) (proper : ∀ name ∈ names, Proper sep dot name) :
    ∀ name ∈ enter dot absolute names component, Proper sep dot name := by
  unfold enter
  split
  · exact proper
  · rename_i enters
    obtain ⟨some_char, not_dot⟩ := not_or.mp enters
    have added : ∀ name ∈ names ++ [component], Proper sep dot name := by
      intro name member
      rcases List.mem_append.mp member with old | new
      · exact proper name old
      · exact List.mem_singleton.mp new ▸ ⟨some_char, whole, not_dot⟩
    split
    · split
      · split
        · simp
        · intro name member
          exact List.mem_singleton.mp member ▸ ⟨some_char, whole, not_dot⟩
      · split
        · exact added
        · exact fun name member => proper name (List.dropLast_subset _ member)
    · exact added

/-- Every name a path leads through is proper. -/
theorem resolve_proper (path : List α) : ∀ name ∈ resolve sep dot path, Proper sep dot name := by
  rw [resolve]
  have each : ∀ component ∈ path.splitOn sep, sep ∉ component := splitOn_whole path
  have start : ∀ name ∈ ([] : List (List α)), Proper sep dot name := by simp
  generalize path.splitOn sep = components at each
  generalize ([] : List (List α)) = names at start
  induction components generalizing names with
  | nil => exact start
  | cons component components ih =>
    exact ih (fun other member => each other (List.mem_cons_of_mem _ member)) _
      (enter_proper (each component (by simp)) start)

private theorem not_separator {file : List α} (whole : sep ∉ file) :
    ∀ c ∈ file.reverse, decide (c ≠ sep) = true := by
  intro c member
  have : c ≠ sep := fun same => whole (same ▸ List.mem_reverse.mp member)
  simpa using this

theorem parent_append (folder : List α) {file : List α} (whole : sep ∉ file) :
    parent sep (folder ++ sep :: file) = folder := by
  rw [parent, List.reverse_append, List.reverse_cons, List.append_assoc,
    List.dropWhile_append_of_pos (not_separator whole)]
  simp

/-- A path with a separator ends behind its last one. -/
theorem exists_file {β : Type} {sep : β} {path : List β} (separated : sep ∈ path) :
    ∃ folder file, path = folder ++ sep :: file ∧ sep ∉ file := by
  obtain ⟨file, folder, split, whole⟩ := List.eq_append_cons_of_mem (List.mem_reverse.mpr separated)
  refine ⟨folder.reverse, file.reverse, ?_, by simpa using whole⟩
  rw [← List.reverse_reverse path, split]
  simp

theorem last_append_whole (folder : List α) {file : List α} (whole : sep ∉ file) :
    last sep (folder ++ sep :: file) = file := by
  rw [last, List.reverse_append, List.reverse_cons, List.append_assoc,
    List.takeWhile_append_of_pos (not_separator whole)]
  simp

theorem last_whole {file : List α} (whole : sep ∉ file) : last sep file = file := by
  rw [last, List.takeWhile_eq_self_iff.mpr (not_separator whole), List.reverse_reverse]

/-- Only what stands behind a separator counts. -/
theorem last_append (folder rest : List α) : last sep (folder ++ sep :: rest) = last sep rest := by
  by_cases separated : sep ∈ rest
  · obtain ⟨more, file, rfl, whole⟩ := exists_file separated
    rw [last_append_whole more whole]
    have longer := last_append_whole (folder ++ sep :: more) whole
    simpa using longer
  · rw [last_append_whole folder separated, last_whole separated]

theorem parent_last {path : List α} (separated : sep ∈ path) :
    parent sep path ++ sep :: last sep path = path := by
  obtain ⟨folder, file, rfl, whole⟩ := exists_file separated
  rw [parent_append folder whole, last_append_whole folder whole]

theorem not_mem_last (path : List α) : sep ∉ last sep path := by
  by_cases separated : sep ∈ path
  · obtain ⟨folder, file, rfl, whole⟩ := exists_file separated
    rwa [last_append_whole folder whole]
  · rwa [last_whole separated]

/-- A separator at the end of a path leads nowhere. -/
theorem resolve_ends {base : List α} (some_char : base ≠ []) :
    resolve sep dot (base ++ [sep]) = resolve sep dot base := by
  have heads : (base ++ [sep]).head? = base.head? := by
    rw [List.head?_append_of_ne_nil _ some_char]
  rw [resolve, resolve, heads, List.splitOn_append_cons_self, List.foldl_append]
  simp [enter]

/-- A plain name is the last one that a path with it at its end leads through. -/
theorem resolve_file (base : List α) {name : List α} (plain : Plain sep dot name) :
    resolve sep dot (base ++ sep :: name) = resolve sep dot (base ++ [sep]) ++ [name] := by
  have all : ∀ other ∈ [name], Plain sep dot other := by simpa using plain
  have below := resolve_below base all (by simp)
  simpa [List.intercalate] using below

end Videovigilancia.Paths
