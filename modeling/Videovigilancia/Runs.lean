import Mathlib.Data.List.Basic

/-! Runs of a system that reacts to events. `Throughout` says that something
holds in every state of a run, `Meets` that every event of it arrives under a
guard. An invariant that guarded events keep turns the second into the first
(`throughout_of_meets`); when in addition each unguarded event does damage at
once, the two are the same (`throughout_iff_meets`). -/
namespace Videovigilancia.Runs

variable {σ α : Type} {step : σ → α → σ} {holds inv : σ → Prop} {guard : σ → α → Prop}

/-- The state behind the events. -/
def after (step : σ → α → σ) (s : σ) (events : List α) : σ := events.foldl step s

@[simp] theorem after_nil (s : σ) : after step s [] = s := rfl

@[simp] theorem after_cons (s : σ) (event : α) (events : List α) :
    after step s (event :: events) = after step (step s event) events := rfl

theorem after_append (s : σ) (first second : List α) :
    after step s (first ++ second) = after step (after step s first) second :=
  List.foldl_append

/-- At the start and behind every event. -/
def Throughout (step : σ → α → σ) (holds : σ → Prop) (s : σ) (events : List α) : Prop :=
  ∀ past, past <+: events → holds (after step s past)

/-- Every event in the state it arrives in. -/
def Meets (step : σ → α → σ) (guard : σ → α → Prop) (s : σ) (events : List α) : Prop :=
  ∀ past event, past ++ [event] <+: events → guard (after step s past) event

theorem throughout_nil (s : σ) : Throughout step holds s [] ↔ holds s := by
  simp [Throughout]

theorem throughout_cons (s : σ) (event : α) (events : List α) :
    Throughout step holds s (event :: events) ↔
      holds s ∧ Throughout step holds (step s event) events := by
  constructor
  · intro always
    exact ⟨always [] (List.nil_prefix), fun past upTo =>
      always (event :: past) (List.cons_prefix_cons.mpr ⟨rfl, upTo⟩)⟩
  · rintro ⟨now, later⟩ past upTo
    cases past with
    | nil => exact now
    | cons first past =>
      obtain ⟨rfl, rest⟩ := List.cons_prefix_cons.mp upTo
      exact later past rest

theorem meets_nil (s : σ) : Meets step guard s [] := by
  simp [Meets]

theorem meets_cons (s : σ) (event : α) (events : List α) :
    Meets step guard s (event :: events) ↔
      guard s event ∧ Meets step guard (step s event) events := by
  constructor
  · intro always
    refine ⟨always [] event (by simp), fun past next upTo => ?_⟩
    exact always (event :: past) next (List.cons_prefix_cons.mpr ⟨rfl, upTo⟩)
  · rintro ⟨now, later⟩ past next upTo
    cases past with
    | nil =>
      obtain ⟨rfl, _⟩ := List.cons_prefix_cons.mp upTo
      exact now
    | cons first past =>
      obtain ⟨rfl, rest⟩ := List.cons_prefix_cons.mp upTo
      exact later past next rest

/-- Guarded events keep the invariant over the whole run. -/
theorem throughout_of_meets (keeps : ∀ s event, inv s → guard s event → inv (step s event))
    {s : σ} (start : inv s) {events : List α} (guarded : Meets step guard s events) :
    Throughout step inv s events := by
  induction events generalizing s with
  | nil => exact (throughout_nil s).mpr start
  | cons event events ih =>
    obtain ⟨now, later⟩ := (meets_cons s event events).mp guarded
    exact (throughout_cons s event events).mpr ⟨start, ih (keeps s event start now) later⟩

/-- An invariant without a guard. -/
theorem throughout_of_keeps (keeps : ∀ s event, inv s → inv (step s event)) {s : σ} (start : inv s)
    (events : List α) : Throughout step inv s events :=
  have guarded : Meets step (fun _ _ => True) s events := fun _ _ _ => trivial
  throughout_of_meets (fun s event holds _ => keeps s event holds) start guarded

theorem Throughout.imp {weaker : σ → Prop} (weaken : ∀ s, holds s → weaker s) {s : σ}
    {events : List α} (always : Throughout step holds s events) :
    Throughout step weaker s events :=
  fun past upTo => weaken _ (always past upTo)

/-- The state behind the whole run is one of its states. -/
theorem Throughout.last {s : σ} {events : List α} (always : Throughout step holds s events) :
    holds (after step s events) :=
  always events List.prefix_rfl

/-- When an unguarded event breaks what should hold, the guard is exact. -/
theorem throughout_iff_meets (inv : σ → Prop) (enough : ∀ s, inv s → holds s)
    (keeps : ∀ s event, inv s → guard s event → inv (step s event))
    (breaks : ∀ s event, inv s → ¬ guard s event → ¬ holds (step s event))
    {s : σ} (start : inv s) (events : List α) :
    Throughout step holds s events ↔ Meets step guard s events := by
  constructor
  · intro always
    induction events generalizing s with
    | nil => exact meets_nil s
    | cons event events ih =>
      obtain ⟨-, later⟩ := (throughout_cons s event events).mp always
      have guarded : guard s event := by
        by_contra unguarded
        exact breaks s event start unguarded (later [] List.nil_prefix)
      exact (meets_cons s event events).mpr ⟨guarded, ih (keeps s event start guarded) later⟩
  · intro guarded
    exact (throughout_of_meets keeps start guarded).imp enough

/-- Two runs stay related when the second one leaves events out that do nothing to
what the relation shows. -/
theorem after_filter {related : σ → σ → Prop} {keep : α → Bool}
    (kept : ∀ {s s' event}, keep event = true → related s s' →
      related (step s event) (step s' event))
    (dropped : ∀ {s s' event}, keep event = false → related s s' → related (step s event) s')
    {s s' : σ} (start : related s s') (events : List α) :
    related (after step s events) (after step s' (events.filter keep)) := by
  induction events generalizing s s' with
  | nil => exact start
  | cons event events ih =>
    cases keeps : keep event with
    | true =>
      rw [List.filter_cons_of_pos keeps]
      exact ih (kept keeps start)
    | false =>
      rw [List.filter_cons_of_neg (by simp [keeps])]
      exact ih (dropped keeps start)

end Videovigilancia.Runs
