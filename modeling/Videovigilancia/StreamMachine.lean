import Mathlib.Data.List.Basic

/-! Machines that read a buffer which grows at its end. One step looks at the
bytes buffered so far and either waits or consumes some of them from the front;
`drain` takes steps until the machine waits, and `feed` appends one chunk at a
time and drains after each, the loop of a socket reader. A step never changes
its mind when more bytes are already there (`stable`), so the cuts between the
chunks cannot be observed. Nothing here knows what the bytes mean. -/
namespace Videovigilancia.StreamMachine

/-- What one step leaves: the next state, the bytes not consumed, what was
completed, and whether the reader gives up. -/
structure Move (σ β ω : Type) where
  state : σ
  rest : List β
  output : Option ω
  failed : Bool

/-- A reader that waits (`none`) or moves. It reads from the front only, every
move makes progress, and a move taken on some bytes is taken in the same way
when others follow them. -/
structure Machine (σ β ω : Type) where
  step : σ → List β → Option (Move σ β ω)
  weight : σ → List β → Nat
  stable : ∀ {s b m} (more : List β), step s b = some m →
    step s (b ++ more) = some { m with rest := m.rest ++ more }
  consumes : ∀ {s b m}, step s b = some m → m.rest <:+ b
  progress : ∀ {s b m}, step s b = some m → weight m.state m.rest < weight s b

/-- What a run of steps leaves, with everything it completed in order. -/
structure Outcome (σ β ω : Type) where
  state : σ
  rest : List β
  outputs : List ω
  failed : Bool

variable {σ β ω : Type}

/-- The same outcome with earlier outputs in front. -/
def Outcome.after (o : Outcome σ β ω) (earlier : List ω) : Outcome σ β ω :=
  { o with outputs := earlier ++ o.outputs }

/-- The same outcome with bytes nobody looked at behind the unread ones. -/
def Outcome.extend (o : Outcome σ β ω) (more : List β) : Outcome σ β ω :=
  { o with rest := o.rest ++ more }

@[simp] theorem after_state (o : Outcome σ β ω) (l : List ω) : (o.after l).state = o.state := rfl
@[simp] theorem after_rest (o : Outcome σ β ω) (l : List ω) : (o.after l).rest = o.rest := rfl
@[simp] theorem after_outputs (o : Outcome σ β ω) (l : List ω) :
    (o.after l).outputs = l ++ o.outputs := rfl
@[simp] theorem after_failed (o : Outcome σ β ω) (l : List ω) : (o.after l).failed = o.failed := rfl
@[simp] theorem after_nil (o : Outcome σ β ω) : o.after [] = o := rfl
@[simp] theorem after_after (o : Outcome σ β ω) (k l : List ω) :
    (o.after l).after k = o.after (k ++ l) := by
  simp [Outcome.after]
@[simp] theorem extend_state (o : Outcome σ β ω) (l : List β) : (o.extend l).state = o.state := rfl
@[simp] theorem extend_rest (o : Outcome σ β ω) (l : List β) :
    (o.extend l).rest = o.rest ++ l := rfl
@[simp] theorem extend_outputs (o : Outcome σ β ω) (l : List β) :
    (o.extend l).outputs = o.outputs := rfl
@[simp] theorem extend_failed (o : Outcome σ β ω) (l : List β) :
    (o.extend l).failed = o.failed := rfl
@[simp] theorem extend_nil (o : Outcome σ β ω) : o.extend [] = o := by
  simp [Outcome.extend]
@[simp] theorem after_extend (o : Outcome σ β ω) (k : List ω) (l : List β) :
    (o.extend l).after k = (o.after k).extend l := rfl

namespace Machine

variable (M : Machine σ β ω)

/-- Steps until the machine waits or fails. -/
def drain (s : σ) (b : List β) : Outcome σ β ω :=
  match _moved : M.step s b with
  | none => ⟨s, b, [], false⟩
  | some m =>
    if m.failed then ⟨m.state, m.rest, m.output.toList, true⟩
    else (drain m.state m.rest).after m.output.toList
termination_by M.weight s b
decreasing_by exact M.progress _moved

/-- Appends each chunk to the unread bytes and drains, until a failure. -/
def feed (s : σ) (b : List β) : List (List β) → Outcome σ β ω
  | [] => ⟨s, b, [], false⟩
  | c :: chunks =>
    let o := M.drain s (b ++ c)
    if o.failed then o else (feed o.state o.rest chunks).after o.outputs

variable {M} {s s' : σ} {b : List β} {m : Move σ β ω}

theorem drain_waiting (waits : M.step s b = none) : M.drain s b = ⟨s, b, [], false⟩ := by
  rw [drain]
  split
  · rfl
  · rename_i moved
    rw [waits] at moved
    cases moved

theorem drain_failed (moved : M.step s b = some m) (failed : m.failed = true) :
    M.drain s b = ⟨m.state, m.rest, m.output.toList, true⟩ := by
  rw [drain]
  split
  · rename_i waits
    rw [moved] at waits
    cases waits
  · rename_i other
    rw [moved] at other
    cases other
    rw [if_pos failed]

theorem drain_moved (moved : M.step s b = some m) (going : m.failed = false) :
    M.drain s b = (M.drain m.state m.rest).after m.output.toList := by
  rw [drain]
  split
  · rename_i waits
    rw [moved] at waits
    cases waits
  · rename_i other
    rw [moved] at other
    cases other
    rw [if_neg (by simp [going])]

/-- One induction for every fact about draining: the machine waits, fails, or
moves and drains what is left. -/
theorem drain_induction {motive : σ → List β → Prop}
    (waiting : ∀ s b, M.step s b = none → motive s b)
    (failing : ∀ s b m, M.step s b = some m → m.failed = true → motive s b)
    (moving : ∀ s b m, M.step s b = some m → m.failed = false → motive m.state m.rest → motive s b)
    (s : σ) (b : List β) : motive s b := by
  induction size : M.weight s b using Nat.strongRecOn generalizing s b with
  | _ n ih =>
    cases moved : M.step s b with
    | none => exact waiting s b moved
    | some m =>
      cases failed : m.failed with
      | true => exact failing s b m moved failed
      | false => exact moving s b m moved failed (ih _ (size ▸ M.progress moved) _ _ rfl)

/-- What every step completes, every run completes. -/
theorem drain_outputs (good : ω → Prop)
    (each : ∀ {s b m}, M.step s b = some m → ∀ o ∈ m.output, good o) (s : σ) (b : List β) :
    ∀ o ∈ (M.drain s b).outputs, good o := by
  induction s, b using drain_induction (M := M) with
  | waiting s b waits => simp [drain_waiting waits]
  | failing s b m moved failed =>
    rw [drain_failed moved failed]
    intro o member
    exact each moved o (Option.mem_toList.mp member)
  | moving s b m moved going ih =>
    rw [drain_moved moved going, after_outputs]
    intro o member
    rcases List.mem_append.mp member with now | later
    · exact each moved o (Option.mem_toList.mp now)
    · exact ih o later

/-- A member that steps on with each completion numbers the completions. -/
theorem drain_numbered {γ : Type} (now : σ → γ) {label : ω → γ} {nth : Nat → γ}
    (quiet : ∀ {s b m}, M.step s b = some m → m.output = none → now m.state = now s)
    (counts : ∀ {s b m k}, M.step s b = some m → now s = nth k →
      ∀ o ∈ m.output, label o = nth k ∧ now m.state = nth (k + 1))
    {s : σ} (b : List β) {k : Nat} (start : now s = nth k) :
    (M.drain s b).outputs.map label = (List.range' k (M.drain s b).outputs.length).map nth ∧
      now (M.drain s b).state = nth (k + (M.drain s b).outputs.length) := by
  induction s, b using drain_induction (M := M) generalizing k with
  | waiting s b waits => simpa [drain_waiting waits] using start
  | failing s b m moved failed =>
    rw [drain_failed moved failed]
    cases out : m.output with
    | none => simpa [quiet moved out] using start
    | some o =>
      obtain ⟨label, state⟩ := counts moved start o out
      simp [label, state]
  | moving s b m moved going ih =>
    rw [drain_moved moved going, after_outputs, after_state]
    cases out : m.output with
    | none => exact ih ((quiet moved out).trans start)
    | some o =>
      obtain ⟨label, state⟩ := counts moved start o out
      obtain ⟨labels, last⟩ := ih state
      simp only [Option.toList_some, List.cons_append, List.nil_append, List.map_cons,
        List.length_cons, List.range'_succ, label, labels, last]
      exact ⟨trivial, congrArg nth (by omega)⟩

/-- A drained machine that has not failed waits: no enabled step is left. -/
theorem drained_waits (s : σ) (b : List β) (going : (M.drain s b).failed = false) :
    M.step (M.drain s b).state (M.drain s b).rest = none := by
  induction s, b using drain_induction (M := M) with
  | waiting s b waits => simpa [drain_waiting waits] using waits
  | failing s b m moved failed => simp [drain_failed moved failed] at going
  | moving s b m moved running ih =>
    rw [drain_moved moved running] at going ⊢
    exact ih going

/-- Draining more bytes resumes where draining the first ones stopped. -/
theorem drain_append (s : σ) (b more : List β) :
    M.drain s (b ++ more) =
      if (M.drain s b).failed then (M.drain s b).extend more
      else (M.drain (M.drain s b).state ((M.drain s b).rest ++ more)).after
        (M.drain s b).outputs := by
  induction s, b using drain_induction (M := M) with
  | waiting s b waits => simp [drain_waiting waits]
  | failing s b m moved failed =>
    have later := M.stable more moved
    rw [drain_failed moved failed, drain_failed later (by simpa using failed)]
    simp [Outcome.extend]
  | moving s b m moved running ih =>
    have later := M.stable more moved
    rw [drain_moved moved running, drain_moved later (by simpa using running)]
    rw [ih]
    cases failed : (M.drain m.state m.rest).failed with
    | true => simp [failed]
    | false => simp [failed]

/-- Feeding chunk by chunk drains the whole stream, but for the bytes that a
failure leaves undelivered. -/
theorem feed_drains (s : σ) (b : List β) (chunks : List (List β)) (waits : M.step s b = none) :
    ∃ undelivered, M.drain s (b ++ chunks.flatten) = (M.feed s b chunks).extend undelivered ∧
      ((M.feed s b chunks).failed = false → undelivered = []) := by
  induction chunks generalizing s b with
  | nil => exact ⟨[], by simp [feed, drain_waiting waits], fun _ => rfl⟩
  | cons c chunks ih =>
    have whole : b ++ (c :: chunks).flatten = (b ++ c) ++ chunks.flatten := by simp
    rw [whole, drain_append]
    simp only [feed]
    cases failed : (M.drain s (b ++ c)).failed with
    | true => exact ⟨chunks.flatten, rfl, fun going => by simp [failed] at going⟩
    | false =>
      obtain ⟨undelivered, drains, complete⟩ := ih _ _ (drained_waits s (b ++ c) failed)
      exact ⟨undelivered, by simp [drains], by simpa using complete⟩

/-- Two ways of cutting one stream complete the same outputs, fail together,
stop in the same state, and without a failure leave the same bytes unread. -/
theorem feed_chunking {first second : List (List β)} (waits : M.step s b = none)
    (same : first.flatten = second.flatten) :
    (M.feed s b first).outputs = (M.feed s b second).outputs ∧
      (M.feed s b first).failed = (M.feed s b second).failed ∧
      (M.feed s b first).state = (M.feed s b second).state ∧
      ((M.feed s b first).failed = false →
        (M.feed s b first).rest = (M.feed s b second).rest) := by
  obtain ⟨left, drainsLeft, completeLeft⟩ := feed_drains s b first waits
  obtain ⟨right, drainsRight, completeRight⟩ := feed_drains s b second waits
  rw [same, drainsRight] at drainsLeft
  have outputs := congrArg Outcome.outputs drainsLeft
  have failed := congrArg Outcome.failed drainsLeft
  have state := congrArg Outcome.state drainsLeft
  have rest := congrArg Outcome.rest drainsLeft
  simp only [extend_outputs, extend_failed, extend_state, extend_rest] at outputs failed state rest
  refine ⟨outputs.symm, failed.symm, state.symm, fun going => ?_⟩
  rw [completeLeft going, completeRight (failed.trans going)] at rest
  simpa using rest.symm

end Machine

end Videovigilancia.StreamMachine
