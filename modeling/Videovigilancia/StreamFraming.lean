import Videovigilancia.StreamMachine

/-! Frames inside a stream, seen from both ends. `Accepts` says that a machine
reads exactly these bytes as one frame and completes nothing before their last
one, so a stream cut anywhere completes exactly the frames that end inside the
cut (`drain_frames`). `Segmented` says that every completed output was made of
its own contiguous stretch of the stream, in stream order; it follows from an
account of the bytes that the present state still owns (`drain_segmented`). -/
namespace Videovigilancia.StreamFraming
open StreamMachine StreamMachine.Machine

variable {σ β ω γ : Type}

/-- One step reads exactly `piece`, and waits while any of it is missing. -/
structure Piece (M : Machine σ β ω) (s : σ) (piece : List β) (s' : σ) (o : Option ω) : Prop where
  moves : M.step s piece = some ⟨s', [], o, false⟩
  waits : ∀ part, part <+: piece → part ≠ piece → M.step s part = none

/-- A run of pieces that completes nothing. -/
inductive Reads (M : Machine σ β ω) : σ → List β → σ → Prop where
  | nil (s : σ) : Reads M s [] s
  | cons {s s' s'' : σ} {piece b : List β} (first : Piece M s piece s' none) (rest : Reads M s' b s'') :
      Reads M s (piece ++ b) s''

/-- A whole frame: silent pieces, then a last one that completes the output. -/
inductive Accepts (M : Machine σ β ω) : σ → List β → σ → ω → Prop where
  | frame {s s' s'' : σ} {b piece : List β} {o : ω} (body : Reads M s b s')
      (last : Piece M s' piece s'' (some o)) (ends : piece ≠ []) : Accepts M s (b ++ piece) s'' o

variable {M : Machine σ β ω} {s s' s'' : σ} {b piece : List β}

theorem Piece.drain {out : Option ω} (read : Piece M s piece s' out) (more : List β) :
    M.drain s (piece ++ more) = (M.drain s' more).after out.toList := by
  rw [drain_moved (M.stable more read.moves) rfl]
  simp

theorem Reads.drain (read : Reads M s b s') (more : List β) :
    M.drain s (b ++ more) = M.drain s' more := by
  induction read with
  | nil s => rfl
  | cons first rest ih => rw [List.append_assoc, first.drain, ih]; simp

theorem Accepts.last {o : ω} (read : Piece M s piece s' (some o)) (ends : piece ≠ []) :
    Accepts M s piece s' o :=
  .frame (b := []) (.nil s) read ends

theorem Accepts.cons {o : ω} (first : Piece M s piece s' none) (rest : Accepts M s' b s'' o) :
    Accepts M s (piece ++ b) s'' o := by
  cases rest with
  | frame body last ends =>
    rw [← List.append_assoc]
    exact .frame (.cons first body) last ends

theorem Accepts.drain {o : ω} (frame : Accepts M s b s' o) (more : List β) :
    M.drain s (b ++ more) = (M.drain s' more).after [o] := by
  cases frame with
  | frame body last ends => rw [List.append_assoc, body.drain, last.drain]; rfl

/-- A prefix of two concatenated parts stops inside the first or contains it. -/
theorem prefix_append_cases {p front back : List β} (cut : p <+: front ++ back) :
    (p <+: front ∧ p ≠ front) ∨ ∃ q, p = front ++ q ∧ q <+: back := by
  rcases List.prefix_or_prefix_of_prefix cut (List.prefix_append front back) with
    inside | ⟨q, rfl⟩
  · by_cases whole : p = front
    · exact .inr ⟨[], by simp [whole], List.nil_prefix⟩
    · exact .inl ⟨inside, whole⟩
  · exact .inr ⟨q, rfl, (List.prefix_append_right_inj front).mp cut⟩

private theorem piece_cut {out : Option ω} {p : List β} (read : Piece M s piece s' out)
    (cut : p <+: piece) (short : p ≠ piece) : M.drain s p = ⟨s, p, [], false⟩ :=
  drain_waiting (read.waits p cut short)

private theorem reads_cut {p : List β} {o : ω} (read : Reads M s b s')
    (last : Piece M s' piece s'' (some o)) (cut : p <+: b ++ piece) (short : p ≠ b ++ piece) :
    (M.drain s p).outputs = [] ∧ (M.drain s p).failed = false := by
  induction read generalizing p with
  | nil s =>
    rw [piece_cut last (by simpa using cut) (by simpa using short)]
    exact ⟨rfl, rfl⟩
  | cons first rest ih =>
    rw [List.append_assoc] at cut short
    rcases prefix_append_cases cut with ⟨inside, part⟩ | ⟨q, rfl, later⟩
    · rw [piece_cut first inside part]
      exact ⟨rfl, rfl⟩
    · rw [first.drain]
      simpa using ih last later (fun same => short (by rw [same]))

/-- A frame cut short completes nothing and reports nothing. -/
theorem Accepts.cut {p : List β} {o : ω} (frame : Accepts M s b s' o) (cut : p <+: b)
    (short : p ≠ b) : (M.drain s p).outputs = [] ∧ (M.drain s p).failed = false := by
  cases frame with
  | frame body last ends => exact reads_cut body last cut short

/-- Those of the frames whose last byte lies within the first `n` bytes of
their concatenation. -/
def endedWithin : Nat → List (List β × γ) → List γ
  | _, [] => []
  | n, (bytes, meaning) :: frames =>
    if bytes.length ≤ n then meaning :: endedWithin (n - bytes.length) frames else []

/-- The whole stream ends every frame. -/
theorem endedWithin_all (frames : List (List β × γ)) :
    endedWithin (frames.map Prod.fst).flatten.length frames = frames.map Prod.snd := by
  induction frames with
  | nil => rfl
  | cons frame frames ih =>
    obtain ⟨bytes, meaning⟩ := frame
    simp only [List.map_cons, List.flatten_cons, List.length_append, endedWithin]
    rw [if_pos (by omega), Nat.add_sub_cancel_left, ih]

/-- The frames that end are the first ones. -/
theorem endedWithin_cut (n : Nat) (frames : List (List β × γ)) :
    endedWithin n frames <+: frames.map Prod.snd := by
  induction frames generalizing n with
  | nil => exact List.prefix_rfl
  | cons frame frames ih =>
    obtain ⟨bytes, meaning⟩ := frame
    rw [endedWithin]
    split
    · exact List.cons_prefix_cons.mpr ⟨rfl, ih _⟩
    · exact List.nil_prefix

/-- A machine that accepts each frame from every idle state and is idle again
afterwards completes, of a stream cut anywhere, exactly the frames that end
inside the cut, and never fails. -/
theorem drain_frames (Idle : σ → Prop) (view : ω → γ) (frames : List (List β × γ))
    (accepts : ∀ frame ∈ frames, ∀ s, Idle s →
      ∃ s' o, Accepts M s frame.1 s' o ∧ view o = frame.2 ∧ Idle s')
    {p : List β} (idle : Idle s) (waits : ∀ s, Idle s → M.step s [] = none)
    (cut : p <+: (frames.map Prod.fst).flatten) :
    (M.drain s p).failed = false ∧
      (M.drain s p).outputs.map view = endedWithin p.length frames ∧
      (p = (frames.map Prod.fst).flatten → Idle (M.drain s p).state ∧ (M.drain s p).rest = []) := by
  induction frames generalizing s p with
  | nil =>
    have empty : p = [] := by simpa using cut
    subst empty
    rw [drain_waiting (waits s idle)]
    exact ⟨rfl, rfl, fun _ => ⟨idle, rfl⟩⟩
  | cons frame frames ih =>
    obtain ⟨s', o, accepted, meaning, idle'⟩ := accepts frame (by simp) s idle
    rw [List.map_cons, List.flatten_cons] at cut ⊢
    rcases prefix_append_cases cut with ⟨inside, short⟩ | ⟨q, rfl, later⟩
    · obtain ⟨outputs, going⟩ := accepted.cut inside short
      have shorter : p.length < frame.1.length :=
        Nat.lt_of_le_of_ne inside.length_le fun same => short (inside.eq_of_length same)
      refine ⟨going, ?_, fun whole => ?_⟩
      · rw [outputs, endedWithin, if_neg (by omega)]
        rfl
      · have := congrArg List.length whole
        rw [List.length_append] at this
        omega
    · have tail := ih (fun f member => accepts f (List.mem_cons_of_mem _ member)) idle' later
      rw [accepted.drain]
      refine ⟨by simpa using tail.1, ?_, fun whole => ?_⟩
      · rw [endedWithin, if_pos (by simp)]
        simp [meaning, tail.2.1]
      · simpa using tail.2.2 (by simpa using whole)

/-! ## Every output has its own stretch of the stream -/

/-- Each output was made of one stretch; the stretches are disjoint, and they
stand in the stream in the order of the outputs. -/
inductive Segmented (Made : List β → ω → Prop) : List β → List ω → Prop where
  | tail (unread : List β) : Segmented Made unread []
  | segment {seg more : List β} {o : ω} {os : List ω} (gap : List β) (made : Made seg o)
      (later : Segmented Made more os) : Segmented Made (gap ++ (seg ++ more)) (o :: os)

variable {Made : List β → ω → Prop}

/-- Bytes in front that no output uses are a gap. -/
theorem Segmented.skip {stream : List β} {os : List ω} (parts : Segmented Made stream os)
    (front : List β) : Segmented Made (front ++ stream) os := by
  cases parts with
  | tail unread => exact .tail _
  | segment gap made later =>
    rw [← List.append_assoc]
    exact .segment (front ++ gap) made later

theorem Segmented.imp {Less : List β → ω → Prop} (weaken : ∀ seg o, Made seg o → Less seg o)
    {stream : List β} {os : List ω} (parts : Segmented Made stream os) :
    Segmented Less stream os := by
  induction parts with
  | tail unread => exact .tail unread
  | segment gap made later ih => exact .segment gap (weaken _ _ made) ih

/-- The first output has a stretch somewhere in the stream. -/
theorem Segmented.first {stream : List β} {o : ω} {os : List ω}
    (parts : Segmented Made stream (o :: os)) :
    ∃ gap seg more, stream = gap ++ (seg ++ more) ∧ Made seg o := by
  cases parts with
  | segment gap made later => exact ⟨gap, _, _, rfl, made⟩

/-- `Owns s seg`: the members of `s` come from the consumed bytes `seg`. A step
adds the bytes it consumed, or gives all of them up, or turns all of them into
an output and owns nothing. -/
structure Accounts (M : Machine σ β ω) (Owns : σ → List β → Prop)
    (Made : List β → ω → Prop) : Prop where
  quiet : ∀ {s seg used rest m}, Owns s seg → M.step s (used ++ rest) = some m → m.rest = rest →
    m.failed = false → m.output = none → Owns m.state (seg ++ used) ∨ Owns m.state []
  made : ∀ {s seg used rest m}, Owns s seg → M.step s (used ++ rest) = some m → m.rest = rest →
    m.failed = false → ∀ o, m.output = some o → Made (seg ++ used) o ∧ Owns m.state []
  failed : ∀ {s b m}, M.step s b = some m → m.failed = true → m.output = none

theorem drain_segmented {Owns : σ → List β → Prop} (accounts : Accounts M Owns Made)
    {seg : List β} (owns : Owns s seg) : Segmented Made (seg ++ b) (M.drain s b).outputs := by
  induction s, b using drain_induction (M := M) generalizing seg with
  | waiting s b waits => rw [drain_waiting waits]; exact .tail _
  | failing s b m moved failed =>
    rw [drain_failed moved failed, accounts.failed moved failed]
    exact .tail _
  | moving s b m moved running ih =>
    obtain ⟨used, split⟩ := M.consumes moved
    rw [drain_moved moved running, ← split, ← List.append_assoc]
    rw [← split] at moved
    cases out : m.output with
    | none =>
      rcases accounts.quiet owns moved rfl running out with kept | dropped
      · simpa [out] using ih kept
      · simpa [out] using (ih dropped).skip (seg ++ used)
    | some o =>
      obtain ⟨made, fresh⟩ := accounts.made owns moved rfl running o out
      simpa [out] using Segmented.segment [] made (ih fresh)

end Videovigilancia.StreamFraming
