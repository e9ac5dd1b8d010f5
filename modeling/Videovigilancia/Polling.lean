import Videovigilancia.StreamMachine

/-! Machines that take one step for each chunk, however much there is to read. They
complete a prefix of what a drained machine completes, and draining what they left
gives the rest (`drain_polled`). -/
namespace Videovigilancia.StreamMachine.Machine

variable {σ β ω : Type} (M : Machine σ β ω)

/-- Appends each chunk to the unread bytes and takes one step if it can. -/
def poll (s : σ) (b : List β) : List (List β) → Outcome σ β ω
  | [] => ⟨s, b, [], false⟩
  | c :: chunks =>
    match M.step s (b ++ c) with
    | none => poll s (b ++ c) chunks
    | some m =>
      if m.failed then ⟨m.state, m.rest, m.output.toList, true⟩
      else (poll m.state m.rest chunks).after m.output.toList

/-- Every step that draining takes is taken from a good state, and none fails. -/
inductive Along (good : σ → List β → Prop) : σ → List β → Prop where
  | waits {s : σ} {b : List β} (idle : M.step s b = none) : Along good s b
  | moves {s : σ} {b : List β} {m : Move σ β ω} (moved : M.step s b = some m) (here : good s b)
      (going : m.failed = false) (later : Along good m.state m.rest) : Along good s b

variable {M} {s : σ} {b : List β} {m : Move σ β ω}

theorem poll_waiting {c : List β} (waits : M.step s (b ++ c) = none) (chunks : List (List β)) :
    M.poll s b (c :: chunks) = M.poll s (b ++ c) chunks := by
  rw [poll, waits]

theorem poll_moved {c : List β} (moved : M.step s (b ++ c) = some m) (going : m.failed = false)
    (chunks : List (List β)) :
    M.poll s b (c :: chunks) = (M.poll m.state m.rest chunks).after m.output.toList := by
  rw [poll, moved]
  exact if_neg (by simp [going])

/-- One step goes on along a drained stream. -/
theorem Along.step {good : σ → List β → Prop} (along : M.Along good s b)
    (moved : M.step s b = some m) : good s b ∧ m.failed = false ∧ M.Along good m.state m.rest := by
  cases along with
  | waits idle => cases moved.symm.trans idle
  | moves moved' here going later =>
    cases moved.symm.trans moved'
    exact ⟨here, going, later⟩

/-- What polling left is drained behind it. -/
theorem drain_polled (s : σ) (b : List β) (chunks : List (List β))
    (going : (M.poll s b chunks).failed = false) : M.drain s (b ++ chunks.flatten) =
      (M.drain (M.poll s b chunks).state (M.poll s b chunks).rest).after
        (M.poll s b chunks).outputs := by
  induction chunks generalizing s b with
  | nil => simp [poll]
  | cons c chunks ih =>
    have whole : b ++ (c :: chunks).flatten = (b ++ c) ++ chunks.flatten := by simp
    cases moved : M.step s (b ++ c) with
    | none =>
      rw [poll_waiting moved] at going ⊢
      rw [whole, ih s (b ++ c) going]
    | some m =>
      cases failed : m.failed with
      | true => simp [poll, moved, failed] at going
      | false =>
        rw [poll_moved moved failed] at going ⊢
        rw [whole, drain_moved (M.stable chunks.flatten moved) failed, ih m.state m.rest going]
        simp

end Videovigilancia.StreamMachine.Machine
