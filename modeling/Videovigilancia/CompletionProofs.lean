import Videovigilancia.ReceiverProofs

/-! What every completed package has: at least one rectangle, and the number of
packages its thread completed before it as its frame counter. -/
namespace Videovigilancia.CompletionProofs
open ClientThread StreamMachine ReceiverProofs

variable {Image : Type} {qt : Qt Image} {t : ClientThread Image} {buffer : QByteArray}

/-- Only the announced last rectangle completes a package. -/
theorem onLine_cases (line : QByteArray) :
    ((onLine qt t line).completed = none ∧
      (onLine qt t line).thread.frameCounter_ = t.frameCounter_) ∨
    ∃ rect, (onLine qt t line).completed =
        some { t with last_boundingboxes_ := collected t ++ [rect] }.complete ∧
      (onLine qt t line).thread.frameCounter_ = t.frameCounter_ + 1 := by
  rw [onLine]
  cases state : t.protocol_state_ with
  | protocolName =>
    simp only [protocolNameCase]
    split <;> exact .inl ⟨rfl, rfl⟩
  | boundingRects =>
    cases read : rectOfLine qt line with
    | none => exact .inl (by simp [boundingRectsCase, read])
    | some rect =>
      by_cases last : t.bb_counter_ = t.next_bb_count_ - 1
      · simp only [boundingRectsCase_last read last]
        exact .inr ⟨rect, rfl, trivial⟩
      · exact .inl (by simp [boundingRectsCase_more read last])
  | _ => exact .inl ⟨rfl, rfl⟩

theorem receiver_cases {m : Move (ClientThread Image) UInt8 (Completed Image)}
    (moved : (receiver qt).step t buffer = some m) :
    (m.output = none ∧ m.state.frameCounter_ = t.frameCounter_) ∨
    ∃ rect, m.output = some { t with last_boundingboxes_ := collected t ++ [rect] }.complete ∧
      m.state.frameCounter_ = t.frameCounter_ + 1 := by
  obtain ⟨enabled, rfl⟩ := receiverStep_some moved
  by_cases state : t.protocol_state_ = .image
  · have fits : t.next_image_size_.toInt ≤ buffer.length := by simpa [ready, state] using enabled
    exact .inl (by simp [move, switchCase_image state, fits, imageCase])
  · obtain ⟨line, rest, rfl, whole⟩ := exists_line (by simpa [ready, state] using enabled)
    simp only [move, switchCase_takes_line state rest whole]
    exact onLine_cases line

/-- No package without rectangles is ever completed. -/
theorem completed_has_rects {chunks : List QByteArray} {c : Completed Image}
    (completed : c ∈ (run qt t chunks).completed) : c.last_boundingboxes_ ≠ [] := by
  obtain ⟨undelivered, drains, _⟩ := run_drains qt t chunks
  rw [run, receive_feeds] at completed
  have member : c ∈ ((receiver qt).drain { t with protocol_state_ := .protocolName }
      chunks.flatten).outputs := by
    rw [drains]
    exact completed
  refine Machine.drain_outputs (fun c => c.last_boundingboxes_ ≠ []) ?_ _ _ c member
  intro t buffer m moved c done
  rcases receiver_cases moved with ⟨silent, _⟩ | ⟨rect, output, _⟩
  · rw [silent] at done
    cases done
  · rw [output] at done
    cases done
    simp [complete]

/-- Draining numbers the packages on from the thread's counter. -/
theorem drain_frames_numbered (qt : Qt Image) (buffer : QByteArray) {k : Nat}
    (start : t.frameCounter_ = Int32.ofNat k) :
    ((receiver qt).drain t buffer).outputs.map Completed.frameCounter_ =
        (List.range' k ((receiver qt).drain t buffer).outputs.length).map Int32.ofNat ∧
      ((receiver qt).drain t buffer).state.frameCounter_ =
        Int32.ofNat (k + ((receiver qt).drain t buffer).outputs.length) := by
  refine Machine.drain_numbered frameCounter_ ?_ ?_ buffer start
  · intro t buffer m moved silent
    rcases receiver_cases moved with ⟨_, same⟩ | ⟨rect, output, _⟩
    · exact same
    · rw [output] at silent
      cases silent
  · intro t buffer m k moved now c done
    rcases receiver_cases moved with ⟨silent, _⟩ | ⟨rect, output, next⟩
    · rw [silent] at done
      cases done
    · rw [output] at done
      cases done
      exact ⟨now, by rw [next, now, Int32.ofNat_add]; rfl⟩

/-- One call of `readByProtocol` numbers the packages it completes on from the
thread's counter. -/
theorem frames_numbered (qt : Qt Image) (buffer : QByteArray) {k : Nat}
    (start : t.frameCounter_ = Int32.ofNat k) :
    (readByProtocol qt t buffer).completed.map Completed.frameCounter_ =
        (List.range' k (readByProtocol qt t buffer).completed.length).map Int32.ofNat ∧
      (readByProtocol qt t buffer).thread.frameCounter_ =
        Int32.ofNat (k + (readByProtocol qt t buffer).completed.length) := by
  rw [readByProtocol_drains]
  exact drain_frames_numbered qt buffer start

/-- So does a whole connection. -/
theorem run_frames_numbered (qt : Qt Image) (chunks : List QByteArray) {k : Nat}
    (start : t.frameCounter_ = Int32.ofNat k) :
    (run qt t chunks).completed.map Completed.frameCounter_ =
      (List.range' k (run qt t chunks).completed.length).map Int32.ofNat := by
  obtain ⟨undelivered, drains, -⟩ := run_drains qt t chunks
  have numbered := (drain_frames_numbered (t := { t with protocol_state_ := .protocolName }) qt
    chunks.flatten start).1
  rw [drains] at numbered
  rw [run, receive_feeds]
  exact numbered

end Videovigilancia.CompletionProofs
