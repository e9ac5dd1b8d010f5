import Videovigilancia.ConnectionProofs
import Videovigilancia.SurveillanceProofs

/-! What an outage costs. In whatever state it leaves the camera, a timer that fires
when the server is there again opens a new connection on which nothing was written,
and from then on nothing is lost. -/
namespace Videovigilancia.RecoveryProofs
open Client Runs Surveillance SurveillanceProofs TransportProofs Workers

variable {S Image : Type} {setup : Setup S Image}

/-- Only the events of the connection concern the client. -/
theorem client_kept (s : Surveillance S Image) {event : Surveillance.Event}
    (other : ∀ e, event ≠ .connection e) : (s.step setup event).client = s.client := by
  cases event with
  | frame image => rfl
  | detect => rfl
  | result timestamp =>
    simp only [Surveillance.step, motionDetected]
    split
    · rfl
    · split <;> rfl
  | connection event => exact absurd rfl (other event)
  | accept k size count counter =>
    simp only [Surveillance.step]
    split
    · rfl
    · split <;> rfl
  | packet k size today =>
    simp only [Surveillance.step, Surveillance.packet]
    split
    · rfl
    · split
      · rfl
      · split
        · rfl
        · split <;> rfl
  | server event =>
    cases event with
    | received connection packet today =>
      simp only [Surveillance.step]
      split <;> rfl
    | _ => rfl

theorem client_sound (setup : Setup S Image) (events : List Surveillance.Event) :
    ConnectionProofs.Sound (after (Surveillance.step setup) (start setup) events).client := by
  induction events using List.reverseRecOn with
  | nil => exact ConnectionProofs.new_sound
  | append_singleton events event ih =>
    rw [after_append, after_cons, after_nil]
    by_cases other : ∀ e, event ≠ .connection e
    · rw [client_kept _ other]
      exact ih
    · obtain ⟨e, rfl⟩ := not_forall_not.mp other
      exact ih.step e

/-- A timer fires while the socket is unconnected, and the server is there again. -/
theorem online_again (past : List Surveillance.Event)
    (running : (after (Surveillance.step setup) (start setup) past).client.timers ≠ 0)
    (offline : (after (Surveillance.step setup) (start setup) past).client.sslSocket_.state =
      .unconnected)
    (idle : (after (Surveillance.step setup) (start setup) past).detector.Idle) :
    Online (after (Surveillance.step setup) (start setup)
      (past ++ [.connection (.timeout .encrypted)])) := by
  have sound := client_sound setup past
  rw [after_append]
  generalize after (Surveillance.step setup) (start setup) past = s at *
  have dials : s.client.dials (.timeout .encrypted) = 1 := by
    simp [Client.Console.dials, Client.Console.reconnectDials, running, offline]
  have connected : s.client.step (.timeout .encrypted) = s.client.handshake.settle := by
    rw [Client.Console.step, if_neg running, Client.Console.reconnect, if_pos offline]
  constructor
  · change (s.client.step (.timeout .encrypted)).connectedServer_ = true
    simp [connected, Client.Console.settle, Client.Console.handshake_eq, sound.slots]
  · change (s.client.step (.timeout .encrypted)).sslSocket_.state ≠ .unconnected
    simp [connected, Client.Console.settle, Client.Console.handshake_eq]
  · exact idle
  · refine ⟨s.links.map Link.packages, ?_⟩
    change (s.links ++ List.replicate (s.client.dials (.timeout .encrypted)) Link.new).map
      Link.packages = _
    simp [dials, Link.new]

/-- However the outage began and however long it took: from the first attempt on that
succeeds while the detector is idle, exactly the frames that moved are stored, in order. -/
theorem recovers_after_outage (reliable : Reliable setup) (past events : List Surveillance.Event)
    (running : (after (Surveillance.step setup) (start setup) past).client.timers ≠ 0)
    (offline : (after (Surveillance.step setup) (start setup) past).client.sslSocket_.state =
      .unconnected)
    (idle : (after (Surveillance.step setup) (start setup) past).detector.Idle)
    (other : ∀ e, .connection e ∉ events) :
    let s₀ := after (Surveillance.step setup) (start setup) past
    let s := after (Surveillance.step setup) s₀ (.connection (.timeout .encrypted) :: events)
    s.detector.Idle → ∀ link i, s.links.getLast? = some link → link.session = some i →
      link.read = link.stream.length → (packagesOf s.server i).map picture =
        ((results (detectMotion setup) s₀.detector.state (frames events)).filter moved).map
          fun d => loaded setup.qt (shown setup d) := by
  intro s₀ s settled link i present session everything
  have connected := (online_again past running offline idle).run reliable other
  rw [after_append] at connected
  obtain ⟨carries, earlier, writes⟩ := connected
  exact writes.stored reliable carries settled present session everything

/-- The connection is lost while the server is away. -/
def losing : List Surveillance.Event :=
  [.connection .established, .connection .encrypted, .connection (.lost .refused)]

/-- The next frame on the third connection that was opened. -/
def returning : List Surveillance.Event :=
  [.accept 2 0 0 0, .frame .black, .detect, .result 5, .packet 2 1000 fun _ => .newYear]

theorem recovers_after_outage_watching :
    (packagesOf (after (Surveillance.step .sample)
        (after (Surveillance.step .sample) (start .sample) losing)
        (.connection (.timeout .encrypted) :: returning)).server 0).map picture =
      ((results (detectMotion .sample) () [.black]).filter moved).map
        fun d => loaded .reference (shown .sample d) :=
  recovers_after_outage sample_reliable losing returning (by decide) (by decide) ⟨rfl, rfl⟩
    (by simp [returning]) ⟨rfl, rfl⟩ _ 0 rfl rfl (by decide +kernel)

end Videovigilancia.RecoveryProofs
