import Mathlib.Algebra.Order.Ring.Nat
import Videovigilancia.ConnectionProofs

/-! What a server that is away does to the client. Each firing of a timer that ends
offline starts another one and connects `encrypted()` once more, and no event ever
stops a timer, so the timers double with every round of seven seconds and stay. -/
namespace Videovigilancia.OutageProofs
open Client Console ConnectionProofs Runs

variable {c c' : Console} {n : Nat}

def Offline (c : Console) : Prop := c.sslSocket_.state ≠ .connected

instance (c : Console) : Decidable (Offline c) :=
  inferInstanceAs (Decidable (c.sslSocket_.state ≠ .connected))

/-- The server is away for `n` rounds: in each, every timer that is running fires
once, and no attempt ends connected. -/
inductive Outage : Nat → Console → Console → Prop where
  | ended (c : Console) : Outage 0 c c
  | round {n : Nat} {c c' : Console} (attempts : List Attempt) (all : attempts.length = c.timers)
      (offline : Throughout step Offline c (attempts.map .timeout))
      (later : Outage n (after step c (attempts.map .timeout)) c') : Outage (n + 1) c c'

/-- A timer that fires without success. -/
theorem timeout_adds (attempt : Attempt) (running : c.timers ≠ 0)
    (offline : Offline (c.step (.timeout attempt))) :
    c.timers < (c.step (.timeout attempt)).timers ∧
      c.sslSocket_.encryptedSlots < (c.step (.timeout attempt)).sslSocket_.encryptedSlots := by
  rw [step, if_neg running] at offline ⊢
  exact ⟨(reconnects attempt c).retries offline, (reconnects attempt c).adds⟩

/-- Some timers fire without success. -/
theorem timeouts_add (attempts : List Attempt) (enough : attempts.length ≤ c.timers)
    (offline : Throughout step Offline c (attempts.map .timeout)) :
    let c' := after step c (attempts.map .timeout)
    c.timers + attempts.length ≤ c'.timers ∧
      c.sslSocket_.encryptedSlots + attempts.length ≤ c'.sslSocket_.encryptedSlots := by
  induction attempts generalizing c with
  | nil => exact ⟨le_rfl, le_rfl⟩
  | cons attempt attempts ih =>
    rw [List.map_cons] at offline ⊢
    obtain ⟨-, later⟩ := (throughout_cons _ _ _).mp offline
    rw [List.length_cons] at enough ⊢
    obtain ⟨timers, slots⟩ := timeout_adds attempt (by omega) (later [] List.nil_prefix)
    obtain ⟨timers', slots'⟩ := ih (by omega) later
    rw [after_cons]
    constructor <;> omega

/-- Every round doubles the timers, and connects `encrypted()` once for each. -/
theorem outage_adds (outage : Outage n c c') :
    2 ^ n * c.timers ≤ c'.timers ∧
      c.sslSocket_.encryptedSlots + 2 ^ n * c.timers ≤ c'.sslSocket_.encryptedSlots + c.timers := by
  induction outage with
  | ended c => simp
  | @round n c c' attempts all offline later ih =>
    obtain ⟨timers, slots⟩ := timeouts_add attempts all.le offline
    obtain ⟨timers', slots'⟩ := ih
    rw [all] at timers slots
    generalize after step c (attempts.map .timeout) = c₁ at *
    obtain ⟨more, split⟩ := Nat.exists_eq_add_of_le timers
    have doubled : 2 ^ (n + 1) * c.timers = 2 ^ n * (c.timers + c.timers) := by
      rw [pow_succ, Nat.mul_assoc, Nat.two_mul]
    have kept : more ≤ 2 ^ n * more := Nat.le_mul_of_pos_left more (Nat.two_pow_pos n)
    rw [split, Nat.mul_add] at timers' slots'
    rw [doubled]
    constructor <;> omega

/-! ## Afterwards -/

theorem Outage.sound (outage : Outage n c c') (sound : Sound c) : Sound c' := by
  induction outage with
  | ended c => exact sound
  | @round n c c' attempts all offline later ih =>
    have reached : Throughout step Sound c (attempts.map .timeout) :=
      throughout_of_keeps (fun _ event sound => sound.step event) sound _
    exact ih reached.last

/-- No event stops a timer. -/
theorem timers_stay (sound : Sound c) (event : Event) : c.timers ≤ (c.step event).timers := by
  generalize reached : c.step event = c'
  have reacts := sound.reacts event
  rw [reached] at reacts
  cases reacts with
  | encrypted online => rw [handshake_eq]
  | retried retry lost online wired => exact (reconnects retry (c.enter .unconnected).offline).timers
  | fired attempt running => exact (reconnects attempt c).timers
  | renewed attempt =>
    rw [handleSigHup_eq]
    dsimp only
    split <;> omega
  | _ => exact le_rfl

/-- In every run, whatever comes later, an outage of `n` rounds leaves at least
`2 ^ n` timers for each one that was running. -/
theorem outage_doubles (past future : List Event)
    (outage : Outage n (after step new past) c') :
    2 ^ n * (after step new past).timers ≤ (after step c' future).timers ∧
      (after step new past).sslSocket_.encryptedSlots + 2 ^ n * (after step new past).timers ≤
        c'.sslSocket_.encryptedSlots + (after step new past).timers := by
  have sound : Sound (after step new past) :=
    (throughout_of_keeps (fun _ event sound => sound.step event) new_sound past).last
  obtain ⟨timers, slots⟩ := outage_adds outage
  have lasting : Throughout step (fun c => Sound c ∧ c'.timers ≤ c.timers) c' future :=
    throughout_of_keeps (fun c event ⟨sound, kept⟩ =>
      ⟨sound.step event, kept.trans (timers_stay sound event)⟩) ⟨outage.sound sound, le_rfl⟩ future
  exact ⟨timers.trans lasting.last.2, slots⟩

/-- The first connection is lost and the server stays away for two rounds. -/
theorem outage_doubles_twice :
    2 ^ 2 * 1 ≤ (after step (after step (after step new [.established, .encrypted, .lost .refused])
      [.timeout .refused, .timeout .refused, .timeout .refused]) [.timeout .encrypted]).timers := by
  refine (outage_doubles (n := 2) [.established, .encrypted, .lost .refused] [.timeout .encrypted]
    (.round [.refused] rfl ?_ (.round [.refused, .refused] rfl ?_ (.ended _)))).1
  all_goals
    simp only [List.map_cons, List.map_nil, throughout_cons, throughout_nil]
    decide

end Videovigilancia.OutageProofs
