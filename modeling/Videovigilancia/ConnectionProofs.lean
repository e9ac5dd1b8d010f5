import Videovigilancia.ClientConsole
import Videovigilancia.Runs

/-! What the client knows about its connection, over every order of events.
`Reconnects` says once what `reconnect` can do, nested attempts included, and
`Sound` holds in every state. The three properties hold exactly as long as every
event of the run meets a guard on the state it arrives in, since an event that
does not breaks the property at once. -/
namespace Videovigilancia.ConnectionProofs
open Client Console Runs

variable {c : Console}

/-! ## What `reconnect` does -/

/-- From the state `c` to the state `c'` while a handler waits for the network. -/
structure Waits (c c' : Console) : Prop where
  exit : c'.exit_ = c.exit_
  disconnectedSlot : c'.sslSocket_.disconnectedSlot = c.sslSocket_.disconnectedSlot
  errorSlot : c'.sslSocket_.errorSlot = c.sslSocket_.errorSlot
  slots : c.sslSocket_.encryptedSlots ≤ c'.sslSocket_.encryptedSlots
  timers : c.timers ≤ c'.timers
  encrypted : (c.sslSocket_.isEncrypted = true → c.sslSocket_.state = .connected) →
    c'.sslSocket_.isEncrypted = true → c'.sslSocket_.state = .connected
  knows : (c.sslSocket_.isEncrypted = true → c.sslSocket_.state = .connected) →
    0 < c.sslSocket_.encryptedSlots → c.connectedServer_ = c.sslSocket_.isEncrypted →
    c'.connectedServer_ = c'.sslSocket_.isEncrypted

/-- `reconnect` adds a connection, and a timer unless it ends connected. -/
structure Reconnects (c c' : Console) : Prop extends Waits c c' where
  adds : c.sslSocket_.encryptedSlots < c'.sslSocket_.encryptedSlots
  retries : c'.sslSocket_.state ≠ .connected → c.timers < c'.timers

theorem Waits.refl (c : Console) : Waits c c where
  exit := rfl
  disconnectedSlot := rfl
  errorSlot := rfl
  slots := le_rfl
  timers := le_rfl
  encrypted sound := sound
  knows _ _ known := known

theorem Waits.trans {c₁ c₂ c₃ : Console} (first : Waits c₁ c₂) (second : Waits c₂ c₃) :
    Waits c₁ c₃ where
  exit := second.exit.trans first.exit
  disconnectedSlot := second.disconnectedSlot.trans first.disconnectedSlot
  errorSlot := second.errorSlot.trans first.errorSlot
  slots := first.slots.trans second.slots
  timers := first.timers.trans second.timers
  encrypted sound := second.encrypted (first.encrypted sound)
  knows sound some_slot known := second.knows (first.encrypted sound)
    (some_slot.trans_le first.slots) (first.knows sound some_slot known)

theorem Waits.settles {c c' : Console} (waits : Waits c c') : Reconnects c c'.settle where
  exit := waits.exit
  disconnectedSlot := waits.disconnectedSlot
  errorSlot := waits.errorSlot
  slots := waits.slots.trans (Nat.le_succ _)
  timers := by
    have := waits.timers
    simp only [settle]
    split <;> omega
  encrypted := waits.encrypted
  knows := waits.knows
  adds := Nat.lt_succ_of_le waits.slots
  retries := by
    intro offline
    have := waits.timers
    have open_ : c'.sslSocket_.state ≠ .connected := offline
    simp only [settle, if_neg open_]
    omega

/-- A socket that is not encrypted may enter any state. -/
theorem Waits.enter (state : SocketState) (idle : c.sslSocket_.state = .unconnected) :
    Waits c (c.enter state) where
  exit := rfl
  disconnectedSlot := rfl
  errorSlot := rfl
  slots := le_rfl
  timers := le_rfl
  encrypted _ := by simp
  knows sound _ known := by
    have plain : c.sslSocket_.isEncrypted = false := by
      by_contra encrypted
      have := sound (by simpa using encrypted)
      simp [idle] at this
    simp [known, plain]

theorem Waits.handshake (c : Console) : Waits c c.handshake := by
  rw [handshake_eq]
  exact ⟨rfl, rfl, rfl, le_rfl, le_rfl, fun _ _ => rfl, fun _ some_slot _ => by simp [some_slot]⟩

/-- `disconnect` starts by forgetting the connection. -/
theorem Waits.forget (c : Console) : Waits c (c.enter .unconnected).offline :=
  ⟨rfl, rfl, rfl, le_rfl, le_rfl, fun _ => by simp, fun _ _ _ => by simp⟩

theorem lose_wired (slot : Console → Console) (wired : c.sslSocket_.disconnectedSlot = true) :
    c.lose slot = slot (c.enter .unconnected) := by
  simp [lose, wired]

theorem Waits.lose {retry : Console → Console} (tries : ∀ c, Waits c (retry c))
    (wired : c.sslSocket_.disconnectedSlot = true) : Waits c (c.lose (disconnectWith retry)) := by
  rw [lose_wired _ wired, disconnectWith]
  split
  · exact Waits.forget c
  · exact (Waits.forget c).trans (tries _)

theorem lose_unwired (slot : Console → Console) (unwired : c.sslSocket_.disconnectedSlot = false) :
    c.lose slot = c.enter .unconnected := by
  simp [lose, unwired]

theorem reconnects (attempt : Attempt) (c : Console) : Reconnects c (reconnect attempt c) := by
  induction attempt generalizing c with
  | encrypted =>
    rw [reconnect]
    split
    · exact (Waits.handshake c).settles
    · exact (Waits.refl c).settles
  | lost retry ih =>
    rw [reconnect]
    split
    · rename_i idle
      cases wired : c.sslSocket_.disconnectedSlot with
      | true => exact (Waits.lose (fun c => (ih c).toWaits) wired).settles
      | false =>
        rw [lose_unwired _ wired]
        exact (Waits.enter _ idle).settles
    · exact (Waits.refl c).settles
  | _ =>
    rw [reconnect]
    split
    · rename_i idle
      exact (Waits.enter _ idle).settles
    · exact (Waits.refl c).settles

/-- Where an attempt on a socket without slots leaves it. -/
def ends : Attempt → SocketState
  | .encrypted | .established => .connected
  | .pending => .connecting
  | .refused | .lost _ => .unconnected

/-- The socket that `handleSigHup` makes tells nobody about its attempt. -/
theorem handleSigHup_eq (attempt : Attempt) (c : Console) : c.handleSigHup attempt = { c with
    timers := if ends attempt = .connected then c.timers else c.timers + 1
    sslSocket_ := ⟨ends attempt, attempt = .encrypted, 1, false, false⟩ } := by
  cases attempt <;>
    simp [handleSigHup, reconnect, QSslSocket.new, settle, lose, enter, handshake, ends]

/-! ## In every state -/

/-- `exit_` is not set, only a connected socket is encrypted, and the slots of
the current socket are there from its wiring on. -/
structure Sound (c : Console) : Prop where
  going : c.exit_ = false
  encrypted : c.sslSocket_.isEncrypted = true → c.sslSocket_.state = .connected
  slots : 0 < c.sslSocket_.encryptedSlots
  wired : c.sslSocket_.errorSlot = c.sslSocket_.disconnectedSlot

theorem new_sound : Sound new := by
  constructor <;> simp [new, QSslSocket.new]

theorem Sound.of_waits {c' : Console} (sound : Sound c) (waits : Waits c c') : Sound c' where
  going := waits.exit.trans sound.going
  encrypted := waits.encrypted sound.encrypted
  slots := sound.slots.trans_le waits.slots
  wired := by rw [waits.errorSlot, waits.disconnectedSlot, sound.wired]

theorem Sound.plain (sound : Sound c) (elsewhere : c.sslSocket_.state ≠ .connected) :
    c.sslSocket_.isEncrypted = false := by
  by_contra encrypted
  exact elsewhere (sound.encrypted (by simpa using encrypted))

theorem Sound.enter (sound : Sound c) (state : SocketState) : Sound (c.enter state) :=
  ⟨sound.going, by simp, sound.slots, sound.wired⟩

/-- A lost connection with its slot ends as a call of `reconnect` does. -/
theorem Sound.lose_wired (sound : Sound c) (retry : Attempt)
    (wired : c.sslSocket_.disconnectedSlot = true) :
    c.lose (disconnect retry) = reconnect retry (c.enter .unconnected).offline := by
  rw [ConnectionProofs.lose_wired _ wired]
  simp [disconnect, disconnectWith, sound.going]

/-- What an error leaves, by the state of the socket it comes from. -/
theorem Sound.step_error (sound : Sound c) (retry : Attempt) : c.step (.error retry) =
    if c.sslSocket_.state = .connected then
      if c.sslSocket_.disconnectedSlot then c.lose (disconnect retry) else c
    else c.enter .unconnected := by
  have idle (state : c.sslSocket_.state = .unconnected) : c = c.enter .unconnected := by
    have plain := sound.plain (by simp [state])
    rw [Console.enter, ← state, ← plain]
  cases state : c.sslSocket_.state <;> cases wired : c.sslSocket_.disconnectedSlot <;>
    simp [step, state, wired, sound.wired, socketError]
  exact idle state

/-- What an event does, when it does anything. -/
inductive Reacts (c : Console) : Event → Console → Prop where
  | ignored (event : Event) : Reacts c event c
  | established (connecting : c.sslSocket_.state = .connecting) :
      Reacts c .established (c.enter .connected)
  | encrypted (online : c.sslSocket_.state = .connected) : Reacts c .encrypted c.handshake
  | retried {event : Event} (retry : Attempt) (lost : event = .lost retry ∨ event = .error retry)
      (online : c.sslSocket_.state = .connected) (wired : c.sslSocket_.disconnectedSlot = true) :
      Reacts c event (reconnect retry (c.enter .unconnected).offline)
  | dropped (retry : Attempt) (online : c.sslSocket_.state = .connected)
      (unwired : c.sslSocket_.disconnectedSlot = false) :
      Reacts c (.lost retry) (c.enter .unconnected)
  | failed (retry : Attempt) (elsewhere : c.sslSocket_.state ≠ .connected) :
      Reacts c (.error retry) (c.enter .unconnected)
  | fired (attempt : Attempt) (running : c.timers ≠ 0) :
      Reacts c (.timeout attempt) (reconnect attempt c)
  | renewed (attempt : Attempt) : Reacts c (.sighup attempt) (c.handleSigHup attempt)

theorem Sound.reacts (sound : Sound c) (event : Event) : Reacts c event (c.step event) := by
  cases event with
  | established =>
    simp only [Console.step]
    split
    · exact .established ‹_›
    · exact .ignored _
  | encrypted =>
    simp only [Console.step]
    split
    · rename_i ready
      exact .encrypted ready.1
    · exact .ignored _
  | lost retry =>
    simp only [Console.step]
    split
    · rename_i online
      cases wired : c.sslSocket_.disconnectedSlot with
      | true =>
        rw [sound.lose_wired retry wired]
        exact .retried retry (.inl rfl) online wired
      | false =>
        rw [lose_unwired _ wired]
        exact .dropped retry online wired
    · exact .ignored _
  | error retry =>
    rw [sound.step_error]
    split
    · rename_i online
      split
      · rename_i wired
        rw [sound.lose_wired retry wired]
        exact .retried retry (.inr rfl) online wired
      · exact .ignored _
    · exact .failed retry ‹_›
  | timeout attempt =>
    simp only [Console.step]
    split
    · exact .ignored _
    · exact .fired attempt ‹_›
  | sighup attempt => exact .renewed attempt

/-- The losing branch of `reconnect` starts from a socket without a connection. -/
theorem Sound.offline (sound : Sound c) : Sound (c.enter .unconnected).offline :=
  sound.of_waits (Waits.forget c)

theorem Reacts.sound {event : Event} {c' : Console} (reacts : Reacts c event c')
    (sound : Sound c) : Sound c' := by
  cases reacts with
  | ignored => exact sound
  | encrypted online => exact sound.of_waits (Waits.handshake c)
  | retried retry lost online wired =>
    exact sound.offline.of_waits (reconnects retry _).toWaits
  | fired attempt running => exact sound.of_waits (reconnects attempt c).toWaits
  | renewed attempt =>
    rw [handleSigHup_eq]
    exact ⟨sound.going, fun encrypted => by simp_all [ends], by simp, rfl⟩
  | _ => exact sound.enter _

theorem Sound.step (sound : Sound c) (event : Event) : Sound (c.step event) :=
  (sound.reacts event).sound sound

/-! ## The flag -/

/-- `connectedServer_` tells whether the current socket is encrypted, so packages
are written exactly then. -/
structure KnowsConnection (c : Console) : Prop where
  flag : c.connectedServer_ = true ↔ c.sslSocket_.isEncrypted = true
  writes : ∀ capture : Capture, 0 < Int32.ofNat capture.boundingRects.length →
    (capture.motionDetected c.connectedServer_ ≠ [] ↔ c.sslSocket_.isEncrypted = true)

theorem knowsConnection_iff :
    KnowsConnection c ↔ c.connectedServer_ = c.sslSocket_.isEncrypted := by
  refine ⟨fun known => Bool.eq_iff_iff.mpr known.flag, fun same => ⟨by rw [same], ?_⟩⟩
  intro capture moved
  rw [← same]
  cases c.connectedServer_ with
  | true => exact iff_of_true (Capture.motionDetected_ne_nil moved) rfl
  | false => simp

/-- SIGHUP keeps the flag although it takes a new socket, whose losses nobody
hears of. -/
def flagGuard (c : Console) : Event → Prop
  | .sighup attempt => c.connectedServer_ = true ↔ attempt = .encrypted
  | .lost _ => c.sslSocket_.isEncrypted = true → c.sslSocket_.disconnectedSlot = true
  | _ => True

/-- A wait ends with the right flag if it began with it. -/
theorem Sound.known (sound : Sound c) {c' : Console} (waits : Waits c c')
    (known : KnowsConnection c) : KnowsConnection c' :=
  knowsConnection_iff.mpr
    (waits.knows sound.encrypted sound.slots (knowsConnection_iff.mp known))

theorem Reacts.known {event : Event} {c' : Console} (reacts : Reacts c event c')
    (sound : Sound c) (known : KnowsConnection c) (guarded : flagGuard c event) :
    KnowsConnection c' := by
  have same := knowsConnection_iff.mp known
  cases reacts with
  | ignored => exact known
  | established connecting =>
    have plain := sound.plain (by simp [connecting])
    exact knowsConnection_iff.mpr (by simp [same, plain])
  | encrypted online => exact sound.known (Waits.handshake c) known
  | retried retry lost online wired =>
    exact sound.known ((Waits.forget c).trans (reconnects retry _).toWaits) known
  | dropped retry online unwired =>
    have plain : c.sslSocket_.isEncrypted = false := by
      by_contra encrypted
      have noticed := guarded (by simpa using encrypted)
      simp [unwired] at noticed
    exact knowsConnection_iff.mpr (by simp [same, plain])
  | failed retry elsewhere =>
    exact knowsConnection_iff.mpr (by simp [same, sound.plain elsewhere])
  | fired attempt running => exact sound.known (reconnects attempt c).toWaits known
  | renewed attempt =>
    rw [handleSigHup_eq, knowsConnection_iff]
    exact Bool.eq_iff_iff.mpr (guarded.trans (by simp))

theorem Sound.flag_wrong (sound : Sound c) (known : KnowsConnection c) {event : Event}
    (unguarded : ¬ flagGuard c event) : ¬ KnowsConnection (c.step event) := by
  rw [knowsConnection_iff]
  cases event with
  | lost retry =>
    simp only [flagGuard, Classical.not_imp, Bool.not_eq_true] at unguarded
    obtain ⟨encrypted, unwired⟩ := unguarded
    have believed : c.connectedServer_ = true := known.flag.mpr encrypted
    simp [Console.step, sound.encrypted encrypted, lose_unwired _ unwired, believed]
  | sighup attempt =>
    rw [Console.step, handleSigHup_eq]
    intro same
    exact unguarded (Bool.eq_iff_iff.mp same |>.trans (by simp))
  | _ => exact absurd trivial unguarded

theorem new_knows : KnowsConnection new := knowsConnection_iff.mpr rfl

/-- In a run of the client the flag is right in every state exactly when every
SIGHUP and every loss finds it in a state it leaves right. -/
theorem flag_right_iff (events : List Event) :
    Throughout step KnowsConnection new events ↔ Meets step flagGuard new events :=
  throughout_iff_meets (fun c => Sound c ∧ KnowsConnection c) (fun _ inv => inv.2)
    (fun _ event inv guarded => ⟨inv.1.step event, (inv.1.reacts event).known inv.1 inv.2 guarded⟩)
    (fun _ _ inv unguarded => inv.1.flag_wrong inv.2 unguarded) ⟨new_sound, new_knows⟩ events

/-- SIGHUP while the server is down: the flag stays 1 without a connection. -/
theorem flag_wrong_after_sighup : ¬ Throughout step KnowsConnection new
    [.established, .encrypted, .sighup .refused] := by
  intro always
  have believed : true = false := knowsConnection_iff.mp always.last
  cases believed

/-! ## Retries -/

/-- An unconnected socket is retried by a timer; any other one by a timer or when
its connection is lost. -/
structure NotStranded (c : Console) : Prop where
  unconnected : c.sslSocket_.state = .unconnected → 0 < c.timers
  otherwise : c.sslSocket_.state ≠ .unconnected →
    c.sslSocket_.disconnectedSlot = true ∨ 0 < c.timers

/-- Without a timer, a refused attempt is not noticed, and the socket that SIGHUP
makes is not heard of once it is connected. -/
def retryGuard (c : Console) : Event → Prop
  | .error _ => c.sslSocket_.state = .connecting → 0 < c.timers
  | .sighup attempt => ends attempt = .connected → 0 < c.timers
  | _ => True

theorem NotStranded.of_timer (running : 0 < c.timers) : NotStranded c :=
  ⟨fun _ => running, fun _ => .inr running⟩

theorem NotStranded.covered (retried : NotStranded c) :
    c.sslSocket_.disconnectedSlot = true ∨ 0 < c.timers := by
  by_cases idle : c.sslSocket_.state = .unconnected
  · exact .inr (retried.unconnected idle)
  · exact retried.otherwise idle

theorem Reconnects.notStranded {c' : Console} (tries : Reconnects c c')
    (covered : c.sslSocket_.disconnectedSlot = true ∨ 0 < c.timers) : NotStranded c' := by
  by_cases online : c'.sslSocket_.state = .connected
  · refine ⟨fun idle => by simp [online] at idle, fun _ => ?_⟩
    rw [tries.disconnectedSlot]
    exact covered.imp_right fun running => running.trans_le tries.timers
  · exact .of_timer ((Nat.zero_le _).trans_lt (tries.retries online))

theorem Reacts.notStranded {event : Event} {c' : Console} (reacts : Reacts c event c')
    (retried : NotStranded c) (guarded : retryGuard c event) : NotStranded c' := by
  cases reacts with
  | ignored => exact retried
  | established connecting => exact ⟨fun idle => by simp at idle, fun _ => retried.covered⟩
  | encrypted online =>
    rw [handshake_eq]
    exact ⟨fun idle => by simp at idle, fun _ => retried.covered⟩
  | retried retry lost online wired => exact (reconnects retry _).notStranded (.inl wired)
  | dropped retry online unwired =>
    have running : 0 < c.timers := by simpa [unwired] using retried.covered
    exact .of_timer running
  | failed retry elsewhere =>
    have running : 0 < c.timers := by
      cases state : c.sslSocket_.state with
      | unconnected => exact retried.unconnected state
      | connecting => exact guarded state
      | connected => exact absurd state elsewhere
    exact .of_timer running
  | fired attempt running =>
    exact (reconnects attempt c).notStranded (.inr (Nat.pos_of_ne_zero running))
  | renewed attempt =>
    rw [handleSigHup_eq]
    apply NotStranded.of_timer
    by_cases online : ends attempt = .connected
    · simpa [online] using guarded online
    · simp [online]

theorem Sound.stranded (sound : Sound c) {event : Event} (unguarded : ¬ retryGuard c event) :
    ¬ NotStranded (c.step event) := by
  intro retried
  cases event with
  | error retry =>
    obtain ⟨connecting, silent⟩ := Classical.not_imp.mp unguarded
    rw [sound.step_error, if_neg (by simp [connecting])] at retried
    exact silent (retried.unconnected rfl)
  | sighup attempt =>
    obtain ⟨online, silent⟩ := Classical.not_imp.mp unguarded
    rw [Console.step, handleSigHup_eq] at retried
    have covered := retried.covered
    simp only [online, ↓reduceIte, Bool.false_eq_true, false_or] at covered
    exact silent covered
  | _ => exact unguarded trivial

theorem new_retried : NotStranded new := by
  constructor <;> simp [new]

/-- In a run of the client it is never stranded exactly when a timer runs at every
refused attempt and at every SIGHUP that ends connected. -/
theorem never_stranded_iff (events : List Event) :
    Throughout step NotStranded new events ↔ Meets step retryGuard new events :=
  throughout_iff_meets (fun c => Sound c ∧ NotStranded c) (fun _ inv => inv.2)
    (fun _ event inv guarded => ⟨inv.1.step event, (inv.1.reacts event).notStranded inv.2 guarded⟩)
    (fun _ _ inv unguarded => inv.1.stranded unguarded) ⟨new_sound, new_retried⟩ events

/-- The first attempt is refused. -/
theorem stranded_at_start : ¬ Throughout step NotStranded new [.error .refused] := by
  intro always
  exact absurd (always.last.unconnected rfl) (by decide)

/-! ## Accumulation -/

/-- At most one timer, none once the socket is connected, and one call of
`connected()` for each handshake. -/
structure NoSurplus (c : Console) : Prop where
  timers : c.timers ≤ 1
  connected : c.sslSocket_.state = .connected → c.timers = 0
  slots : c.sslSocket_.encryptedSlots = 1

/-- Nothing calls `reconnect` but SIGHUP without a timer, and no attempt succeeds
behind a timer. -/
def surplusGuard (c : Console) : Event → Prop
  | .established => c.sslSocket_.state = .connecting → c.timers = 0
  | .encrypted => True
  | .lost _ | .error _ => c.sslSocket_.state = .connected → c.sslSocket_.disconnectedSlot = false
  | .timeout _ | .sighup _ => c.timers = 0

theorem NoSurplus.enter (few : NoSurplus c) {state : SocketState}
    (connects : state = .connected → c.timers = 0) : NoSurplus (c.enter state) :=
  ⟨few.timers, connects, few.slots⟩

/-- A second connection of `encrypted()` is there from the first `reconnect` on. -/
theorem Reconnects.surplus {c' : Console} (tries : Reconnects c c')
    (wired : 0 < c.sslSocket_.encryptedSlots) : ¬ NoSurplus c' := by
  intro few
  have := tries.adds
  have := few.slots
  omega

theorem Sound.surplus_lose (sound : Sound c) (retry : Attempt)
    (wired : c.sslSocket_.disconnectedSlot = true) :
    ¬ NoSurplus (c.lose (disconnect retry)) := by
  rw [sound.lose_wired retry wired]
  exact (reconnects retry _).surplus sound.slots

theorem Reacts.few {event : Event} {c' : Console} (reacts : Reacts c event c')
    (few : NoSurplus c) (guarded : surplusGuard c event) : NoSurplus c' := by
  cases reacts with
  | ignored => exact few
  | established connecting => exact few.enter fun _ => guarded connecting
  | encrypted online =>
    rw [handshake_eq]
    exact ⟨few.timers, fun _ => few.connected online, few.slots⟩
  | retried retry lost online wired =>
    have unwired : c.sslSocket_.disconnectedSlot = false := by
      rcases lost with rfl | rfl <;> exact guarded online
    simp [unwired] at wired
  | dropped retry online unwired => exact few.enter (by simp)
  | failed retry elsewhere => exact few.enter (by simp)
  | fired attempt running => exact absurd guarded running
  | renewed attempt =>
    have none : c.timers = 0 := guarded
    rw [handleSigHup_eq]
    refine ⟨?_, fun online => ?_, rfl⟩
    · simp only [none]
      split <;> omega
    · simpa [none] using online

theorem Sound.surplus (sound : Sound c) {event : Event} (unguarded : ¬ surplusGuard c event) :
    ¬ NoSurplus (c.step event) := by
  cases event with
  | established =>
    obtain ⟨connecting, running⟩ := Classical.not_imp.mp unguarded
    rw [Console.step, if_pos connecting]
    exact fun few => running (few.connected rfl)
  | encrypted => exact absurd trivial unguarded
  | lost retry =>
    obtain ⟨online, wired⟩ := Classical.not_imp.mp unguarded
    rw [Console.step, if_pos online]
    exact sound.surplus_lose retry (by simpa using wired)
  | error retry =>
    obtain ⟨online, wired⟩ := Classical.not_imp.mp unguarded
    rw [sound.step_error, if_pos online, if_pos (by simpa using wired)]
    exact sound.surplus_lose retry (by simpa using wired)
  | timeout attempt =>
    have running : ¬ c.timers = 0 := unguarded
    rw [Console.step, if_neg running]
    exact (reconnects attempt c).surplus sound.slots
  | sighup attempt =>
    have running : 0 < c.timers := Nat.pos_of_ne_zero unguarded
    rw [Console.step, handleSigHup_eq]
    intro few
    have most := few.timers
    have idle := few.connected
    simp only at most idle
    split at most
    · rename_i online
      have := idle online
      simp only [online, ↓reduceIte] at this
      omega
    · omega

theorem new_few : NoSurplus new := by
  constructor <;> simp [new]

/-- In a run of the client nothing accumulates exactly when no event of it calls
`reconnect` again or succeeds behind a timer. -/
theorem no_surplus_iff (events : List Event) :
    Throughout step NoSurplus new events ↔ Meets step surplusGuard new events :=
  throughout_iff_meets (fun c => Sound c ∧ NoSurplus c) (fun _ inv => inv.2)
    (fun _ event inv guarded => ⟨inv.1.step event, (inv.1.reacts event).few inv.2 guarded⟩)
    (fun _ _ inv unguarded => inv.1.surplus unguarded) ⟨new_sound, new_few⟩ events

/-- A lost connection whose first retry fails and whose second one succeeds: a
timer keeps running, and a handshake now calls `connected()` three times. -/
theorem surplus_after_two_retries : ¬ Throughout step NoSurplus new
    [.established, .encrypted, .lost .refused, .timeout .encrypted] := by
  intro always
  exact absurd (always.last.connected rfl) (by decide)

end Videovigilancia.ConnectionProofs
