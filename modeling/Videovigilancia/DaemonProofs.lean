import Mathlib.Data.List.Forall2
import Mathlib.Data.List.Induction
import Videovigilancia.CommandLineProofs

/-! Who the daemon is. Each `d` switches the process at once, to the user and the
group set so far, the user first: from then on it may no longer choose a group,
and a later `d` no other user. What is left in the end is the identity that the
first unprivileged `d` could take. -/
namespace Videovigilancia.ServerMain
open OptionWords

/-! ## The names in force -/

def IsUid (word : QByteArray) : Prop := word = literal "u" ∨ word = literal "uid"

instance (word : QByteArray) : Decidable (IsUid word) := inferInstanceAs (Decidable (_ ∨ _))

def IsGid (word : QByteArray) : Prop := word = literal "g" ∨ word = literal "gid"

instance (word : QByteArray) : Decidable (IsGid word) := inferInstanceAs (Decidable (_ ∨ _))

/-- A setting behind all arguments: the word behind the last one that means it. -/
def assigned (means : QByteArray → Prop) [DecidablePred means] (value : QByteArray) :
    List QByteArray → QByteArray
  | [] => value
  | word :: words => assigned means (if means word then words.head?.getD [] else value) words

/-- The user and the group that are set at each word which makes the daemon. -/
def named (uid gid : QByteArray) : List QByteArray → List (QByteArray × QByteArray)
  | [] => []
  | word :: words =>
    let uid := if IsUid word then words.head?.getD [] else uid
    let gid := if IsGid word then words.head?.getD [] else gid
    if IsDaemon word then (uid, gid) :: named uid gid words else named uid gid words

/-- The loop ends with the process running as the user and the group that are set
last. -/
def RunsAsConfigured (accounts : Accounts) (conf : Options) (argv : List QByteArray) : Prop :=
  ∃ m, loop accounts { conf with ids := .root } argv = some m ∧
    accounts.getpwnam m.uid = some m.ids.euid ∧ accounts.getgrnam m.gid = some m.ids.egid

/-! ## What the loop does to the identity -/

variable {accounts : Accounts}

/-- One switch, to a user and a group by name. -/
def switch (accounts : Accounts) (ids : Ids) (names : QByteArray × QByteArray) : Option Ids :=
  (accounts.getpwnam names.1).bind fun pw_uid =>
    (accounts.getgrnam names.2).map fun gr_gid => (ids.seteuid pw_uid).setegid gr_gid

/-- A turn before it asks for the daemon. -/
theorem turn_settings (accounts : Accounts) (m : Options) (word : QByteArray) (next : Option QByteArray) :
    ∃ m' : Options, m'.uid = (if IsUid word then next.getD [] else m.uid) ∧
      m'.gid = (if IsGid word then next.getD [] else m.gid) ∧ m'.ids = m.ids ∧
      turn accounts m word next = if IsDaemon word then becomeDaemon accounts m' else some m' := by
  refine ⟨_, ?_, ?_, ?_, rfl⟩
  · simp only [apply_ite Options.uid, ite_self]
    rfl
  · simp only [apply_ite Options.gid, ite_self]
    rfl
  · simp only [apply_ite Options.ids, ite_self]

/-- The loop changes the identity by one switch for each name pair. -/
theorem loop_ids (accounts : Accounts) (m : Options) (argv : List QByteArray) :
    (loop accounts m argv).map (fun m => (m.uid, m.gid, m.ids)) =
      ((named m.uid m.gid argv).foldlM (switch accounts) m.ids).map fun ids =>
        (assigned IsUid m.uid argv, assigned IsGid m.gid argv, ids) := by
  induction argv generalizing m with
  | nil => rfl
  | cons word words ih =>
    obtain ⟨m', uid, gid, ids, turned⟩ := turn_settings accounts m word words.head?
    have first : loop accounts m (word :: words) =
        (turn accounts m word words.head?).bind fun m => loop accounts m words := rfl
    rw [first, turned, named, assigned, assigned, ← uid, ← gid, ← ids]
    by_cases daemon : IsDaemon word
    · rw [if_pos daemon, if_pos daemon, List.foldlM_cons]
      cases user : accounts.getpwnam m'.uid with
      | none => simp [becomeDaemon, switch, user]
      | some pw_uid =>
        cases group : accounts.getgrnam m'.gid with
        | none => simp [becomeDaemon, switch, user, group]
        | some gr_gid =>
          simpa [becomeDaemon, switch, user, group] using
            ih { m' with daemon := true, ids := (m'.ids.seteuid pw_uid).setegid gr_gid }
    · rw [if_neg daemon, if_neg daemon]
      exact ih m'

/-! ## Where the identity ends -/

/-- The ids of a user and a group by name. -/
def HasIds (accounts : Accounts) (names : QByteArray × QByteArray) (ids : Nat × Nat) : Prop :=
  accounts.getpwnam names.1 = some ids.1 ∧ accounts.getgrnam names.2 = some ids.2

/-- One switch, to a user and a group by id. -/
def switchTo (ids : Ids) (target : Nat × Nat) : Ids := (ids.seteuid target.1).setegid target.2

theorem switch_some_iff {ids ids' : Ids} {names : QByteArray × QByteArray} :
    switch accounts ids names = some ids' ↔
      ∃ target, HasIds accounts names target ∧ switchTo ids target = ids' := by
  constructor
  · intro switched
    obtain ⟨pw_uid, user, switched⟩ := Option.bind_eq_some_iff.mp switched
    obtain ⟨gr_gid, group, rfl⟩ := Option.map_eq_some_iff.mp switched
    exact ⟨(pw_uid, gr_gid), ⟨user, group⟩, rfl⟩
  · rintro ⟨⟨pw_uid, gr_gid⟩, ⟨user, group⟩, rfl⟩
    simp only at user group
    simp [switch, user, group, switchTo]

/-- All switches succeed exactly when every name exists. -/
theorem foldlM_switch_iff (names : List (QByteArray × QByteArray)) (ids ids' : Ids) :
    names.foldlM (switch accounts) ids = some ids' ↔
      ∃ targets, List.Forall₂ (HasIds accounts) names targets ∧ targets.foldl switchTo ids = ids' := by
  induction names generalizing ids with
  | nil =>
    constructor
    · intro same
      exact ⟨[], .nil, Option.some.inj same⟩
    · rintro ⟨targets, none, rfl⟩
      cases none
      rfl
  | cons name names ih =>
    rw [List.foldlM_cons]
    constructor
    · intro switched
      obtain ⟨between, first, later⟩ := Option.bind_eq_some_iff.mp switched
      obtain ⟨target, has, rfl⟩ := switch_some_iff.mp first
      obtain ⟨targets, have_ids, rfl⟩ := (ih _).mp later
      exact ⟨target :: targets, .cons has have_ids, rfl⟩
    · rintro ⟨targets, have_ids, rfl⟩
      cases have_ids with
      | @cons _ target _ targets has have_ids =>
        exact Option.bind_eq_some_iff.mpr ⟨switchTo ids target,
          switch_some_iff.mpr ⟨target, has, rfl⟩, (ih _).mpr ⟨targets, have_ids, rfl⟩⟩

/-- The first user that was named behind the last time root was, or root. -/
def effectiveUser (targets : List (Nat × Nat)) : Nat :=
  ((targets.map Prod.fst).reverse.takeWhile (· ≠ 0)).getLastD 0

/-- The group that was named the last time root was, as the user or as the group,
or root's. -/
def effectiveGroup (targets : List (Nat × Nat)) : Nat :=
  ((targets.reverse.find? fun target => target.1 = 0 ∨ target.2 = 0).map Prod.snd).getD 0

/-- Without root in the list, a default is used exactly where root's would be. -/
theorem getLastD_others {users : List Nat} (others : ∀ user ∈ users, user ≠ 0) (default : Nat) :
    users.getLastD default = if users.getLastD 0 = 0 then default else users.getLastD 0 := by
  rcases List.eq_nil_or_concat users with rfl | ⟨earlier, last, rfl⟩
  · rfl
  · have other := others last (by simp)
    simp [other]

theorem effectiveUser_append (targets : List (Nat × Nat)) (target : Nat × Nat) :
    effectiveUser (targets ++ [target]) =
      if effectiveUser targets = 0 ∨ target.1 = 0 then target.1 else effectiveUser targets := by
  have appended : effectiveUser (targets ++ [target]) =
      ((target.1 :: (targets.map Prod.fst).reverse).takeWhile (· ≠ 0)).getLastD 0 := by
    rw [effectiveUser, List.map_append, List.map_singleton, List.reverse_append,
      List.reverse_singleton, List.singleton_append]
  have others : ∀ user ∈ (targets.map Prod.fst).reverse.takeWhile (· ≠ 0), user ≠ 0 :=
    fun user member => by simpa using List.mem_takeWhile_imp member
  by_cases root : target.1 = 0
  · rw [appended, if_pos (.inr root), List.takeWhile_cons_of_neg (by simp [root]),
      List.getLastD_nil, root]
  · rw [appended, List.takeWhile_cons_of_pos (by simpa using root), List.getLastD_cons,
      getLastD_others others]
    simp only [root, or_false]
    rfl

theorem effectiveGroup_append (targets : List (Nat × Nat)) (target : Nat × Nat) :
    effectiveGroup (targets ++ [target]) =
      if target.1 = 0 ∨ target.2 = 0 then target.2 else effectiveGroup targets := by
  by_cases chosen : target.1 = 0 ∨ target.2 = 0 <;> simp [effectiveGroup, chosen]

/-- The identity behind all switches. A switch leaves root as the user only when it
was to root. -/
theorem switchTo_all (targets : List (Nat × Nat)) :
    targets.foldl switchTo .root = ⟨effectiveUser targets, effectiveGroup targets⟩ := by
  induction targets using List.reverseRecOn with
  | nil => rfl
  | append_singleton targets target ih =>
    have user := effectiveUser_append targets target
    have group := effectiveGroup_append targets target
    rw [List.foldl_append, ih, List.foldl_cons, List.foldl_nil, switchTo, Ids.seteuid, user, group]
    by_cases privileged : effectiveUser targets = 0 ∨ target.1 = 0
    · rw [if_pos privileged, if_pos privileged, Ids.setegid]
      split <;> rfl
    · obtain ⟨other, named_other⟩ := not_or.mp privileged
      rw [if_neg privileged, if_neg privileged, Ids.setegid]
      simp only [other, named_other, false_or]
      split <;> rfl

/-- Every name is known, and the identity that can be taken is the one that is set
last. -/
def TakesIdentity (accounts : Accounts) (conf : Options) (argv : List QByteArray) : Prop :=
  ∃ targets, List.Forall₂ (HasIds accounts) (named conf.uid conf.gid argv) targets ∧
    accounts.getpwnam (assigned IsUid conf.uid argv) = some (effectiveUser targets) ∧
    accounts.getgrnam (assigned IsGid conf.gid argv) = some (effectiveGroup targets)

/-- The process runs as configured exactly when every word that makes the daemon
finds its user and group, the first user found behind the last root is the one set
last, and so is the group that was found last while the process could take it. -/
theorem runs_as_configured_iff (accounts : Accounts) (conf : Options) (argv : List QByteArray) :
    RunsAsConfigured accounts conf argv ↔ TakesIdentity accounts conf argv := by
  have ids := loop_ids accounts { conf with ids := .root } argv
  constructor
  · rintro ⟨m, ends, user, group⟩
    rw [ends, Option.map_some] at ids
    obtain ⟨taken, switched, view⟩ := Option.map_eq_some_iff.mp ids.symm
    obtain ⟨targets, have_ids, rfl⟩ := (foldlM_switch_iff _ _ _).mp switched
    simp only [Prod.mk.injEq] at view
    obtain ⟨uid, gid, same⟩ := view
    rw [switchTo_all] at same
    refine ⟨targets, have_ids, ?_, ?_⟩
    · rw [uid, user, ← same]
    · rw [gid, group, ← same]
  · rintro ⟨targets, have_ids, user, group⟩
    rw [(foldlM_switch_iff _ _ _).mpr ⟨targets, have_ids, rfl⟩, switchTo_all, Option.map_some] at ids
    obtain ⟨m, ends, view⟩ := Option.map_eq_some_iff.mp ids
    simp only [Prod.mk.injEq] at view
    obtain ⟨uid, gid, same⟩ := view
    exact ⟨m, ends, by rw [uid, same, user], by rw [gid, same, group]⟩

/-- A system with root and one user, in a group of its own. -/
def oneUser : Accounts where
  getpwnam name := if name = literal "root" then some 0
    else if name = literal "leonor" then some 1000 else none
  getgrnam name := if name = literal "root" then some 0
    else if name = literal "leonor" then some 1000 else none

/-- The server as its init script starts it: the group stays root's. -/
theorem daemon_keeps_root_group : ¬ RunsAsConfigured oneUser
    ⟨[], [], [], literal "leonor", literal "leonor", [], false, 0, .root⟩ [literal "d"] := by
  rintro ⟨m, ends, user, group⟩
  cases ends
  exact absurd group (by decide +kernel)

end Videovigilancia.ServerMain
