import Mathlib.Data.List.Basic

/-!
# Credentials of a process

A process has a real, an effective and a saved user and group, and supplementary groups. With
the effective user 0 it may set them to anything. Without it, a user or group can only be
replaced by another one that the process has, and the supplementary groups cannot be replaced at
all. A system may refuse a call for reasons of its own; a call that fails changes nothing.

## The system's part

The rules are those of a system that knows no other privilege than the effective user 0. Finer
ones, such as capabilities, only matter for who may do what *before* the privilege is given up,
and are absent.

What a system does beyond the rules is the parameter `Refuses`: a call can fail for a lack of
resources, or because of a policy. It is a parameter of every call, not a condition on the
results, so that a program that ignores a failure is seen to go on with the credentials it had.
Such programs exist, and this is the interesting case.

## What is proved

That giving up the privilege is final. `Within` says that a process has nothing that it had not
before. Without the user 0 among its three users, every call stays within, and so does every run
of calls: however a process that has dropped its privilege goes on, it does not get it back.

## Main definitions

* `Credentials`, `Credentials.Call`, `Credentials.apply` — the calls, and what they do if
  permitted
* `Credentials.call`, `Credentials.run` — calls of a system that may refuse them
* `Credentials.Within` — nothing that was not there before

## Main results

* `Credentials.Within.run` — a process without user 0 has nothing after a run of calls that it
  had not before
* `Credentials.run_only` — with one user and one group, it keeps its credentials
-/

/-- The number of an error. -/
abbrev Errno := ℕ

/-- Operation not permitted. -/
def eperm : Errno := 1

/-- The credentials of a process. -/
structure Credentials where
  /-- The real user. -/
  ruid : ℕ
  /-- The effective user, which the permissions depend on. -/
  euid : ℕ
  /-- The saved user, which the effective one can be replaced by. -/
  suid : ℕ
  /-- The real group. -/
  rgid : ℕ
  /-- The effective group. -/
  egid : ℕ
  /-- The saved group. -/
  sgid : ℕ
  /-- The supplementary groups. -/
  groups : List ℕ
  deriving DecidableEq

namespace Credentials

/-! ## The calls

Each call replaces some of the seven entries. `apply` gives the rule, in which only the
credentials matter; `call` adds the refusals of the system, and `step` goes on whatever has come
of it, as a program does that does not look at results. -/

/-- The calls that change credentials. -/
inductive Call where
  | setuid (uid : ℕ)
  | setresuid (ruid euid suid : ℕ)
  | setgid (gid : ℕ)
  | setresgid (rgid egid sgid : ℕ)
  | setgroups (groups : List ℕ)
  deriving DecidableEq

/-- All users of a process. -/
def uids (c : Credentials) : List ℕ := [c.ruid, c.euid, c.suid]

/-- All its groups, the supplementary ones aside. -/
def gids (c : Credentials) : List ℕ := [c.rgid, c.egid, c.sgid]

/-- One user and one group for everything. -/
def only (uid gid : ℕ) (groups : List ℕ) : Credentials := ⟨uid, uid, uid, gid, gid, gid, groups⟩

/-- What a call makes of the credentials, if it is permitted. -/
def apply (c : Credentials) : Call → Option Credentials
  | .setuid uid =>
    if c.euid = 0 then some { c with ruid := uid, euid := uid, suid := uid }
    else if uid = c.ruid ∨ uid = c.suid then some { c with euid := uid }
    else none
  | .setresuid ruid euid suid =>
    if c.euid = 0 ∨ ∀ uid ∈ [ruid, euid, suid], uid ∈ c.uids then some { c with ruid, euid, suid }
    else none
  | .setgid gid =>
    if c.euid = 0 then some { c with rgid := gid, egid := gid, sgid := gid }
    else if gid = c.rgid ∨ gid = c.sgid then some { c with egid := gid }
    else none
  | .setresgid rgid egid sgid =>
    if c.euid = 0 ∨ ∀ gid ∈ [rgid, egid, sgid], gid ∈ c.gids then some { c with rgid, egid, sgid }
    else none
  | .setgroups groups => if c.euid = 0 then some { c with groups } else none

/-- Which calls are refused for other reasons, and with which error. -/
abbrev Refuses := Credentials → Call → Option Errno

/-- A call to the system. -/
def call (refuses : Refuses) (c : Credentials) (a : Call) : Except Errno Credentials :=
  match refuses c a with
  | some e => .error e
  | none =>
    match c.apply a with
    | some c => .ok c
    | none => .error eperm

/-- A call, whether it succeeds or fails. -/
def step (refuses : Refuses) (c : Credentials) (a : Call) : Credentials :=
  match c.call refuses a with
  | .ok c => c
  | .error _ => c

/-- Some calls, one after the other, whatever comes of them. -/
def run (refuses : Refuses) (c : Credentials) (calls : List Call) : Credentials :=
  calls.foldl (step refuses) c

/-! ## Without the privilege

A relation between the credentials before and after. It is reflexive and transitive, so that it
is enough to show it for one call, and the step of the induction is that the user 0 does not come
back. -/

/-- Nothing that `c` has not, and the same supplementary groups. -/
structure Within (c c' : Credentials) : Prop where
  /-- No user that was not there. -/
  uids : ∀ uid ∈ c'.uids, uid ∈ c.uids
  /-- No group that was not there. -/
  gids : ∀ gid ∈ c'.gids, gid ∈ c.gids
  /-- The same supplementary groups. -/
  groups : c'.groups = c.groups

variable {refuses : Refuses} {c c' c'' : Credentials} {a : Call} {calls : List Call}
  {uid gid : ℕ} {groups : List ℕ}

/-- Nothing has changed. -/
theorem Within.refl (c : Credentials) : Within c c := ⟨fun _ h => h, fun _ h => h, rfl⟩

/-- What comes later is within what came before. -/
theorem Within.trans (h : Within c c') (h' : Within c' c'') : Within c c'' :=
  ⟨fun uid hu => h.uids uid (h'.uids uid hu), fun gid hg => h.gids gid (h'.gids gid hg),
    h'.groups.trans h.groups⟩

/-- The user 0 does not come back. -/
theorem Within.root (h : Within c c') (hroot : 0 ∉ c.uids) : 0 ∉ c'.uids :=
  fun hmem => hroot (h.uids 0 hmem)

/-- Without user 0, a permitted call moves what there is. -/
theorem Within.apply (hroot : 0 ∉ c.uids) (h : c.apply a = some c') : Within c c' := by
  have heuid : c.euid ≠ 0 := fun h => hroot (by simp [Credentials.uids, h])
  cases a with
  | setuid uid =>
    rw [Credentials.apply, if_neg heuid, Option.ite_none_right_eq_some] at h
    obtain ⟨huid, h⟩ := h
    obtain rfl := Option.some.inj h
    refine ⟨fun u hu => ?_, fun _ hg => hg, rfl⟩
    simp only [Credentials.uids, List.mem_cons, List.not_mem_nil, or_false] at hu ⊢
    grind
  | setresuid ruid euid suid =>
    rw [Credentials.apply, Option.ite_none_right_eq_some] at h
    obtain ⟨hmem, h⟩ := h
    obtain rfl := Option.some.inj h
    exact ⟨hmem.resolve_left heuid, fun _ hg => hg, rfl⟩
  | setgid gid =>
    rw [Credentials.apply, if_neg heuid, Option.ite_none_right_eq_some] at h
    obtain ⟨hgid, h⟩ := h
    obtain rfl := Option.some.inj h
    refine ⟨fun _ hu => hu, fun g hg => ?_, rfl⟩
    simp only [Credentials.gids, List.mem_cons, List.not_mem_nil, or_false] at hg ⊢
    grind
  | setresgid rgid egid sgid =>
    rw [Credentials.apply, Option.ite_none_right_eq_some] at h
    obtain ⟨hmem, h⟩ := h
    obtain rfl := Option.some.inj h
    exact ⟨fun _ hu => hu, hmem.resolve_left heuid, rfl⟩
  | setgroups groups =>
    rw [Credentials.apply, if_neg heuid] at h
    cases h

/-- When a call succeeds. -/
theorem call_ok_iff : c.call refuses a = .ok c' ↔ refuses c a = none ∧ c.apply a = some c' := by
  unfold call
  cases refuses c a with
  | some e => simp
  | none => cases c.apply a <;> simp

/-! ### With the privilege

What the calls do that a program makes while it has the effective user 0, and what they need. -/

/-- With the effective user 0, `setgid` sets all groups. -/
theorem setgid_ok_iff (hroot : c.euid = 0) : c.call refuses (.setgid gid) = .ok c' ↔
    refuses c (.setgid gid) = none ∧ c' = { c with rgid := gid, egid := gid, sgid := gid } := by
  rw [call_ok_iff, apply, if_pos hroot, Option.some.injEq, eq_comm (a := c')]

/-- With the effective user 0, `setuid` sets all users. -/
theorem setuid_ok_iff (hroot : c.euid = 0) : c.call refuses (.setuid uid) = .ok c' ↔
    refuses c (.setuid uid) = none ∧ c' = { c with ruid := uid, euid := uid, suid := uid } := by
  rw [call_ok_iff, apply, if_pos hroot, Option.some.injEq, eq_comm (a := c')]

/-- `setgroups` needs the effective user 0. -/
theorem setgroups_ok_iff : c.call refuses (.setgroups groups) = .ok c' ↔
    refuses c (.setgroups groups) = none ∧ c.euid = 0 ∧ c' = { c with groups } := by
  rw [call_ok_iff, apply, Option.ite_none_right_eq_some, Option.some.injEq, eq_comm (a := c')]

/-- `setgid` leaves the users as they are. -/
theorem uids_of_setgid (h : c.call refuses (.setgid gid) = .ok c') : c'.uids = c.uids := by
  obtain ⟨-, h⟩ := call_ok_iff.mp h
  rw [apply] at h
  split at h
  · rw [← Option.some.inj h]
    rfl
  · obtain ⟨-, h⟩ := Option.ite_none_right_eq_some.mp h
    rw [← Option.some.inj h]
    rfl

/-- A call that may fail moves no more than one that is permitted. -/
theorem Within.step (refuses : Refuses) (hroot : 0 ∉ c.uids) (a : Call) :
    Within c (c.step refuses a) := by
  unfold Credentials.step
  split
  · rename_i c' hcall
    exact Within.apply hroot (call_ok_iff.mp hcall).2
  · exact Within.refl c

/-- **Without user 0.** After any calls, the process has nothing that it had not before. -/
theorem Within.run (refuses : Refuses) (hroot : 0 ∉ c.uids) (calls : List Call) :
    Within c (c.run refuses calls) := by
  induction calls generalizing c with
  | nil => exact Within.refl c
  | cons a calls ih =>
    have hstep := Within.step refuses hroot a
    exact hstep.trans (ih (hstep.root hroot))

/-- One user and one group for everything, as a property of what is there. -/
theorem eq_only_iff : c = only uid gid groups ↔
    (∀ u ∈ c.uids, u = uid) ∧ (∀ g ∈ c.gids, g = gid) ∧ c.groups = groups := by
  obtain ⟨ruid, euid, suid, rgid, egid, sgid, groups'⟩ := c
  simp only [only, uids, gids, List.forall_mem_cons, Credentials.mk.injEq]
  simp only [List.not_mem_nil, false_implies, implies_true, and_true]
  simp only [and_assoc]

/-- **For good.** A process with one user other than 0 and one group keeps its credentials. -/
theorem run_only (refuses : Refuses) (huid : uid ≠ 0) (gid : ℕ) (groups : List ℕ)
    (calls : List Call) : (only uid gid groups).run refuses calls = only uid gid groups := by
  obtain ⟨huids, hgids, hgroups⟩ := (eq_only_iff (c := only uid gid groups)).mp rfl
  have hroot : 0 ∉ (only uid gid groups).uids := fun h => huid (huids 0 h).symm
  have hrun := Within.run refuses hroot calls
  exact eq_only_iff.mpr ⟨fun u hu => huids u (hrun.uids u hu), fun g hg => hgids g (hrun.gids g hg),
    hrun.groups.trans hgroups⟩

end Credentials
