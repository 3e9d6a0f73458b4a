import Dssh.Lib.Credentials
import Dssh.Lib.Utf8

/-!
# Dropping privileges

The process of a session is started by root and becomes the user: first the group, then the
supplementary groups, and the user last, since without root the groups can no longer be set. The
system may refuse any of the calls. Only a process that is root gets through, and it then has
the user and the groups for good; where a call is refused, it still has the user it had.

## Why the order matters

Each of the three calls has conditions on the credentials it is made with, and changes them.
After `setuid` to another user, `setgid` and `setgroups` fail. A program that does not look at
their results has then the user and the groups of root, and may become root again: the example
at the end is what would come of the opposite order, with the failures ignored.
`drop_privileges` has the right order and returns at the first failure, and the result says what
this achieves, in the three sets of ids that a process has.

`setuid` of a privileged process sets the real, the effective and the saved user at once, so
there is nothing left to go back to. For an unprivileged process, it sets the effective one, and
succeeds for a user that the process has already. This is why "only root gets through" needs
`initgroups` in between.

## For good

`privileges_dropped` has a run in it: *whatever* the process calls later, any sequence of the
three calls with any arguments, it keeps these credentials, if its user is not root. That is the
library's invariant about unprivileged processes, applied to the credentials behind the last
call.

The system may refuse calls for reasons of its own, like limits on the number of processes.
These are in `Refuses`, a parameter, and the theorem has the condition that none of them
applies. The groups of a user come from a database, which is the other parameter.

## Main definitions

* `System` — what it refuses, and the groups it knows
* `dropPrivileges` — the source's function
* `Granted` — nothing is refused for reasons of the system

## Main results

* `dropPrivileges_ok_iff` — when the process gets through
* `privileges_dropped` — what it has then, whatever it calls later
-/

namespace Dssh

open Credentials

/-! ## The function

The three calls in their order, each with its error. The result comes with the credentials, since
a call that fails may come behind others that have not. -/

/-- The errors of `drop_privileges`. -/
inductive DropPrivilegesError where
  /-- A NUL in the name, at this byte. -/
  | invalidUsername (position : ℕ)
  | setGid (gid : ℕ) (source : Errno)
  | initGroups (username : List Char) (gid : ℕ) (source : Errno)
  | setUid (uid : ℕ) (source : Errno)
  deriving DecidableEq

/-- What it refuses, and the groups of a user with a primary group. -/
structure System where
  refuses : Refuses
  groupList : List Char → ℕ → Except Errno (List ℕ)

/-- The groups of the database, and those of the process are set to them. -/
def initgroups (sys : System) (c : Credentials) (user : List Char) (group : ℕ) :
    Except Errno Credentials := do
  let groups ← sys.groupList user group
  c.call sys.refuses (.setgroups groups)

/-- The result, and the credentials behind it. -/
def dropPrivileges (sys : System) (uid gid : ℕ) (username : List Char) (c : Credentials) :
    Except DropPrivilegesError Unit × Credentials :=
  -- `CString::new`
  if '\x00' ∈ username then
    (.error (.invalidUsername (byteLen (username.takeWhile (· ≠ '\x00')))), c)
  else
    match c.call sys.refuses (.setgid gid) with
    | .error source => (.error (.setGid gid source), c)
    | .ok c =>
      match initgroups sys c username gid with
      | .error source => (.error (.initGroups username gid source), c)
      | .ok c =>
        match c.call sys.refuses (.setuid uid) with
        | .error source => (.error (.setUid uid source), c)
        | .ok c => (.ok (), c)

/-- With the group, before the supplementary groups. -/
def withGroup (c : Credentials) (gid : ℕ) : Credentials :=
  { c with rgid := gid, egid := gid, sgid := gid }

/-- None of the calls is refused for reasons of the system. -/
def Granted (sys : System) (uid gid : ℕ) (c : Credentials) (groups : List ℕ) : Prop :=
  sys.refuses c (.setgid gid) = none ∧
    sys.refuses (withGroup c gid) (.setgroups groups) = none ∧
    sys.refuses { withGroup c gid with groups } (.setuid uid) = none

variable {sys : System} {uid gid : ℕ} {username : List Char} {c c' : Credentials}

/-! ## When it gets through

From the end to the beginning: `setgroups` needs the effective user 0, which `setgid` has not
changed, so the process had it from the start, and each of the calls does what it does for root. -/

/-- It takes root, and a user that is known. -/
theorem initgroups_ok_iff : initgroups sys c username gid = .ok c' ↔
    ∃ groups, sys.groupList username gid = .ok groups ∧
      sys.refuses c (.setgroups groups) = none ∧ c.euid = 0 ∧ c' = { c with groups } := by
  unfold initgroups
  cases hgroups : sys.groupList username gid with
  | error e => exact iff_of_false (by intro h; cases h) (by rintro ⟨_, h, -⟩; cases h)
  | ok groups =>
    refine setgroups_ok_iff.trans ⟨fun h => ⟨groups, rfl, h⟩, ?_⟩
    rintro ⟨_, ⟨rfl⟩, h⟩
    exact h

/-- It gets through if the three calls do. -/
theorem dropPrivileges_ok_iff_calls : dropPrivileges sys uid gid username c = (.ok (), c') ↔
    '\x00' ∉ username ∧ ∃ c₁ c₂, c.call sys.refuses (.setgid gid) = .ok c₁ ∧
      initgroups sys c₁ username gid = .ok c₂ ∧ c₂.call sys.refuses (.setuid uid) = .ok c' := by
  unfold dropPrivileges
  constructor
  · intro h
    split at h
    · cases h
    · rename_i hnul
      split at h
      · cases h
      · rename_i c₁ hsetgid
        split at h
        · cases h
        · rename_i c₂ hgroups
          split at h
          · cases h
          · rename_i c₃ hsetuid
            obtain rfl := (Prod.mk.inj h).2
            exact ⟨hnul, c₁, c₂, hsetgid, hgroups, hsetuid⟩
  · rintro ⟨hnul, c₁, c₂, hsetgid, hgroups, hsetuid⟩
    rw [if_neg hnul, hsetgid]
    dsimp only
    rw [hgroups]
    dsimp only
    rw [hsetuid]

/-- **Getting through.** -/
theorem dropPrivileges_ok_iff : dropPrivileges sys uid gid username c = (.ok (), c') ↔
    '\x00' ∉ username ∧ c.euid = 0 ∧ ∃ groups, sys.groupList username gid = .ok groups ∧
      Granted sys uid gid c groups ∧ c' = .only uid gid groups := by
  rw [dropPrivileges_ok_iff_calls]
  constructor
  · rintro ⟨hnul, c₁, c₂, hsetgid, hgroups, hsetuid⟩
    have huids := uids_of_setgid hsetgid
    obtain ⟨groups, hlist, hrefuses₁, hroot₁, rfl⟩ := initgroups_ok_iff.mp hgroups
    -- `setgid` may be called by others, but `setgroups` is refused to them
    have hroot : c.euid = 0 := by
      simp only [uids, List.cons.injEq] at huids
      rw [← huids.2.1, hroot₁]
    obtain ⟨hrefuses₀, rfl⟩ := (setgid_ok_iff hroot).mp hsetgid
    obtain ⟨hrefuses₂, rfl⟩ :=
      (setuid_ok_iff (c := { withGroup c gid with groups }) hroot).mp hsetuid
    exact ⟨hnul, hroot, groups, hlist, ⟨hrefuses₀, hrefuses₁, hrefuses₂⟩, rfl⟩
  · rintro ⟨hnul, hroot, groups, hlist, ⟨hrefuses₀, hrefuses₁, hrefuses₂⟩, rfl⟩
    exact ⟨hnul, withGroup c gid, { withGroup c gid with groups },
      (setgid_ok_iff hroot).mpr ⟨hrefuses₀, rfl⟩,
      initgroups_ok_iff.mpr ⟨groups, hlist, hrefuses₁, hroot, rfl⟩,
      (setuid_ok_iff (c := { withGroup c gid with groups }) hroot).mpr ⟨hrefuses₂, rfl⟩⟩

/-! ## What is left behind

The users change with the last call only. Behind it, for a user other than root, the library says
that nothing changes any more. -/

/-- Where it does not get through, the users are as before. -/
theorem uids_of_error {e : DropPrivilegesError}
    (h : dropPrivileges sys uid gid username c = (.error e, c')) : c'.uids = c.uids := by
  unfold dropPrivileges at h
  split at h
  · rw [← (Prod.mk.inj h).2]
  · split at h
    · rw [← (Prod.mk.inj h).2]
    · rename_i c₁ hsetgid
      split at h
      · rw [← (Prod.mk.inj h).2]
        exact uids_of_setgid hsetgid
      · rename_i c₂ hgroups
        obtain ⟨groups, -, -, -, rfl⟩ := initgroups_ok_iff.mp hgroups
        split at h
        · rw [← (Prod.mk.inj h).2, ← uids_of_setgid hsetgid]
          rfl
        · cases h

/-- **Privileges.** Only root gets through, if nothing is refused. It then has the user, the group
and the groups of the user, and a user other than root keeps exactly these whatever it calls later.
Otherwise the process has the users it had. -/
theorem privileges_dropped (sys : System) (uid gid : ℕ) (username : List Char) (c : Credentials) :
    ((∃ c', dropPrivileges sys uid gid username c = (.ok (), c')) ↔
      '\x00' ∉ username ∧ c.euid = 0 ∧
        ∃ groups, sys.groupList username gid = .ok groups ∧ Granted sys uid gid c groups) ∧
    (∀ c', dropPrivileges sys uid gid username c = (.ok (), c') →
      ∃ groups, sys.groupList username gid = .ok groups ∧ c' = .only uid gid groups ∧
        (uid ≠ 0 → ∀ (refuses : Refuses) (calls : List Call), c'.run refuses calls = c')) ∧
    ∀ e c', dropPrivileges sys uid gid username c = (.error e, c') → c'.uids = c.uids := by
  refine ⟨⟨?_, ?_⟩, ?_, fun e c' => uids_of_error⟩
  · rintro ⟨c', h⟩
    obtain ⟨hnul, hroot, groups, hlist, hgranted, -⟩ := dropPrivileges_ok_iff.mp h
    exact ⟨hnul, hroot, groups, hlist, hgranted⟩
  · rintro ⟨hnul, hroot, groups, hlist, hgranted⟩
    exact ⟨_, dropPrivileges_ok_iff.mpr ⟨hnul, hroot, groups, hlist, hgranted, rfl⟩⟩
  · intro c' h
    obtain ⟨-, -, groups, hlist, -, rfl⟩ := dropPrivileges_ok_iff.mp h
    exact ⟨groups, hlist, rfl, fun huid refuses calls => run_only refuses huid gid groups calls⟩

-- `setuid` alone would leave the groups of root behind
example : (Credentials.only 0 0 [0]).run (fun _ _ => none) [.setuid 7, .setgid 7, .setgroups [7]] =
    ⟨7, 7, 7, 0, 0, 0, [0]⟩ := by decide

end Dssh
