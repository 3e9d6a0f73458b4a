import Mathlib.Data.List.Basic

/-!
# Sets of spawned tasks

A task set is the list of the tasks that were spawned on it, in the order of spawning; a task is
known by its place. To abort a task is to ask for its end: it goes on until the runtime drops
its future, and may come to its own end before that. A task that has ended stays until its
result is taken.

## What an abort is

It is tempting to model an abort as the end of a task. It is not. The call returns at once, the
task is marked, and the runtime drops the future when it next gets hold of it; until then the
task's locals live, with the sockets and locks they own. A task that is in its last poll may
even finish normally. So there is a state `aborting` between `running` and `ended`, and
statements about what has been released have to wait for the latter.

## Places

Results are taken from the set in any order, and the sets of the runtimes forget a task whose
result has been taken. The list here keeps it, in the state `joined`. So a place means the same
task for ever, and the task at place `i` of a later set is the one at place `i` of an earlier
one. `Continues` says just this, and it is what one needs to speak about a task over a whole
run: an event of some *other* task, a spawn, an abort leave the place and the data of a task
alone, and nothing revives it.

## Main definitions

* `TaskState` — the life of a task
* `JoinSet`, `JoinSet.spawn`, `JoinSet.abort`, `JoinSet.abortAll`, `JoinSet.join` — the
  operations
* `JoinSet.update` — an event of one task

## Main results

* `JoinSet.running_of_abort`, `JoinSet.not_running_of_abortAll` — what aborting leaves running
* `JoinSet.forall_of_update` — an event of one task leaves the others alone
* `JoinSet.Continues` — what no event of a task and no abort changes
-/

/-! ## One task

A task runs, is asked to end, has ended, or has been joined. Aborting only asks: the future is
there until the runtime drops it, and until then it may still come to its end by itself. A task
that has ended is not touched by an abort, and its result is still to be taken. -/

/-- Why a task has no result. -/
inductive JoinError where
  /-- Its future has been dropped. -/
  | cancelled
  /-- It has panicked. -/
  | panicked
  deriving DecidableEq

/-- The life of a task with results in `ρ`. -/
inductive TaskState (ρ : Type) where
  /-- Nobody has asked it to end. -/
  | running
  /-- Asked to end, and not dropped yet. -/
  | aborting
  /-- It has come to its end, one way or another. -/
  | ended (result : Except JoinError ρ)
  /-- The result has been taken. -/
  | joined
  deriving DecidableEq

namespace TaskState

variable {ρ : Type}

/-- `AbortHandle::abort`. -/
def abort : TaskState ρ → TaskState ρ
  | running => aborting
  | s => s

/-- The future of the task still exists. -/
def alive : TaskState ρ → Bool
  | running => true
  | aborting => true
  | _ => false

/-- A task that has been aborted is not simply running. -/
theorem abort_ne_running (s : TaskState ρ) : s.abort ≠ running := by
  cases s <;> nofun

/-- What an event of a task does to it: nothing, or the task comes to its end. -/
inductive Moves : TaskState ρ → TaskState ρ → Prop
  /-- Nothing. -/
  | stay (s : TaskState ρ) : Moves s s
  /-- Its end, with a result or without. -/
  | finish {s : TaskState ρ} (h : s.alive = true) (result : Except JoinError ρ) :
      Moves s (ended result)

/-- Tasks do not come back to life. -/
theorem Moves.not_running {s s' : TaskState ρ} (h : Moves s s') (hs : s ≠ running) :
    s' ≠ running := by
  cases h with
  | stay => exact hs
  | finish => nofun

/-- A result is taken once. -/
theorem Moves.joined {s s' : TaskState ρ} (h : Moves s s') (hs : s = joined) : s' = joined := by
  cases h with
  | stay => exact hs
  | finish halive => rw [hs] at halive; cases halive

end TaskState

/-! ## The set

Tasks stay at the place at which they were spawned, also behind the end. What a set is told by
its places is which task is which over time, and dropping the set is aborting all of them. -/

/-- A task, with what else is known of it. -/
structure Spawned (δ ρ : Type) where
  /-- What the program knows of it. -/
  data : δ
  /-- Where it is in its life. -/
  state : TaskState ρ := .running
  deriving DecidableEq

/-- Tasks with data in `δ` and results in `ρ`. -/
abbrev JoinSet (δ ρ : Type) := List (Spawned δ ρ)

namespace JoinSet

variable {δ ρ : Type}

/-- A new task takes the next place. -/
def spawn (ts : JoinSet δ ρ) (d : δ) : JoinSet δ ρ := ts ++ [⟨d, .running⟩]

/-- Abort the task at place `i`. -/
def abort (ts : JoinSet δ ρ) (i : ℕ) : JoinSet δ ρ :=
  ts.modify i fun t => { t with state := t.state.abort }

/-- Drop the set. -/
def abortAll (ts : JoinSet δ ρ) : JoinSet δ ρ := ts.map fun t => { t with state := t.state.abort }

/-- An event of the task at place `i`; `none` when it cannot happen. -/
def update (ts : JoinSet δ ρ) (i : ℕ) (f : Spawned δ ρ → Option (Spawned δ ρ)) :
    Option (JoinSet δ ρ) :=
  (ts[i]?.bind f).map (ts.set i)

/-- Take the result of the task at place `i`. -/
def join (ts : JoinSet δ ρ) (i : ℕ) : Option (Except JoinError ρ × JoinSet δ ρ) :=
  match ts[i]? with
  | some ⟨d, .ended result⟩ => some (result, ts.set i ⟨d, .joined⟩)
  | _ => none

/-- No task is left whose result has not been taken. -/
def isEmpty (ts : JoinSet δ ρ) : Bool := ts.all fun t => t.state matches .joined

variable {ts ts' : JoinSet δ ρ} {i j : ℕ} {t : Spawned δ ρ}

/-- What runs after aborting the task at place `i` has run before, at another place. -/
theorem running_of_abort (h : (ts.abort i)[j]? = some t) (hrunning : t.state = .running) :
    i ≠ j ∧ ts[j]? = some t := by
  rw [abort, List.getElem?_modify] at h
  obtain ⟨t', ht', rfl⟩ := Option.map_eq_some_iff.mp h
  by_cases hij : i = j
  · rw [if_pos hij] at hrunning
    exact absurd hrunning t'.state.abort_ne_running
  · rw [if_neg hij]
    exact ⟨hij, ht'⟩

/-- Dropping a set leaves nothing simply running. -/
theorem not_running_of_abortAll (h : t ∈ ts.abortAll) : t.state ≠ .running := by
  obtain ⟨t', -, rfl⟩ := List.mem_map.mp h
  exact t'.state.abort_ne_running

/-- The tasks are those of before and the new one. -/
theorem mem_spawn {d : δ} : t ∈ ts.spawn d ↔ t ∈ ts ∨ t = ⟨d, .running⟩ := by
  rw [spawn, List.mem_append, List.mem_singleton]

/-- **One event.** What holds of every task and of the one changed holds of every task then. -/
theorem forall_of_update {f : Spawned δ ρ → Option (Spawned δ ρ)} {Q : Spawned δ ρ → Prop}
    (h : ts.update i f = some ts') (hts : ∀ t ∈ ts, Q t)
    (hf : ∀ t t', ts[i]? = some t → f t = some t' → Q t') : ∀ t ∈ ts', Q t := by
  obtain ⟨t', ht', rfl⟩ := Option.map_eq_some_iff.mp h
  obtain ⟨t, hget, hft⟩ := Option.bind_eq_some_iff.mp ht'
  intro x hx
  rcases List.mem_or_eq_of_mem_set hx with hmem | rfl
  · exact hts x hmem
  · exact hf t x hget hft

/-- The result taken is that of a task that has ended. -/
theorem join_eq_some {result : Except JoinError ρ} (h : ts.join i = some (result, ts')) :
    ∃ d, ts[i]? = some ⟨d, .ended result⟩ ∧ ts' = ts.set i ⟨d, .joined⟩ := by
  rw [join] at h
  split at h
  · rename_i d r hget
    obtain ⟨rfl, rfl⟩ := Prod.mk.inj (Option.some.inj h)
    exact ⟨d, hget, rfl⟩
  · cases h

/-- In a set that is empty all results have been taken. -/
theorem joined_of_isEmpty (h : ts.isEmpty = true) : ∀ t ∈ ts, t.state = .joined := by
  intro t ht
  have hjoined := List.all_eq_true.mp h t ht
  split at hjoined
  · assumption
  · cases hjoined

/-! ## The tasks over time

Two states of a set are compared place by place: each task is the same one at a later time, and
there may be more of them. Every operation is such a comparison, and with it, that a task has
been aborted need be shown only once. -/

/-- The same task at a later time: its `key` is the same, and it has not come back to life. -/
structure Same {κ : Type} (key : δ → κ) (t t' : Spawned δ ρ) : Prop where
  /-- It is the same task … -/
  key : key t'.data = key t.data
  /-- … and has not started again. -/
  running : t'.state = .running → t.state = .running

/-- The tasks of `ts'` are those of `ts` at a later time, at their places. -/
def Continues {κ : Type} (key : δ → κ) (ts ts' : JoinSet δ ρ) : Prop :=
  ∀ i : ℕ, Option.Rel (Same key) ts[i]? ts'[i]?

variable {κ : Type} {key : δ → κ}

/-- A task is itself. -/
theorem Same.refl (t : Spawned δ ρ) : Same key t t := ⟨rfl, id⟩

/-- No time has passed. -/
theorem Continues.refl (ts : JoinSet δ ρ) : Continues key ts ts := by
  intro i
  cases ts[i]? with
  | none => exact .none
  | some t => exact .some (.refl t)

/-- A later task, from an earlier one. -/
theorem Continues.exists_after (h : Continues key ts ts') (ht : ts[i]? = some t) :
    ∃ t', ts'[i]? = some t' ∧ Same key t t' := by
  have hi := h i
  rw [ht] at hi
  generalize ts'[i]? = y at hi ⊢
  cases hi with
  | some hsame => exact ⟨_, rfl, hsame⟩

/-- An earlier task, from a later one. -/
theorem Continues.exists_before {t' : Spawned δ ρ} (h : Continues key ts ts')
    (ht : ts'[i]? = some t') : ∃ t, ts[i]? = some t ∧ Same key t t' := by
  have hi := h i
  rw [ht] at hi
  generalize ts[i]? = x at hi ⊢
  cases hi with
  | some hsame => exact ⟨_, rfl, hsame⟩

/-- A change of one task. -/
theorem continues_set {t' : Spawned δ ρ} (ht : ts[i]? = some t) (hsame : Same key t t') :
    Continues key ts (ts.set i t') := by
  intro j
  by_cases hij : i = j
  · subst hij
    obtain ⟨hlt, -⟩ := List.getElem?_eq_some_iff.mp ht
    rw [ht, List.getElem?_set_self hlt]
    exact .some hsame
  · rw [List.getElem?_set_ne hij]
    exact Continues.refl ts j

/-- An event of one task. -/
theorem continues_update {f : Spawned δ ρ → Option (Spawned δ ρ)} (h : ts.update i f = some ts')
    (hf : ∀ t t', f t = some t' → Same key t t') : Continues key ts ts' := by
  obtain ⟨t', ht', rfl⟩ := Option.map_eq_some_iff.mp h
  obtain ⟨t, hget, hft⟩ := Option.bind_eq_some_iff.mp ht'
  exact continues_set hget (hf t t' hft)

/-- Taking a result. -/
theorem continues_join {result : Except JoinError ρ} (h : ts.join i = some (result, ts')) :
    Continues key ts ts' := by
  obtain ⟨d, hget, rfl⟩ := join_eq_some h
  refine continues_set hget ⟨rfl, fun hrunning => ?_⟩
  cases hrunning

/-- Aborting a task. -/
theorem continues_abort (ts : JoinSet δ ρ) (i : ℕ) : Continues key ts (ts.abort i) := by
  intro j
  rw [abort, List.getElem?_modify]
  cases ts[j]? with
  | none => exact .none
  | some t =>
    refine .some ⟨?_, ?_⟩
    · split_ifs <;> rfl
    · split_ifs
      · exact fun hrunning => absurd hrunning t.state.abort_ne_running
      · exact id

/-- What runs after aborting some tasks has run before, and is none of them. -/
theorem running_of_foldl_abort {is : List ℕ} (h : (is.foldl abort ts)[j]? = some t)
    (hrunning : t.state = .running) : j ∉ is ∧ ts[j]? = some t := by
  induction is generalizing ts with
  | nil => exact ⟨List.not_mem_nil, h⟩
  | cons i is ih =>
    rw [List.foldl_cons] at h
    obtain ⟨hmem, hget⟩ := ih h
    obtain ⟨hij, hget⟩ := running_of_abort hget hrunning
    refine ⟨?_, hget⟩
    rw [List.mem_cons, not_or]
    exact ⟨fun hji => hij hji.symm, hmem⟩

end JoinSet
