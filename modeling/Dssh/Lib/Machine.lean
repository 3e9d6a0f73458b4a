import Mathlib.Data.List.Basic

/-!
# Partial machines and their runs

A system is given by an initial state and a partial step function: `step s a` is `none` when the
action `a` is not enabled in `s`. Every scheduling choice, every failure and every cancellation
is part of the action, so the step itself is deterministic and a run is a list of actions.

## Why the step is a function

A step relation would say the same with less commitment. The function is chosen for what it
gives in return. A run can be *executed* (`Machine.exec`), so that a particular schedule is a
list that `decide` evaluates rather than a derivation that somebody writes. A proof about one
step has an equation `step s a = some s'` to take apart, and one inversion lemma for each
machine does that once. And "no step is possible" is `step s a = none`, which is decidable where
a negated existential would not be.

The price is that nondeterminism has to be named. Where a scheduler, a peer or an operating
system has a choice, the action carries it. This is wanted: a statement "for all runs" then
quantifies over all those choices visibly, in its list of actions.

## Runs whose steps meet a condition

Some properties hold along every run, others only along runs that avoid certain steps. `Reach`
therefore carries a condition `ok` on steps: a state is reached when some run, *all of whose
steps meet `ok`*, ends in it. The unconditional notion is `ok := fun _ _ => True`. One inductive
predicate serves both, and so does one induction principle.

The condition sees the state in front of the step and the action, never the state behind it. A
condition that looked at the outcome could be the property itself in disguise.

## Exact conditions

`Path` keeps the steps of a run in a list, which `Reach` forgets. It is there for results that
go both ways: not only does the property hold when every step meets the condition, it fails as
soon as one does not. There are two shapes of these. In the first, `Path.forall_iff`, the
property is to hold in *every* state of the run, and the first bad step ends it; what happens
behind that step does not matter. In the second, `Path.good_or_bad`, the property is about the
*last* state, and then one has to know in addition that nothing later repairs the damage: that
is the invariant `Q` of the bad states.

## What is absent

There is no fairness and no infinite run. Progress is stated where it is needed, as a measure
that the system's own steps decrease (`exec_bounded_of`) together with a description of the
states where none of them is enabled. There is no composition of machines either: the systems
here share state in ways of their own, and each is one machine.

## Main definitions

* `Machine` — an initial state and a partial step
* `Machine.Reach`, `Machine.Reachable` — the states that runs reach, with a condition and
  without
* `Machine.exec` — executing a list of actions
* `Machine.Leads` — runs from any state with some of the actions only
* `Machine.Path` — runs with their steps

## Main results

* `Machine.Reach.invariant` — the induction principle: initially true, kept by every step
* `Machine.Leads.invariant` — the same for runs with some of the actions, from any state
* `Machine.reach_of_exec` — an executed list of actions reaches the state it computes
* `Machine.exec_bounded_of` — what decreases bounds the length of runs
* `Machine.Path.forall_iff` — if, from a good state, a step leads to a good state exactly when
  it meets `ok`, then a run stays in good states exactly when all its steps meet `ok`
* `Machine.Path.good_or_bad` — the same when bad states are never left, for the last state alone
-/

/-! ## Reachable states

A state is reached with a condition `ok` if some run leads to it all of whose steps meet the
condition. The condition is about the state before the step and the action, so that it can say
"nobody does this while that is so". With the trivial condition these are all states. -/

/-- A system with a partial, deterministic step. -/
structure Machine (σ α : Type*) where
  /-- The state every run starts in. -/
  init : σ
  /-- The step; `none` when the action is not enabled. -/
  step : σ → α → Option σ

namespace Machine

variable {σ α : Type*} (M : Machine σ α)

/-- The states that runs reach whose steps all meet `ok`. -/
inductive Reach (ok : σ → α → Prop) : σ → Prop
  /-- The run that has not begun. -/
  | init : Reach ok M.init
  /-- One step more, which has to meet the condition. -/
  | step {s : σ} {a : α} {s' : σ} :
      Reach ok s → ok s a → M.step s a = some s' → Reach ok s'

/-- The states of arbitrary runs. -/
abbrev Reachable : σ → Prop := M.Reach fun _ _ => True

variable {M}

/-- What holds initially and is kept by every step that meets `ok` holds in every state reached.
The step may use that its first state is reached. -/
theorem Reach.invariant {ok : σ → α → Prop} {I : σ → Prop} (hinit : I M.init)
    (hstep : ∀ {s a s'}, M.Reach ok s → I s → ok s a → M.step s a = some s' → I s') {s : σ}
    (hs : M.Reach ok s) : I s := by
  induction hs with
  | init => exact hinit
  | step hr hok hst ih => exact hstep hr ih hok hst

/-- Runs that meet a condition meet whatever it implies in the states they reach. -/
theorem Reach.mono {ok ok' : σ → α → Prop} (h : ∀ s a, M.Reach ok s → ok s a → ok' s a) {s : σ}
    (hs : M.Reach ok s) : M.Reach ok' s := by
  induction hs with
  | init => exact .init
  | step hr hok hst ih => exact .step ih (h _ _ hr hok) hst

/-- A run that meets a condition is a run. -/
theorem Reach.reachable {ok : σ → α → Prop} {s : σ} (hs : M.Reach ok s) : M.Reachable s :=
  hs.mono fun _ _ _ _ => trivial

/-! ## Executing a list of actions

A schedule is a list of actions, and executing it can be computed. This is how concrete runs
enter a proof, and how lengths of runs are bounded: each step lowers a measure, as long as an
invariant holds that may itself depend on the measure. -/

variable (M)

/-- Execute a list of actions, stopping with `none` at the first one that is not enabled. -/
def exec : σ → List α → Option σ
  | s, [] => some s
  | s, a :: as => (M.step s a).bind fun s' => exec s' as

variable {M}

/-- Executing actions that always meet the condition. -/
theorem Reach.exec {ok : σ → α → Prop} {s s' : σ} {as : List α} (hs : M.Reach ok s)
    (hok : ∀ a ∈ as, ∀ s, ok s a) (h : M.exec s as = some s') : M.Reach ok s' := by
  induction as generalizing s with
  | nil => simp only [Machine.exec, Option.some.injEq] at h; exact h ▸ hs
  | cons a as ih =>
    obtain ⟨t, ht, h⟩ := Option.bind_eq_some_iff.mp h
    obtain ⟨ha, has⟩ := List.forall_mem_cons.mp hok
    exact ih (.step hs (ha s) ht) has h

/-- **A schedule is a run.** This is how a concrete list of actions becomes a fact about reachable
states. -/
theorem reach_of_exec {s s' : σ} {as : List α} (hs : M.Reachable s)
    (h : M.exec s as = some s') : M.Reachable s' :=
  hs.exec (fun _ _ _ => trivial) h

/-- A quantity that the steps with some of the actions decrease bounds the length of the runs with
them. The invariant `I` is carried along, as the quantity may decrease in good states only. -/
theorem exec_bounded_of {p : α → Prop} {I : σ → Prop} {μ : σ → ℕ}
    (hstep : ∀ {s a s'}, I s → p a → M.step s a = some s' → I s' ∧ μ s' < μ s) {s s' : σ}
    {as : List α} (has : ∀ a ∈ as, p a) (hs : I s) (h : M.exec s as = some s') :
    I s' ∧ as.length + μ s' ≤ μ s := by
  induction as generalizing s with
  | nil =>
    obtain rfl := Option.some.inj h
    exact ⟨hs, Nat.le_of_eq (Nat.zero_add _)⟩
  | cons a as ih =>
    obtain ⟨t, ht, h⟩ := Option.bind_eq_some_iff.mp h
    obtain ⟨ha, has⟩ := List.forall_mem_cons.mp has
    obtain ⟨hI, hμ⟩ := hstep hs ha ht
    obtain ⟨hI', hμ'⟩ := ih has hI h
    exact ⟨hI', by rw [List.length_cons]; omega⟩

/-- The same for all of the actions. -/
theorem exec_bounded {I : σ → Prop} {μ : σ → ℕ}
    (hstep : ∀ {s a s'}, I s → M.step s a = some s' → I s' ∧ μ s' < μ s) {s s' : σ}
    {as : List α} (hs : I s) (h : M.exec s as = some s') : I s' ∧ as.length + μ s' ≤ μ s :=
  exec_bounded_of (p := fun _ => True) (fun hI _ => hstep hI) (fun _ _ => trivial) hs h

/-- Executing one list behind another. -/
theorem exec_append (s : σ) (as bs : List α) :
    M.exec s (as ++ bs) = (M.exec s as).bind (M.exec · bs) := by
  induction as generalizing s with
  | nil => rfl
  | cons a as ih =>
    cases h : M.step s a with
    | none => simp [exec, h]
    | some t => simpa [exec, h] using ih t

/-- A run whose last state passes a test and enables one more action. -/
theorem exists_exec_snoc (as : List α) (a : α) {p : σ → Bool}
    (h : (M.exec M.init as).any (fun s => p s && (M.step s a).isSome) = true) :
    ∃ s s', M.exec M.init as = some s ∧ p s = true ∧ M.step s a = some s' ∧
      M.exec M.init (as ++ [a]) = some s' := by
  obtain ⟨s, hs, hp⟩ := (Option.any_eq_true _ _).mp h
  obtain ⟨hp, henabled⟩ := Bool.and_eq_true_iff.mp hp
  obtain ⟨s', hs'⟩ := Option.isSome_iff_exists.mp henabled
  refine ⟨s, s', hs, hp, hs', ?_⟩
  rw [exec_append, hs, Option.bind_some, exec, hs']
  rfl

/-! ### Runs with some of the actions

What leads from a state to another, with actions of one kind only. It is used to say that
something can still be reached by one party alone. -/

variable (M)

/-- Actions that meet `p` lead from `s` to `t`. -/
def Leads (p : α → Prop) (s t : σ) : Prop := ∃ as, (∀ a ∈ as, p a) ∧ M.exec s as = some t

variable {M} {p : α → Prop}

/-- No action at all. -/
theorem Leads.refl (s : σ) : M.Leads p s s := ⟨[], List.forall_mem_nil _, rfl⟩

/-- A single one. -/
theorem Leads.of_step {s t : σ} {a : α} (ha : p a) (h : M.step s a = some t) : M.Leads p s t := by
  refine ⟨[a], List.forall_mem_singleton.mpr ha, ?_⟩
  rw [exec, h]
  rfl

/-- One run behind another. -/
theorem Leads.trans {s t u : σ} (h : M.Leads p s t) (h' : M.Leads p t u) : M.Leads p s u := by
  obtain ⟨as, has, hexec⟩ := h
  obtain ⟨bs, hbs, hexec'⟩ := h'
  refine ⟨as ++ bs, List.forall_mem_append.mpr ⟨has, hbs⟩, ?_⟩
  rw [exec_append, hexec, Option.bind_some, hexec']

/-- What every such action keeps is kept. -/
theorem Leads.invariant {I : σ → Prop} (hstep : ∀ {s a t}, I s → p a → M.step s a = some t → I t)
    {s t : σ} (h : M.Leads p s t) (hs : I s) : I t := by
  obtain ⟨as, has, hexec⟩ := h
  induction as generalizing s with
  | nil =>
    obtain rfl := Option.some.inj hexec
    exact hs
  | cons a as ih =>
    obtain ⟨u, hu, hexec⟩ := Option.bind_eq_some_iff.mp hexec
    obtain ⟨ha, has⟩ := List.forall_mem_cons.mp has
    exact ih (hstep hs ha hu) has hexec

/-! ## Runs as lists of steps

For an equivalence along a run, the run itself has to be known and not only the state in which it
ends. A path lists its steps with the states in which they are taken; the two principles below
are about the first step that does not meet the condition. -/

variable (M)

/-- `Path l s`: a run from the initial state ends in `s`, and `l` lists its steps, each with the
state it is taken in. -/
inductive Path : List (σ × α) → σ → Prop
  /-- The path that has not begun. -/
  | nil : Path [] M.init
  /-- One step more; the list records it with the state it is taken in. -/
  | snoc {l : List (σ × α)} {s : σ} {a : α} {s' : σ} :
      Path l s → M.step s a = some s' → Path (l ++ [(s, a)]) s'

variable {M}

/-- A run all of whose steps meet `ok` reaches its last state so. -/
theorem Path.reach {ok : σ → α → Prop} {l : List (σ × α)} {s : σ} (h : M.Path l s)
    (hok : ∀ x ∈ l, ok x.1 x.2) : M.Reach ok s := by
  induction h with
  | nil => exact .init
  | @snoc l s a s' _ hst ih =>
    exact .step (ih fun x hx => hok x (List.mem_append_left _ hx))
      (hok (s, a) (List.mem_append_right _ List.mem_cons_self)) hst

/-- The last state of a path is reachable. -/
theorem Path.reachable {l : List (σ × α)} {s : σ} (h : M.Path l s) : M.Reachable s :=
  h.reach fun _ _ => trivial

variable (M)

/-- The steps that executing a list of actions takes. -/
def trace : σ → List α → List (σ × α)
  | _, [] => []
  | s, a :: as => (s, a) :: ((M.step s a).elim [] fun s' => trace s' as)

variable {M}

/-- The steps of a trace take the actions of its list. -/
theorem mem_of_mem_trace {s : σ} {as : List α} {x : σ × α} (h : x ∈ M.trace s as) : x.2 ∈ as := by
  induction as generalizing s with
  | nil => cases h
  | cons a as ih =>
    rcases List.mem_cons.mp h with rfl | h
    · exact List.mem_cons_self
    · cases hstep : M.step s a with
      | none => rw [hstep] at h; cases h
      | some s' => rw [hstep] at h; exact List.mem_cons_of_mem a (ih h)

/-- Executing some actions at the end of a path prolongs it by their trace. -/
theorem Path.append_trace {l : List (σ × α)} {s t : σ} {as : List α} (hl : M.Path l s)
    (h : M.exec s as = some t) : M.Path (l ++ M.trace s as) t := by
  induction as generalizing l s with
  | nil =>
    simp only [exec, Option.some.injEq] at h
    simpa [trace] using h ▸ hl
  | cons a as ih =>
    obtain ⟨s', hst, h⟩ := Option.bind_eq_some_iff.mp h
    simpa [trace, hst] using ih (hl.snoc hst) h

/-- An executed list of actions is a path. -/
theorem Path.of_exec {as : List α} {s : σ} (h : M.exec M.init as = some s) :
    M.Path (M.trace M.init as) s :=
  Path.nil.append_trace h

/-- **The first bad step.** If from every good state a step leads to a good state exactly when it
meets `ok`, a run stays in good states exactly when all its steps meet `ok`. The step may use that
its first state is reached by steps that meet `ok`. -/
theorem Path.forall_iff {ok : σ → α → Prop} {P : σ → Prop} (hinit : P M.init)
    (hstep : ∀ {s a s'}, M.Reach ok s → P s → M.step s a = some s' → (P s' ↔ ok s a))
    {l : List (σ × α)} {s : σ} (h : M.Path l s) :
    ((∀ x ∈ l, P x.1) ∧ P s) ↔ ∀ x ∈ l, ok x.1 x.2 := by
  induction h with
  | nil => simpa using hinit
  | @snoc l s a s' hp hst ih =>
    simp only [List.mem_append, List.mem_singleton]
    constructor
    · rintro ⟨hall, hs'⟩
      have hok := ih.mp ⟨fun y hy => hall y (Or.inl hy), hall (s, a) (Or.inr rfl)⟩
      rintro x (hx | rfl)
      · exact hok x hx
      · exact (hstep (hp.reach hok) (hall (s, a) (Or.inr rfl)) hst).mp hs'
    · intro hok
      have hreach := hp.reach fun x hx => hok x (Or.inl hx)
      obtain ⟨hall, hs⟩ := ih.mpr fun x hx => hok x (Or.inl hx)
      refine ⟨?_, (hstep hreach hs hst).mpr (hok (s, a) (Or.inr rfl))⟩
      rintro x (hx | rfl)
      · exact hall x hx
      · exact hs

/-- **No way back.** If steps that meet `ok` lead from good states to good ones, all others from
good states to bad ones, and every step from bad states to bad ones, then the last state is good
or bad as all steps meet `ok` or not. -/
theorem Path.good_or_bad {ok : σ → α → Prop} {P Q : σ → Prop} (hinit : P M.init)
    (hgood : ∀ {s a s'}, P s → ok s a → M.step s a = some s' → P s')
    (hbad : ∀ {s a s'}, P s → ¬ ok s a → M.step s a = some s' → Q s')
    (hstays : ∀ {s a s'}, Q s → M.step s a = some s' → Q s') {l : List (σ × α)} {s : σ}
    (h : M.Path l s) : (P s ∧ ∀ x ∈ l, ok x.1 x.2) ∨ Q s ∧ ¬ ∀ x ∈ l, ok x.1 x.2 := by
  induction h with
  | nil => exact .inl ⟨hinit, fun x hx => absurd hx List.not_mem_nil⟩
  | @snoc l s a s' _ hst ih =>
    obtain ⟨hs, hall⟩ | ⟨hs, hnot⟩ := ih
    · by_cases hok : ok s a
      · refine .inl ⟨hgood hs hok hst, fun x hx => ?_⟩
        obtain hx | hx := List.mem_append.mp hx
        · exact hall x hx
        · obtain rfl := List.mem_singleton.mp hx
          exact hok
      · refine .inr ⟨hbad hs hok hst, fun hall' => hok ?_⟩
        exact hall' (s, a) (List.mem_append_right l List.mem_cons_self)
    · exact .inr ⟨hstays hs hst, fun hall => hnot fun x hx => hall x (List.mem_append_left _ hx)⟩

end Machine
