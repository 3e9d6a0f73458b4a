import Mathlib.Data.Finset.Basic
import Mathlib.Data.List.Range
import Mathlib.Logic.Function.Basic

/-!
# Ticket queues

Exclusive access by numbered tickets: an agent takes the next ticket, waits until `serving` is
its number, is granted a guard, and releasing the guard advances `serving`. Two features make
the queue more than a ticket lock:

* an agent may put its ticket into a common *pool* instead of using it, and any other agent may
  *adopt* a ticket from the pool and use it in addition to its own;
* an agent may lose a ticket, by failing or by being cancelled, and then nobody ever uses it.

## The layout of the theory

An agent's part of the state is its `Hand`: at most one own ticket, at most one adopted ticket,
at most one guard. What one agent can do to its hand and to the shared `Counters` is `HandStep`;
the whole queue is the counters together with one hand for each of arbitrarily many agents. A
program refines the queue when each of its atomic steps is a `HandStep` of the agent that takes
it (or leaves counters and hand alone), and then everything below applies to it.

The agents are the elements of an arbitrary type. Nothing is assumed about how many there are,
and a queue that nobody has used yet has the empty hand for each (`Inv.init`).

## Two invariants

They are kept apart on purpose, since they have different enemies.

`Inv` is about *safety*: tickets are in one place only, a guard is for the ticket being served,
guards have been granted in order. Every step keeps it, including the loss of tickets: something
that is lost is not in two places. So exclusivity holds in every run of a program, cancelled
tasks and all.

`Covered` is about *progress*: every ticket that has been taken and not been served is
somewhere, with an agent or in the pool. Every step keeps it but the loss of a ticket, and that
destroys it for good (`Covered.not_of_lost`), because `serving` cannot get past a ticket that
nobody has. This is what makes the question "is a run free of deadlocks?" equivalent to "has no
ticket been lost in it?".

## Atomic steps

`HandStep` has one constructor for each thing an agent does *atomically*: a fetch-and-add takes
a ticket, a pop takes one out of the pool. Waiting is not a step at all; an agent whose turn it
is not has nothing to do. A grant compares the agent's ticket with `serving` and takes the guard
in one step. In a program these may be two steps, with others in between; that is sound as long
as nobody but the owner of the ticket being served can advance `serving`, which is
`serving_eq_of_step`.

## Main definitions

* `TicketQueue.Counters`, `TicketQueue.Hand` — the shared part, and that of one agent
* `TicketQueue.HandStep`, `TicketQueue.Hand.Loses` — what an agent can do, and what can befall
  it
* `TicketQueue.Inv`, `TicketQueue.Covered` — the two invariants

## Main results

* `TicketQueue.Inv.step` — the invariant is kept by every step, losing tickets included
* `TicketQueue.Inv.guard_unique`, `Inv.granted_nodup`, `Inv.released_eq` — exclusivity: one
  guard at a time, each ticket granted at most once, released in order without a gap
* `TicketQueue.Covered.step` — as long as no ticket is lost, every outstanding ticket is held by
  somebody or in the pool; `Covered.not_of_lost` — and a lost one by nobody
* `TicketQueue.Covered.serving_held` — while anybody waits, somebody has the ticket being served
-/

namespace TicketQueue

/-! ## Counters and hands

A queue has two counters, the next ticket and the one being served. Everything else is with the
agents: an agent may have a ticket that it has taken and not used, one that it has adopted from
the pool, and the ticket of its guard. These places are the slots. -/

/-- The shared part of a queue. `granted` and `released` record history: the tickets whose guards
were granted, respectively released, in that order. -/
structure Counters where
  /-- The next ticket to be taken. -/
  next : ℕ
  /-- The ticket that may use the resource. -/
  serving : ℕ
  /-- Tickets put down by their owners, for anybody to adopt. -/
  pool : Finset ℕ
  /-- The tickets granted so far, oldest first. -/
  granted : List ℕ
  /-- The tickets released so far, oldest first. -/
  released : List ℕ

/-- The places where one agent keeps a ticket. -/
inductive Slot
  /-- The ticket it has taken. -/
  | own
  /-- A ticket from the pool. -/
  | adopted
  /-- The ticket of its guard. -/
  | guard
  deriving DecidableEq

/-- The tickets one agent holds. -/
@[ext] structure Hand where
  /-- A ticket it has taken and not used. -/
  own : Option ℕ := none
  /-- A ticket it has adopted from the pool and not used. -/
  adopted : Option ℕ := none
  /-- The ticket its live guard was granted for. -/
  guard : Option ℕ := none
  deriving DecidableEq

/-- The content of a slot. -/
def Hand.slot (h : Hand) : Slot → Option ℕ
  | .own => h.own
  | .adopted => h.adopted
  | .guard => h.guard

/-- What an agent can do to the counters and its own hand without losing a ticket. -/
inductive HandStep (c : Counters) (h : Hand) : Counters → Hand → Prop
  /-- It does something else. -/
  | stay : HandStep c h c h
  /-- It takes the next ticket. -/
  | take (hown : h.own = none) :
      HandStep c h { c with next := c.next + 1 } { h with own := some c.next }
  /-- It takes a ticket out of the pool. -/
  | adopt {t : ℕ} (hpool : t ∈ c.pool) (hnone : h.adopted = none) :
      HandStep c h { c with pool := c.pool.erase t } { h with adopted := some t }
  /-- It puts its own ticket there. -/
  | putDown {t : ℕ} (hown : h.own = some t) :
      HandStep c h { c with pool := insert t c.pool } { h with own := none }
  /-- Its own ticket is the one being served. -/
  | grantOwn (hown : h.own = some c.serving) (hnone : h.guard = none) :
      HandStep c h { c with granted := c.granted ++ [c.serving] }
        { h with own := none, guard := some c.serving }
  /-- The adopted one is. -/
  | grantAdopted (hadopted : h.adopted = some c.serving) (hnone : h.guard = none) :
      HandStep c h { c with granted := c.granted ++ [c.serving] }
        { h with adopted := none, guard := some c.serving }
  | release {t : ℕ} (hguard : h.guard = some t) :
      HandStep c h { c with serving := c.serving + 1, released := c.released ++ [t] }
        { h with guard := none }

/-- `h'` is `h` with some unused tickets lost. A live guard cannot be lost. -/
structure Hand.Loses (h h' : Hand) : Prop where
  /-- Its own ticket may go. -/
  own : h'.own = none ∨ h'.own = h.own
  /-- An adopted one may. -/
  adopted : h'.adopted = none ∨ h'.adopted = h.adopted
  /-- A live guard may not: dropping it is a release. -/
  guard : h'.guard = h.guard

/-! ## What the invariant gives

Exclusion and order, for any number of agents and any steps that the model of a program allows
itself. They are stated about the hands, and a program proves them by saying which of its states
has which hand. -/

/-- The counter only moves forward. -/
theorem HandStep.serving_le {c c' : Counters} {h h' : Hand} (hst : HandStep c h c' h') :
    c.serving ≤ c'.serving := by
  cases hst with
  | release => exact Nat.le_succ _
  | _ => exact le_rfl

variable {ι : Type*}

/-- The invariant of a queue. -/
structure Inv (c : Counters) (hand : ι → Hand) : Prop where
  /-- Tickets in hands are outstanding. -/
  range : ∀ {i a t}, (hand i).slot a = some t → c.serving ≤ t ∧ t < c.next
  /-- Tickets in the pool are outstanding. -/
  pool_range : ∀ {t}, t ∈ c.pool → c.serving ≤ t ∧ t < c.next
  /-- No ticket is in two places. -/
  unique : ∀ {i a j b t}, (hand i).slot a = some t → (hand j).slot b = some t → i = j ∧ a = b
  /-- A ticket in a hand is not in the pool. -/
  not_pool : ∀ {i a t}, (hand i).slot a = some t → t ∉ c.pool
  /-- A guard is for the ticket being served. -/
  guard_serving : ∀ {i t}, (hand i).guard = some t → t = c.serving
  /-- The tickets released are those before the one being served. -/
  released_eq : c.released = List.range c.serving
  /-- With a live guard, its ticket has been granted too. -/
  granted_live : ∀ {i t}, (hand i).guard = some t → c.granted = List.range (c.serving + 1)
  /-- Without one, exactly the released tickets have been granted. -/
  granted_free : (∀ i, (hand i).guard = none) → c.granted = List.range c.serving
  /-- The counters are in order. -/
  serving_le : c.serving ≤ c.next

namespace Inv

variable {c c' : Counters} {hand : ι → Hand} {h' : Hand} {i j : ι} {t u : ℕ}

/-- A queue nobody has used yet. -/
theorem init : Inv (ι := ι) ⟨0, 0, ∅, [], []⟩ fun _ => {} where
  range {i a t} h := by cases a <;> cases h
  pool_range h := by simp at h
  unique {i a j b t} h := by cases a <;> cases h
  not_pool {i a t} h := by cases a <;> cases h
  guard_serving h := by cases h
  released_eq := rfl
  granted_live h := by cases h
  granted_free _ := rfl
  serving_le := le_rfl

/-- **At most one guard is live.** -/
theorem guard_unique (hI : Inv c hand) (hi : (hand i).guard = some t)
    (hj : (hand j).guard = some u) : i = j := by
  obtain rfl := hI.guard_serving hi
  obtain rfl := hI.guard_serving hj
  exact (hI.unique (a := .guard) (b := .guard) hi hj).1

/-- The tickets granted are the first ones, in order, up to the live guard's if there is one. -/
theorem granted_eq (hI : Inv c hand) :
    c.granted = List.range c.serving ∨ c.granted = List.range (c.serving + 1) := by
  by_cases h : ∃ i t, (hand i).guard = some t
  · obtain ⟨i, t, h⟩ := h
    exact Or.inr (hI.granted_live h)
  · refine Or.inl (hI.granted_free fun i => ?_)
    cases hg : (hand i).guard with
    | none => rfl
    | some t => exact absurd ⟨i, t, hg⟩ h

/-- **No ticket is granted twice.** -/
theorem granted_nodup (hI : Inv c hand) : c.granted.Nodup := by
  rcases hI.granted_eq with h | h <;> rw [h] <;> exact List.nodup_range

/-- While a ticket that is not a guard's is the one being served, no guard is live. -/
theorem guard_none_of_serving (hI : Inv c hand) {a : Slot} (ha : a ≠ .guard)
    (hi : (hand i).slot a = some c.serving) (j : ι) : (hand j).guard = none := by
  cases hg : (hand j).guard with
  | none => rfl
  | some t =>
    obtain rfl := hI.guard_serving hg
    exact absurd (hI.unique hi (b := .guard) hg).2 ha

/-- A ticket that is not a guard's has not been granted. -/
theorem not_granted (hI : Inv c hand) {a : Slot} (ha : a ≠ .guard)
    (hi : (hand i).slot a = some t) : t ∉ c.granted := by
  intro ht
  have hle := (hI.range hi).1
  rcases hI.granted_eq with hgranted | hgranted <;> rw [hgranted, List.mem_range] at ht
  · omega
  · have hserving : t = c.serving := by omega
    have hfree := hI.granted_free (hI.guard_none_of_serving ha (hserving ▸ hi))
    have hlength := congrArg List.length (hgranted.symm.trans hfree)
    simp at hlength

/-- While an unused ticket is the one being served, no step moves the counter. -/
theorem serving_eq_of_step (hI : Inv c hand) {a : Slot} (ha : a ≠ .guard)
    (hi : (hand i).slot a = some c.serving) (h : HandStep c (hand j) c' h') :
    c'.serving = c.serving := by
  cases h with
  | release hguard => rw [hI.guard_none_of_serving ha hi j] at hguard; cases hguard
  | _ => rfl

/-! ### How the invariant is kept

Every step is one of three: tickets disappear from hands, one ticket is placed in a slot, or the
guard is released. The lemmas below are these three, over arbitrary new hands. -/

/-- Hands keep the invariant when they hold less, and the pool may grow by what they put down. -/
theorem of_sub (hI : Inv c hand) {hand' : ι → Hand} {q : Finset ℕ}
    (hsub : ∀ {j a u}, (hand' j).slot a = some u → (hand j).slot a = some u)
    (hguard : ∀ j, (hand' j).guard = (hand j).guard)
    (hpool : ∀ {u}, u ∈ q → u ∈ c.pool ∨ c.serving ≤ u ∧ u < c.next)
    (hnot : ∀ {j a u}, (hand' j).slot a = some u → u ∉ q) :
    Inv { c with pool := q } hand' where
  range h := hI.range (hsub h)
  pool_range h := (hpool h).elim hI.pool_range id
  unique h₁ h₂ := hI.unique (hsub h₁) (hsub h₂)
  not_pool h := hnot h
  guard_serving h := hI.guard_serving (by rwa [hguard] at h)
  released_eq := hI.released_eq
  granted_live h := hI.granted_live (by rwa [hguard] at h)
  granted_free h := hI.granted_free fun j => by rw [← hguard]; exact h j
  serving_le := hI.serving_le

/-- What a step puts into the slot `a` of agent `i`: ticket `t` is there and nowhere else, and
everything else was where it is before. -/
def Placed (hand hand' : ι → Hand) (i : ι) (a : Slot) (t : ℕ) : Prop :=
  ∀ {j b u}, (hand' j).slot b = some u →
    (u = t ∧ j = i ∧ b = a) ∨ (u ≠ t ∧ (hand j).slot b = some u)

/-- The three clauses about places, for a step that places one ticket. -/
theorem places_of_placed (hI : Inv c hand) {hand' : ι → Hand} {a : Slot} {n : ℕ}
    {pool : Finset ℕ} (hp : Placed hand hand' i a t) (hn : c.next ≤ n)
    (ht : c.serving ≤ t ∧ t < n) (hpool : pool ⊆ c.pool) (htp : t ∉ pool) :
    (∀ {j b u}, (hand' j).slot b = some u → c.serving ≤ u ∧ u < n) ∧
      (∀ {j b k d u}, (hand' j).slot b = some u → (hand' k).slot d = some u → j = k ∧ b = d) ∧
      ∀ {j b u}, (hand' j).slot b = some u → u ∉ pool := by
  refine ⟨fun h => ?_, fun h₁ h₂ => ?_, fun h hu => ?_⟩
  · rcases hp h with ⟨rfl, -, -⟩ | ⟨-, h⟩
    · exact ht
    · exact ⟨(hI.range h).1, (hI.range h).2.trans_le hn⟩
  · rcases hp h₁ with ⟨rfl, rfl, rfl⟩ | ⟨hne, h₁'⟩ <;>
      rcases hp h₂ with ⟨h, rfl, rfl⟩ | ⟨hne', h₂'⟩
    · exact ⟨rfl, rfl⟩
    · exact absurd rfl hne'
    · exact absurd h hne
    · exact hI.unique h₁' h₂'
  · rcases hp h with ⟨rfl, -, -⟩ | ⟨-, h⟩
    · exact htp hu
    · exact hI.not_pool h (hpool hu)

/-- Placing a ticket in a slot other than the guard's. -/
theorem of_placed (hI : Inv c hand) {hand' : ι → Hand} {a : Slot} {n : ℕ} {pool : Finset ℕ}
    (hp : Placed hand hand' i a t) (hguard : ∀ j, (hand' j).guard = (hand j).guard)
    (hn : c.next ≤ n) (ht : c.serving ≤ t ∧ t < n) (hpool : pool ⊆ c.pool) (htp : t ∉ pool) :
    Inv { c with next := n, pool := pool } hand' := by
  obtain ⟨hrange, hunique, hnot⟩ := hI.places_of_placed hp hn ht hpool htp
  exact {
    range := hrange
    pool_range := fun h => ⟨(hI.pool_range (hpool h)).1, (hI.pool_range (hpool h)).2.trans_le hn⟩
    unique := hunique
    not_pool := hnot
    guard_serving := fun h => hI.guard_serving (by rwa [hguard] at h)
    released_eq := hI.released_eq
    granted_live := fun h => hI.granted_live (by rwa [hguard] at h)
    granted_free := fun h => hI.granted_free fun j => by rw [← hguard]; exact h j
    serving_le := hI.serving_le.trans hn }

/-- Turning the unused ticket in slot `a` into a guard. -/
theorem of_granted (hI : Inv c hand) {hand' : ι → Hand} {a : Slot} (ha : a ≠ .guard)
    (hi : (hand i).slot a = some c.serving) (hi' : (hand' i).guard = some c.serving)
    (hp : Placed hand hand' i .guard c.serving) :
    Inv { c with granted := c.granted ++ [c.serving] } hand' := by
  have hfree := hI.guard_none_of_serving ha hi
  obtain ⟨hrange, hunique, hnot⟩ := hI.places_of_placed hp le_rfl
    ⟨le_rfl, (hI.range hi).2⟩ subset_rfl (hI.not_pool hi)
  have hgranted : c.granted ++ [c.serving] = List.range (c.serving + 1) := by
    rw [hI.granted_free hfree, List.range_succ]
  exact {
    range := hrange
    pool_range := hI.pool_range
    unique := hunique
    not_pool := hnot
    guard_serving := fun {j u} h => by
      rcases hp (b := .guard) h with ⟨rfl, -, -⟩ | ⟨-, h⟩
      · rfl
      · exact absurd h (by simp [Hand.slot, hfree j])
    released_eq := hI.released_eq
    granted_live := fun _ => hgranted
    granted_free := fun h => absurd hi' (by simp [h i])
    serving_le := hI.serving_le }

/-- Releasing the guard. -/
theorem of_released (hI : Inv c hand) {hand' : ι → Hand} (hi : (hand i).guard = some t)
    (hsub : ∀ {j a u}, (hand' j).slot a = some u → (hand j).slot a = some u)
    (hfree : (hand' i).guard = none) :
    Inv { c with serving := c.serving + 1, released := c.released ++ [t] } hand' := by
  obtain rfl := hI.guard_serving hi
  -- the ticket being served is in the guard slot only, so the tickets left are later ones
  have hlt : ∀ {j a u}, (hand' j).slot a = some u → c.serving < u := by
    intro j a u h
    refine lt_of_le_of_ne (hI.range (hsub h)).1 ?_
    rintro rfl
    obtain ⟨rfl, rfl⟩ := hI.unique (hsub h) (b := .guard) hi
    exact absurd h (by simp [Hand.slot, hfree])
  have hguard : ∀ j u, (hand' j).guard ≠ some u := fun j u h => by
    have h₁ := hlt (a := .guard) h
    have h₂ := hI.guard_serving (hsub (a := .guard) h)
    omega
  exact {
    range := fun h => ⟨hlt h, (hI.range (hsub h)).2⟩
    pool_range := fun {u} hu => by
      have h₁ := hI.pool_range hu
      have h₂ : u ≠ c.serving := fun h => hI.not_pool (a := .guard) hi (h ▸ hu)
      exact ⟨by change c.serving + 1 ≤ u; omega, h₁.2⟩
    unique := fun h₁ h₂ => hI.unique (hsub h₁) (hsub h₂)
    not_pool := fun h => hI.not_pool (hsub h)
    guard_serving := fun h => absurd h (hguard _ _)
    released_eq := by rw [hI.released_eq, List.range_succ]
    granted_live := fun h => absurd h (hguard _ _)
    granted_free := fun _ => hI.granted_live hi
    serving_le := (hI.range (a := .guard) hi).2 }

variable [DecidableEq ι]

/-- The slots of the hands after one of them has changed. -/
theorem slot_update {a : Slot} (h : (Function.update hand i h' j).slot a = some t) :
    (j = i ∧ h'.slot a = some t) ∨ (j ≠ i ∧ (hand j).slot a = some t) := by
  by_cases hj : j = i
  · subst hj
    exact Or.inl ⟨rfl, by simpa using h⟩
  · exact Or.inr ⟨hj, by simpa [Function.update_of_ne hj] using h⟩

/-- Losing tickets keeps the invariant. -/
theorem lose (hI : Inv c hand) (h : (hand i).Loses h') : Inv c (Function.update hand i h') := by
  have hsub : ∀ {j a u}, (Function.update hand i h' j).slot a = some u →
      (hand j).slot a = some u := by
    intro j a u hu
    rcases slot_update hu with ⟨rfl, hu⟩ | ⟨-, hu⟩
    · cases a with
      | own => rcases h.own with h₁ | h₁ <;> simp_all [Hand.slot]
      | adopted => rcases h.adopted with h₁ | h₁ <;> simp_all [Hand.slot]
      | guard => simpa [Hand.slot, h.guard] using hu
    · exact hu
  refine hI.of_sub (q := c.pool) hsub (fun j => ?_) Or.inl fun hu => hI.not_pool (hsub hu)
  by_cases hj : j = i
  · subst hj; simpa using h.guard
  · simp [Function.update_of_ne hj]

/-- Updating one hand by a step that places ticket `t` in slot `a`. -/
theorem placed_update {a : Slot} (hi : ∀ {b u}, h'.slot b = some u →
      (u = t ∧ b = a) ∨ (u ≠ t ∧ (hand i).slot b = some u))
    (hne : ∀ {j b}, j ≠ i → (hand j).slot b ≠ some t) :
    Placed hand (Function.update hand i h') i a t := by
  intro j b u hu
  rcases slot_update hu with ⟨rfl, hu'⟩ | ⟨hj, hu'⟩
  · rcases hi hu' with ⟨rfl, rfl⟩ | h
    · exact Or.inl ⟨rfl, rfl, rfl⟩
    · exact Or.inr h
  · exact Or.inr ⟨fun h => hne hj (h ▸ hu'), hu'⟩

/-- Turning an unused ticket of agent `i` into its guard places it and nothing else. -/
private theorem placed_guard (hI : Inv c hand) {a : Slot}
    (hi : (hand i).slot a = some c.serving)
    (hkeep : ∀ {b u}, b ≠ .guard → h'.slot b = some u → b ≠ a ∧ (hand i).slot b = some u)
    (hguard : h'.guard = some c.serving) :
    Placed hand (Function.update hand i h') i .guard c.serving := by
  refine placed_update (fun {b u} hu => ?_) fun hj h => hj (hI.unique h hi).1
  by_cases hb : b = .guard
  · subst hb
    exact Or.inl ⟨Option.some.inj (hu.symm.trans hguard), rfl⟩
  · obtain ⟨hba, hu'⟩ := hkeep hb hu
    exact Or.inr ⟨fun h => hba (hI.unique (h ▸ hu') hi).2, hu'⟩

/-- **Every step keeps the invariant.** -/
theorem step (hI : Inv c hand) (h : HandStep c (hand i) c' h') :
    Inv c' (Function.update hand i h') := by
  have hother : (j : ι) → h'.guard = (hand i).guard →
      (Function.update hand i h' j).guard = (hand j).guard := by
    intro j hg
    by_cases hj : j = i
    · subst hj; simpa using hg
    · rw [Function.update_of_ne hj]
  cases h with
  | stay => simpa using hI
  | take hown =>
    have hfresh : ∀ {j b}, (hand j).slot b ≠ some c.next := fun {j b} h =>
      absurd (hI.range h).2 (lt_irrefl _)
    refine hI.of_placed (a := .own) (placed_update (fun {b u} hu => ?_) fun _ => hfresh)
      (fun j => hother j rfl) (Nat.le_succ _) ⟨hI.serving_le, Nat.lt_succ_self _⟩ subset_rfl
      fun h => absurd (hI.pool_range h).2 (lt_irrefl _)
    cases b with
    | own => exact Or.inl ⟨(Option.some.inj hu).symm, rfl⟩
    | adopted => exact Or.inr ⟨fun h => hfresh (j := i) (b := .adopted) (h ▸ hu : _ = some _), hu⟩
    | guard => exact Or.inr ⟨fun h => hfresh (j := i) (b := .guard) (h ▸ hu : _ = some _), hu⟩
  | @adopt t hpool hnone =>
    have hnot : ∀ {j b}, (hand j).slot b ≠ some t := fun h => hI.not_pool h hpool
    refine hI.of_placed (a := .adopted) (placed_update (fun {b u} hu => ?_) fun _ => hnot)
      (fun j => hother j rfl) le_rfl (hI.pool_range hpool) (Finset.erase_subset _ _)
      (Finset.notMem_erase _ _)
    cases b with
    | adopted => exact Or.inl ⟨(Option.some.inj hu).symm, rfl⟩
    | own => exact Or.inr ⟨fun h => hnot (j := i) (b := .own) (h ▸ hu : _ = some _), hu⟩
    | guard => exact Or.inr ⟨fun h => hnot (j := i) (b := .guard) (h ▸ hu : _ = some _), hu⟩
  | @putDown t hown =>
    have hsub : ∀ {j a u}, (Function.update hand i { hand i with own := none } j).slot a = some u →
        (hand j).slot a = some u ∧ u ≠ t := by
      intro j a u hu
      rcases slot_update hu with ⟨rfl, hu⟩ | ⟨hj, hu⟩
      · have hu' : (hand j).slot a = some u := by cases a <;> simp_all [Hand.slot]
        refine ⟨hu', fun h => ?_⟩
        obtain rfl := (hI.unique (b := .own) (h ▸ hu') hown).2
        simp [Hand.slot] at hu
      · exact ⟨hu, fun h => hj (hI.unique (b := .own) (h ▸ hu) hown).1⟩
    refine hI.of_sub (fun hu => (hsub hu).1) (fun j => hother j rfl) (fun hu => ?_)
      fun hu hmem => ?_
    · rcases Finset.mem_insert.mp hu with rfl | hu
      · exact Or.inr (hI.range (a := .own) hown)
      · exact Or.inl hu
    · rcases Finset.mem_insert.mp hmem with h | hmem
      · exact (hsub hu).2 h
      · exact hI.not_pool (hsub hu).1 hmem
  | grantOwn hown hnone =>
    refine hI.of_granted (a := .own) (by decide) hown (by simp)
      (hI.placed_guard (a := .own) hown (fun {b u} hb hu => ?_) rfl)
    cases b <;> simp_all [Hand.slot]
  | grantAdopted hadopted hnone =>
    refine hI.of_granted (a := .adopted) (by decide) hadopted (by simp)
      (hI.placed_guard (a := .adopted) hadopted (fun {b u} hb hu => ?_) rfl)
    cases b <;> simp_all [Hand.slot]
  | @release t hguard =>
    refine hI.of_released (i := i) hguard (fun {j a u} hu => ?_) (by simp)
    rcases slot_update hu with ⟨rfl, hu⟩ | ⟨-, hu⟩
    · cases a <;> simp_all [Hand.slot]
    · exact hu

end Inv

/-! ## Coverage

Safety does not need that tickets are kept. Progress does: if the ticket being served has been
lost, the queue stands still. A step that loses no ticket keeps them covered, and a step that
does makes it impossible for good. -/

/-- Every outstanding ticket is held by somebody or in the pool. -/
def Covered (c : Counters) (hand : ι → Hand) : Prop :=
  ∀ t, c.serving ≤ t → t < c.next → t ∈ c.pool ∨ ∃ i a, (hand i).slot a = some t

namespace Covered

variable {c c' : Counters} {hand : ι → Hand} {h' : Hand} {i : ι} {t : ℕ}

/-- **Somebody is next.** While anybody holds a ticket, the one being served is held by somebody or
in the pool. -/
theorem serving_held (hI : Inv c hand) (hC : Covered c hand) {a : Slot}
    (hi : (hand i).slot a = some t) :
    c.serving ∈ c.pool ∨ ∃ j b, (hand j).slot b = some c.serving :=
  hC c.serving le_rfl ((hI.range hi).1.trans_lt (hI.range hi).2)

variable [DecidableEq ι]

/-- A ticket that one agent's step leaves in some slot of that agent, or that another agent
holds, stays covered. -/
private theorem exists_slot (h : ∃ j a, (hand j).slot a = some t)
    (hi : ∀ {a}, (hand i).slot a = some t → ∃ b, h'.slot b = some t) :
    ∃ j a, (Function.update hand i h' j).slot a = some t := by
  obtain ⟨j, a, h⟩ := h
  by_cases hj : j = i
  · subst hj
    obtain ⟨b, hb⟩ := hi h
    exact ⟨j, b, by simpa using hb⟩
  · exact ⟨j, a, by rwa [Function.update_of_ne hj]⟩

/-- **Coverage is kept as long as no ticket is lost.** -/
theorem step (hI : Inv c hand) (hC : Covered c hand) (h : HandStep c (hand i) c' h') :
    Covered c' (Function.update hand i h') := by
  intro t hle hlt
  cases h with
  | stay => simpa using hC t hle hlt
  | take hown =>
    rcases Nat.lt_succ_iff_lt_or_eq.mp hlt with hlt | rfl
    · refine (hC t hle hlt).imp_right fun h => exists_slot h fun {a} ha => ⟨a, ?_⟩
      cases a <;> simp_all [Hand.slot]
    · exact Or.inr ⟨i, .own, by simp [Hand.slot]⟩
  | @adopt u hpool hnone =>
    by_cases hu : t = u
    · subst hu
      exact Or.inr ⟨i, .adopted, by simp [Hand.slot]⟩
    · refine (hC t hle hlt).imp (fun h => Finset.mem_erase.mpr ⟨hu, h⟩) fun h =>
        exists_slot h fun {a} ha => ⟨a, ?_⟩
      cases a <;> simp_all [Hand.slot]
  | @putDown u hown =>
    by_cases hu : t = u
    · exact Or.inl (hu ▸ Finset.mem_insert_self _ _)
    · refine (hC t hle hlt).imp Finset.mem_insert_of_mem fun h =>
        exists_slot h fun {a} ha => ⟨a, ?_⟩
      cases a <;> simp_all [Hand.slot]
  | grantOwn hown hnone =>
    refine (hC t hle hlt).imp_right fun h => exists_slot h fun {a} ha => ?_
    cases a with
    | own => exact ⟨.guard, by simp_all [Hand.slot]⟩
    | adopted => exact ⟨.adopted, ha⟩
    | guard => simp_all [Hand.slot]
  | grantAdopted hadopted hnone =>
    refine (hC t hle hlt).imp_right fun h => exists_slot h fun {a} ha => ?_
    cases a with
    | own => exact ⟨.own, ha⟩
    | adopted => exact ⟨.guard, by simp_all [Hand.slot]⟩
    | guard => simp_all [Hand.slot]
  | @release u hguard =>
    obtain rfl := hI.guard_serving hguard
    refine (hC t (Nat.le_of_succ_le hle) hlt).imp_right fun h => exists_slot h fun {a} ha => ⟨a, ?_⟩
    cases a with
    | own => exact ha
    | adopted => exact ha
    | guard =>
      -- the released ticket is no longer outstanding
      have : t = c.serving := by simp_all [Hand.slot]
      exact absurd hle (by change ¬ c.serving + 1 ≤ t; omega)

/-- A lost ticket is held by nobody and is not in the pool. -/
theorem not_of_lost (hI : Inv c hand) {a : Slot} (hi : (hand i).slot a = some t)
    (hlost : ∀ b, h'.slot b ≠ some t) : ¬ Covered c (Function.update hand i h') := by
  intro hC
  rcases hC t (hI.range hi).1 (hI.range hi).2 with hp | ⟨j, b, hj⟩
  · exact hI.not_pool hi hp
  · rcases Inv.slot_update hj with ⟨rfl, hj'⟩ | ⟨hne, hj'⟩
    · exact hlost b hj'
    · exact hne (hI.unique hj' hi).1

end Covered

end TicketQueue
