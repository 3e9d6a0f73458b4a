import Dssh.Lib.Preamble

/-!
# What is left to do in a pipeline

Every item has a way to go, and every station has to learn of the end. What the stations do
makes this less, so they do it for a bounded number of steps; only what comes in from outside
makes it more.

## The measure

An item in station `k` has to be moved `k + 1` times until the sink has it: out of its station,
and out of each one in front. A station that has not been told of the end needs one step for
that, some time. `backlog` adds both up over the row. It is defined by recursion from the front:
a tail of the row weighs what it weighs on its own, and once more for every item in it (`load`),
as each has one station more to pass.

The count is exact for items moved one at a time, and an upper bound otherwise. That is all that
is needed: a schedule that moves more at once needs fewer steps.

## What it is for

A program built from a pipeline has steps of its own besides those of the stations. Its measure
adds the backlog to what it counts itself, and it has to know what its own steps do to the
backlog. The lemmas say so for the two things that are done to a station from outside of the
row: putting something into its buffer, and taking something out of it (`backlog_modify`).

The lemmas about `Whole` stand here for the same reason. A measure bounds a run; that the run
ends with everything delivered needs that nothing failed in it, and so that these steps break
nothing.

## Main definitions

* `Stations.load`, `Stations.backlog` — the items on their way, and the work they are
* `Pipeline.Op.Moves` — the operations that are work

## Main results

* `Pipeline.backlog_step` — the stations and the sink reduce the backlog
* `Pipeline.backlog_putAt`, `Pipeline.backlog_pullAt` — what a preamble adds and its reader
  takes away
-/

namespace Stations

variable {α : Type*} {f : Station α → Station α → Option (Station α × Station α)}
  {l l' : List (Station α)} {i k : ℕ}

/-! ## The measure

An item that is held by the station at place `k` will be taken by each of the `k` stations in
front of it and then read by the sink. So it counts as often as there are stations from its own
on, and the news of the end counts once for each station that has not heard it. Every operation
of the row takes one of these counts away. -/

/-- How much the stations hold. -/
def load : List (Station α) → ℕ
  | [] => 0
  | a :: rest => a.held.length + load rest

/-- How often something has to be done until all have ended. -/
def backlog : List (Station α) → ℕ
  | [] => 0
  | a :: rest => a.held.length + (!a.ended).toNat + load rest + backlog rest

@[simp] theorem load_cons (a : Station α) (l : List (Station α)) :
    load (a :: l) = a.held.length + load l := rfl

/-- What neighbours do keeps the load and reduces the backlog, if it does so for them. -/
theorem backlog_atPair
    (hf : ∀ a b a' b' rest, f a b = some (a', b') →
      load (a' :: b' :: rest) = load (a :: b :: rest) ∧
        backlog (a' :: b' :: rest) < backlog (a :: b :: rest))
    (h : atPair f i l = some l') : load l' = load l ∧ backlog l' < backlog l := by
  refine atPair_rec (R := fun l l' => load l' = load l ∧ backlog l' < backlog l) hf
    (fun a l l' ih => ?_) h
  obtain ⟨hload, hlt⟩ := ih
  rw [load_cons, load_cons, hload, backlog, backlog, hload]
  exact ⟨rfl, by omega⟩

/-- An item that is taken has one station less to pass. -/
theorem backlog_take {n : ℕ} (h : atPair (Station.take n) i l = some l') :
    backlog l' < backlog l := by
  refine (backlog_atPair (fun a b a' b' rest hf => ?_) h).2
  obtain ⟨⟨-, -, hpos, hle⟩, rfl, rfl⟩ := Station.take_eq_some hf
  simp only [load_cons, backlog, Station.put, Station.drop, List.length_append, List.length_take,
    List.length_drop]
  omega

/-- A station that has been told of the end need not be told again. -/
theorem backlog_learn (h : atPair Station.learn i l = some l') : backlog l' < backlog l := by
  refine (backlog_atPair (fun a b a' b' rest hf => ?_) h).2
  obtain ⟨⟨⟨-, hopen, -⟩, -⟩, rfl, rfl⟩ := Station.learn_eq_some hf
  simp only [load_cons, backlog, hopen]
  exact ⟨trivial, by simp⟩

/-- A station takes something in or gives it away: so much for it and for each one in front. -/
theorem backlog_modify {g : Station α → Station α} {a : Station α} (ha : l[k]? = some a)
    (hended : (g a).ended = a.ended) :
    load (l.modify k g) + a.held.length = load l + (g a).held.length ∧
      backlog (l.modify k g) + (k + 1) * a.held.length =
        backlog l + (k + 1) * (g a).held.length := by
  induction l generalizing k with
  | nil => cases ha
  | cons b rest ih =>
    cases k with
    | zero =>
      obtain rfl := Option.some.inj ha
      rw [List.modify_zero_cons, load_cons, load_cons, backlog, backlog, hended]
      constructor <;> omega
    | succ k =>
      obtain ⟨hload, hbacklog⟩ := ih (k := k) ha
      rw [List.modify_succ_cons, load_cons, load_cons, backlog, backlog]
      rw [Nat.add_mul (k + 1) 1, Nat.add_mul (k + 1) 1, Nat.one_mul, Nat.one_mul]
      constructor <;> omega

/-- A change that breaks no station. -/
theorem whole_modify {g : Station α → Station α} (hg : ∀ a, (g a).failed = a.failed) :
    Whole (l.modify k g) ↔ Whole l := by
  induction l generalizing k with
  | nil => simp [Whole]
  | cons a l ih =>
    cases k with
    | zero => simp [Whole, hg]
    | succ k => simpa [Whole] using fun _ => ih

end Stations

namespace Pipeline

open Stations

variable {α : Type*} {p q : Pipeline α} {op : Op α} {k : ℕ}

/-- The work of the stations and of the sink. -/
def Op.Moves : Op α → Prop
  | take _ _ => True
  | learn _ => True
  | receive _ => True
  | _ => False

/-- **Work gets less** by being done. -/
theorem backlog_step (hop : op.Moves) (h : p.step op = some q) :
    backlog q.stations < backlog p.stations := by
  cases op with
  | take i n =>
    obtain ⟨l, hl, rfl⟩ := Option.map_eq_some_iff.mp h
    exact backlog_take hl
  | learn i =>
    obtain ⟨l, hl, rfl⟩ := Option.map_eq_some_iff.mp h
    exact backlog_learn hl
  | receive n =>
    obtain ⟨a, rest, hstations, hn, rfl⟩ := step_receive h
    rw [hstations]
    simp only [backlog, Station.drop, List.length_drop]
    omega
  | lose | send | close | receiveEof => exact hop.elim

/-! ## Shared buffers

Where somebody else uses the buffer of a station, the measure changes by what is put in and taken
out, and by nothing else. The other user must account for its own items; these lemmas say for how
many. -/

/-- What is put into station `k` is work for it and for all in front. -/
theorem backlog_putAt {xs : List α} (h : p.putAt k xs = some q) :
    backlog q.stations = backlog p.stations + (k + 1) * xs.length := by
  rw [putAt] at h
  split at h
  case h_1 a ha =>
    split at h
    case isTrue =>
      obtain rfl := Option.some.inj h
      have hbacklog := (backlog_modify (g := fun a => a.put xs) ha rfl).2
      rw [Station.put, List.length_append, Nat.mul_add] at hbacklog
      change backlog (p.stations.modify k _) = _
      omega
    case isFalse => cases h
  case h_2 => cases h

/-- What is taken out of it is no work any more. -/
theorem backlog_pullAt {x : α} (h : p.pullAt k = some (x, q)) :
    backlog q.stations + (k + 1) = backlog p.stations := by
  rw [pullAt] at h
  split at h
  case h_1 a ha =>
    split at h
    case h_1 x' ys hheld =>
      obtain ⟨rfl, rfl⟩ := Prod.mk.inj (Option.some.inj h)
      have hbacklog := (backlog_modify (g := fun a => a.drop 1) ha rfl).2
      rw [Station.drop, List.length_drop, hheld, List.length_cons, Nat.add_sub_cancel,
        Nat.mul_add] at hbacklog
      change backlog (p.stations.modify k _) + _ = _
      omega
    case h_2 => cases h
  case h_2 => cases h

/-- They do not make anything fail. -/
theorem whole_moves (hop : op.Moves) (hw : Whole p.stations) (h : p.step op = some q) :
    Whole q.stations := by
  cases op with
  | take i n =>
    obtain ⟨l, hl, rfl⟩ := Option.map_eq_some_iff.mp h
    refine (whole_atPair (fun a b a' b' hf => ?_) hl).mpr hw
    obtain ⟨-, rfl, rfl⟩ := Station.take_eq_some hf
    exact ⟨rfl, rfl⟩
  | learn i =>
    obtain ⟨l, hl, rfl⟩ := Option.map_eq_some_iff.mp h
    refine (whole_atPair (fun a b a' b' hf => ?_) hl).mpr hw
    obtain ⟨-, rfl, rfl⟩ := Station.learn_eq_some hf
    exact ⟨rfl, rfl⟩
  | receive n =>
    obtain ⟨a, rest, hstations, -, rfl⟩ := step_receive h
    rw [hstations] at hw
    intro b hb
    rcases List.mem_cons.mp hb with rfl | hb
    · exact hw a List.mem_cons_self
    · exact hw b (List.mem_cons_of_mem a hb)
  | lose | send | close | receiveEof => exact hop.elim

/-- Using a buffer breaks nothing … -/
theorem whole_putAt {xs : List α} (h : p.putAt k xs = some q) :
    Whole q.stations ↔ Whole p.stations := by
  rw [putAt] at h
  split at h
  case h_1 a ha =>
    split at h
    case isTrue =>
      obtain rfl := Option.some.inj h
      exact whole_modify (g := fun a => a.put xs) fun _ => rfl
    case isFalse => cases h
  case h_2 => cases h

/-- … in either direction. -/
theorem whole_pullAt {x : α} (h : p.pullAt k = some (x, q)) :
    Whole q.stations ↔ Whole p.stations := by
  rw [pullAt] at h
  split at h
  case h_1 a ha =>
    split at h
    case h_1 x' ys hheld =>
      obtain ⟨rfl, rfl⟩ := Prod.mk.inj (Option.some.inj h)
      exact whole_modify (g := fun a => a.drop 1) fun _ => rfl
    case h_2 => cases h
  case h_2 => cases h

end Pipeline
