import Mathlib.Data.List.Basic

/-!
# Pipelines

Items go from a source to a sink through a row of stations: buffers of limited size, of which
each takes items from the one behind it and learns of its end. Which station works, and on how
many items at a time, is up to the scheduler. A station may fail, which leaves what it holds and
what is behind it where it is; the station before it may or may not take this for the end.

This is what a chain of relays comes to: a socket, the loop that reads it, a flow-controlled
stream, the loop at the other end, another socket. The question is always the same. Does the
last one see what the first one sent, in order, with nothing lost and nothing twice, and the end
behind it? It is answered once here, for rows of any length and items of any type.

## The row

Stations are listed from the sink to the source, so that the front of the list is where items
come out. What happens between two neighbours is a function of the two (`take`, `learn`,
`lose`), and `Stations.atPair` is the row in which it happens at one place. Each property of the
row is then proved for two neighbours and carried to the row by `atPair_rec`; no proof does an
induction on the row for one operation in particular.

Capacities are part of the stations, and only `Room` looks at them. Safety holds for any
capacities; delivery needs them to be positive, since a station of capacity zero never takes
anything.

## Failures

`lose` is the only operation that breaks a row. It marks the station behind as failed, and its
flag `ends` is the choice that a reader of a broken stream has: to pass the error on, or to take
it for the end of the stream. The invariant keeps both cases. What has been received is a
beginning of what was sent (`Inv.flow`), always; that it is *all* of it when the end has been
seen needs a row in which nothing has failed (`Inv.of_eof`).

## Delivery

Delivery is stated as a property of rest states. If no station can work, and the sink has read
all it can, everything has arrived. Together with a measure that each operation decreases, which
depends on how the program bounds its buffers and is left to the program, this is delivery in
every fair run.

`Still` is a sufficient condition for such a rest state that can be evaluated: empty stations
that are all open, or all told of the end.

## Main definitions

* `Station`, `Stations.atPair`, `Stations.atLast` — rows of stations, and what happens in them
* `Stations.flow` — the items on their way to the sink
* `Stations.Orderly` — a station that has been told of the end is right about it
* `Pipeline`, `Pipeline.Op`, `Pipeline.step` — a row with its source and its sink
* `Pipeline.Inv` — the invariant

## Main results

* `Pipeline.Inv.step` — every operation keeps the invariant
* `Pipeline.Inv.received_isPrefix` — the sink receives a beginning of what the source has sent
* `Pipeline.Inv.of_eof` — it is told of the end behind the last item, unless a station has
  failed
* `Pipeline.Inv.delivered_of_idle` — where no station can work and the sink has read all it can,
  everything has been delivered
-/

/-! ## Stations

A station is a buffer with a capacity, and two flags: it has failed, or it has learned that
nothing more comes. It does not say what it is a model of. A queue, a stream of a transport and
the buffer of a copy loop are all stations. -/

/-- One buffer of a pipeline. -/
structure Station (α : Type*) where
  /-- How many items it holds at most. -/
  capacity : ℕ
  /-- What it holds, the oldest item in front. -/
  held : List α := []
  /-- Nothing more comes in. -/
  ended : Bool := false
  /-- It has failed, and neither takes nor gives any more. -/
  failed : Bool := false

namespace Station

variable {α : Type*}

/-- Take items in. -/
def put (s : Station α) (xs : List α) : Station α := { s with held := s.held ++ xs }

/-- Give items away. -/
def drop (s : Station α) (n : ℕ) : Station α := { s with held := s.held.drop n }

/-- It works, and there is room for `n` items more. -/
def Room (s : Station α) (n : ℕ) : Prop :=
  s.failed = false ∧ s.ended = false ∧ s.held.length + n ≤ s.capacity

/-- All items have come and gone. -/
def Drained (s : Station α) : Prop := s.failed = false ∧ s.ended = true ∧ s.held.length = 0

instance (s : Station α) (n : ℕ) : Decidable (s.Room n) := inferInstanceAs (Decidable (_ ∧ _))

instance (s : Station α) : Decidable s.Drained := inferInstanceAs (Decidable (_ ∧ _))

/-! ### Neighbours

Everything that happens in a row happens between two neighbours, or to the last station. There
are three such things: the front one takes items, it learns of the end, and the one behind it
fails. Their effect on the row is one induction, done once for any of them. -/

/-- `a` takes `n` items from `b`. -/
def take (n : ℕ) (a b : Station α) : Option (Station α × Station α) :=
  if a.Room n ∧ b.failed = false ∧ 0 < n ∧ n ≤ b.held.length then
    some (a.put (b.held.take n), b.drop n)
  else none

/-- `a` learns that nothing more comes from `b`. -/
def learn (a b : Station α) : Option (Station α × Station α) :=
  if a.Room 0 ∧ b.Drained then some ({ a with ended := true }, b) else none

/-- `b` fails; whether `a` takes this for the end is `ends`. -/
def lose (ends : Bool) (a b : Station α) : Option (Station α × Station α) :=
  some ({ a with ended := a.ended || ends }, { b with failed := true })

variable {a b a' b' : Station α} {n : ℕ}

/-- What taking does, and when. -/
theorem take_eq_some (h : take n a b = some (a', b')) :
    (a.Room n ∧ b.failed = false ∧ 0 < n ∧ n ≤ b.held.length) ∧
      a' = a.put (b.held.take n) ∧ b' = b.drop n := by
  rw [take] at h
  split at h
  case isTrue hroom =>
    obtain ⟨rfl, rfl⟩ := Prod.mk.inj (Option.some.inj h)
    exact ⟨hroom, rfl, rfl⟩
  case isFalse => cases h

/-- What learning of the end does, and when. -/
theorem learn_eq_some (h : learn a b = some (a', b')) :
    (a.Room 0 ∧ b.Drained) ∧ a' = { a with ended := true } ∧ b' = b := by
  rw [learn] at h
  split at h
  case isTrue hroom =>
    obtain ⟨rfl, rfl⟩ := Prod.mk.inj (Option.some.inj h)
    exact ⟨hroom, rfl, rfl⟩
  case isFalse => cases h

end Station

namespace Stations

variable {α : Type*}

/-- Something happens between station `i` and the one behind it. -/
def atPair (f : Station α → Station α → Option (Station α × Station α)) :
    ℕ → List (Station α) → Option (List (Station α))
  | 0, a :: b :: rest => (f a b).map fun p => p.1 :: p.2 :: rest
  | i + 1, a :: rest => (atPair f i rest).map (a :: ·)
  | _, _ => none

/-- Something happens to the last station. -/
def atLast (f : Station α → Station α) : List (Station α) → List (Station α)
  | [] => []
  | [a] => [f a]
  | a :: b :: rest => a :: atLast f (b :: rest)

/-- The items on their way to the sink. -/
def flow : List (Station α) → List α
  | [] => []
  | a :: rest => if a.failed then [] else a.held ++ flow rest

/-- No station has failed. -/
def Whole (l : List (Station α)) : Prop := ∀ a ∈ l, a.failed = false

/-- The source has closed. -/
def Closed : List (Station α) → Prop
  | [] => False
  | [a] => a.ended = true
  | _ :: b :: rest => Closed (b :: rest)

variable {f : Station α → Station α → Option (Station α × Station α)} {g : Station α → Station α}
  {l l' : List (Station α)} {i : ℕ}

/-- What holds of two neighbours with any others behind them, and in front of which any station may
be, holds of the row. -/
theorem atPair_rec {R : List (Station α) → List (Station α) → Prop}
    (hpair : ∀ a b a' b' rest, f a b = some (a', b') → R (a :: b :: rest) (a' :: b' :: rest))
    (hcons : ∀ a l l', R l l' → R (a :: l) (a :: l')) (h : atPair f i l = some l') : R l l' := by
  induction i generalizing l l' with
  | zero =>
    match l, h with
    | a :: b :: rest, h =>
      obtain ⟨⟨a', b'⟩, hf, rfl⟩ := Option.map_eq_some_iff.mp h
      exact hpair a b a' b' rest hf
  | succ i ih =>
    match l, h with
    | a :: rest, h =>
      obtain ⟨rest', hrest, rfl⟩ := Option.map_eq_some_iff.mp h
      exact hcons a rest rest' (ih hrest)

/-- A station that works is part of the flow. -/
theorem flow_cons {a : Station α} (h : a.failed = false) (l : List (Station α)) :
    flow (a :: l) = a.held ++ flow l := by simp [flow, h]

/-- What neighbours do keeps the flow, if it does for them. -/
theorem flow_atPair
    (hf : ∀ a b a' b' rest, f a b = some (a', b') → flow (a' :: b' :: rest) = flow (a :: b :: rest))
    (h : atPair f i l = some l') : flow l' = flow l :=
  atPair_rec (R := fun l l' => flow l' = flow l) hf
    (fun a l l' ih => by rw [flow, flow, ih]) h

/-- Taking moves items along the flow, and changes nothing about it. -/
theorem flow_take {n : ℕ} (h : atPair (Station.take n) i l = some l') : flow l' = flow l := by
  refine flow_atPair (fun a b a' b' rest hf => ?_) h
  obtain ⟨⟨⟨ha, -, -⟩, hb, -, -⟩, rfl, rfl⟩ := Station.take_eq_some hf
  have ha' : (a.put (b.held.take n)).failed = false := ha
  have hb' : (b.drop n).failed = false := hb
  rw [flow_cons ha, flow_cons ha', flow_cons hb, flow_cons hb', Station.put, Station.drop,
    List.append_assoc, ← List.append_assoc (List.take n b.held), List.take_append_drop]

/-- Learning of the end does not move anything. -/
theorem flow_learn (h : atPair Station.learn i l = some l') : flow l' = flow l := by
  refine flow_atPair (fun a b a' b' rest hf => ?_) h
  obtain ⟨-, rfl, rfl⟩ := Station.learn_eq_some hf
  rfl

/-- What is behind a failure does not arrive. -/
theorem flow_lose {ends : Bool} (h : atPair (Station.lose ends) i l = some l') :
    flow l' <+: flow l := by
  refine atPair_rec (R := fun l l' => flow l' <+: flow l) (fun a b a' b' rest hf => ?_)
    (fun a l l' ih => ?_) h
  · obtain ⟨rfl, rfl⟩ := Prod.mk.inj (Option.some.inj hf)
    cases ha : a.failed with
    | true => simp [flow, ha]
    | false => simp [flow, ha]
  · rw [flow, flow]
    cases a.failed with
    | true => exact List.prefix_rfl
    | false => exact (List.prefix_append_right_inj a.held).mpr ih

/-- What comes into the last station joins the flow, unless a station has failed. -/
theorem flow_atLast {xs : List α} (hg : ∀ a, (g a).failed = a.failed ∧ (g a).held = a.held ++ xs)
    (hl : l ≠ []) :
    (Whole l → flow (atLast g l) = flow l ++ xs) ∧ (¬ Whole l → flow (atLast g l) = flow l) := by
  induction l with
  | nil => exact absurd rfl hl
  | cons a l ih =>
    cases l with
    | nil =>
      obtain ⟨hfailed, hheld⟩ := hg a
      cases ha : a.failed <;> simp [atLast, flow, Whole, hfailed, hheld, ha]
    | cons b rest =>
      obtain ⟨hwhole, hbroken⟩ := ih (List.cons_ne_nil b rest)
      rw [atLast]
      cases ha : a.failed with
      | true => simp [flow, Whole, ha]
      | false =>
        rw [flow_cons ha, flow_cons ha, List.append_assoc]
        have hiff : Whole (a :: b :: rest) ↔ Whole (b :: rest) := by simp [Whole, ha]
        exact ⟨fun hw => by rw [hwhole (hiff.mp hw)], fun hw => by rw [hbroken (mt hiff.mpr hw)]⟩

/-! ## The end

That the end has come is passed on from station to station, behind the last item. If a station
has heard of it, the one behind has, and is empty: `Orderly` says this of every pair of
neighbours. A station that fails may be taken for one that has ended, which breaks the flow but
not the order. -/

/-- How a station changes: it does not come back to work, to being open or, once it has ended, to
holding something. -/
structure Later (a a' : Station α) : Prop where
  /-- A failure stays. -/
  failed : a'.failed = false → a.failed = false
  /-- So does an end. -/
  ended : a.ended = true → a'.ended = true
  /-- A station that has ended takes nothing more. -/
  held : a'.failed = false → a.ended = true → a.held = [] → a'.held = []

/-- If `a` has ended, `b` has, and is empty. -/
def Behind (a b : Station α) : Prop :=
  a.failed = false → b.failed = false → a.ended = true → b.ended = true ∧ b.held = []

/-- It matters only that the station behind does not open again or fill up. -/
theorem Behind.later {a b b' : Station α} (h : Behind a b) (hb : Later b b') : Behind a b' := by
  intro ha hb' hended
  obtain ⟨hbended, hheld⟩ := h ha (hb.failed hb') hended
  exact ⟨hb.ended hbended, hb.held hb' hbended hheld⟩

/-- A station that has ended is right about it. -/
def Orderly : List (Station α) → Prop
  | [] => True
  | [_] => True
  | a :: b :: rest => Behind a b ∧ Orderly (b :: rest)

/-- What neighbours do keeps the order, if it does for them. -/
theorem orderly_atPair
    (hf : ∀ a b a' b', f a b = some (a', b') → Behind a b → Later a a' ∧ Behind a' b' ∧
      (b'.failed = false → b'.ended = true → b.failed = false ∧ b.ended = true))
    (h : atPair f i l = some l') (horderly : Orderly l) : Orderly l' := by
  suffices hall : Orderly l → Orderly l' ∧
      ∃ a a' rest rest', l = a :: rest ∧ l' = a' :: rest' ∧ Later a a' from (hall horderly).1
  refine atPair_rec (R := fun l l' => Orderly l → Orderly l' ∧
    ∃ a a' rest rest', l = a :: rest ∧ l' = a' :: rest' ∧ Later a a')
    (fun a b a' b' rest hab horderly => ?_) (fun a l l' ih horderly => ?_) h
  · obtain ⟨ha, hpair, hb⟩ := hf a b a' b' hab horderly.1
    refine ⟨⟨hpair, ?_⟩, a, a', _, _, rfl, rfl, ha⟩
    cases rest with
    | nil => trivial
    | cons c rest =>
      refine ⟨fun hb' hc hended => ?_, horderly.2.2⟩
      obtain ⟨hbfailed, hbended⟩ := hb hb' hended
      exact horderly.2.1 hbfailed hc hbended
  · refine ⟨?_, a, a, l, l', rfl, rfl, ⟨id, id, fun _ _ => id⟩⟩
    cases l with
    | nil =>
      obtain ⟨-, b, b', rest, rest', hnil, -⟩ := ih trivial
      cases hnil
    | cons b rest =>
      obtain ⟨horderly', c, c', rest, rest', heq, rfl, hc⟩ := ih horderly.2
      obtain ⟨rfl, rfl⟩ := List.cons.inj heq
      exact ⟨horderly.1.later hc, horderly'⟩

/-- Taking keeps the order: a station that takes is open. -/
theorem orderly_take {n : ℕ} (h : atPair (Station.take n) i l = some l') (hl : Orderly l) :
    Orderly l' := by
  refine orderly_atPair (fun a b a' b' hf hab => ?_) h hl
  obtain ⟨⟨⟨ha, hopen, -⟩, hb, -, -⟩, rfl, rfl⟩ := Station.take_eq_some hf
  -- a station that takes has not ended, before or after
  refine ⟨⟨id, id, fun _ hended => ?_⟩, fun _ _ hended => ?_, fun _ hended => ⟨hb, hended⟩⟩
  · rw [hopen] at hended
    cases hended
  · change a.ended = true at hended
    rw [hopen] at hended
    cases hended

/-- So does learning of the end: the one behind is drained. -/
theorem orderly_learn (h : atPair Station.learn i l = some l') (hl : Orderly l) :
    Orderly l' := by
  refine orderly_atPair (fun a b a' b' hf hab => ?_) h hl
  obtain ⟨⟨-, hdrained⟩, rfl, rfl⟩ := Station.learn_eq_some hf
  refine ⟨⟨id, fun _ => rfl, fun _ _ => id⟩, fun _ _ _ => ?_, fun hb hended => ⟨hb, hended⟩⟩
  exact ⟨hdrained.2.1, List.eq_nil_of_length_eq_zero hdrained.2.2⟩

/-- So does a failure, whatever the station in front makes of it. -/
theorem orderly_lose {ends : Bool} (h : atPair (Station.lose ends) i l = some l')
    (hl : Orderly l) : Orderly l' := by
  refine orderly_atPair (fun a b a' b' hf hab => ?_) h hl
  obtain ⟨rfl, rfl⟩ := Prod.mk.inj (Option.some.inj hf)
  refine ⟨⟨id, fun hended => ?_, fun _ _ => id⟩, fun _ hb => ?_, fun hb => ?_⟩
  · rw [hended, Bool.true_or]
  · cases hb
  · cases hb

/-- The last station changes, and the order is kept if it had not ended or keeps what it holds. -/
theorem orderly_atLast (hg : ∀ a ∈ l.getLast?, Later a (g a)) (hl : Orderly l) :
    Orderly (atLast g l) := by
  induction l with
  | nil => trivial
  | cons a l ih =>
    cases l with
    | nil => trivial
    | cons b rest =>
      have hrest := ih (by simpa using hg) hl.2
      cases rest with
      | nil => exact ⟨hl.1.later (hg b (by simp)), trivial⟩
      | cons c rest => exact ⟨hl.1, hrest⟩

/-- Only a failure breaks the row. -/
theorem whole_atPair
    (hf : ∀ a b a' b', f a b = some (a', b') → a'.failed = a.failed ∧ b'.failed = b.failed)
    (h : atPair f i l = some l') : Whole l' ↔ Whole l := by
  refine atPair_rec (R := fun l l' => Whole l' ↔ Whole l) (fun a b a' b' rest hab => ?_)
    (fun a l l' ih => ?_) h
  · obtain ⟨ha, hb⟩ := hf a b a' b' hab
    simp [Whole, ha, hb]
  · simpa [Whole] using fun _ => ih

/-- A row in which a station has been lost is not whole. -/
theorem not_whole_lose {ends : Bool} (h : atPair (Station.lose ends) i l = some l') :
    ¬ Whole l' := by
  refine atPair_rec (R := fun _ l' => ¬ Whole l') (fun a b a' b' rest hf hw => ?_)
    (fun a l l' ih hw => ih fun b hb => hw b (List.mem_cons_of_mem a hb)) h
  obtain ⟨rfl, rfl⟩ := Prod.mk.inj (Option.some.inj hf)
  exact Bool.noConfusion (hw _ (List.mem_cons_of_mem _ List.mem_cons_self))

/-- It happens between two stations of the row, which let it happen. -/
theorem exists_of_atPair (h : atPair f i l = some l') : ∃ a ∈ l, ∃ b ∈ l, (f a b).isSome := by
  refine atPair_rec (R := fun l _ => ∃ a ∈ l, ∃ b ∈ l, (f a b).isSome)
    (fun a b a' b' rest hf => ⟨a, by simp, b, by simp, by simp [hf]⟩) (fun a l l' ih => ?_) h
  obtain ⟨b, hb, c, hc, hsome⟩ := ih
  exact ⟨b, List.mem_cons_of_mem a hb, c, List.mem_cons_of_mem a hc, hsome⟩

/-- A row in which something happens has stations. -/
theorem atPair_ne_nil (h : atPair f i l = some l') : l' ≠ [] :=
  atPair_rec (R := fun _ l' => l' ≠ []) (fun _ _ _ _ _ _ => List.cons_ne_nil _ _)
    (fun _ _ _ _ => List.cons_ne_nil _ _) h

/-- What holds of the front station as long as it is left alone, and is kept when it is not. -/
theorem head_atPair {Q : Station α → Prop} (hf : ∀ a b a' b', f a b = some (a', b') → Q a → Q a')
    (h : atPair f i l = some l') (hl : ∀ a ∈ l.head?, Q a) : ∀ a ∈ l'.head?, Q a := by
  refine atPair_rec (R := fun l l' => (∀ a ∈ l.head?, Q a) → ∀ a ∈ l'.head?, Q a)
    (fun a b a' b' rest hab hl c hc => ?_) (fun a l l' _ hl => hl) h hl
  obtain rfl := Option.some.inj hc
  exact hf a b a' b' hab (hl a rfl)

/-- And keeps them. -/
theorem atLast_ne_nil (hl : l ≠ []) : atLast g l ≠ [] := by
  match l, hl with
  | [a], _ => exact List.cons_ne_nil _ _
  | a :: b :: rest, _ => exact List.cons_ne_nil _ _

/-- The same for what happens to the last station. -/
theorem head_atLast {Q : Station α → Prop} (hg : ∀ a ∈ l.getLast?, Q a → Q (g a))
    (hl : ∀ a ∈ l.head?, Q a) : ∀ a ∈ (atLast g l).head?, Q a := by
  match l, hg, hl with
  | [], _, hl => exact hl
  | [a], hg, hl =>
    intro b hb
    obtain rfl := Option.some.inj hb
    exact hg a rfl (hl a rfl)
  | a :: b :: rest, _, hl => exact hl

/-- What comes into the last station breaks nothing. -/
theorem whole_atLast (hg : ∀ a, (g a).failed = a.failed) : Whole (atLast g l) ↔ Whole l := by
  induction l with
  | nil => exact Iff.rfl
  | cons a l ih =>
    cases l with
    | nil => simp [atLast, Whole, hg]
    | cons b rest =>
      rw [atLast]
      simpa [Whole] using fun _ => ih

/-! ## Nothing left to do

Where no station can work, nothing is held behind the first station that is open and empty.
Together with the flow this gives delivery, without a word about the order in which the stations
have worked. -/

/-- Where no station can work behind an open station that holds nothing, there is nothing. -/
theorem flow_of_idle (hwhole : Whole l) (hcapacity : ∀ a ∈ l, 0 < a.capacity)
    (htake : ∀ i, atPair (Station.take 1) i l = none)
    (hlearn : ∀ i, atPair Station.learn i l = none)
    (hhead : ∀ a ∈ l.head?, a.ended = false ∧ a.held = []) : flow l = [] ∧ ¬ Closed l := by
  induction l with
  | nil => exact ⟨rfl, id⟩
  | cons a l ih =>
    obtain ⟨hended, hheld⟩ := hhead a rfl
    have ha : a.failed = false := hwhole a List.mem_cons_self
    rw [flow_cons ha, hheld, List.nil_append]
    cases l with
    | nil => exact ⟨rfl, by simp [Closed, hended]⟩
    | cons b rest =>
      have hb : b.failed = false := hwhole b (by simp)
      have hroom : ∀ n ≤ 1, a.Room n := fun n hn =>
        ⟨ha, hended, by
          have hpos := hcapacity a List.mem_cons_self
          rw [hheld]
          simp only [List.length_nil]
          omega⟩
      have hbheld : b.held = [] := by
        by_contra hne
        have hnone := htake 0
        rw [atPair, Station.take, if_pos ⟨hroom 1 (Nat.le_refl 1), hb, Nat.one_pos,
          List.length_pos_iff.mpr hne⟩] at hnone
        cases hnone
      have hbended : b.ended = false := by
        by_contra hne
        have hnone := hlearn 0
        rw [atPair, Station.learn, if_pos ⟨hroom 0 (Nat.zero_le 1), hb,
          (Bool.not_eq_false _).mp hne, by rw [hbheld]; rfl⟩] at hnone
        cases hnone
      refine ih (fun c hc => hwhole c (List.mem_cons_of_mem a hc))
        (fun c hc => hcapacity c (List.mem_cons_of_mem a hc)) (fun i => ?_) (fun i => ?_) ?_
      · exact Option.map_eq_none_iff.mp (htake (i + 1))
      · exact Option.map_eq_none_iff.mp (hlearn (i + 1))
      · intro c hc
        obtain rfl := Option.some.inj hc
        exact ⟨hbended, hbheld⟩

/-- Behind a station that is done, all are. -/
theorem flow_of_drained (hwhole : Whole l) (horderly : Orderly l) (hl : l ≠ [])
    (hhead : ∀ a ∈ l.head?, a.ended = true ∧ a.held = []) : flow l = [] ∧ Closed l := by
  induction l with
  | nil => exact absurd rfl hl
  | cons a l ih =>
    obtain ⟨hended, hheld⟩ := hhead a rfl
    have ha : a.failed = false := hwhole a List.mem_cons_self
    rw [flow_cons ha, hheld, List.nil_append]
    cases l with
    | nil => exact ⟨rfl, hended⟩
    | cons b rest =>
      refine ih (fun c hc => hwhole c (List.mem_cons_of_mem a hc)) horderly.2
        (List.cons_ne_nil b rest) ?_
      intro c hc
      obtain rfl := Option.some.inj hc
      exact horderly.1 ha (hwhole b (by simp)) hended

end Stations

/-- A row of stations with what has gone in and come out of it. -/
structure Pipeline (α : Type*) where
  /-- The row, from the sink to the source. -/
  stations : List (Station α)
  /-- What the source has sent. -/
  sent : List α := []
  /-- What the sink has received. -/
  received : List α := []
  /-- The sink has been told of the end. -/
  eof : Bool := false

namespace Pipeline

variable {α : Type*}

/-- What happens to a pipeline. -/
inductive Op (α : Type*) where
  /-- Station `i` takes `n` items from the one behind it. -/
  | take (i n : ℕ)
  /-- Station `i` learns that nothing more comes. -/
  | learn (i : ℕ)
  /-- Station `i + 1` fails. -/
  | lose (ends : Bool) (i : ℕ)
  /-- The source sends. -/
  | send (xs : List α)
  /-- The source closes. -/
  | close
  /-- The sink reads `n` items, or the end. -/
  | receive (n : ℕ)
  /-- The sink is told of the end. -/
  | receiveEof

/-- The last station takes the items of the source. -/
def send (p : Pipeline α) (xs : List α) : Pipeline α :=
  { p with stations := Stations.atLast (·.put xs) p.stations, sent := p.sent ++ xs }

/-- The last station is told that nothing more comes. -/
def close (p : Pipeline α) : Pipeline α :=
  { p with stations := Stations.atLast (fun a => { a with ended := true }) p.stations }

/-- One operation; `none` when it is not possible. -/
def step (p : Pipeline α) : Op α → Option (Pipeline α)
  | .take i n =>
    (Stations.atPair (Station.take n) i p.stations).map fun l => { p with stations := l }
  | .learn i => (Stations.atPair Station.learn i p.stations).map fun l => { p with stations := l }
  | .lose ends i =>
    (Stations.atPair (Station.lose ends) i p.stations).map fun l => { p with stations := l }
  | .send xs =>
    match p.stations.getLast? with
    | some a => if a.Room xs.length then some (p.send xs) else none
    | none => none
  | .close => some p.close
  | .receive n =>
    match p.stations with
    | a :: rest =>
      if 0 < n ∧ n ≤ a.held.length then
        some { p with stations := a.drop n :: rest, received := p.received ++ a.held.take n }
      else none
    | [] => none
  | .receiveEof =>
    match p.stations with
    | a :: _ => if a.Drained then some { p with eof := true } else none
    | [] => none

open Stations

/-- The invariant of a pipeline. -/
structure Inv (p : Pipeline α) : Prop where
  /-- There are stations. -/
  nonempty : p.stations ≠ []
  /-- What is on its way continues what has been received, … -/
  flow : p.received ++ Stations.flow p.stations <+: p.sent
  /-- … up to what has been sent, unless a station has failed. -/
  whole : Whole p.stations → p.received ++ Stations.flow p.stations = p.sent
  /-- Stations that have ended are right about it. -/
  orderly : Orderly p.stations
  /-- The front station is never one that fails. -/
  head : ∀ a ∈ p.stations.head?, a.failed = false
  /-- The sink has been told of the end by a front station that is drained. -/
  eof : p.eof = true → ∀ a ∈ p.stations.head?, a.Drained

variable {p p' : Pipeline α} {op : Op α}

/-- When the source can send, and what it does. -/
theorem step_send {xs : List α} (h : p.step (.send xs) = some p') :
    (∃ a ∈ p.stations.getLast?, a.Room xs.length) ∧ p' = p.send xs := by
  rw [Pipeline.step] at h
  split at h
  case h_1 a hlast =>
    split at h
    case isTrue hroom => exact ⟨⟨a, hlast, hroom⟩, (Option.some.inj h).symm⟩
    case isFalse => cases h
  case h_2 => cases h

/-- When the sink can read, and what it does. -/
theorem step_receive {n : ℕ} (h : p.step (.receive n) = some p') :
    ∃ a rest, p.stations = a :: rest ∧ (0 < n ∧ n ≤ a.held.length) ∧
      p' = { p with stations := a.drop n :: rest, received := p.received ++ a.held.take n } := by
  rw [Pipeline.step] at h
  split at h
  case h_1 a rest hstations =>
    split at h
    case isTrue hn => exact ⟨a, rest, hstations, hn, (Option.some.inj h).symm⟩
    case isFalse => cases h
  case h_2 => cases h

/-- When the sink is told of the end. -/
theorem step_receiveEof (h : p.step .receiveEof = some p') :
    (∃ a rest, p.stations = a :: rest ∧ a.Drained) ∧ p' = { p with eof := true } := by
  rw [Pipeline.step] at h
  split at h
  case h_1 a rest hstations =>
    split at h
    case isTrue hdrained => exact ⟨⟨a, rest, hstations, hdrained⟩, (Option.some.inj h).symm⟩
    case isFalse => cases h
  case h_2 => cases h

/-- The stations change, and nothing comes out. -/
theorem Inv.of_stations (hI : p.Inv) {l : List (Station α)} (hl : l ≠ [])
    (hflow : Stations.flow l <+: Stations.flow p.stations)
    (hwhole : Whole l → Whole p.stations ∧ Stations.flow l = Stations.flow p.stations)
    (horderly : Orderly l) (hhead : ∀ a ∈ l.head?, a.failed = false)
    (heof : (∀ a ∈ p.stations.head?, a.Drained) → ∀ a ∈ l.head?, a.Drained) :
    Inv { p with stations := l } where
  nonempty := hl
  flow := ((List.prefix_append_right_inj p.received).mpr hflow).trans hI.flow
  whole hw := by
    obtain ⟨hw, heq⟩ := hwhole hw
    change p.received ++ Stations.flow l = p.sent
    rw [heq, hI.whole hw]
  orderly := horderly
  head := hhead
  eof h := heof (hI.eof h)

/-- The same for neighbours that keep the flow and the order, of which the front one is open. -/
theorem Inv.of_atPair {f : Station α → Station α → Option (Station α × Station α)} {i : ℕ}
    {l : List (Station α)} (hI : p.Inv) (hl : atPair f i p.stations = some l)
    (hflow : Stations.flow l = Stations.flow p.stations) (horderly : Orderly l)
    (hf : ∀ a b a' b', f a b = some (a', b') →
      a'.failed = a.failed ∧ b'.failed = b.failed ∧ a.ended = false) :
    Inv { p with stations := l } := by
  refine hI.of_stations (atPair_ne_nil hl) (hflow ▸ List.prefix_rfl) (fun hw => ⟨?_, hflow⟩)
    horderly (head_atPair (fun a b a' b' hab ha => ?_) hl hI.head)
    (head_atPair (fun a b a' b' hab hdrained => ?_) hl)
  · refine (whole_atPair (fun a b a' b' hab => ?_) hl).mp hw
    obtain ⟨ha, hb, -⟩ := hf a b a' b' hab
    exact ⟨ha, hb⟩
  · rw [(hf a b a' b' hab).1, ha]
  · have hopen := (hf a b a' b' hab).2.2
    rw [hdrained.2.1] at hopen
    cases hopen

/-- Sending keeps the invariant, as long as the last station is open. -/
theorem Inv.send (hI : p.Inv) {xs : List α} (hopen : ∀ a ∈ p.stations.getLast?, a.ended = false) :
    (p.send xs).Inv := by
  obtain ⟨hwhole, hbroken⟩ :=
    flow_atLast (g := fun a : Station α => a.put xs) (fun _ => ⟨rfl, rfl⟩) hI.nonempty
  have hiff : Whole (p.send xs).stations ↔ Whole p.stations := whole_atLast fun _ => rfl
  refine ⟨atLast_ne_nil hI.nonempty, ?_, fun hw => ?_,
    orderly_atLast (fun a ha => ⟨id, id, fun _ hended => ?_⟩) hI.orderly,
    head_atLast (fun _ _ ha => ha) hI.head,
    fun he => head_atLast (fun a ha hdrained => ?_) (hI.eof he)⟩
  · by_cases hw : Whole p.stations
    · have heq : p.received ++ Stations.flow (p.send xs).stations = p.sent ++ xs := by
        rw [Pipeline.send, hwhole hw, ← List.append_assoc, hI.whole hw]
      exact ⟨[], (List.append_nil _).trans heq⟩
    · change p.received ++ Stations.flow (atLast _ p.stations) <+: p.sent ++ xs
      rw [hbroken hw]
      exact hI.flow.trans (List.prefix_append p.sent xs)
  · change p.received ++ Stations.flow (atLast _ p.stations) = p.sent ++ xs
    rw [hwhole (hiff.mp hw), ← List.append_assoc, hI.whole (hiff.mp hw)]
  · rw [hopen a ha] at hended
    cases hended
  · have hended := hdrained.2.1
    rw [hopen a ha] at hended
    cases hended

/-- So does closing. -/
theorem Inv.close (hI : p.Inv) : p.close.Inv := by
  have hlast : ∀ a : Station α, (({ a with ended := true } : Station α).failed = a.failed) ∧
      ({ a with ended := true } : Station α).held = a.held ++ [] :=
    fun a => ⟨rfl, (List.append_nil a.held).symm⟩
  obtain ⟨hwhole, hbroken⟩ := flow_atLast hlast hI.nonempty
  have hflow : Stations.flow p.close.stations = Stations.flow p.stations := by
    by_cases hw : Whole p.stations
    · exact (hwhole hw).trans (List.append_nil _)
    · exact hbroken hw
  have hiff : Whole p.close.stations ↔ Whole p.stations := whole_atLast fun _ => rfl
  refine ⟨atLast_ne_nil hI.nonempty, ?_, fun hw => ?_,
    orderly_atLast (fun a _ => ⟨id, fun _ => rfl, fun _ _ => id⟩) hI.orderly,
    head_atLast (fun _ _ ha => ha) hI.head,
    fun he => head_atLast (fun a _ hdrained => ⟨hdrained.1, rfl, hdrained.2.2⟩) (hI.eof he)⟩
  · rw [hflow]
    exact hI.flow
  · rw [hflow]
    exact hI.whole (hiff.mp hw)

/-- So does reading at the front. -/
theorem Inv.receive (hI : p.Inv) {a : Station α} {rest : List (Station α)} {n : ℕ}
    (hstations : p.stations = a :: rest) (hpos : 0 < n) (hle : n ≤ a.held.length) :
    Inv { p with stations := a.drop n :: rest, received := p.received ++ a.held.take n } := by
  have ha : a.failed = false := hI.head a (by rw [hstations]; rfl)
  have hflow : p.received ++ a.held.take n ++ Stations.flow (a.drop n :: rest) =
      p.received ++ Stations.flow p.stations := by
    have ha' : (a.drop n).failed = false := ha
    rw [hstations, flow_cons ha, flow_cons ha', Station.drop, List.append_assoc,
      ← List.append_assoc (List.take n a.held), List.take_append_drop]
  refine ⟨List.cons_ne_nil _ _, hflow ▸ hI.flow, fun hw => ?_, ?_, fun b hb => ?_, fun he => ?_⟩
  · refine hflow.trans (hI.whole fun b hb => ?_)
    rw [hstations] at hb
    rcases List.mem_cons.mp hb with rfl | hb
    · exact ha
    · exact hw b (List.mem_cons_of_mem _ hb)
  · have horderly := hI.orderly
    rw [hstations] at horderly
    cases rest with
    | nil => trivial
    | cons b rest => exact horderly
  · obtain rfl := Option.some.inj hb
    exact ha
  · have hlength := (hI.eof he a (by rw [hstations]; rfl)).2.2
    omega

/-- **Every operation keeps the invariant.** -/
theorem Inv.step (hI : p.Inv) (h : p.step op = some p') : p'.Inv := by
  cases op with
  | take i n =>
    obtain ⟨l, hl, rfl⟩ := Option.map_eq_some_iff.mp h
    refine hI.of_atPair hl (flow_take hl) (orderly_take hl hI.orderly) fun a b a' b' hf => ?_
    obtain ⟨⟨⟨-, hopen, -⟩, -⟩, rfl, rfl⟩ := Station.take_eq_some hf
    exact ⟨rfl, rfl, hopen⟩
  | learn i =>
    obtain ⟨l, hl, rfl⟩ := Option.map_eq_some_iff.mp h
    refine hI.of_atPair hl (flow_learn hl) (orderly_learn hl hI.orderly) fun a b a' b' hf => ?_
    obtain ⟨⟨⟨-, hopen, -⟩, -⟩, rfl, rfl⟩ := Station.learn_eq_some hf
    exact ⟨rfl, rfl, hopen⟩
  | lose ends i =>
    obtain ⟨l, hl, rfl⟩ := Option.map_eq_some_iff.mp h
    refine hI.of_stations (atPair_ne_nil hl) (flow_lose hl)
      (fun hw => absurd hw (not_whole_lose hl)) (orderly_lose hl hI.orderly)
      (head_atPair (fun a b a' b' hf ha => ?_) hl hI.head)
      (head_atPair (fun a b a' b' hf hdrained => ?_) hl)
    · obtain ⟨rfl, rfl⟩ := Prod.mk.inj (Option.some.inj hf)
      exact ha
    · obtain ⟨rfl, rfl⟩ := Prod.mk.inj (Option.some.inj hf)
      exact ⟨hdrained.1, by simp [hdrained.2.1], hdrained.2.2⟩
  | send xs =>
    obtain ⟨⟨a, hlast, hroom⟩, rfl⟩ := step_send h
    refine hI.send fun b hb => ?_
    obtain rfl := Option.some.inj (hlast.symm.trans hb)
    exact hroom.2.1
  | close =>
    obtain rfl := Option.some.inj h
    exact hI.close
  | receive n =>
    obtain ⟨a, rest, hstations, hn, rfl⟩ := step_receive h
    exact hI.receive hstations hn.1 hn.2
  | receiveEof =>
    obtain ⟨⟨a, rest, hstations, hdrained⟩, rfl⟩ := step_receiveEof h
    refine ⟨hI.nonempty, hI.flow, hI.whole, hI.orderly, hI.head, fun _ b hb => ?_⟩
    rw [hstations] at hb
    exact Option.some.inj hb ▸ hdrained

/-! ## What the sink knows

Three results, from the weakest assumption to the strongest: what has been received is a
beginning of what was sent; if the sink was told of the end and no station has failed, it is all
of it; and if in addition nothing can happen any more, the sink has been told. -/

/-- **Safety.** What has been received is a beginning of what has been sent. -/
theorem Inv.received_isPrefix (hI : p.Inv) : p.received <+: p.sent :=
  (List.prefix_append _ _).trans hI.flow

/-- **The end.** In a row that is whole, a sink that has been told of the end has received
everything. -/
theorem Inv.of_eof (hI : p.Inv) (hw : Whole p.stations) (heof : p.eof = true) :
    p.received = p.sent ∧ Closed p.stations := by
  obtain ⟨hflow, hclosed⟩ := flow_of_drained hw hI.orderly hI.nonempty fun a ha =>
    ⟨(hI.eof heof a ha).2.1, List.eq_nil_of_length_eq_zero (hI.eof heof a ha).2.2⟩
  have hwhole := hI.whole hw
  rw [hflow, List.append_nil] at hwhole
  exact ⟨hwhole, hclosed⟩

/-- **Delivery.** No station has failed, none can work, and the sink has read all it can: then it
has received everything, and has been told of the end if the source has closed. -/
theorem Inv.delivered_of_idle (hI : p.Inv) (hw : Whole p.stations)
    (hcapacity : ∀ a ∈ p.stations, 0 < a.capacity)
    (htake : ∀ i, p.step (.take i 1) = none) (hlearn : ∀ i, p.step (.learn i) = none)
    (hreceive : p.step (.receive 1) = none) (heof : p.eof = true ∨ p.step .receiveEof = none) :
    p.received = p.sent ∧ (Closed p.stations → p.eof = true) := by
  have hwhole := hI.whole hw
  obtain ⟨a, rest, hstations⟩ : ∃ a rest, p.stations = a :: rest := by
    cases hs : p.stations with
    | nil => exact absurd hs hI.nonempty
    | cons a rest => exact ⟨a, rest, rfl⟩
  have hheld : a.held = [] := by
    by_contra hne
    have hone : 1 ≤ a.held.length := List.length_pos_iff.mpr hne
    simp [Pipeline.step, hstations, hone] at hreceive
  have hhead : ∀ b ∈ p.stations.head?, b = a := by
    intro b hb
    rw [hstations] at hb
    exact (Option.some.inj hb).symm
  cases hended : a.ended with
  | true =>
    have hflow := (flow_of_drained hw hI.orderly hI.nonempty fun b hb => by
      rw [hhead b hb]
      exact ⟨hended, hheld⟩).1
    rw [hflow, List.append_nil] at hwhole
    refine ⟨hwhole, fun _ => heof.resolve_right fun hnone => ?_⟩
    rw [Pipeline.step, hstations] at hnone
    have hdrained : a.Drained := ⟨hw a (hstations ▸ List.mem_cons_self), hended, by rw [hheld]; rfl⟩
    simp only [if_pos hdrained] at hnone
    cases hnone
  | false =>
    obtain ⟨hflow, hclosed⟩ := flow_of_idle hw hcapacity
      (fun i => Option.map_eq_none_iff.mp (htake i))
      (fun i => Option.map_eq_none_iff.mp (hlearn i)) fun b hb => by
        rw [hhead b hb]
        exact ⟨hended, hheld⟩
    rw [hflow, List.append_nil] at hwhole
    exact ⟨hwhole, fun h => absurd h hclosed⟩

/-- Nothing is held, and the end has either not come or has come through. -/
def Still (p : Pipeline α) : Prop :=
  (∀ a ∈ p.stations, a.held.length = 0) ∧
    ((∀ a ∈ p.stations, a.ended = false) ∨ (∀ a ∈ p.stations, a.ended = true) ∧ p.eof = true)

instance (p : Pipeline α) : Decidable p.Still := inferInstanceAs (Decidable (_ ∧ (_ ∨ _ ∧ _)))

/-- Then no station can work. -/
theorem Still.take_eq_none (h : p.Still) (i n : ℕ) : p.step (.take i n) = none := by
  refine Option.map_eq_none_iff.mpr (Option.eq_none_iff_forall_ne_some.mpr fun l hl => ?_)
  obtain ⟨a, -, b, hb, hsome⟩ := Stations.exists_of_atPair hl
  obtain ⟨⟨a', b'⟩, htake⟩ := Option.isSome_iff_exists.mp hsome
  obtain ⟨⟨-, -, hpos, hle⟩, -⟩ := Station.take_eq_some htake
  have hlength := h.1 b hb
  omega

/-- None has anything to learn either. -/
theorem Still.learn_eq_none (h : p.Still) (i : ℕ) : p.step (.learn i) = none := by
  refine Option.map_eq_none_iff.mpr (Option.eq_none_iff_forall_ne_some.mpr fun l hl => ?_)
  obtain ⟨a, ha, b, hb, hsome⟩ := Stations.exists_of_atPair hl
  obtain ⟨⟨a', b'⟩, hlearn⟩ := Option.isSome_iff_exists.mp hsome
  obtain ⟨⟨hroom, hdrained⟩, -⟩ := Station.learn_eq_some hlearn
  rcases h.2 with hopen | ⟨hended, -⟩
  · exact Bool.false_ne_true ((hopen b hb).symm.trans hdrained.2.1)
  · exact Bool.false_ne_true (hroom.2.1.symm.trans (hended a ha))

/-- And there is nothing to read. -/
theorem Still.receive_eq_none (h : p.Still) (n : ℕ) : p.step (.receive n) = none := by
  refine Option.eq_none_iff_forall_ne_some.mpr fun p' hp' => ?_
  obtain ⟨a, rest, hstations, ⟨hpos, hle⟩, -⟩ := step_receive hp'
  have hlength := h.1 a (hstations ▸ List.mem_cons_self)
  omega

/-- The sink has been told of the end, or there is none to be told of. -/
theorem Still.receiveEof (h : p.Still) : p.eof = true ∨ p.step .receiveEof = none := by
  rcases h.2 with hopen | ⟨-, heof⟩
  · refine .inr (Option.eq_none_iff_forall_ne_some.mpr fun p' hp' => ?_)
    obtain ⟨⟨a, rest, hstations, hdrained⟩, -⟩ := step_receiveEof hp'
    exact Bool.false_ne_true ((hopen a (hstations ▸ List.mem_cons_self)).symm.trans hdrained.2.1)
  · exact .inl heof

end Pipeline
