import Dssh.Lib.Pipeline

/-!
# Pipelines behind a preamble

The buffer of a station may be used before the pipeline is: then it holds a preamble, written
and read by somebody else, and what the pipeline puts there comes behind it. As long as nobody
takes from this station for the pipeline, the pipeline does not notice.

## Where this comes from

A channel is opened over the stream that will carry its data. The request and the answer to it
go through the buffers that later carry the payload, and the opener may already send payload
behind its request while the answer is on its way. A model of the whole has one buffer, with
both in it. The theorem about the pipeline is about a buffer with payload only.

Instead of proving the pipeline's theorems again, with something in front, `preceded` puts the
preamble in front of what station `k` holds, and `step_preceded` says that an operation of the
pipeline with the preamble is one of the pipeline without it. An invariant of the whole can then
say "there is a pipeline without preamble that keeps its own invariant, and the actual one is
it, preceded by what is left of the preamble", and every operation moves both along.

## The side condition

It is on the reader. If the station in front takes from the buffer before the preamble has been
read by whom it is for, it takes the preamble for payload. `Op.spares` excludes the operations
that do; that a program does not perform them is for the program to show, and in the cases at
hand it is because nobody relays from a stream before the dialogue on it is over.

A preamble at the very front or the very back of the row is not covered (`0 < k`, `k + 1 <
length`): those buffers are the sink's and the source's own.

## Main definitions

* `Pipeline.preceded` — a pipeline with something in front of what a station holds
* `Pipeline.putAt`, `Pipeline.pullAt` — somebody else uses the buffer of a station
* `Pipeline.Op.spares`, `Pipeline.Op.feeds` — operations that leave a station alone, and that
  are its own

## Main results

* `Pipeline.step_preceded` — an operation behind a preamble is one without it
* `Pipeline.putAt_preceded`, `Pipeline.pullAt_preceded` — writing and reading the preamble
* `Pipeline.unfed_step` — a station is empty until it works
-/

namespace Station

variable {α : Type*}

/-! ## What an operation looks at

Taking items looks at the room in front and at the items behind. With more in front there is less
room, so that an operation that is possible with the preamble is possible without it, and does
the same. The converse does not hold and is not needed. -/

/-- The same buffer, with something else in front. -/
def precede (xs : List α) (s : Station α) : Station α := { s with held := xs ++ s.held }

/-- What `f` does with the front one of two stations does not depend on what it holds already. -/
def Ignores (f : Station α → Station α → Option (Station α × Station α)) (xs : List α) : Prop :=
  ∀ a b a' b', f (a.precede xs) b = some (a', b') →
    ∃ a'', f a b = some (a'', b') ∧ a' = a''.precede xs

/-- Taking looks at the room only, and there is more of it without the preamble. -/
theorem ignores_take (n : ℕ) (xs : List α) : Ignores (take n) xs := by
  intro a b a' b' h
  obtain ⟨⟨⟨ha, hopen, hroom⟩, hb⟩, rfl, rfl⟩ := take_eq_some h
  have hroom' : a.Room n := ⟨ha, hopen, by
    simp only [precede, List.length_append] at hroom
    omega⟩
  refine ⟨a.put (b.held.take n), if_pos ⟨hroom', hb⟩, ?_⟩
  rw [put, precede, precede, put, List.append_assoc]

/-- Learning of the end does not look at what is held. -/
theorem ignores_learn (xs : List α) : Ignores learn xs := by
  intro a b a' b' h
  obtain ⟨⟨⟨ha, hopen, hroom⟩, hb⟩, rfl, rfl⟩ := learn_eq_some h
  have hroom' : a.Room 0 := ⟨ha, hopen, by
    simp only [precede, List.length_append] at hroom
    omega⟩
  exact ⟨{ a with ended := true }, if_pos ⟨hroom', hb⟩, rfl⟩

/-- Nor does losing a neighbour. -/
theorem ignores_lose (ends : Bool) (xs : List α) : Ignores (lose ends) xs := by
  intro a b a' b' h
  obtain ⟨rfl, rfl⟩ := Prod.mk.inj (Option.some.inj h)
  exact ⟨_, rfl, rfl⟩

end Station

namespace Stations

variable {α : Type*} {f : Station α → Station α → Option (Station α × Station α)}
  {l l' : List (Station α)} {i k : ℕ} {xs : List α}

/-- What happens elsewhere in the row happens without the preamble as well. -/
theorem atPair_precede (hf : Station.Ignores f xs) (hk : k ≠ i + 1)
    (h : atPair f i (l.modify k (Station.precede xs)) = some l') :
    ∃ l'', atPair f i l = some l'' ∧ l' = l''.modify k (Station.precede xs) := by
  induction i generalizing l l' k with
  | zero =>
    obtain _ | ⟨a, _ | ⟨b, rest⟩⟩ := l
    · simp [atPair] at h
    · obtain _ | _ | k := k
      · cases h
      · exact absurd rfl hk
      · cases h
    · obtain _ | _ | k := k
      · obtain ⟨⟨a', b'⟩, hab, rfl⟩ := Option.map_eq_some_iff.mp h
        obtain ⟨a'', hab', rfl⟩ := hf a b a' b' hab
        exact ⟨a'' :: b' :: rest, by rw [atPair, hab', Option.map_some], rfl⟩
      · exact absurd rfl hk
      · obtain ⟨⟨a', b'⟩, hab, rfl⟩ := Option.map_eq_some_iff.mp h
        exact ⟨a' :: b' :: rest, by rw [atPair, hab, Option.map_some], rfl⟩
  | succ i ih =>
    obtain _ | ⟨a, rest⟩ := l
    · simp [atPair] at h
    · cases k with
      | zero =>
        obtain ⟨rest', hrest, rfl⟩ := Option.map_eq_some_iff.mp h
        exact ⟨a :: rest', by rw [atPair, hrest, Option.map_some], rfl⟩
      | succ k =>
        obtain ⟨rest', hrest, rfl⟩ := Option.map_eq_some_iff.mp h
        obtain ⟨rest'', hrest', rfl⟩ := ih (k := k) (by omega) hrest
        exact ⟨a :: rest'', by rw [atPair, hrest', Option.map_some], rfl⟩

/-- The last station is another one. -/
theorem atLast_precede {g : Station α → Station α} (hk : k + 1 < l.length) :
    atLast g (l.modify k (Station.precede xs)) = (atLast g l).modify k (Station.precede xs) := by
  induction l generalizing k with
  | nil => exact absurd hk (Nat.not_lt_zero _)
  | cons a l ih =>
    cases l with
    | nil => exact absurd hk (by simp)
    | cons b rest =>
      cases k with
      | zero => rfl
      | succ k =>
        have hrest := ih (k := k) (by simpa using hk)
        cases k with
        | zero => exact congrArg (a :: ·) hrest
        | succ k => exact congrArg (a :: ·) hrest

/-- And it is the same one. -/
theorem getLast?_precede (hk : k + 1 < l.length) :
    (l.modify k (Station.precede xs)).getLast? = l.getLast? := by
  have hne : k ≠ l.length - 1 := by omega
  rw [List.getLast?_eq_getElem?, List.getLast?_eq_getElem?, List.length_modify,
    List.getElem?_modify]
  simp [hne]

/-- What neighbours do, station by station. -/
theorem of_atPair (h : atPair f i l = some l') :
    ∃ a b a' b', l[i]? = some a ∧ l[i + 1]? = some b ∧ f a b = some (a', b') ∧
      l' = (l.set i a').set (i + 1) b' := by
  induction i generalizing l l' with
  | zero =>
    match l, h with
    | a :: b :: rest, h =>
      obtain ⟨⟨a', b'⟩, hf, rfl⟩ := Option.map_eq_some_iff.mp h
      exact ⟨a, b, a', b', rfl, rfl, hf, rfl⟩
  | succ i ih =>
    match l, h with
    | c :: rest, h =>
      obtain ⟨rest', hrest, rfl⟩ := Option.map_eq_some_iff.mp h
      obtain ⟨a, b, a', b', ha, hb, hf, rfl⟩ := ih hrest
      exact ⟨a, b, a', b', ha, hb, hf, rfl⟩

/-- What becomes of a station, if it is nothing new for those that its neighbours leave alone. -/
theorem getElem?_atPair {R : Station α → Station α → Prop} (hrefl : ∀ a, R a a)
    (hf : ∀ a b a' b', f a b = some (a', b') → (i = k → R a a') ∧ R b b')
    (h : atPair f i l = some l') : ∀ c' ∈ l'[k]?, ∃ c ∈ l[k]?, R c c' := by
  obtain ⟨a, b, a', b', ha, hb, hab, rfl⟩ := of_atPair h
  obtain ⟨hfront, hback⟩ := hf a b a' b' hab
  intro c hc
  rw [List.getElem?_set] at hc
  split at hc
  case isTrue hk =>
    subst hk
    split at hc
    case isTrue =>
      obtain rfl := Option.some.inj hc
      exact ⟨b, hb, hback⟩
    case isFalse => cases hc
  case isFalse =>
    rw [List.getElem?_set] at hc
    split at hc
    case isTrue hk =>
      subst hk
      split at hc
      case isTrue =>
        obtain rfl := Option.some.inj hc
        exact ⟨a, ha, hfront rfl⟩
      case isFalse => cases hc
    case isFalse => exact ⟨c, hc, hrefl c⟩

/-- What neighbours do keeps the capacities, if it does for them. -/
theorem capacity_atPair
    (hf : ∀ a b a' b', f a b = some (a', b') → a'.capacity = a.capacity ∧ b'.capacity = b.capacity)
    (h : atPair f i l = some l') : l'.map Station.capacity = l.map Station.capacity := by
  refine atPair_rec (R := fun l l' => l'.map Station.capacity = l.map Station.capacity)
    (fun a b a' b' rest hab => ?_) (fun a l l' ih => ?_) h
  · obtain ⟨ha, hb⟩ := hf a b a' b' hab
    simp [ha, hb]
  · rw [List.map_cons, List.map_cons, ih]

/-- So does what comes into the last one, if it does. -/
theorem capacity_atLast {g : Station α → Station α} (hg : ∀ a, (g a).capacity = a.capacity) :
    (atLast g l).map Station.capacity = l.map Station.capacity := by
  induction l with
  | nil => rfl
  | cons a l ih =>
    cases l with
    | nil => simp [atLast, hg]
    | cons b rest => exact congrArg (a.capacity :: ·) ih

/-- A preamble does not make a station fail … -/
theorem whole_precede : Whole (l.modify k (Station.precede xs)) ↔ Whole l := by
  induction l generalizing k with
  | nil => simp [Whole]
  | cons a l ih =>
    cases k with
    | zero => simp [Whole, Station.precede]
    | succ k => simpa [Whole] using fun _ => ih

/-- … or close the row. -/
theorem closed_precede : Closed (l.modify k (Station.precede xs)) ↔ Closed l := by
  induction l generalizing k with
  | nil => simp [Closed]
  | cons a l ih =>
    cases l with
    | nil => cases k <;> simp [Closed, Station.precede]
    | cons b rest =>
      cases k with
      | zero => exact Iff.rfl
      | succ k =>
        have hrest := ih (k := k)
        cases k with
        | zero => exact hrest
        | succ k => exact hrest

/-- The last station is no other one. -/
theorem getElem?_atLast {g : Station α → Station α} (hk : k + 1 < l.length) :
    (atLast g l)[k]? = l[k]? := by
  induction l generalizing k with
  | nil => rfl
  | cons a l ih =>
    cases l with
    | nil => exact absurd hk (by simp)
    | cons b rest =>
      cases k with
      | zero => rfl
      | succ k => exact ih (k := k) (by simpa using hk)

end Stations

namespace Pipeline

open Stations

variable {α : Type*} {p p' q : Pipeline α} {op : Op α} {k : ℕ} {xs : List α}

/-! ## The preamble goes unnoticed

As long as nobody takes from the station with the preamble, the pipeline and the pipeline without
it do the same. Somebody else may use the buffer meanwhile: what this other user puts in and
takes out is all preamble. -/

/-- The same pipeline with something else in front of what station `k` holds. -/
def preceded (k : ℕ) (xs : List α) (p : Pipeline α) : Pipeline α :=
  { p with stations := p.stations.modify k (Station.precede xs) }

/-- Nothing in front. -/
@[simp] theorem preceded_nil (k : ℕ) (p : Pipeline α) : p.preceded k [] = p := by
  have hid : (Station.precede [] : Station α → Station α) = id := rfl
  rw [preceded, hid, List.modify_id]

/-- The front station is the same. -/
theorem stations_of_preceded {a : Station α} {rest : List (Station α)} (hfront : 0 < k)
    (h : (p.preceded k xs).stations = a :: rest) :
    ∃ k' rest', k = k' + 1 ∧ p.stations = a :: rest' ∧
      rest = rest'.modify k' (Station.precede xs) := by
  cases k with
  | zero => exact absurd hfront (Nat.lt_irrefl 0)
  | succ k =>
    cases hl : p.stations with
    | nil => simp [preceded, hl] at h
    | cons b rest' =>
      simp only [preceded, hl, List.modify_succ_cons] at h
      obtain ⟨rfl, rfl⟩ := List.cons.inj h
      exact ⟨k, rest', rfl, rfl, rfl⟩

/-- Nobody takes from station `k`, or learns of its end. -/
def Op.spares (k : ℕ) : Op α → Prop
  | take i _ => k ≠ i + 1
  | learn i => k ≠ i + 1
  | lose _ i => k ≠ i + 1
  | _ => True

/-- **Unnoticed.** An operation that spares station `k` is one of the pipeline without what is in
front. -/
theorem step_preceded (hfront : 0 < k) (hback : k + 1 < p.stations.length) (hop : op.spares k)
    (h : (p.preceded k xs).step op = some q) :
    ∃ p', p.step op = some p' ∧ q = p'.preceded k xs := by
  cases op with
  | take i n =>
    obtain ⟨l, hl, rfl⟩ := Option.map_eq_some_iff.mp h
    obtain ⟨l', hl', rfl⟩ := atPair_precede (Station.ignores_take n xs) hop hl
    exact ⟨_, Option.map_eq_some_iff.mpr ⟨l', hl', rfl⟩, rfl⟩
  | learn i =>
    obtain ⟨l, hl, rfl⟩ := Option.map_eq_some_iff.mp h
    obtain ⟨l', hl', rfl⟩ := atPair_precede (Station.ignores_learn xs) hop hl
    exact ⟨_, Option.map_eq_some_iff.mpr ⟨l', hl', rfl⟩, rfl⟩
  | lose ends i =>
    obtain ⟨l, hl, rfl⟩ := Option.map_eq_some_iff.mp h
    obtain ⟨l', hl', rfl⟩ := atPair_precede (Station.ignores_lose ends xs) hop hl
    exact ⟨_, Option.map_eq_some_iff.mpr ⟨l', hl', rfl⟩, rfl⟩
  | send ys =>
    obtain ⟨⟨a, hlast, hroom⟩, rfl⟩ := step_send h
    rw [preceded, getLast?_precede hback] at hlast
    refine ⟨p.send ys, ?_, ?_⟩
    · rw [Pipeline.step, show p.stations.getLast? = some a from hlast]
      exact if_pos hroom
    · rw [preceded, preceded, Pipeline.send, Pipeline.send, atLast_precede hback]
  | close =>
    obtain rfl := Option.some.inj h
    refine ⟨p.close, rfl, ?_⟩
    rw [preceded, preceded, Pipeline.close, Pipeline.close, atLast_precede hback]
  | receive n =>
    obtain ⟨a, rest, hstations, hn, rfl⟩ := step_receive h
    obtain ⟨k, rest', rfl, hl, rfl⟩ := stations_of_preceded hfront hstations
    refine ⟨{ p with stations := a.drop n :: rest', received := p.received ++ a.held.take n }, ?_,
      rfl⟩
    rw [Pipeline.step, hl]
    exact if_pos hn
  | receiveEof =>
    obtain ⟨⟨a, rest, hstations, hdrained⟩, rfl⟩ := step_receiveEof h
    obtain ⟨k, rest', rfl, hl, -⟩ := stations_of_preceded hfront hstations
    refine ⟨{ p with eof := true }, ?_, rfl⟩
    rw [Pipeline.step, hl]
    exact if_pos hdrained

/-- Somebody else uses the buffer of station `k`. -/
def putAt (p : Pipeline α) (k : ℕ) (ys : List α) : Option (Pipeline α) :=
  match p.stations[k]? with
  | some a =>
    if a.Room ys.length then some { p with stations := p.stations.modify k (·.put ys) } else none
  | none => none

/-- Somebody else takes the first item out of the buffer of station `k`. -/
def pullAt (p : Pipeline α) (k : ℕ) : Option (α × Pipeline α) :=
  match p.stations[k]? with
  | some a =>
    match a.held with
    | x :: _ => some (x, { p with stations := p.stations.modify k (·.drop 1) })
    | [] => none
  | none => none

/-- Two changes of station `k` that agree on what it is. -/
theorem modify_congr {g g' : Station α → Station α} {l : List (Station α)}
    (h : ∀ a ∈ l[k]?, g a = g' a) : l.modify k g = l.modify k g' := by
  refine List.ext_getElem? fun i => ?_
  rw [List.getElem?_modify, List.getElem?_modify]
  by_cases hi : k = i
  · subst hi
    cases ha : l[k]? with
    | none => rfl
    | some a => simp [h a ha]
  · simp [hi]

/-- What is put behind what is in front, with nothing of the pipeline there, is in front. -/
theorem putAt_preceded {ys : List α} (hempty : ∀ a ∈ p.stations[k]?, a.held = [])
    (h : (p.preceded k xs).putAt k ys = some q) : q = p.preceded k (xs ++ ys) := by
  rw [putAt] at h
  split at h
  case h_1 a ha =>
    split at h
    case isTrue =>
      obtain rfl := Option.some.inj h
      refine congrArg (fun l => { p with stations := l }) ?_
      rw [preceded, List.modify_modify_eq]
      refine modify_congr fun b hb => ?_
      simp [Station.put, Station.precede, hempty b hb]
    case isFalse => cases h
  case h_2 => cases h

/-- What is taken there is what is in front. -/
theorem pullAt_preceded {x y : α} (h : (p.preceded k (y :: xs)).pullAt k = some (x, q)) :
    x = y ∧ q = p.preceded k xs := by
  rw [pullAt] at h
  split at h
  case h_1 a ha =>
    rw [preceded, List.getElem?_modify_eq] at ha
    obtain ⟨b, hb, rfl⟩ := Option.map_eq_some_iff.mp ha
    obtain ⟨rfl, rfl⟩ := Prod.mk.inj (Option.some.inj h)
    refine ⟨rfl, congrArg (fun l => { p with stations := l }) ?_⟩
    rw [preceded, List.modify_modify_eq]
    exact modify_congr fun c _ => rfl
  case h_2 => cases h

/-- Something can be taken there as long as something is in front. -/
theorem pullAt_preceded_ne_none {y : α} (hk : k < p.stations.length) :
    (p.preceded k (y :: xs)).pullAt k ≠ none := by
  rw [pullAt, preceded, List.getElem?_modify_eq, List.getElem?_eq_getElem hk]
  exact Option.some_ne_none _

/-- There is nothing to take where nothing is held. -/
theorem pullAt_empty (hempty : ∀ a ∈ p.stations[k]?, a.held = []) : p.pullAt k = none := by
  rw [pullAt]
  split
  case h_1 a ha => rw [hempty a ha]
  case h_2 => rfl

/-- There is room behind what is in front unless that fills the buffer. -/
theorem putAt_preceded_ne_none {y : α} {a : Station α} (ha : p.stations[k]? = some a)
    (hroom : a.Room 0) (hpos : 0 < a.capacity) (hheld : a.held = []) (hxs : xs = []) :
    (p.preceded k xs).putAt k [y] ≠ none := by
  subst hxs
  rw [preceded_nil, putAt, ha]
  have hone : a.Room [y].length := ⟨hroom.1, hroom.2.1, by
    rw [hheld, List.length_nil, List.length_singleton]
    omega⟩
  simp only [if_pos hone]
  exact Option.some_ne_none _

/-! ## Before the pipeline is used

The other direction in time: the station has not worked yet, so it holds nothing of its own.
Capacities and failures are followed as well, since the other user depends on them. -/

/-- The operation is work of station `k`. -/
def Op.feeds (k : ℕ) : Op α → Prop
  | take i _ => i = k
  | learn i => i = k
  | _ => False

/-- A station that does not work gets nothing, and learns of the end from failures only. -/
theorem unfed_step (hback : k + 1 < p.stations.length) (hop : ¬ op.feeds k)
    (h : p.step op = some q) :
    ∀ a' ∈ q.stations[k]?, ∃ a ∈ p.stations[k]?,
      (a.held = [] → a'.held = []) ∧ (Whole q.stations → a'.ended = a.ended) := by
  have hrefl : ∀ a : Station α, (a.held = [] → a.held = []) ∧
      (Whole q.stations → a.ended = a.ended) :=
    fun a => ⟨id, fun _ => rfl⟩
  cases op with
  | take i n =>
    obtain ⟨l, hl, rfl⟩ := Option.map_eq_some_iff.mp h
    refine getElem?_atPair hrefl
      (fun a b a' b' hf => ⟨fun hi => absurd hi hop, fun hb => ?_, ?_⟩) hl
    · obtain ⟨-, -, rfl⟩ := Station.take_eq_some hf
      simp [Station.drop, hb]
    · obtain ⟨-, -, rfl⟩ := Station.take_eq_some hf
      exact fun _ => rfl
  | learn i =>
    obtain ⟨l, hl, rfl⟩ := Option.map_eq_some_iff.mp h
    refine getElem?_atPair hrefl (fun a b a' b' hf => ⟨fun hi => absurd hi hop, ?_⟩) hl
    obtain ⟨-, -, rfl⟩ := Station.learn_eq_some hf
    exact hrefl b'
  | lose ends i =>
    obtain ⟨l, hl, rfl⟩ := Option.map_eq_some_iff.mp h
    have hbroken := not_whole_lose hl
    refine getElem?_atPair hrefl (fun a b a' b' hf => ?_) hl
    obtain ⟨rfl, rfl⟩ := Prod.mk.inj (Option.some.inj hf)
    exact ⟨fun _ => ⟨id, fun hw => absurd hw hbroken⟩, id, fun _ => rfl⟩
  | send ys =>
    obtain ⟨-, rfl⟩ := step_send h
    rw [Pipeline.send, getElem?_atLast hback]
    exact fun a ha => ⟨a, ha, id, fun _ => rfl⟩
  | close =>
    obtain rfl := Option.some.inj h
    rw [Pipeline.close, getElem?_atLast hback]
    exact fun a ha => ⟨a, ha, id, fun _ => rfl⟩
  | receive n =>
    obtain ⟨a, rest, hstations, -, rfl⟩ := step_receive h
    rw [hstations]
    cases k with
    | zero =>
      intro b hb
      obtain rfl := Option.some.inj hb
      exact ⟨a, rfl, fun ha => by simp [Station.drop, ha], fun _ => rfl⟩
    | succ k => exact fun b hb => ⟨b, hb, id, fun _ => rfl⟩
  | receiveEof =>
    obtain ⟨-, rfl⟩ := step_receiveEof h
    exact fun a ha => ⟨a, ha, id, fun _ => rfl⟩

/-- Capacities are what they are. -/
theorem capacity_step (h : p.step op = some q) :
    q.stations.map Station.capacity = p.stations.map Station.capacity := by
  cases op with
  | take =>
    obtain ⟨l, hl, rfl⟩ := Option.map_eq_some_iff.mp h
    refine capacity_atPair (fun a b a' b' hf => ?_) hl
    obtain ⟨-, rfl, rfl⟩ := Station.take_eq_some hf
    exact ⟨rfl, rfl⟩
  | learn =>
    obtain ⟨l, hl, rfl⟩ := Option.map_eq_some_iff.mp h
    refine capacity_atPair (fun a b a' b' hf => ?_) hl
    obtain ⟨-, rfl, rfl⟩ := Station.learn_eq_some hf
    exact ⟨rfl, rfl⟩
  | lose =>
    obtain ⟨l, hl, rfl⟩ := Option.map_eq_some_iff.mp h
    refine capacity_atPair (fun a b a' b' hf => ?_) hl
    obtain ⟨rfl, rfl⟩ := Prod.mk.inj (Option.some.inj hf)
    exact ⟨rfl, rfl⟩
  | send =>
    obtain ⟨-, rfl⟩ := step_send h
    exact capacity_atLast fun _ => rfl
  | close =>
    obtain rfl := Option.some.inj h
    exact capacity_atLast fun _ => rfl
  | receive =>
    obtain ⟨a, rest, hstations, -, rfl⟩ := step_receive h
    rw [hstations]
    rfl
  | receiveEof =>
    obtain ⟨-, rfl⟩ := step_receiveEof h
    rfl

/-- A failure is for good. -/
theorem whole_step (h : p.step op = some q) (hw : Whole q.stations) : Whole p.stations := by
  cases op with
  | take =>
    obtain ⟨l, hl, rfl⟩ := Option.map_eq_some_iff.mp h
    refine (whole_atPair (fun a b a' b' hf => ?_) hl).mp hw
    obtain ⟨-, rfl, rfl⟩ := Station.take_eq_some hf
    exact ⟨rfl, rfl⟩
  | learn =>
    obtain ⟨l, hl, rfl⟩ := Option.map_eq_some_iff.mp h
    refine (whole_atPair (fun a b a' b' hf => ?_) hl).mp hw
    obtain ⟨-, rfl, rfl⟩ := Station.learn_eq_some hf
    exact ⟨rfl, rfl⟩
  | lose =>
    obtain ⟨l, hl, rfl⟩ := Option.map_eq_some_iff.mp h
    exact absurd hw (not_whole_lose hl)
  | send =>
    obtain ⟨-, rfl⟩ := step_send h
    exact (whole_atLast (g := fun a => a.put _) fun _ => rfl).mp hw
  | close =>
    obtain rfl := Option.some.inj h
    exact (whole_atLast (g := fun a => { a with ended := true }) fun _ => rfl).mp hw
  | receive =>
    obtain ⟨a, rest, hstations, -, rfl⟩ := step_receive h
    rw [hstations]
    exact fun b hb => (List.mem_cons.mp hb).elim
      (fun h => h ▸ hw (a.drop _) List.mem_cons_self) fun h => hw b (List.mem_cons_of_mem _ h)
  | receiveEof =>
    obtain ⟨-, rfl⟩ := step_receiveEof h
    exact hw

end Pipeline
