import Dssh.Lib.KeySorted
import Mathlib.Data.Finset.Basic
import Mathlib.Data.List.Range
import Mathlib.Logic.Function.Basic

/-!
# Tickets in pairs

Two counters give out tickets. Some agents need one of each, for a message and for the answer to
it, and take both under a lock; others take a ticket of one counter only, without the lock. Then
the pairs are in the same order on both counters, whatever the others do, and if the tickets of
the first counter are used in order, the pairs whose first ticket has been used are the first
pairs.

## Why the lock is enough

The lock does not keep others from the counters. Somebody who needs a ticket of the first
counter only takes one at any time, also between the two takings of a pair, and so the pairs may
have gaps on either counter. What the lock excludes is that two *pairs* interleave. So the first
tickets of the pairs, listed in the order of their second tickets, increase: that is
`Books.sorted`, and the whole module is about keeping it.

The delicate moment is between the two takings. An agent that has its first ticket and not its
second one is `entering`. Its ticket is above those of all pairs so far, and stays so, as no
pair is completed without the lock. An agent can be dropped there, with the lock released by its
guard; the first ticket is then nobody's, and belongs to no pair.

## Used in order

The tickets of the first counter are used in order, single ones and pairs alike; this is a
hypothesis of `Books.used_isPrefix` and comes from whatever serves the counter. The conclusion
is then about the *second* counter: the pairs whose first ticket has been used are the first
ones there. So whoever processes answers in the order of the second tickets meets the answers in
the order in which the messages went out.

## Agents

An agent's `Share` is what it holds, and it may always drop part of it (`Share.Within`): that
covers cancellation at any point, without a step of its own. Each constructor of `Step` takes a
share *within* the new one for the same reason, as an agent may go on to drop what it has just
got.

## Main definitions

* `PairLedger`, `PairLedger.Share` — the counters, and what an agent holds
* `PairLedger.Step` — what an agent can do
* `PairLedger.Books`, `PairLedger.Inv` — the order of the pairs, and the invariant

## Main results

* `PairLedger.Inv.step` — every step keeps the order of the pairs
* `PairLedger.Books.used_isPrefix` — the pairs whose first tickets have been used are the first
  ones
-/

/-! ## Books and shares

The books record which pairs have been taken and which of the first tickets have been used. Each
agent has a share: the lock perhaps, a first ticket whose pair is not complete, tickets that
belong to no pair, and the tickets of pairs that it has not used. That the books and the shares
of all agents agree is the invariant. -/

/-- The two counters. A pair carries a value in `ρ`, the same on both. -/
structure PairLedger (ρ : Type*) where
  /-- The next ticket of the first counter. -/
  next : ℕ
  /-- The tickets `0, 1, …` of the second counter: what they were taken for, `none` if alone. -/
  second : List (Option (ℕ × ρ))
  /-- The lock is held. -/
  locked : Bool
  /-- Tickets of the first counter put down for anybody, none of them of a pair. -/
  pool : Finset ℕ
  /-- The tickets of the first counter used so far, with the value if they are of a pair. -/
  used : List (ℕ × Option ρ)

namespace PairLedger

variable {ρ ι : Type*}

/-- What an agent holds. -/
structure Share (ρ : Type*) where
  /-- It holds the lock. -/
  locks : Bool := false
  /-- A first ticket taken under the lock, whose pair is not complete. -/
  entering : List ℕ := []
  /-- Tickets of the first counter that belong to no pair. -/
  single : List ℕ := []
  /-- First tickets of pairs, not used yet. -/
  paired : List (ℕ × ρ) := []
  /-- Tickets of the second counter, and what they were taken for. -/
  claims : List (ℕ × Option (ℕ × ρ)) := []

/-- `h.Within h'`: the share `h` holds no ticket that `h'` does not, and the lock if `h'` does. -/
structure Share.Within (h h' : Share ρ) : Prop where
  /-- The lock is not dropped by itself. -/
  locks : h.locks = h'.locks
  /-- No pair more is begun. -/
  entering : h.entering ⊆ h'.entering
  /-- No single ticket more. -/
  single : h.single ⊆ h'.single
  /-- No first ticket more. -/
  paired : h.paired ⊆ h'.paired
  /-- No second ticket more. -/
  claims : h.claims ⊆ h'.claims

/-- Nothing has been dropped. -/
theorem Share.Within.refl (h : Share ρ) : h.Within h :=
  ⟨rfl, List.Subset.refl _, List.Subset.refl _, List.Subset.refl _, List.Subset.refl _⟩

/-- The pairs, in the order of the second counter. -/
def pairs (L : PairLedger ρ) : List (ℕ × ρ) := L.second.filterMap id

/-- What an agent can do. -/
inductive Step (L : PairLedger ρ) (h : Share ρ) : PairLedger ρ → Share ρ → Prop
  /-- It drops something, or does something else. -/
  | stay {h' : Share ρ} (hle : h'.Within h) : Step L h L h'
  /-- It takes the lock. -/
  | lock {h' : Share ρ} (hfree : L.locked = false) (hle : h'.Within { h with locks := true }) :
      Step L h { L with locked := true } h'
  /-- Under the lock, it takes a first ticket. -/
  | takeFirst {h' : Share ρ} (hlocks : h.locks = true)
      (hle : h'.Within { h with entering := [L.next] }) :
      Step L h { L with next := L.next + 1 } h'
  /-- And then the second one, which makes the pair. -/
  | takeSecond {w : ℕ} {r : ρ} {h' : Share ρ} (hw : w ∈ h.entering)
      (hle : h'.Within
        { h with
          entering := []
          paired := (w, r) :: h.paired
          claims := (L.second.length, some (w, r)) :: h.claims }) :
      Step L h { L with second := L.second ++ [some (w, r)] } h'
  | unlock {h' : Share ρ} (hlocks : h.locks = true)
      (hle : h'.Within { h with locks := false, entering := [] }) :
      Step L h { L with locked := false } h'
  | takeSingle {h' : Share ρ} (hle : h'.Within { h with single := L.next :: h.single }) :
      Step L h { L with next := L.next + 1 } h'
  | takeAlone {h' : Share ρ}
      (hle : h'.Within { h with claims := (L.second.length, none) :: h.claims }) :
      Step L h { L with second := L.second ++ [none] } h'
  | putDown {t : ℕ} {h' : Share ρ} (ht : t ∈ h.single) (hle : h'.Within h) :
      Step L h { L with pool := insert t L.pool } h'
  | adopt {t : ℕ} {h' : Share ρ} (ht : t ∈ L.pool)
      (hle : h'.Within { h with single := t :: h.single }) :
      Step L h { L with pool := L.pool.erase t } h'
  | useSingle {t : ℕ} {h' : Share ρ} (ht : t ∈ h.single) (hle : h'.Within h) :
      Step L h { L with used := L.used ++ [(t, none)] } h'
  | usePaired {t : ℕ} {r : ρ} {h' : Share ρ} (ht : (t, r) ∈ h.paired) (hle : h'.Within h) :
      Step L h { L with used := L.used ++ [(t, some r)] } h'

/-- The pairs are in order, and what has been used agrees with them. -/
structure Books (L : PairLedger ρ) : Prop where
  /-- The pairs are in the same order on both counters. -/
  sorted : KeySorted Prod.fst L.pairs
  /-- Their first tickets have been given out. -/
  lt : ∀ {x}, x ∈ L.pairs → x.1 < L.next
  /-- Those in the pool are of no pair. -/
  pool : ∀ {x}, x ∈ L.pairs → x.1 ∉ L.pool
  /-- What was used as the ticket of a pair is of that pair … -/
  used_some : ∀ {t r}, (t, some r) ∈ L.used → (t, r) ∈ L.pairs
  /-- … and what was used as another is of none. -/
  used_none : ∀ {t}, (t, none) ∈ L.used → ∀ x ∈ L.pairs, x.1 ≠ t

/-- A share agrees with the books. -/
structure Share.Booked (L : PairLedger ρ) (h : Share ρ) : Prop where
  /-- Who holds the lock has locked it. -/
  locks : h.locks = true → L.locked = true
  /-- A pair is begun under the lock. -/
  entering_locks : h.entering ≠ [] → h.locks = true
  /-- Its first ticket is above all pairs. -/
  entering : ∀ {t}, t ∈ h.entering → t < L.next ∧ ∀ x ∈ L.pairs, x.1 < t
  /-- Single tickets are of no pair. -/
  single : ∀ {t}, t ∈ h.single → ∀ x ∈ L.pairs, x.1 ≠ t
  /-- The others are. -/
  paired : ∀ {x}, x ∈ h.paired → x ∈ L.pairs
  /-- Second tickets are what they were taken for. -/
  claims : ∀ {k o}, (k, o) ∈ h.claims → L.second[k]? = some o

/-- The invariant. -/
structure Inv (L : PairLedger ρ) (share : ι → Share ρ) : Prop where
  /-- The books are in order. -/
  books : Books L
  /-- Every share agrees with them. -/
  booked : ∀ i, (share i).Booked L
  /-- One agent at most holds the lock. -/
  locks_unique : ∀ {i j}, (share i).locks = true → (share j).locks = true → i = j

/-- The ticket whose pair an agent completes is nobody's single ticket, not in the pool, and has not
been used. In a ticket queue this is so because tickets are in one place only. -/
def Fresh (L : PairLedger ρ) (share : ι → Share ρ) (w : ℕ) : Prop :=
  (∀ j, w ∉ (share j).single) ∧ w ∉ L.pool ∧ ∀ x ∈ L.used, x.1 ≠ w

variable {L L' : PairLedger ρ} {h h' : Share ρ}

/-! ## Steps of the books

A step changes the books and the share of one agent. So there are three things to show for it:
the books stay in order, the share of the agent agrees with them, and so do the shares of all
others. The lock is what makes the last one true. -/

/-- A second ticket more, of a pair or not. -/
@[simp] theorem pairs_append (L : PairLedger ρ) (o : Option (ℕ × ρ)) :
    pairs { L with second := L.second ++ [o] } = L.pairs ++ o.toList := by
  cases o <;> simp [pairs]

/-- What was at a place is there when something is added at the end. -/
theorem getElem?_concat_of_some {α : Type*} {l : List α} {k : ℕ} {a b : α} (h : l[k]? = some a) :
    (l ++ [b])[k]? = some a := by
  rw [List.getElem?_append_left (List.getElem?_eq_some_iff.mp h).1, h]

/-- Dropping something keeps the agreement. -/
theorem Share.Booked.within (hb : h.Booked L) (hle : h'.Within h) : h'.Booked L where
  locks hl := hb.locks (hle.locks ▸ hl)
  entering_locks he := hle.locks ▸ hb.entering_locks fun hnil =>
    he (List.eq_nil_of_subset_nil (hnil ▸ hle.entering))
  entering ht := hb.entering (hle.entering ht)
  single ht := hb.single (hle.single ht)
  paired hx := hb.paired (hle.paired hx)
  claims hx := hb.claims (hle.claims hx)

/-- What a step does to the books keeps them in order, whoever takes it. -/
theorem Books.step (hB : Books L) (hb : h.Booked L)
    (hfresh : ∀ w ∈ h.entering, w ∉ L.pool ∧ ∀ x ∈ L.used, x.1 ≠ w) (hst : Step L h L' h') :
    Books L' := by
  cases hst with
  | stay | lock | unlock => exact ⟨hB.sorted, hB.lt, hB.pool, hB.used_some, hB.used_none⟩
  | takeFirst | takeSingle =>
    exact ⟨hB.sorted, fun hx => (hB.lt hx).trans (Nat.lt_succ_self _), hB.pool, hB.used_some,
      hB.used_none⟩
  | @takeSecond w r _ hw =>
    obtain ⟨hlt, hlast⟩ := hb.entering hw
    obtain ⟨hpool, hused⟩ := hfresh w hw
    refine ⟨?_, ?_, ?_, fun hx => ?_, ?_⟩ <;> rw [pairs_append]
    · exact hB.sorted.concat hlast
    · intro x hx
      rcases List.mem_append.mp hx with hx | hx
      · exact hB.lt hx
      · obtain rfl := List.mem_singleton.mp hx
        exact hlt
    · intro x hx
      rcases List.mem_append.mp hx with hx | hx
      · exact hB.pool hx
      · obtain rfl := List.mem_singleton.mp hx
        exact hpool
    · exact List.mem_append_left _ (hB.used_some hx)
    · intro t ht x hx
      rcases List.mem_append.mp hx with hx | hx
      · exact hB.used_none ht x hx
      · exact List.mem_singleton.mp hx ▸ (hused _ ht).symm
  | takeAlone =>
    refine ⟨?_, ?_, ?_, ?_, ?_⟩ <;> rw [pairs_append, Option.toList_none, List.append_nil]
    · exact hB.sorted
    · exact hB.lt
    · exact hB.pool
    · exact hB.used_some
    · exact hB.used_none
  | @putDown t _ ht =>
    refine ⟨hB.sorted, hB.lt, fun hx hmem => ?_, hB.used_some, hB.used_none⟩
    rcases Finset.mem_insert.mp hmem with h | hmem
    · exact hb.single ht _ hx h
    · exact hB.pool hx hmem
  | adopt =>
    exact ⟨hB.sorted, hB.lt, fun hx hmem => hB.pool hx (Finset.mem_of_mem_erase hmem),
      hB.used_some, hB.used_none⟩
  | @useSingle t _ ht =>
    refine ⟨hB.sorted, hB.lt, hB.pool, fun hx => ?_, fun hx => ?_⟩
    · rcases List.mem_append.mp hx with hx | hx
      · exact hB.used_some hx
      · cases List.mem_singleton.mp hx
    · rcases List.mem_append.mp hx with hx | hx
      · exact hB.used_none hx
      · cases List.mem_singleton.mp hx
        exact hb.single ht
  | @usePaired t r _ ht =>
    refine ⟨hB.sorted, hB.lt, hB.pool, fun hx => ?_, fun hx => ?_⟩
    · rcases List.mem_append.mp hx with hx | hx
      · exact hB.used_some hx
      · cases List.mem_singleton.mp hx
        exact hb.paired ht
    · rcases List.mem_append.mp hx with hx | hx
      · exact hB.used_none hx
      · cases List.mem_singleton.mp hx

/-- What a step does to the share of the agent that takes it agrees with what it does to the
books. -/
theorem Share.Booked.step (hB : Books L) (hb : h.Booked L)
    (hfresh : ∀ w ∈ h.entering, w ∉ h.single) (hst : Step L h L' h') : h'.Booked L' := by
  cases hst with
  | stay hle => exact hb.within hle
  | lock hfree hle =>
    refine Booked.within ?_ hle
    exact ⟨fun _ => rfl, fun _ => rfl, hb.entering, hb.single, hb.paired, hb.claims⟩
  | takeFirst hlocks hle =>
    refine Booked.within ?_ hle
    refine ⟨hb.locks, fun _ => hlocks, fun {t} ht => ?_, hb.single, hb.paired, hb.claims⟩
    obtain rfl := List.mem_singleton.mp ht
    exact ⟨Nat.lt_succ_self _, fun x hx => hB.lt hx⟩
  | @takeSecond w r _ hw hle =>
    refine Booked.within ?_ hle
    refine ⟨hb.locks, fun he => absurd rfl he, fun ht => absurd ht List.not_mem_nil,
      fun {t} ht x hx => ?_, fun {x} hx => ?_, fun {k o} hx => ?_⟩
    · rw [pairs_append] at hx
      rcases List.mem_append.mp hx with hx | hx
      · exact hb.single ht x hx
      · obtain rfl := List.mem_singleton.mp hx
        exact fun heq => hfresh w hw ((show w = t from heq) ▸ ht)
    · rw [pairs_append]
      rcases List.mem_cons.mp hx with rfl | hx
      · exact List.mem_append_right _ (List.mem_singleton.mpr rfl)
      · exact List.mem_append_left _ (hb.paired hx)
    · rcases List.mem_cons.mp hx with heq | hx
      · cases heq
        exact List.getElem?_concat_length
      · exact getElem?_concat_of_some (hb.claims hx)
  | unlock _ hle =>
    refine Booked.within ?_ hle
    exact ⟨fun hl => absurd hl Bool.false_ne_true, fun he => absurd rfl he,
      fun ht => absurd ht List.not_mem_nil, hb.single, hb.paired, hb.claims⟩
  | takeSingle hle =>
    refine Booked.within ?_ hle
    refine ⟨hb.locks, hb.entering_locks,
      fun ht => ⟨(hb.entering ht).1.trans (Nat.lt_succ_self _), (hb.entering ht).2⟩,
      fun {t} ht x hx => ?_, hb.paired, hb.claims⟩
    rcases List.mem_cons.mp ht with rfl | ht
    · exact (hB.lt hx).ne
    · exact hb.single ht x hx
  | takeAlone hle =>
    refine Booked.within ?_ hle
    refine ⟨hb.locks, hb.entering_locks, ?_, ?_, ?_, fun {k o} hx => ?_⟩
    · rw [pairs_append, Option.toList_none, List.append_nil]
      exact hb.entering
    · rw [pairs_append, Option.toList_none, List.append_nil]
      exact hb.single
    · rw [pairs_append, Option.toList_none, List.append_nil]
      exact hb.paired
    · rcases List.mem_cons.mp hx with heq | hx
      · cases heq
        exact List.getElem?_concat_length
      · exact getElem?_concat_of_some (hb.claims hx)
  | adopt ht hle =>
    refine Booked.within ?_ hle
    refine ⟨hb.locks, hb.entering_locks, hb.entering, fun {t} ht' x hx => ?_, hb.paired, hb.claims⟩
    rcases List.mem_cons.mp ht' with rfl | ht'
    · exact fun heq => hB.pool hx (heq ▸ ht)
    · exact hb.single ht' x hx
  | putDown _ hle | useSingle _ hle | usePaired _ hle =>
    have hb' := hb.within hle
    exact ⟨hb'.locks, hb'.entering_locks, hb'.entering, hb'.single, hb'.paired, hb'.claims⟩

/-- The shares of the other agents still agree with the books. -/
theorem Share.Booked.of_step {g : Share ρ} (hg : g.Booked L) (hb : h.Booked L)
    (hlocks : h.locks = true → g.locks = false) (hfresh : ∀ w ∈ h.entering, w ∉ g.single)
    (hst : Step L h L' h') : g.Booked L' := by
  -- who does not hold the lock is not taking a pair
  have hnil : h.locks = true → g.entering = [] := fun hl => by
    by_contra hne
    rw [hg.entering_locks hne] at hlocks
    cases hlocks hl
  cases hst with
  | stay => exact hg
  | lock => exact ⟨fun _ => rfl, hg.entering_locks, hg.entering, hg.single, hg.paired, hg.claims⟩
  | unlock hl =>
    refine ⟨fun hl' => ?_, hg.entering_locks, hg.entering, hg.single, hg.paired, hg.claims⟩
    rw [hlocks hl] at hl'
    cases hl'
  | takeFirst | takeSingle =>
    exact ⟨hg.locks, hg.entering_locks,
      fun ht => ⟨(hg.entering ht).1.trans (Nat.lt_succ_self _), (hg.entering ht).2⟩, hg.single,
      hg.paired, hg.claims⟩
  | @takeSecond w r _ hw =>
    refine ⟨hg.locks, hg.entering_locks, fun {t} ht => ?_, fun {t} ht x hx => ?_, fun hx => ?_,
      fun hx => getElem?_concat_of_some (hg.claims hx)⟩
    · rw [hnil (hb.entering_locks (List.ne_nil_of_mem hw))] at ht
      exact absurd ht List.not_mem_nil
    · rw [pairs_append] at hx
      rcases List.mem_append.mp hx with hx | hx
      · exact hg.single ht x hx
      · obtain rfl := List.mem_singleton.mp hx
        exact fun heq => hfresh w hw ((show w = t from heq) ▸ ht)
    · rw [pairs_append]
      exact List.mem_append_left _ (hg.paired hx)
  | takeAlone =>
    refine ⟨hg.locks, hg.entering_locks, ?_, ?_, ?_,
      fun hx => getElem?_concat_of_some (hg.claims hx)⟩ <;>
      rw [pairs_append, Option.toList_none, List.append_nil]
    · exact hg.entering
    · exact hg.single
    · exact hg.paired
  | putDown | adopt | useSingle | usePaired =>
    exact ⟨hg.locks, hg.entering_locks, hg.entering, hg.single, hg.paired, hg.claims⟩

/-- The lock after a step: held from before, or taken while it was free. -/
theorem Step.locks (hst : Step L h L' h') (hl : h'.locks = true) :
    h.locks = true ∨ L.locked = false := by
  cases hst with
  | lock hfree => exact Or.inr hfree
  | unlock _ hle => exact absurd (hle.locks.symm.trans hl) Bool.false_ne_true
  | takeFirst hlocks => exact Or.inl hlocks
  | stay hle | takeSecond _ hle | takeSingle hle | takeAlone hle | putDown _ hle | adopt _ hle
  | useSingle _ hle | usePaired _ hle => exact Or.inl (hle.locks ▸ hl)

namespace Inv

variable {share : ι → Share ρ} {i : ι}

theorem init : Inv (ι := ι) (⟨0, [], false, ∅, []⟩ : PairLedger ρ) fun _ => {} :=
  ⟨⟨.nil, by simp [pairs], by simp, by simp, by simp⟩,
    fun _ => ⟨by simp, by simp, by simp, by simp, by simp, by simp⟩, by simp⟩

variable [DecidableEq ι]

/-- **Every step keeps the order of the pairs.** -/
theorem step (hI : Inv L share) (hfresh : ∀ w ∈ (share i).entering, Fresh L share w)
    (hst : Step L (share i) L' h') : Inv L' (Function.update share i h') := by
  refine ⟨hI.books.step (hI.booked i) (fun w hw => (hfresh w hw).2) hst, fun j => ?_,
    fun {j k} hj hk => ?_⟩
  · by_cases hj : j = i
    · subst hj
      simpa using (hI.booked j).step hI.books (fun w hw => (hfresh w hw).1 j) hst
    · rw [Function.update_of_ne hj]
      refine (hI.booked j).of_step (hI.booked i) (fun hl => ?_) (fun w hw => (hfresh w hw).1 j) hst
      exact Bool.eq_false_of_not_eq_true fun hl' => hj (hI.locks_unique hl' hl)
  · -- nobody takes the lock while somebody holds it
    have hother : ∀ {k}, k ≠ i → h'.locks = true → (share k).locks = true → False := by
      intro k hk hl hl'
      rcases hst.locks hl with h | h
      · exact hk (hI.locks_unique hl' h)
      · rw [(hI.booked k).locks hl'] at h
        cases h
    by_cases hji : j = i <;> by_cases hki : k = i
    · exact hji.trans hki.symm
    · subst hji
      rw [Function.update_self] at hj
      rw [Function.update_of_ne hki] at hk
      exact (hother hki hj hk).elim
    · subst hki
      rw [Function.update_self] at hk
      rw [Function.update_of_ne hji] at hj
      exact (hother hji hk hj).elim
    · rw [Function.update_of_ne hji] at hj
      rw [Function.update_of_ne hki] at hk
      exact hI.locks_unique hj hk

end Inv

/-- **The first pairs.** If the tickets of the first counter are used in order, the pairs whose
first tickets have been used are the first pairs. -/
theorem Books.used_isPrefix (hB : Books L)
    (hused : L.used.map Prod.fst = List.range L.used.length) :
    (L.used.filterMap fun x => x.2.map fun r => (x.1, r)) <+: L.pairs := by
  have hmem : ∀ t, (∃ o, (t, o) ∈ L.used) ↔ t < L.used.length := by
    intro t
    rw [← List.mem_range, ← hused, List.mem_map]
    exact ⟨fun ⟨o, h⟩ => ⟨(t, o), h, rfl⟩, fun ⟨x, h, hx⟩ => ⟨x.2, hx ▸ h⟩⟩
  have hsorted : KeySorted Prod.fst (L.used.filterMap fun x => x.2.map fun r => (x.1, r)) := by
    refine List.Pairwise.filterMap _ (fun x y hxy x' hx' y' hy' => ?_)
      (KeySorted.of_map_eq_range hused)
    obtain ⟨r, -, rfl⟩ := Option.map_eq_some_iff.mp hx'
    obtain ⟨r', -, rfl⟩ := Option.map_eq_some_iff.mp hy'
    exact hxy
  have heq : (L.used.filterMap fun x => x.2.map fun r => (x.1, r))
      = L.pairs.filter (·.1 < L.used.length) := by
    refine hsorted.eq_of_mem_iff (hB.sorted.filter _) ?_
    rintro ⟨t, r⟩
    simp only [List.mem_filterMap, Option.map_eq_some_iff, List.mem_filter, decide_eq_true_eq,
      Prod.mk.injEq]
    constructor
    · rintro ⟨⟨t', o⟩, hx, r', ho, rfl, rfl⟩
      obtain rfl : o = some r' := ho
      exact ⟨hB.used_some hx, (hmem t').mp ⟨_, hx⟩⟩
    · rintro ⟨hpair, hlt⟩
      obtain ⟨o, hx⟩ := (hmem t).mpr hlt
      cases o with
      | none => exact absurd rfl (hB.used_none hx _ hpair)
      | some r' =>
        have hr : r' = r := congrArg Prod.snd (hB.sorted.eq_of_key (hB.used_some hx) hpair rfl)
        exact ⟨(t, some r'), hx, r', rfl, rfl, hr⟩
  rw [heq]
  exact hB.sorted.filter_lt_isPrefix _

end PairLedger
