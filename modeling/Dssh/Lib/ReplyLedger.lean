import Dssh.Lib.KeySorted
import Mathlib.Data.Finset.Basic
import Mathlib.Data.List.Range
import Mathlib.Logic.Function.Basic

/-!
# Answers in the order of the requests

Messages go out in the order of their tickets, and the ticket of an answer is taken when its
request is accepted. Whoever writes whatever message, the answers then go out in the order in
which the requests were accepted. This module is that argument.

A `ReplyLedger` records the tickets taken for accepted requests, the answers chosen for them, a
pool of tickets that anybody may write the default answer for, and the messages started. An
agent's `Share` says which tickets it holds and what they are for. An agent may always give up
part of its share.

## What has to be shown

The order is the easy half: tickets are taken in the order of acceptance, and used in their own.
The other half is bookkeeping. That *exactly one* answer goes out for a request, that it is the
one chosen for it, and that no message that is not an answer is written with its ticket, depends
on who holds which ticket for which purpose. `Books.started_accepted` and `Books.started_plain`
are these facts, and they are kept by every step because a ticket never changes its purpose.

## The pool

A request may be dropped without having been answered, by an agent that has no opportunity to
write: a destructor cannot wait. It puts the ticket down, and the next agent that is going to
write anyway writes a default answer in its place first. So the one who writes an answer is not
always the one who accepted the request. In the books this is a chosen answer with the value
`default`, put into the pool (`Step.putDown`) and taken out of it by anybody (`Step.adopt`). An
agent that adopts a ticket and is cancelled loses it, like any other.

## What is not shown here

That every request *is* answered. A ticket can be lost, and then its answer never goes out, and
nothing behind it either. The conclusion is about a prefix: the answers that have gone out are
those of the first requests. Whether more follow is a question about the queue, not about the
books.

## Main definitions

* `ReplyLedger`, `ReplyLedger.Share` — the books, and what an agent holds
* `ReplyLedger.Step` — what an agent can do
* `ReplyLedger.Books`, `ReplyLedger.Inv` — the books are in order, and shares agree with them

## Main results

* `ReplyLedger.Inv.step` — every step keeps the books
* `ReplyLedger.Books.chosen_unique` — at most one answer is chosen for a request
* `ReplyLedger.Books.replies_isPrefix` — if messages are started in ticket order, the tickets of
  the answers among them are the first of the accepted ones
-/

/-! ## Books and shares

The books list the requests with their tickets, and the messages that have been started. An agent
may hold tickets for other messages, requests for which it has not chosen an answer, and answers
that it is to write. That a request is in one share at most is what makes answers unique. -/

/-- The books of a party that answers requests with answers in `α`, in messages in `μ`. -/
structure ReplyLedger (α μ : Type*) where
  /-- The next ticket to be taken. -/
  next : ℕ
  /-- The tickets taken for answers, in the order in which the requests were accepted. -/
  accepted : List ℕ
  /-- The answers chosen so far. -/
  chosen : List (ℕ × α)
  /-- Tickets for anybody to write the default answer. -/
  pool : Finset ℕ
  /-- The messages started, each with its ticket. -/
  started : List (ℕ × μ)

namespace ReplyLedger

variable {α μ ι : Type*}

/-- What an agent holds. -/
structure Share (α : Type*) where
  /-- Tickets for messages that are no answers. -/
  plain : List ℕ := []
  /-- Tickets of requests it has not chosen an answer for. -/
  pending : List ℕ := []
  /-- Answers it is to write. -/
  answers : List (ℕ × α) := []

/-- `h.Within h'`: the share `h` holds nothing that `h'` does not. -/
structure Share.Within (h h' : Share α) : Prop where
  /-- No ticket more for messages that are no answers. -/
  plain : h.plain ⊆ h'.plain
  /-- No request more to answer. -/
  pending : h.pending ⊆ h'.pending
  /-- No answer more to write. -/
  answers : h.answers ⊆ h'.answers

/-- Nothing has been given up. -/
theorem Share.Within.refl (h : Share α) : h.Within h :=
  ⟨List.Subset.refl _, List.Subset.refl _, List.Subset.refl _⟩

variable (reply : α → μ) (isReply : μ → Prop) (default : α)

/-- What an agent can do to the books and to its share. -/
inductive Step (L : ReplyLedger α μ) (h : Share α) : ReplyLedger α μ → Share α → Prop
  /-- It gives something up, or does something else. -/
  | stay {h' : Share α} (hle : h'.Within h) : Step L h L h'
  /-- It takes a ticket for a message that is no answer. -/
  | take {h' : Share α} (hle : h'.Within { h with plain := L.next :: h.plain }) :
      Step L h { L with next := L.next + 1 } h'
  /-- It accepts a request. -/
  | accept {h' : Share α} (hle : h'.Within { h with pending := L.next :: h.pending }) :
      Step L h { L with next := L.next + 1, accepted := L.accepted ++ [L.next] } h'
  /-- It chooses an answer. -/
  | choose {t : ℕ} {a : α} {h' : Share α} (ht : t ∈ h.pending)
      (hle : h'.Within { h with pending := [], answers := (t, a) :: h.answers }) :
      Step L h { L with chosen := L.chosen ++ [(t, a)] } h'
  /-- It leaves the default answer to anybody. -/
  | putDown {t : ℕ} {h' : Share α} (ht : (t, default) ∈ h.answers) (hle : h'.Within h) :
      Step L h { L with pool := insert t L.pool } h'
  /-- It takes over such an answer. -/
  | adopt {t : ℕ} {h' : Share α} (ht : t ∈ L.pool)
      (hle : h'.Within { h with answers := (t, default) :: h.answers }) :
      Step L h { L with pool := L.pool.erase t } h'
  | startPlain {t : ℕ} {m : μ} {h' : Share α} (ht : t ∈ h.plain) (hm : ¬ isReply m)
      (hle : h'.Within h) : Step L h { L with started := L.started ++ [(t, m)] } h'
  | startAnswer {t : ℕ} {a : α} {h' : Share α} (ht : (t, a) ∈ h.answers) (hle : h'.Within h) :
      Step L h { L with started := L.started ++ [(t, reply a)] } h'

/-- The books are in order. -/
structure Books (L : ReplyLedger α μ) : Prop where
  /-- Tickets of accepted requests have been taken … -/
  accepted_lt : ∀ {t}, t ∈ L.accepted → t < L.next
  /-- … in the order of acceptance. -/
  accepted_sorted : KeySorted id L.accepted
  /-- Answers are for accepted requests … -/
  chosen_accepted : ∀ {x}, x ∈ L.chosen → x.1 ∈ L.accepted
  /-- … one for each. -/
  chosen_nodup : (L.chosen.map Prod.fst).Nodup
  /-- In the pool are default answers. -/
  pool_chosen : ∀ {t}, t ∈ L.pool → (t, default) ∈ L.chosen
  /-- What is written with the ticket of an accepted request is the answer chosen for it, … -/
  started_accepted : ∀ {x}, x ∈ L.started → x.1 ∈ L.accepted →
    ∃ a, (x.1, a) ∈ L.chosen ∧ x.2 = reply a
  /-- … and what is written with another ticket is no answer. -/
  started_plain : ∀ {x}, x ∈ L.started → x.1 ∉ L.accepted → x.1 < L.next ∧ ¬ isReply x.2

/-- A share agrees with the books. -/
structure Share.Booked (L : ReplyLedger α μ) (h : Share α) : Prop where
  /-- A ticket for another message is of no request. -/
  plain : ∀ {t}, t ∈ h.plain → t ∉ L.accepted ∧ t < L.next
  /-- A request to be answered has no answer yet. -/
  pending : ∀ {t}, t ∈ h.pending → t ∈ L.accepted ∧ t ∉ L.chosen.map Prod.fst
  /-- An answer to be written has been chosen. -/
  answers : ∀ {x}, x ∈ h.answers → x ∈ L.chosen

/-- The invariant: books and shares agree, and a request is answered by one agent. -/
structure Inv (L : ReplyLedger α μ) (share : ι → Share α) : Prop where
  /-- The books are in order. -/
  books : Books reply isReply default L
  /-- Every share agrees with them. -/
  booked : ∀ i, (share i).Booked L
  /-- A request is answered by one agent. -/
  pending_unique : ∀ {i j t}, t ∈ (share i).pending → t ∈ (share j).pending → i = j

variable {reply isReply default} {L L' : ReplyLedger α μ} {h h' : Share α}

/-! ## Steps of the books

For each kind of step, what it does to the books and what it does to the share of its agent go
together. The other shares are not touched, and still agree, because a step answers no request
but its own. -/

/-- Giving something up keeps the agreement. -/
theorem Share.Booked.within (hb : h.Booked L) (hle : h'.Within h) : h'.Booked L :=
  ⟨fun ht => hb.plain (hle.plain ht), fun ht => hb.pending (hle.pending ht),
    fun hx => hb.answers (hle.answers hx)⟩

namespace Books

/-- At most one answer is chosen for a request. -/
theorem chosen_unique (hB : Books reply isReply default L) {t : ℕ} {a b : α}
    (ha : (t, a) ∈ L.chosen) (hb : (t, b) ∈ L.chosen) : a = b :=
  congrArg Prod.snd (List.inj_on_of_nodup_map hB.chosen_nodup ha hb rfl)

theorem init : Books reply isReply default (⟨0, [], [], ∅, []⟩ : ReplyLedger α μ) := by
  constructor <;> simp

/-- What a step does to the books keeps them in order, whoever takes it. -/
theorem step (hB : Books reply isReply default L) (hb : h.Booked L)
    (hst : Step reply isReply default L h L' h') : Books reply isReply default L' := by
  obtain ⟨hlt, hsorted, hca, hnodup, hpool, hsa, hsp⟩ := hB
  cases hst with
  | stay => exact ⟨hlt, hsorted, hca, hnodup, hpool, hsa, hsp⟩
  | take =>
    exact ⟨fun ht => (hlt ht).trans (Nat.lt_succ_self _), hsorted, hca, hnodup, hpool, hsa,
      fun hx hn => ⟨(hsp hx hn).1.trans (Nat.lt_succ_self _), (hsp hx hn).2⟩⟩
  | accept =>
    refine ⟨fun ht => ?_, ?_, fun hx => List.mem_append_left _ (hca hx), hnodup, hpool,
      fun {x} hx hacc => ?_, fun {x} hx hn => ?_⟩
    · rcases List.mem_append.mp ht with ht | ht
      · exact (hlt ht).trans (Nat.lt_succ_self _)
      · exact List.mem_singleton.mp ht ▸ Nat.lt_succ_self _
    · exact hsorted.concat fun t ht => hlt ht
    · rcases List.mem_append.mp hacc with hacc | hacc
      · exact hsa hx hacc
      · -- the new ticket has not been written with
        have hnew := List.mem_singleton.mp hacc
        by_cases hold : x.1 ∈ L.accepted
        · exact hsa hx hold
        · exact absurd hnew (hsp hx hold).1.ne
    · have hold : x.1 ∉ L.accepted := fun h => hn (List.mem_append_left _ h)
      exact ⟨(hsp hx hold).1.trans (Nat.lt_succ_self _), (hsp hx hold).2⟩
  | @choose t a _ ht =>
    obtain ⟨hacc, hnew⟩ := hb.pending ht
    refine ⟨hlt, hsorted, fun hx => ?_, ?_, fun hx => List.mem_append_left _ (hpool hx),
      fun hx hacc => ?_, hsp⟩
    · rcases List.mem_append.mp hx with hx | hx
      · exact hca hx
      · obtain rfl := List.mem_singleton.mp hx
        exact hacc
    · rw [List.map_append, List.nodup_append]
      refine ⟨hnodup, by simp, fun u hu v hv => ?_⟩
      obtain rfl := List.mem_singleton.mp hv
      exact fun heq => hnew (heq ▸ hu)
    · obtain ⟨b, hb, hreply⟩ := hsa hx hacc
      exact ⟨b, List.mem_append_left _ hb, hreply⟩
  | @putDown t _ ht =>
    refine ⟨hlt, hsorted, hca, hnodup, fun hu => ?_, hsa, hsp⟩
    rcases Finset.mem_insert.mp hu with rfl | hu
    · exact hb.answers ht
    · exact hpool hu
  | adopt =>
    exact ⟨hlt, hsorted, hca, hnodup, fun hu => hpool (Finset.mem_of_mem_erase hu), hsa, hsp⟩
  | @startPlain t m _ ht hm =>
    obtain ⟨hnacc, hnext⟩ := hb.plain ht
    refine ⟨hlt, hsorted, hca, hnodup, hpool, fun hx hacc => ?_, fun hx hn => ?_⟩
    · rcases List.mem_append.mp hx with hx | hx
      · exact hsa hx hacc
      · obtain rfl := List.mem_singleton.mp hx
        exact absurd hacc hnacc
    · rcases List.mem_append.mp hx with hx | hx
      · exact hsp hx hn
      · obtain rfl := List.mem_singleton.mp hx
        exact ⟨hnext, hm⟩
  | @startAnswer t a _ ht =>
    have hchosen := hb.answers ht
    refine ⟨hlt, hsorted, hca, hnodup, hpool, fun hx hacc => ?_, fun hx hn => ?_⟩
    · rcases List.mem_append.mp hx with hx | hx
      · exact hsa hx hacc
      · obtain rfl := List.mem_singleton.mp hx
        exact ⟨a, hchosen, rfl⟩
    · rcases List.mem_append.mp hx with hx | hx
      · exact hsp hx hn
      · obtain rfl := List.mem_singleton.mp hx
        exact absurd (hca hchosen) hn

end Books

/-- What a step does to the share of the agent that takes it agrees with what it does to the
books. -/
theorem Share.Booked.step (hB : Books reply isReply default L) (hb : h.Booked L)
    (hst : Step reply isReply default L h L' h') : h'.Booked L' := by
  cases hst with
  | stay hle => exact hb.within hle
  | take hle =>
    refine Booked.within ?_ hle
    refine ⟨fun {t} ht => ?_, hb.pending, hb.answers⟩
    rcases List.mem_cons.mp ht with rfl | ht
    · exact ⟨fun hacc => absurd (hB.accepted_lt hacc) (Nat.lt_irrefl _), Nat.lt_succ_self _⟩
    · exact ⟨(hb.plain ht).1, (hb.plain ht).2.trans (Nat.lt_succ_self _)⟩
  | accept hle =>
    refine Booked.within ?_ hle
    refine ⟨fun {t} ht => ⟨fun hacc => ?_, ?_⟩, fun {t} ht => ?_, hb.answers⟩
    · rcases List.mem_append.mp hacc with hacc | hacc
      · exact (hb.plain ht).1 hacc
      · exact absurd (List.mem_singleton.mp hacc) (hb.plain ht).2.ne
    · exact (hb.plain ht).2.trans (Nat.lt_succ_self _)
    · rcases List.mem_cons.mp ht with rfl | ht
      · refine ⟨List.mem_append_right _ (List.mem_singleton.mpr rfl), fun hc => ?_⟩
        obtain ⟨x, hx, hnext⟩ := List.mem_map.mp hc
        exact absurd hnext (hB.accepted_lt (hB.chosen_accepted hx)).ne
      · exact ⟨List.mem_append_left _ (hb.pending ht).1, (hb.pending ht).2⟩
  | choose ht hle =>
    refine Booked.within ?_ hle
    refine ⟨hb.plain, fun ht => absurd ht List.not_mem_nil, fun {x} hx => ?_⟩
    rcases List.mem_cons.mp hx with rfl | hx
    · exact List.mem_append_right _ (List.mem_singleton.mpr rfl)
    · exact List.mem_append_left _ (hb.answers hx)
  | adopt ht hle =>
    refine Booked.within ?_ hle
    refine ⟨hb.plain, hb.pending, fun {x} hx => ?_⟩
    rcases List.mem_cons.mp hx with rfl | hx
    · exact hB.pool_chosen ht
    · exact hb.answers hx
  | putDown _ hle | startPlain _ _ hle | startAnswer _ hle =>
    have hb' := hb.within hle
    exact ⟨hb'.plain, hb'.pending, hb'.answers⟩

/-- The shares of the other agents still agree with the books, if none of them is to answer the same
request. -/
theorem Share.Booked.of_step {g : Share α} (hg : g.Booked L)
    (hdisjoint : ∀ t ∈ h.pending, t ∉ g.pending)
    (hst : Step reply isReply default L h L' h') : g.Booked L' := by
  cases hst with
  | stay => exact hg
  | take => exact ⟨fun ht => ⟨(hg.plain ht).1, (hg.plain ht).2.trans (Nat.lt_succ_self _)⟩,
      hg.pending, hg.answers⟩
  | accept =>
    refine ⟨fun {t} ht => ⟨fun hacc => ?_, (hg.plain ht).2.trans (Nat.lt_succ_self _)⟩,
      fun ht => ⟨List.mem_append_left _ (hg.pending ht).1, (hg.pending ht).2⟩, hg.answers⟩
    rcases List.mem_append.mp hacc with hacc | hacc
    · exact (hg.plain ht).1 hacc
    · exact absurd (List.mem_singleton.mp hacc) (hg.plain ht).2.ne
  | @choose t a _ ht =>
    refine ⟨hg.plain, fun {u} hu => ⟨(hg.pending hu).1, fun hc => ?_⟩,
      fun hx => List.mem_append_left _ (hg.answers hx)⟩
    rw [List.map_append, List.mem_append] at hc
    rcases hc with hc | hc
    · exact (hg.pending hu).2 hc
    · obtain rfl : u = t := List.mem_singleton.mp hc
      exact hdisjoint u ht hu
  | putDown | adopt | startPlain | startAnswer => exact ⟨hg.plain, hg.pending, hg.answers⟩

/-- The requests an agent is to answer after a step: those from before, or a new one. -/
theorem Step.pending (hst : Step reply isReply default L h L' h') {t : ℕ} (ht : t ∈ h'.pending) :
    t ∈ h.pending ∨ t = L.next := by
  cases hst with
  | accept hle => exact (List.mem_cons.mp (hle.pending ht)).symm
  | choose _ hle => exact absurd (hle.pending ht) List.not_mem_nil
  | stay hle | take hle | putDown _ hle | adopt _ hle | startPlain _ _ hle | startAnswer _ hle =>
    exact Or.inl (hle.pending ht)

namespace Inv

variable {share : ι → Share α} {i : ι}

theorem init : Inv (ι := ι) reply isReply default
    (⟨0, [], [], ∅, []⟩ : ReplyLedger α μ) fun _ => {} :=
  ⟨.init, fun _ => ⟨by simp, by simp, by simp⟩, by simp⟩

variable [DecidableEq ι]

/-- **Every step keeps the books.** -/
theorem step (hI : Inv reply isReply default L share)
    (hst : Step reply isReply default L (share i) L' h') :
    Inv reply isReply default L' (Function.update share i h') := by
  -- a new ticket is nobody's yet
  have hfresh : ∀ {j t}, t ∈ (share j).pending → t ≠ L.next := fun {j t} ht =>
    (hI.books.accepted_lt ((hI.booked j).pending ht).1).ne
  refine ⟨hI.books.step (hI.booked i) hst, fun j => ?_, fun {j k t} hj hk => ?_⟩
  · by_cases hj : j = i
    · subst hj
      simpa using (hI.booked j).step hI.books hst
    · rw [Function.update_of_ne hj]
      exact (hI.booked j).of_step (fun t ht ht' => hj (hI.pending_unique ht' ht)) hst
  · by_cases hji : j = i <;> by_cases hki : k = i
    · exact hji.trans hki.symm
    · subst hji
      rw [Function.update_self] at hj
      rw [Function.update_of_ne hki] at hk
      exact hI.pending_unique ((hst.pending hj).resolve_right (hfresh hk)) hk
    · subst hki
      rw [Function.update_self] at hk
      rw [Function.update_of_ne hji] at hj
      exact hI.pending_unique hj ((hst.pending hk).resolve_right (hfresh hj))
    · rw [Function.update_of_ne hji] at hj
      rw [Function.update_of_ne hki] at hk
      exact hI.pending_unique hj hk

end Inv

/-! ## Messages in ticket order

The ledger does not know in which order tickets are served. Where messages are started in this
order, as in a ticket queue, the answers that have gone out belong to the first requests, each
with the one answer that was chosen for it. -/

/-- **Answers go out in the order of the requests.** If the messages started are those of the first
tickets in order, the tickets of the answers among them are the first of the accepted ones. -/
theorem Books.replies_isPrefix [DecidablePred isReply] (hB : Books reply isReply default L)
    (hreply : ∀ a, isReply (reply a)) {wire : List (ℕ × μ)} (hsub : wire ⊆ L.started)
    (hwire : wire.map Prod.fst = List.range wire.length) :
    (wire.filter fun x => isReply x.2).map Prod.fst <+: L.accepted := by
  have hiff : ∀ x ∈ wire, isReply x.2 ↔ x.1 ∈ L.accepted := by
    intro x hx
    by_cases hacc : x.1 ∈ L.accepted
    · obtain ⟨a, -, ha⟩ := hB.started_accepted (hsub hx) hacc
      exact ⟨fun _ => hacc, fun _ => ha ▸ hreply a⟩
    · exact ⟨fun hr => absurd hr (hB.started_plain (hsub hx) hacc).2, fun h => absurd h hacc⟩
  have hfilter : (wire.filter fun x => isReply x.2).map Prod.fst
      = (List.range wire.length).filter (· ∈ L.accepted) := by
    rw [← hwire, List.filter_map]
    refine congrArg _ (List.filter_congr fun x hx => ?_)
    simpa using hiff x hx
  have hrange : (List.range wire.length).filter (· ∈ L.accepted)
      = L.accepted.filter (· < wire.length) := by
    refine KeySorted.eq_of_mem_iff (f := id) (List.pairwise_lt_range.filter _)
      (hB.accepted_sorted.filter _) fun t => ?_
    simp [and_comm]
  rw [hfilter, hrange]
  exact hB.accepted_sorted.filter_lt_isPrefix _

end ReplyLedger
