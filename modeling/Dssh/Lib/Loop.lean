import Dssh.Lib.Decoder

/-!
# Loops that read a stream

A program that reads a stream message by message: one `Turn` starts with a state and the bytes
that are still to come, and either goes round again, with a new state and what it has left of
the stream, or stops with a result.

## The bound on the turns

A turn that consumes something cannot go round for ever on a finite stream. `Loop.run` therefore
runs for as many turns as the stream has bytes, and one more; `run_again` and `run_stop` are the
equations of the unbounded loop, and the rest of a development need not know about the bound.

Recursion on the length of the stream would make the same function, but by well-founded
recursion, and then no concrete stream could be run by `decide`. The bound keeps the definition
structural. That it is never hit is `run_isSome`, under the one hypothesis `Consumes`: a turn
that goes round has left less than it was given. A loop of the source that could spin without
reading would not satisfy it, so termination is a theorem about each loop and not something the
definition assumes.

## Where turns start

`Loop.run` says what a loop returns. Some properties are about where it has *been*: that the
reader never starts to parse in the middle of a payload, or that the last turn began at a
certain message. `Loop.starts` lists the places where turns start, each given by what follows it
in the stream. It runs in parallel with `run`, with the same equations.

## Streams of which a part has come

A peer's stream arrives in parts, and a loop that runs on a part stops somewhere inside of it:
at a message that is cut, or at the end between two. `run_part` compares what the loop has got
to with what the whole messages lead to, along a preorder `R` of the caller's choosing. One
message at a time is enough: the hypotheses speak about the parts of a single message.

## Turns that decode

Where a turn does nothing but decode and write an answer, its body is a `Decoder`, and
`Loop.ofDecoder` makes the turn of it. What such a loop has written belongs to its state.

## Main definitions

* `Loop.Turn` — what one turn does
* `Loop.run`, `Loop.starts` — the loop's result, and where its turns start
* `Loop.Consumes` — no turn goes round on the spot
* `Loop.Reaches` — some turns lead from one place to another
* `Loop.ofDecoder` — the turn whose body is a decoder

## Main results

* `Loop.run_again`, `Loop.run_stop` — one turn of the loop
* `Loop.run_isSome` — the loop comes to an end
* `Loop.reaches_messages`, `Loop.run_messages` — a loop whose turns read one message each, on a
  sequence of messages
* `Loop.run_part` — the same loop when only a part of the messages has come
* `Loop.getLast_part` — where its last turn begins then
* `Loop.consumes_ofDecoder` — turns that decode consume
-/

/-! ## Turns

A turn is given the stream and says what is left of it. `run` and `starts` are defined with a
number of turns that is enough whenever every turn consumes something; `runFor_eq` says that more
turns would give the same, so that the number does not appear in what is proved about a loop. -/

/-- What one turn of a loop does. -/
inductive Turn (σ ρ : Type) where
  /-- The loop goes on, in state `s`, with `rest` of the stream to come. -/
  | again (s : σ) (rest : List UInt8)
  /-- The loop ends, with `rest` of the stream left. -/
  | stop (r : ρ) (rest : List UInt8)
  deriving DecidableEq

namespace Loop

variable {σ ρ : Type} (turn : σ → List UInt8 → Turn σ ρ)

/-- At most `n` turns. -/
def runFor : ℕ → σ → List UInt8 → Option (ρ × List UInt8)
  | 0, _, _ => none
  | n + 1, s, bs =>
    match turn s bs with
    | .again s' rest => runFor n s' rest
    | .stop r rest => some (r, rest)

/-- What is still to come of the stream at the start of each of the first `n` turns. -/
def startsFor : ℕ → σ → List UInt8 → List (List UInt8)
  | 0, _, _ => []
  | n + 1, s, bs =>
    match turn s bs with
    | .again s' rest => bs :: startsFor n s' rest
    | .stop _ _ => [bs]

/-- Run the loop on a stream: the result and what is left of the stream. -/
def run (s : σ) (bs : List UInt8) : Option (ρ × List UInt8) := runFor turn (bs.length + 1) s bs

/-- The places of the stream where the turns start, each given by what follows it. -/
def starts (s : σ) (bs : List UInt8) : List (List UInt8) := startsFor turn (bs.length + 1) s bs

/-- No turn goes round without having consumed something. -/
def Consumes : Prop :=
  ∀ s bs s' rest, turn s bs = .again s' rest → rest.length < bs.length

variable {turn}

/-- More turns than the stream has bytes are never needed. -/
theorem runFor_eq (h : Consumes turn) {n m : ℕ} {s : σ} {bs : List UInt8} (hn : bs.length < n)
    (hm : bs.length < m) : runFor turn n s bs = runFor turn m s bs := by
  induction n generalizing m s bs with
  | zero => exact absurd hn (Nat.not_lt_zero _)
  | succ n ih => cases m with
    | zero => exact absurd hm (Nat.not_lt_zero _)
    | succ m =>
      cases hturn : turn s bs with
      | stop r rest => simp only [runFor, hturn]
      | again s' rest =>
        have hlt := h _ _ _ _ hturn
        simp only [runFor, hturn]
        exact ih (by omega) (by omega)

/-- Nor do they start anywhere else. -/
theorem startsFor_eq (h : Consumes turn) {n m : ℕ} {s : σ} {bs : List UInt8} (hn : bs.length < n)
    (hm : bs.length < m) : startsFor turn n s bs = startsFor turn m s bs := by
  induction n generalizing m s bs with
  | zero => exact absurd hn (Nat.not_lt_zero _)
  | succ n ih => cases m with
    | zero => exact absurd hm (Nat.not_lt_zero _)
    | succ m =>
      cases hturn : turn s bs with
      | stop r rest => simp only [startsFor, hturn]
      | again s' rest =>
        have hlt := h _ _ _ _ hturn
        simp only [startsFor, hturn]
        exact congrArg _ (ih (by omega) (by omega))

/-- **One turn.** -/
theorem run_again (h : Consumes turn) {s s' : σ} {bs rest : List UInt8}
    (hturn : turn s bs = .again s' rest) : run turn s bs = run turn s' rest := by
  have hlt := h _ _ _ _ hturn
  rw [run, runFor, hturn]
  exact runFor_eq h hlt (Nat.lt_succ_self _)

/-- **The last turn.** It needs no hypothesis: one turn is always allowed. -/
theorem run_stop {s : σ} {r : ρ} {bs rest : List UInt8} (hturn : turn s bs = .stop r rest) :
    run turn s bs = some (r, rest) := by
  rw [run, runFor, hturn]

/-- A turn that goes round starts where it does, and the others follow. -/
theorem starts_again (h : Consumes turn) {s s' : σ} {bs rest : List UInt8}
    (hturn : turn s bs = .again s' rest) : starts turn s bs = bs :: starts turn s' rest := by
  have hlt := h _ _ _ _ hturn
  rw [starts, startsFor, hturn]
  exact congrArg _ (startsFor_eq h hlt (Nat.lt_succ_self _))

/-- A turn that stops is the last to start. -/
theorem starts_stop {s : σ} {r : ρ} {bs rest : List UInt8} (hturn : turn s bs = .stop r rest) :
    starts turn s bs = [bs] := by
  rw [starts, startsFor, hturn]

/-- Turns start where the loop starts or later. -/
theorem length_le_of_mem_starts (h : Consumes turn) {s : σ} {bs x : List UInt8}
    (hx : x ∈ starts turn s bs) : x.length ≤ bs.length := by
  induction hlen : bs.length using Nat.strongRecOn generalizing s bs with
  | _ n ih =>
    cases hturn : turn s bs with
    | stop r rest =>
      rw [starts_stop hturn, List.mem_singleton] at hx
      exact Nat.le_of_eq (hx ▸ hlen)
    | again s' rest =>
      rw [starts_again h hturn, List.mem_cons] at hx
      have hlt := h _ _ _ _ hturn
      rcases hx with rfl | hx
      · exact Nat.le_of_eq hlen
      · have hle := ih rest.length (hlen ▸ hlt) hx rfl
        omega

/-- The first turn starts where the loop starts. -/
theorem mem_starts (s : σ) (bs : List UInt8) : bs ∈ starts turn s bs := by
  rw [starts, startsFor]
  cases turn s bs <;> simp

/-- **A loop that consumes comes to an end.** -/
theorem run_isSome (h : Consumes turn) (s : σ) (bs : List UInt8) : (run turn s bs).isSome := by
  induction hlen : bs.length using Nat.strongRecOn generalizing s bs with
  | _ n ih =>
    cases hturn : turn s bs with
    | stop r rest => rw [run_stop hturn]; rfl
    | again s' rest =>
      rw [run_again h hturn]
      exact ih rest.length (hlen ▸ h _ _ _ _ hturn) s' rest rfl

/-! ## Sequences of messages

On a stream of messages of which each is read by one turn, a loop is a fold over the messages.
This is the form in which most loops are used: the bytes disappear, and the state of the loop is
a function of the messages. -/

variable (turn) in
/-- Some turns lead from the state `s`, with `bs` to come, to `s'` with `rest` to come. -/
inductive Reaches : σ → List UInt8 → σ → List UInt8 → Prop
  /-- No turn. -/
  | refl (s : σ) (bs : List UInt8) : Reaches s bs s bs
  /-- One turn that goes round, and then some. -/
  | again {s s' s'' : σ} {bs rest rest' : List UInt8} :
      turn s bs = .again s' rest → Reaches s' rest s'' rest' → Reaches s bs s'' rest'

/-- What a loop gets to decides what it returns. -/
theorem Reaches.run_eq (h : Consumes turn) {s s' : σ} {bs rest : List UInt8}
    (hreaches : Reaches turn s bs s' rest) : run turn s bs = run turn s' rest := by
  induction hreaches with
  | refl => rfl
  | again hturn _ ih => exact (run_again h hturn).trans ih

/-- The last turn is the same from there. -/
theorem Reaches.getLast_starts (h : Consumes turn) {s s' : σ} {bs rest : List UInt8}
    (hreaches : Reaches turn s bs s' rest) :
    (starts turn s bs).getLast? = (starts turn s' rest).getLast? := by
  induction hreaches with
  | refl => rfl
  | @again s s' s'' bs rest rest' hturn _ ih =>
    have hne : starts turn s' rest ≠ [] := List.ne_nil_of_mem (mem_starts s' rest)
    rw [starts_again h hturn, List.getLast?_cons, ← ih, List.getLast?_eq_some_getLast hne]
    rfl

variable {μ : Type} {enc : μ → List UInt8} {next : σ → μ → σ}

/-- If every turn reads one message, a sequence of them is a fold. -/
theorem reaches_messages {ms : List μ}
    (hturn : ∀ m ∈ ms, ∀ s tail, turn s (enc m ++ tail) = .again (next s m) tail) (s : σ)
    (tail : List UInt8) :
    Reaches turn s ((ms.map enc).flatten ++ tail) (ms.foldl next s) tail := by
  induction ms generalizing s with
  | nil => exact .refl s tail
  | cons m ms ih =>
    rw [List.map_cons, List.flatten_cons, List.append_assoc, List.foldl_cons]
    exact .again (hturn m List.mem_cons_self s _)
      (ih (fun m' hm' => hturn m' (List.mem_cons_of_mem m hm')) _)

/-- **A run over messages.** -/
theorem run_messages (h : Consumes turn) {ms : List μ}
    (hturn : ∀ m ∈ ms, ∀ s tail, turn s (enc m ++ tail) = .again (next s m) tail) (s : σ)
    (tail : List UInt8) :
    run turn s ((ms.map enc).flatten ++ tail) = run turn (ms.foldl next s) tail :=
  (reaches_messages hturn s tail).run_eq h

/-! ## Streams of which a part has come

While a stream is still arriving, the loop has taken the turns for which there was enough. What
it has done by then is no more than what it does on the whole stream, in any order on its states
that its turns respect; and the turn in which it waits begins at a message. -/

section Parts

variable {R : σ → σ → Prop} {I : σ → Prop} {v : ρ → σ} {last : List UInt8}

/-- A fold of steps that all lead upwards leads upwards, and keeps the invariant that they need. -/
theorem foldl_grows (hrefl : ∀ s, R s s) (htrans : ∀ {s t u}, R s t → R t u → R s u) {ms : List μ}
    (hgrows : ∀ m ∈ ms, ∀ s, I s → R s (next s m) ∧ I (next s m)) {s : σ} (hs : I s) :
    R s (ms.foldl next s) ∧ I (ms.foldl next s) := by
  induction ms generalizing s with
  | nil => exact ⟨hrefl s, hs⟩
  | cons m ms ih =>
    obtain ⟨hR, hI⟩ := hgrows m List.mem_cons_self s hs
    exact (ih (fun m' hm' => hgrows m' (List.mem_cons_of_mem m hm')) hI).imp_left (htrans hR)

/-- **A part of a stream.** What the loop has got to, when a part of some messages has come, is not
behind what they lead to, if that is so for a part of one message. -/
theorem run_part (h : Consumes turn) (hrefl : ∀ s, R s s)
    (htrans : ∀ {s t u}, R s t → R t u → R s u)
    {ms : List μ} (hturn : ∀ m ∈ ms, ∀ s tail, turn s (enc m ++ tail) = .again (next s m) tail)
    (hgrows : ∀ m ∈ ms, ∀ s, I s → R s (next s m) ∧ I (next s m))
    (hpart : ∀ m ∈ ms, ∀ s xs ys, I s → enc m = xs ++ ys → ys ≠ [] →
      ∃ r rest, run turn s xs = some (r, rest) ∧ R (v r) (next s m))
    (hlast : ∀ s xs, I s → xs <+: last → ∃ r rest, run turn s xs = some (r, rest) ∧ R (v r) s)
    {bs : List UInt8} (hbs : bs <+: (ms.map enc).flatten ++ last) {s : σ} (hs : I s) :
    ∃ r rest, run turn s bs = some (r, rest) ∧ R (v r) (ms.foldl next s) := by
  induction ms generalizing s bs with
  | nil => exact hlast s bs hs hbs
  | cons m ms ih =>
    have hgrows' := fun m' hm' => hgrows m' (List.mem_cons_of_mem m hm')
    have ih := @ih (fun m' hm' => hturn m' (List.mem_cons_of_mem m hm')) hgrows'
      (fun m' hm' => hpart m' (List.mem_cons_of_mem m hm'))
    obtain ⟨hR, hI⟩ := hgrows m List.mem_cons_self s hs
    obtain ⟨ys, hys⟩ := hbs
    rw [List.map_cons, List.flatten_cons, List.append_assoc] at hys
    rw [List.foldl_cons]
    rcases List.append_eq_append_iff.mp hys with ⟨zs, henc, hzs⟩ | ⟨zs, rfl, hzs⟩
    · by_cases hnil : zs = []
      · -- the message, and nothing behind it
        rw [hnil, List.append_nil] at henc
        have hagain := hturn m List.mem_cons_self s []
        rw [List.append_nil, henc] at hagain
        rw [run_again h hagain]
        exact ih (List.nil_prefix) hI
      · obtain ⟨r, rest, hrun, hview⟩ := hpart m List.mem_cons_self s bs zs hs henc hnil
        exact ⟨r, rest, hrun, htrans hview (foldl_grows hrefl htrans hgrows' hI).1⟩
    · rw [run_again h (hturn m List.mem_cons_self s zs)]
      exact ih ⟨ys, hzs.symm⟩ hI

/-- **Where the last turn begins.** When a part of some messages has come, and no part of one
message ends in a turn as described by `p`, a last turn of that kind is one behind all of the
messages. -/
theorem getLast_part (h : Consumes turn) {p : List UInt8 → Prop} {ms : List μ}
    (hturn : ∀ m ∈ ms, ∀ s tail, turn s (enc m ++ tail) = .again (next s m) tail)
    (hpart : ∀ m ∈ ms, ∀ s xs ys, enc m = xs ++ ys → ys ≠ [] →
      ∀ x ∈ (starts turn s xs).getLast?, ¬p x)
    {bs x : List UInt8} (hbs : bs <+: (ms.map enc).flatten ++ last) {s : σ}
    (hx : x ∈ (starts turn s bs).getLast?) (hp : p x) :
    ∃ xs, xs <+: last ∧ bs = (ms.map enc).flatten ++ xs ∧
      x ∈ (starts turn (ms.foldl next s) xs).getLast? := by
  induction ms generalizing s bs with
  | nil => exact ⟨bs, hbs, rfl, hx⟩
  | cons m ms ih =>
    have ih := @ih (fun m' hm' => hturn m' (List.mem_cons_of_mem m hm'))
      (fun m' hm' => hpart m' (List.mem_cons_of_mem m hm'))
    obtain ⟨ys, hys⟩ := hbs
    rw [List.map_cons, List.flatten_cons, List.append_assoc] at hys
    simp only [List.map_cons, List.flatten_cons, List.append_assoc, List.foldl_cons]
    rcases List.append_eq_append_iff.mp hys with ⟨zs, henc, hzs⟩ | ⟨zs, rfl, hzs⟩
    · by_cases hnil : zs = []
      · -- the message, and nothing behind it
        rw [hnil, List.append_nil] at henc
        have hagain := hturn m List.mem_cons_self s []
        rw [List.append_nil, henc] at hagain
        rw [(Reaches.again hagain (.refl _ _)).getLast_starts h] at hx
        obtain ⟨xs, hxs, heq, hlast⟩ := ih List.nil_prefix hx
        exact ⟨xs, hxs, by rw [← heq, List.append_nil, henc], hlast⟩
      · exact absurd hp (hpart m List.mem_cons_self s bs zs henc hnil x hx)
    · have hagain := hturn m List.mem_cons_self s zs
      rw [(Reaches.again hagain (.refl _ _)).getLast_starts h] at hx
      obtain ⟨xs, hxs, heq, hlast⟩ := ih ⟨ys, hzs.symm⟩ hx
      exact ⟨xs, hxs, by rw [← heq], hlast⟩

end Parts

/-! ## Turns that decode

The body of a loop is often one decoder: a turn succeeds with what it accepts, and the loop goes
round or stops by the result. The two lemmas on failures say that a turn that fails has written
nothing. -/

/-- Where a turn leads to, the stream aside. -/
inductive Flow (σ ρ : Type) where
  /-- Round again, in state `s`. -/
  | again (s : σ)
  /-- The loop is over. -/
  | stop (r : ρ)
  deriving DecidableEq

variable {ε : Type}

/-- The turn of a loop whose body decodes and then writes; what has been written so far is part of
the loop's state. -/
def ofDecoder (body : σ → Decoder ε (Flow σ ρ × List UInt8)) (s : σ × List UInt8)
    (bs : List UInt8) : Turn (σ × List UInt8) (Except ε ρ × List UInt8) :=
  match (body s.1).outcome bs with
  | (.ok (.again s', written), rest) => .again (s', s.2 ++ written) rest
  | (.ok (.stop r, written), rest) => .stop (.ok r, s.2 ++ written) rest
  | (.error e, rest) => .stop (.error e, s.2) rest

variable {body : σ → Decoder ε (Flow σ ρ × List UInt8)} {s : σ × List UInt8}
  {xs written : List UInt8}

/-- A turn whose body accepts what is in front and goes round. -/
theorem ofDecoder_again {s' : σ} (h : (body s.1).Accepts xs (.again s', written))
    (rest : List UInt8) : ofDecoder body s (xs ++ rest) = .again (s', s.2 ++ written) rest := by
  rw [ofDecoder, h.outcome]

/-- One whose body accepts it and stops. -/
theorem ofDecoder_stop {r : ρ} (h : (body s.1).Accepts xs (.stop r, written))
    (rest : List UInt8) : ofDecoder body s (xs ++ rest) = .stop (.ok r, s.2 ++ written) rest := by
  rw [ofDecoder, h.outcome]

/-- One whose body fails behind it: nothing is written. -/
theorem ofDecoder_error {e : ε} (h : (body s.1).after xs = some (.fail e)) (rest : List UInt8) :
    ofDecoder body s (xs ++ rest) = .stop (.error e, s.2) rest := by
  rw [ofDecoder, Decoder.outcome_of_after h]
  rfl

/-- One whose body fails somewhere in it. -/
theorem ofDecoder_refuses (h : (body s.1).Refuses xs) (rest : List UInt8) :
    ∃ e rest', ofDecoder body s (xs ++ rest) = .stop (.error e, s.2) rest' := by
  obtain ⟨us, vs, e, rfl, hafter⟩ := h
  rw [List.append_assoc]
  exact ⟨e, _, ofDecoder_error hafter _⟩

/-- **Turns that decode consume.** -/
theorem consumes_ofDecoder (h : ∀ s, ¬ (body s).Halted) : Consumes (ofDecoder body) := by
  intro s bs s' rest hturn
  rw [ofDecoder] at hturn
  split at hturn
  · rename_i hout
    obtain ⟨-, rfl⟩ := Turn.again.inj hturn
    exact Decoder.length_outcome_lt (h s.1) hout
  · cases hturn
  · cases hturn

end Loop
