import Dssh.Lib.Utf8
import Mathlib.Data.List.TakeWhile

/-!
# Parsing expression grammars

Parsers of text that commit: a choice is ordered, a repetition takes what it can get, and
neither is reconsidered when what follows them does not match. A parser sees the characters in
front of it and the number of bytes behind it, which is what the positions it reports are
counted in.

That a parser stops within its input, and counts what it has consumed, is a field of its type.

## What kind of parser this is

A parser generator turns a grammar of ordered rules into functions from a position to a result
and a position, and reports positions as byte offsets. `Peg.run` is that function. The
expressions below are the ones that such grammars are written with — sequence, `/`, `*`, `+`,
`?`, `$(…)`, `&`, `!`, position and conversion — each under a name of its own, so that a grammar
is translated rule by rule and can be read next to its source.

There are no error reports. A parser either matches or does not; the *furthest failure* that
generators collect for their messages is of interest to a program only if it looks at it.

There is no memoisation and no left recursion either. The first does not change results, the
second is refused by the types: a rule is a definition, and one that calls itself at the same
place is not accepted.

## Committing

The meaning of an ordered choice is that the second alternative is tried only if the first
*fails*, and of a repetition that it ends only when the item fails. So a specification by what
is consumed is not enough on its own, and there are two predicates: `Reads`, which says what is
consumed in front of what, and `Fails`. Both mention the rest of the text, as it decides where a
parser stops. They exclude each other and exhaust the possibilities (`Reads.not_fails`,
`exists_reads_or_fails`).

Every expression has its rules for both. Where a rule can be stated as an equivalence it is
(`…_iff`); these take a grammar apart in a proof that starts from "the text has been parsed".

## Repetitions

`many p` runs for at most as many rounds as there are characters left. For an item that consumes
something (`Progresses`) that is no bound at all, by `items_of_le`; for one that does not, the
loop of a generated parser would not end, and no statement is made.

## Positions

A position is the number of *bytes* behind the cursor, while the text is a list of characters.
`Cursor` carries both and the field `advances` keeps them in step, so the offset a rule reports
is the byte length of what has been consumed by a theorem about the type and not about each
rule.

## Main definitions

* `Peg` — the parsers, a monad; `Peg.parse` runs one on a whole text
* `Peg.Reads` — the parser consumes exactly these characters in front of those, with a result
* `Peg.Fails` — the parser does not match
* `Peg.Stops` — the next character is not in a class

## Main results

* `Peg.Reads.unique` — what is consumed is determined by the text
* `Peg.Reads.bind`, `Peg.reads_bind_iff` — sequencing concatenates what is consumed
* `Peg.Fails.orElse`, `Peg.reads_orElse_iff` — the second alternative is for when the first one
  fails
* `Peg.Reads.span` — a repeated class of characters consumes all there are
* `Peg.Reads.many_cons` — a repetition, item by item
-/

/-- What is in front of the first `d` is determined by the whole. -/
theorem append_cons_unique {d : Char} {x x' z z' : List Char} (hx : d ∉ x) (hx' : d ∉ x')
    (h : x ++ d :: z = x' ++ d :: z') : x = x' ∧ z = z' := by
  induction x generalizing x' with
  | nil =>
    cases x' with
    | nil => exact ⟨rfl, (List.cons.inj h).2⟩
    | cons c x' => exact absurd ((List.cons.inj h).1 ▸ List.mem_cons_self) hx'
  | cons c x ih =>
    cases x' with
    | nil => exact absurd ((List.cons.inj h).1 ▸ List.mem_cons_self) hx
    | cons c' x' =>
      obtain ⟨rfl, htail⟩ := List.cons.inj h
      obtain ⟨rfl, hz⟩ :=
        ih (List.not_mem_of_not_mem_cons hx) (List.not_mem_of_not_mem_cons hx') htail
      exact ⟨rfl, hz⟩

/-! ## Parsers

A parser is given a place in the text and finds no match or a result and a place further on. That
it never goes back is part of the type, so that a repetition ends without a proof at each use. -/

/-- A place in a text: the number of bytes behind it, and the characters in front of it. -/
structure Cursor where
  /-- The number of bytes behind. -/
  offset : ℕ
  /-- The characters in front. -/
  rest : List Char
  deriving DecidableEq, Repr

/-- `j` is behind `i`, and everything between them has been counted. -/
def Cursor.Advances (i j : Cursor) : Prop :=
  ∃ x, i.rest = x ++ j.rest ∧ j.offset = i.offset + byteLen x

/-- Not moving is advancing. -/
theorem Cursor.Advances.refl (i : Cursor) : i.Advances i := ⟨[], rfl, rfl⟩

/-- Advancing twice is advancing. -/
theorem Cursor.Advances.trans {i j k : Cursor} (h : i.Advances j) (h' : j.Advances k) :
    i.Advances k := by
  obtain ⟨x, hx, hoffset⟩ := h
  obtain ⟨y, hy, hoffset'⟩ := h'
  refine ⟨x ++ y, by rw [hx, hy, List.append_assoc], ?_⟩
  rw [hoffset', hoffset, byteLen_append, Nat.add_assoc]

/-- A parser with results in `α`: no match, or a result and a place further on. -/
structure Peg (α : Type) where
  /-- What it makes of a place in a text. -/
  run : Cursor → Option (α × Cursor)
  /-- It goes forward, and counts the bytes it passes. -/
  advances : ∀ {i : Cursor} {a : α} {j : Cursor}, run i = some (a, j) → i.Advances j

namespace Peg

variable {α β : Type}

/-! ## The expressions

The expressions of the generator, each with the meaning that its documentation gives it. A
repetition is greedy and does not give anything back; a choice is settled when an alternative has
matched, and what comes later cannot reopen it. -/

/-- Match one parser after the other. -/
def bind (p : Peg α) (f : α → Peg β) : Peg β where
  run i := (p.run i).bind fun r => (f r.1).run r.2
  advances h := by
    obtain ⟨⟨a, j⟩, hp, hf⟩ := Option.bind_eq_some_iff.mp h
    exact (p.advances hp).trans ((f a).advances hf)

instance : Monad Peg where
  pure a := ⟨fun i => some (a, i), fun {i _ j} h => by
    obtain ⟨-, rfl⟩ := Prod.mk.inj (Option.some.inj h)
    exact .refl i⟩
  bind := bind

/-- Ordered choice. -/
protected def orElse (p q : Peg α) : Peg α where
  run i := (p.run i).or (q.run i)
  advances {i a j} h := by
    rcases Option.or_eq_some_iff.mp h with h | ⟨-, h⟩
    · exact p.advances h
    · exact q.advances h

instance : OrElse (Peg α) := ⟨fun p q => p.orElse (q ())⟩

/-- One character of a class. -/
def satisfy (f : Char → Bool) : Peg Char where
  run
    | ⟨_, []⟩ => none
    | ⟨n, c :: cs⟩ => if f c then some (c, ⟨n + c.utf8Size, cs⟩) else none
  advances {i a j} h := by
    obtain ⟨n, cs⟩ := i
    cases cs with
    | nil => cases h
    | cons c cs =>
      dsimp only at h
      split_ifs at h
      obtain ⟨rfl, rfl⟩ := Prod.mk.inj (Option.some.inj h)
      exact ⟨[c], rfl, rfl⟩

/-- These characters. -/
def lit : List Char → Peg Unit
  | [] => pure ()
  | c :: cs => do
    let _ ← satisfy (· = c)
    lit cs

/-- The items of a repetition, and the place behind them. The number bounds the rounds. -/
def items (p : Peg α) : ℕ → Cursor → List α × Cursor
  | 0, i => ([], i)
  | n + 1, i =>
    match p.run i with
    | none => ([], i)
    | some (a, j) => (a :: (items p n j).1, (items p n j).2)

/-- The rounds of a repetition advance together. -/
theorem items_advances (p : Peg α) (n : ℕ) (i : Cursor) : i.Advances (items p n i).2 := by
  induction n generalizing i with
  | zero => exact .refl i
  | succ n ih =>
    rw [items]
    split
    · exact .refl i
    · rename_i a j hrun
      exact (p.advances hrun).trans (ih j)

/-- `p*`, for a `p` that consumes something. -/
def many (p : Peg α) : Peg (List α) where
  run i := some (items p i.rest.length i)
  advances {i a j} h := by
    obtain rfl : (items p i.rest.length i).2 = j := congrArg Prod.snd (Option.some.inj h)
    exact items_advances p _ i

/-- `p+`. -/
def many1 (p : Peg α) : Peg (List α) := do
  let a ← p
  let as ← many p
  pure (a :: as)

/-- `p?`. -/
def optional (p : Peg α) : Peg (Option α) := (do let a ← p; pure (some a)) <|> pure none

/-- `$(p)`: the text that `p` consumes. -/
def slice (p : Peg α) : Peg (List Char) where
  run i := (p.run i).map fun r => (i.rest.take (i.rest.length - r.2.rest.length), r.2)
  advances h := by
    obtain ⟨⟨a, j⟩, hp, heq⟩ := Option.map_eq_some_iff.mp h
    obtain ⟨-, rfl⟩ := Prod.mk.inj heq
    exact p.advances hp

/-- The number of bytes behind. -/
def position : Peg ℕ :=
  ⟨fun i => some (i.offset, i), fun {i _ j} h => by
    obtain ⟨-, rfl⟩ := Prod.mk.inj (Option.some.inj h)
    exact .refl i⟩

/-- `&p`: `p` matches here. -/
def lookahead (p : Peg α) : Peg Unit where
  run i := (p.run i).map fun _ => ((), i)
  advances {i _ j} h := by
    obtain ⟨-, -, heq⟩ := Option.map_eq_some_iff.mp h
    obtain ⟨-, rfl⟩ := Prod.mk.inj heq
    exact .refl i

/-- `!p`: `p` does not match here. -/
def notFollowedBy (p : Peg α) : Peg Unit where
  run i := if (p.run i).isNone then some ((), i) else none
  advances {i _ j} h := by
    split_ifs at h
    obtain ⟨-, rfl⟩ := Prod.mk.inj (Option.some.inj h)
    exact .refl i

/-- `p {? f }`: the result is converted, or there is no match. -/
def tryMap (p : Peg α) (f : α → Option β) : Peg β where
  run i := (p.run i).bind fun r => (f r.1).map fun b => (b, r.2)
  advances h := by
    obtain ⟨⟨a, j⟩, hp, heq⟩ := Option.bind_eq_some_iff.mp h
    obtain ⟨b, -, heq⟩ := Option.map_eq_some_iff.mp heq
    obtain ⟨-, rfl⟩ := Prod.mk.inj heq
    exact p.advances hp

/-- Match a text to its end. -/
def parse (p : Peg α) (s : List Char) : Option α :=
  match p.run ⟨0, s⟩ with
  | some (a, ⟨_, []⟩) => some a
  | _ => none

/-! ## Matching

`Reads` says what a parser consumes, with what follows as an argument, since a lookahead or a
greedy repetition depends on it. `Fails` is its counterpart. A parser does exactly one of the
two, and this is how a text is shown not to be parsed. -/

/-- With `n` bytes behind, `p` consumes exactly `x` in front of `r`. -/
def Reads (p : Peg α) (n : ℕ) (x : List Char) (a : α) (r : List Char) : Prop :=
  p.run ⟨n, x ++ r⟩ = some (a, ⟨n + byteLen x, r⟩)

/-- With `n` bytes behind, `p` does not match `s`. -/
def Fails (p : Peg α) (n : ℕ) (s : List Char) : Prop := p.run ⟨n, s⟩ = none

variable {p q : Peg α} {f : α → Peg β} {n : ℕ} {x y r s : List Char} {a : α} {b : β}

/-- A parser that consumes something does not fail. -/
theorem Reads.not_fails (h : p.Reads n x a r) : ¬ p.Fails n (x ++ r) := by
  intro hfails
  cases h.symm.trans hfails

/-- One that does not fail consumes something. -/
theorem exists_reads_or_fails (p : Peg α) (n : ℕ) (s : List Char) :
    p.Fails n s ∨ ∃ x a r, s = x ++ r ∧ p.Reads n x a r := by
  cases hrun : p.run ⟨n, s⟩ with
  | none => exact Or.inl hrun
  | some q =>
    obtain ⟨a, m, r⟩ := q
    obtain ⟨x, hx, hm⟩ := p.advances hrun
    dsimp only at hx hm
    refine Or.inr ⟨x, a, r, hx, ?_⟩
    rw [Reads, ← hx, ← hm]
    exact hrun

/-- What is consumed in front of a text is determined by the whole. -/
theorem Reads.unique {x' r' : List Char} {a' : α} (h : p.Reads n x a r) (h' : p.Reads n x' a' r')
    (heq : x ++ r = x' ++ r') : x = x' ∧ a = a' ∧ r = r' := by
  rw [Reads, heq] at h
  obtain ⟨rfl, hcursor⟩ := Prod.mk.inj (Option.some.inj (h.symm.trans h'))
  obtain rfl := (Cursor.mk.inj hcursor).2
  exact ⟨List.append_cancel_right heq, rfl, rfl⟩

/-- So it fails where there is nothing that it could consume. -/
theorem fails_of_not_reads (h : ∀ x a r, s = x ++ r → ¬ p.Reads n x a r) : p.Fails n s := by
  rcases exists_reads_or_fails p n s with hfails | ⟨x, a, r, hs, hreads⟩
  · exact hfails
  · exact absurd hreads (h x a r hs)

/-- Parsing a text is consuming all of it. -/
theorem parse_eq_some_iff : p.parse s = some a ↔ p.Reads 0 s a [] := by
  rw [parse, Reads, List.append_nil]
  constructor
  · intro h
    split at h
    · rename_i a' m hrun
      obtain rfl := Option.some.inj h
      obtain ⟨x, hx, hm⟩ := p.advances hrun
      dsimp only at hx hm
      rw [hrun, hm, hx, List.append_nil]
    · cases h
  · intro h
    rw [h]

/-- A parser that commits to less than the text does not parse it. -/
theorem parse_eq_none (h : p.Reads n x a r) (hn : n = 0) (hr : r ≠ []) :
    p.parse (x ++ r) = none := by
  subst hn
  rw [Reads] at h
  rw [parse, h]
  cases r with
  | nil => exact absurd rfl hr
  | cons c r => rfl

/-! ### Sequences

What a sequence consumes is what its parts consume, where the first part has what the second
consumes in front of it. A rule of a grammar is a sequence of this kind, and is read from left to
right by these lemmas. -/

@[simp] theorem reads_pure_iff {a' : α} :
    (pure a : Peg α).Reads n x a' r ↔ x = [] ∧ a' = a := by
  change some (a, Cursor.mk n (x ++ r)) = some (a', ⟨n + byteLen x, r⟩) ↔ _
  constructor
  · intro h
    obtain ⟨rfl, hcursor⟩ := Prod.mk.inj (Option.some.inj h)
    exact ⟨List.append_left_eq_self.mp (Cursor.mk.inj hcursor).2, rfl⟩
  · rintro ⟨rfl, rfl⟩
    rfl

theorem reads_pure (n : ℕ) (a : α) (r : List Char) : (pure a : Peg α).Reads n [] a r := rfl

/-- **Sequences.** What the two parts consume, one behind the other. -/
theorem Reads.bind (h : p.Reads n x a (y ++ r)) (hf : (f a).Reads (n + byteLen x) y b r) :
    (p >>= f).Reads n (x ++ y) b r := by
  change (p.run _).bind _ = _
  rw [Reads] at h
  rw [List.append_assoc, h, byteLen_append, ← Nat.add_assoc]
  exact hf

/-- A sequence whose second part consumes nothing. -/
theorem Reads.bind_nil (h : p.Reads n x a r) (hf : (f a).Reads (n + byteLen x) [] b r) :
    (p >>= f).Reads n x b r := by
  have hbind := Reads.bind (y := []) h hf
  rwa [List.append_nil] at hbind

/-- **Sequences**, from both sides. -/
theorem reads_bind_iff : (p >>= f).Reads n s b r ↔
    ∃ x y a, s = x ++ y ∧ p.Reads n x a (y ++ r) ∧ (f a).Reads (n + byteLen x) y b r := by
  constructor
  · intro h
    obtain ⟨⟨a, m, t⟩, hp, hf⟩ := Option.bind_eq_some_iff.mp h
    obtain ⟨x, hx, hm⟩ := p.advances hp
    obtain ⟨y, hy, hoffset⟩ := (f a).advances hf
    dsimp only at hx hm hy hoffset hf
    subst hm hy
    have hs : s = x ++ y := by
      rw [← List.append_assoc] at hx
      exact List.append_cancel_right hx
    refine ⟨x, y, a, hs, ?_, ?_⟩
    · rw [Reads, ← hx]
      exact hp
    · rw [Reads, ← hoffset]
      exact hf
  · rintro ⟨x, y, a, rfl, hp, hf⟩
    exact hp.bind hf

/-- A sequence that only converts the result. -/
theorem reads_map_iff {g : α → β} :
    (p >>= fun a => pure (g a)).Reads n x b r ↔ ∃ a, p.Reads n x a r ∧ b = g a := by
  rw [reads_bind_iff]
  constructor
  · rintro ⟨y, z, a, rfl, hp, hg⟩
    obtain ⟨rfl, rfl⟩ := reads_pure_iff.mp hg
    exact ⟨a, by rwa [List.append_nil], rfl⟩
  · rintro ⟨a, hp, rfl⟩
    exact ⟨x, [], a, (List.append_nil x).symm, hp, reads_pure _ _ r⟩

/-- A sequence fails where its first part does … -/
theorem Fails.bind (h : p.Fails n s) : (p >>= f).Fails n s := by
  change (p.run _).bind _ = none
  rw [Fails] at h
  rw [h]
  rfl

/-- … and where its second part does, behind what the first one consumes. -/
theorem Reads.bind_fails (h : p.Reads n x a s) (hf : (f a).Fails (n + byteLen x) s) :
    (p >>= f).Fails n (x ++ s) := by
  change (p.run _).bind _ = none
  rw [Reads] at h
  rw [h]
  exact hf

/-! ### Choices

The second alternative is reached only where the first has failed, and to use it in a proof, this
failure has to be shown. It is the price of having no ambiguity, and in the grammars it is mostly
one character that decides. -/

/-- The first alternative wins. -/
theorem Reads.orElse (h : p.Reads n x a r) : (p <|> q).Reads n x a r := by
  change (p.run _).or _ = _
  rw [Reads] at h
  rw [h]
  rfl

/-- **The second alternative** is for where the first one fails. -/
theorem Fails.orElse (h : p.Fails n (x ++ r)) (hq : q.Reads n x a r) :
    (p <|> q).Reads n x a r := by
  change (p.run _).or _ = _
  rw [Fails] at h
  rw [h]
  exact hq

/-- A choice fails where both alternatives do. -/
theorem Fails.orElse_fails (h : p.Fails n s) (hq : q.Fails n s) : (p <|> q).Fails n s := by
  change (p.run _).or _ = none
  rw [Fails] at h
  rw [h]
  exact hq

/-- **Choices**, from both sides. -/
theorem reads_orElse_iff : (p <|> q).Reads n x a r ↔
    p.Reads n x a r ∨ p.Fails n (x ++ r) ∧ q.Reads n x a r :=
  Option.or_eq_some_iff

/-! ### Characters

A class of characters matches one of them. What stops a text is the next character that is not in
the class, or the end, and both are treated as one. -/

/-- One character of the class. -/
theorem reads_satisfy {f : Char → Bool} {c : Char} (h : f c) (n : ℕ) (r : List Char) :
    (satisfy f).Reads n [c] c r := if_pos h

/-- And nothing else. -/
theorem reads_satisfy_iff {f : Char → Bool} {c : Char} :
    (satisfy f).Reads n x c r ↔ x = [c] ∧ f c := by
  constructor
  · intro h
    rcases x with _ | ⟨d, x⟩
    · -- the empty text is left as it is
      rcases r with _ | ⟨d, r⟩
      · cases h
      · change (if f d then _ else none) = _ at h
        split_ifs at h
        have hlength := congrArg (fun t => t.2.rest.length) (Option.some.inj h)
        simp at hlength
    · change (if f d then _ else none) = _ at h
      split_ifs at h with hd
      obtain ⟨rfl, hcursor⟩ := Prod.mk.inj (Option.some.inj h)
      obtain rfl := List.append_left_eq_self.mp (Cursor.mk.inj hcursor).2
      exact ⟨rfl, hd⟩
  · rintro ⟨rfl, h⟩
    exact reads_satisfy h n r

/-- The next character, if there is one, is not in the class. -/
def Stops (f : Char → Bool) (s : List Char) : Prop := ∀ c ∈ s.head?, f c = false

/-- There is no next character. -/
theorem stops_nil (f : Char → Bool) : Stops f [] := by
  intro c hc
  cases hc

/-- There is one. -/
theorem stops_cons {f : Char → Bool} {c : Char} {s : List Char} :
    Stops f (c :: s) ↔ f c = false := by
  simp [Stops]

/-- A class fails where the text stops. -/
theorem fails_satisfy {f : Char → Bool} (h : Stops f s) (n : ℕ) : (satisfy f).Fails n s := by
  cases s with
  | nil => rfl
  | cons c s => exact if_neg (by rw [stops_cons.mp h]; exact Bool.false_ne_true)

/-- A literal consumes itself. -/
theorem reads_lit (n : ℕ) (s r : List Char) : (lit s).Reads n s () r := by
  induction s generalizing n with
  | nil => exact reads_pure n () r
  | cons c s ih => exact Reads.bind (x := [c]) (reads_satisfy (by simp) n _) (ih _)

/-- And nothing else. -/
theorem reads_lit_iff {t : List Char} {u : Unit} : (lit t).Reads n x u r ↔ x = t := by
  constructor
  · induction t generalizing n x with
    | nil => exact fun h => (reads_pure_iff.mp h).1
    | cons c t ih =>
      intro h
      obtain ⟨y, z, d, rfl, hc, hz⟩ := reads_bind_iff.mp h
      obtain ⟨rfl, hd⟩ := reads_satisfy_iff.mp hc
      rw [ih hz, of_decide_eq_true hd]
      rfl
  · rintro rfl
    exact reads_lit n x r

/-- A sequence that begins with a literal. -/
theorem reads_lit_bind_iff {t : List Char} {q : Peg β} :
    (lit t >>= fun _ => q).Reads n x b r ↔ ∃ y, x = t ++ y ∧ q.Reads (n + byteLen t) y b r := by
  rw [reads_bind_iff]
  constructor
  · rintro ⟨t', y, u, rfl, ht, hq⟩
    obtain rfl := reads_lit_iff.mp ht
    exact ⟨y, rfl, hq⟩
  · rintro ⟨y, rfl, hq⟩
    exact ⟨t, y, (), rfl, reads_lit n t _, hq⟩

/-- A literal fails where it is not in front. -/
theorem fails_lit {t : List Char} (h : ¬ t <+: s) (n : ℕ) : (lit t).Fails n s := by
  rcases exists_reads_or_fails (lit t) n s with hfails | ⟨x, u, r, rfl, hreads⟩
  · exact hfails
  · obtain rfl := reads_lit_iff.mp hreads
    exact absurd (List.prefix_append x r) h

/-- For that, its first character is enough. -/
theorem fails_lit_cons {c : Char} {t : List Char} (h : s.head? ≠ some c) (n : ℕ) :
    (lit (c :: t)).Fails n s := by
  refine fails_lit (fun hprefix => h ?_) n
  obtain ⟨r, rfl⟩ := hprefix
  rfl

/-! ### Repetitions

A repetition takes as many items as match. For a class of characters this has a closed form: it
consumes the longest beginning whose characters are all in the class, and what follows stops it. -/

/-- Every match consumes something. -/
def Progresses (p : Peg α) : Prop :=
  ∀ {i : Cursor} {a : α} {j : Cursor}, p.run i = some (a, j) → j.rest.length < i.rest.length

/-- More rounds than there are characters are never needed. -/
theorem items_of_le (hp : p.Progresses) {m : ℕ} {i : Cursor} (h : i.rest.length ≤ m) :
    items p m i = items p i.rest.length i := by
  induction m using Nat.strongRecOn generalizing i with
  | ind m ih =>
    cases m with
    | zero => rw [Nat.le_zero.mp h]
    | succ m =>
      cases hlength : i.rest.length with
      | zero =>
        -- nothing is left to consume
        rw [items, items]
        cases hrun : p.run i with
        | none => rfl
        | some t =>
          have := hp hrun
          omega
      | succ k =>
        rw [items, items]
        cases hrun : p.run i with
        | none => rfl
        | some t =>
          obtain ⟨a, j⟩ := t
          have hj := hp hrun
          dsimp only
          rw [ih m (Nat.lt_succ_self m) (i := j) (by omega), ih k (by omega) (i := j) (by omega)]

/-- **A repetition, item by item.** -/
theorem Reads.many_cons {vs : List α} (hp : p.Progresses) (h : p.Reads n x a (y ++ r))
    (hmany : (many p).Reads (n + byteLen x) y vs r) : (many p).Reads n (x ++ y) (a :: vs) r := by
  rw [Reads] at h
  have hlt := hp h
  dsimp only at hlt
  have hitems : items p (y ++ r).length ⟨n + byteLen x, y ++ r⟩ =
      (vs, ⟨n + byteLen x + byteLen y, r⟩) := Option.some.inj hmany
  obtain ⟨m, hm⟩ : ∃ m, (x ++ (y ++ r)).length = m + 1 := ⟨_, (Nat.succ_pred (by omega)).symm⟩
  change some (items p _ _) = _
  rw [List.append_assoc, hm, items, h]
  dsimp only
  rw [items_of_le hp (by dsimp only; omega), hitems, byteLen_append, ← Nat.add_assoc]

/-- It ends where the item fails. -/
theorem Fails.many_nil (h : p.Fails n r) : (many p).Reads n [] [] r := by
  rw [Fails] at h
  change some (items p _ _) = _
  rw [List.nil_append]
  cases r.length with
  | zero => rfl
  | succ m =>
    rw [items, h]
    rfl

/-- A parser that never consumes nothing makes progress. -/
theorem progresses_of_reads (h : ∀ {n x a r}, p.Reads n x a r → x ≠ []) : p.Progresses := by
  intro i a j hrun
  obtain ⟨x, hx, hoffset⟩ := p.advances hrun
  have hreads : p.Reads i.offset x a j.rest := by
    rw [Reads, ← hx, ← hoffset]
    exact hrun
  rw [hx, List.length_append]
  exact Nat.lt_add_of_pos_left (List.length_pos_iff.mpr (h hreads))

/-- A character is progress. -/
theorem progresses_satisfy (f : Char → Bool) : (satisfy f).Progresses := by
  refine progresses_of_reads fun h => ?_
  rw [(reads_satisfy_iff.mp h).1]
  exact List.cons_ne_nil _ _

/-- A repeated class of characters consumes all there are. -/
theorem Reads.span {f : Char → Bool} (hx : ∀ c ∈ x, f c) (hr : Stops f r) (n : ℕ) :
    (many (satisfy f)).Reads n x x r := by
  induction x generalizing n with
  | nil => exact (fails_satisfy hr n).many_nil
  | cons c x ih =>
    obtain ⟨hc, hx⟩ := List.forall_mem_cons.mp hx
    exact Reads.many_cons (x := [c]) (progresses_satisfy f) (reads_satisfy hc n _) (ih hx _)

/-- Every text begins with such characters, as many as there are. -/
theorem exists_span (f : Char → Bool) (s : List Char) :
    ∃ x r, s = x ++ r ∧ (∀ c ∈ x, f c) ∧ Stops f r := by
  refine ⟨s.takeWhile f, s.dropWhile f, (List.takeWhile_append_dropWhile).symm,
    fun c hc => List.mem_takeWhile_imp hc, ?_⟩
  intro c hc
  have hnot := List.head?_dropWhile_not f s
  rw [Option.mem_def.mp hc] at hnot
  exact hnot

/-- A repeated class of characters, from both sides. -/
theorem reads_span_iff {f : Char → Bool} {cs : List Char} :
    (many (satisfy f)).Reads n x cs r ↔ cs = x ∧ (∀ c ∈ x, f c) ∧ Stops f r := by
  constructor
  · intro h
    obtain ⟨y, t, hyt, hy, ht⟩ := exists_span f (x ++ r)
    obtain ⟨rfl, rfl, rfl⟩ := h.unique (Reads.span hy ht n) hyt
    exact ⟨rfl, hy, ht⟩
  · rintro ⟨rfl, hx, hr⟩
    exact .span hx hr n

/-- The same when at least one is asked for. -/
theorem Reads.span1 {f : Char → Bool} (hne : x ≠ []) (hx : ∀ c ∈ x, f c) (hr : Stops f r) (n : ℕ) :
    (many1 (satisfy f)).Reads n x x r := by
  cases x with
  | nil => exact absurd rfl hne
  | cons c x =>
    obtain ⟨hc, hx⟩ := List.forall_mem_cons.mp hx
    exact Reads.bind (x := [c]) (reads_satisfy hc n _)
      (Reads.bind_nil (Reads.span hx hr _) (reads_pure _ _ r))

/-- The same, from both sides. -/
theorem reads_span1_iff {f : Char → Bool} {cs : List Char} :
    (many1 (satisfy f)).Reads n x cs r ↔ cs = x ∧ x ≠ [] ∧ (∀ c ∈ x, f c) ∧ Stops f r := by
  constructor
  · intro h
    obtain ⟨y, z, c, rfl, hc, h⟩ := reads_bind_iff.mp h
    obtain ⟨y', z', ds, rfl, hds, h⟩ := reads_bind_iff.mp h
    obtain ⟨rfl, rfl⟩ := reads_pure_iff.mp h
    obtain ⟨rfl, hfc⟩ := reads_satisfy_iff.mp hc
    obtain ⟨rfl, hall, hstop⟩ := reads_span_iff.mp hds
    refine ⟨by simp, by simp, ?_, hstop⟩
    simpa using ⟨hfc, hall⟩
  · rintro ⟨rfl, hne, hx, hr⟩
    exact .span1 hne hx hr n

/-- There is none. -/
theorem fails_span1 {f : Char → Bool} (h : Stops f s) (n : ℕ) : (many1 (satisfy f)).Fails n s :=
  (fails_satisfy h n).bind

/-! ### Texts, positions and conditions

What does not consume anything, or gives back what has been consumed. A position is a number of
bytes, as in the generated parsers, although the text consists of characters. -/

/-- The text that is consumed. -/
theorem Reads.slice (h : p.Reads n x a r) : (slice p).Reads n x x r := by
  rw [Reads] at h
  change (p.run _).map _ = _
  rw [h]
  simp

/-- The same, from both sides. -/
theorem reads_slice_iff {t : List Char} :
    (slice p).Reads n x t r ↔ t = x ∧ ∃ a, p.Reads n x a r := by
  constructor
  · intro h
    obtain ⟨⟨a, j⟩, hrun, heq⟩ := Option.map_eq_some_iff.mp h
    obtain ⟨rfl, rfl⟩ := Prod.mk.inj heq
    refine ⟨?_, a, hrun⟩
    simp
  · rintro ⟨rfl, a, h⟩
    exact h.slice

theorem Fails.slice (h : p.Fails n s) : (slice p).Fails n s := by
  rw [Fails] at h
  change (p.run _).map _ = none
  rw [h]
  rfl

/-- A rule that asks where it is is told. -/
theorem reads_position_bind {g : ℕ → Peg β} :
    (position >>= g).Reads n x b r ↔ (g n).Reads n x b r := Iff.rfl

theorem fails_position_bind {g : ℕ → Peg β} : (position >>= g).Fails n s ↔ (g n).Fails n s :=
  Iff.rfl

/-- Looking ahead consumes nothing. -/
theorem Reads.lookahead (h : p.Reads n x a r) : (lookahead p).Reads n [] () (x ++ r) := by
  rw [Reads] at h
  change (p.run ⟨n, x ++ r⟩).map _ = _
  rw [h]
  rfl

theorem Fails.lookahead (h : p.Fails n s) : (lookahead p).Fails n s := by
  rw [Fails] at h
  change (p.run _).map _ = none
  rw [h]
  rfl

/-- A negative lookahead fails where its parser matches. -/
theorem Reads.notFollowedBy (h : p.Reads n x a r) : (notFollowedBy p).Fails n (x ++ r) := by
  rw [Reads] at h
  change (if (p.run _).isNone then _ else _) = none
  rw [h]
  rfl

/-- A conversion that may refuse. -/
theorem reads_tryMap_iff {g : α → Option β} :
    (p.tryMap g).Reads n x b r ↔ ∃ a, p.Reads n x a r ∧ g a = some b := by
  constructor
  · intro h
    obtain ⟨⟨a, j⟩, hrun, heq⟩ := Option.bind_eq_some_iff.mp h
    obtain ⟨b', hb, heq⟩ := Option.map_eq_some_iff.mp heq
    obtain ⟨rfl, rfl⟩ := Prod.mk.inj heq
    exact ⟨a, hrun, hb⟩
  · rintro ⟨a, h, hb⟩
    rw [Reads] at h
    change (p.run _).bind _ = _
    rw [h, Option.bind_some, hb]
    rfl

theorem Fails.tryMap {g : α → Option β} (h : p.Fails n s) : (p.tryMap g).Fails n s := by
  rw [Fails] at h
  change (p.run _).bind _ = none
  rw [h]
  rfl

end Peg
