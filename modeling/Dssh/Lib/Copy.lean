import Mathlib.Data.List.Basic

/-!
# Copying from a limited source

A source gives what it has piece by piece: a read returns some of it, at most as much as there
is room for, and nothing only at the end. `Limited` lets no more than a number of items through,
and `copy` reads until it is given nothing. However the source is divided, what is copied is a
beginning of it.

## The source

The contract of a reader is that a read into a buffer with room returns at least one item, and
that an empty result means the end. How many items it returns is its own affair: a socket
returns what has arrived. A `Source` is therefore a list of pieces, none of them empty, and a
read takes from the first one as much as there is room for. The rest of a piece is put back, as
the next read gets it.

That no piece is empty is a field. An empty piece in the middle would be taken for the end,
which is a broken reader and not a division into reads.

## The limit

`Limited` is the adaptor that libraries call `take`. At its limit it returns nothing *without
asking the source*. This is what leaves the source exactly behind the items let through,
whatever its next piece would have been.

## Main definitions

* `Source`, `Source.read` — a source of items, and a read from it
* `Limited`, `Limited.read` — the same through a limit
* `Limited.copy` — the loop

## Main results

* `Limited.copy_eq` — the copy ends, with the first `limit` items, and the source is left behind
  them
-/

variable {α : Type}

/-! ## Sources

A source is a list of pieces, because how a stream is cut into reads is not up to its reader. A
read with little room takes a part of the first piece, and the rest is put back. That no piece is
empty is a field: an empty read is how a stream says that it has ended. -/

/-- A source of items, as the pieces that its reads return. An empty piece would be its end. -/
structure Source (α : Type) where
  /-- The pieces that its reads will return, given room. -/
  pieces : List (List α)
  /-- None of them is empty. -/
  nil_notMem : [] ∉ pieces

namespace Source

/-- All that the source has. -/
def items (s : Source α) : List α := s.pieces.flatten

/-- The source behind a read that left `rest` of a piece. -/
def putBack (rest : List α) (s : Source α) : Source α :=
  if h : rest = [] then s
  else ⟨rest :: s.pieces, fun hmem => (List.mem_cons.mp hmem).elim (h ·.symm) s.nil_notMem⟩

/-- Putting something back puts it in front. -/
theorem items_putBack (rest : List α) (s : Source α) :
    (s.putBack rest).items = rest ++ s.items := by
  rw [putBack]
  split
  · rename_i hrest
    rw [hrest, List.nil_append]
  · rw [items, List.flatten_cons, items]

/-- Read into a buffer with room for `room` items. -/
def read (room : ℕ) : Source α → List α × Source α
  | ⟨[], h⟩ => ([], ⟨[], h⟩)
  | ⟨piece :: pieces, h⟩ =>
    (piece.take room,
      putBack (piece.drop room) ⟨pieces, fun hmem => h (List.mem_cons_of_mem _ hmem)⟩)

/-- **A read** takes from the front of the source. -/
theorem read_append (room : ℕ) (s : Source α) :
    (s.read room).1 ++ (s.read room).2.items = s.items := by
  rcases s with ⟨_ | ⟨piece, pieces⟩, h⟩
  · rfl
  · simp only [read, items_putBack]
    rw [← List.append_assoc, List.take_append_drop, items, items, List.flatten_cons]

theorem length_read_le (room : ℕ) (s : Source α) : (s.read room).1.length ≤ room := by
  rcases s with ⟨_ | ⟨piece, pieces⟩, h⟩
  · exact Nat.zero_le room
  · exact List.length_take_le room piece

/-- Only at its end a source has nothing for a buffer with room. -/
theorem items_eq_nil_of_read {room : ℕ} {s : Source α} (hroom : 0 < room)
    (h : (s.read room).1 = []) : s.items = [] := by
  rcases s with ⟨_ | ⟨piece, pieces⟩, hmem⟩
  · rfl
  · rcases List.take_eq_nil_iff.mp h with hzero | hnil
    · omega
    · exact absurd (hnil ▸ List.mem_cons_self) hmem

end Source

/-! ## Through the limit

`AsyncReadExt::take` in the words of this library. At the limit the source is not asked, and so
what comes behind the limit stays where it is, whatever the size of the buffer. This is what the
caller relies on who goes on reading the source. -/

/-- A source of which only `limit` more items are let through. -/
structure Limited (α : Type) where
  /-- Where the items come from. -/
  source : Source α
  /-- How many more are let through. -/
  limit : ℕ

namespace Limited

/-- A read through the limit; at the limit the source is not asked. -/
def read (room : ℕ) (l : Limited α) : List α × Limited α :=
  if l.limit = 0 then ([], l)
  else
    let (got, source) := l.source.read (min room l.limit)
    (got, ⟨source, l.limit - got.length⟩)

/-- What is still let through. -/
def items (l : Limited α) : List α := l.source.items.take l.limit

/-- What the source is left with. -/
def behind (l : Limited α) : List α := l.source.items.drop l.limit

theorem read_append (room : ℕ) (l : Limited α) :
    (l.read room).1 ++ (l.read room).2.items = l.items ∧
    (l.read room).2.behind = l.behind ∧
    (l.read room).2.limit = l.limit - (l.read room).1.length := by
  rw [read]
  split
  · rename_i hlimit
    exact ⟨rfl, rfl, rfl⟩
  · have hsource := l.source.read_append (min room l.limit)
    have hlength := l.source.length_read_le (min room l.limit)
    rw [Nat.le_min] at hlength
    refine ⟨?_, ?_, rfl⟩
    · rw [items, items, ← hsource, List.take_append, List.take_of_length_le hlength.2]
    · rw [behind, behind, ← hsource, List.drop_append, List.drop_of_length_le hlength.2,
        List.nil_append]

theorem length_read_le (room : ℕ) (l : Limited α) : (l.read room).1.length ≤ l.limit := by
  rw [read]
  split
  · exact Nat.zero_le _
  · exact Nat.le_trans (l.source.length_read_le _) (Nat.min_le_right _ _)

/-- Nothing is read when nothing more is let through, and then the source is where it should be. -/
theorem of_read_nil {room : ℕ} {l l' : Limited α} (hroom : 0 < room) (h : l.read room = ([], l')) :
    l.items = [] ∧ l'.source.items = l.behind := by
  rw [read] at h
  split at h
  · rename_i hlimit
    obtain rfl := (Prod.mk.inj h).2
    rw [items, behind, hlimit]
    exact ⟨List.take_zero, rfl⟩
  · rename_i hlimit
    have hgot : (l.source.read (min room l.limit)).1 = [] := (Prod.mk.inj h).1
    have hl' : l'.source = (l.source.read (min room l.limit)).2 :=
      congrArg source (Prod.mk.inj h).2.symm
    have hnil := Source.items_eq_nil_of_read (by omega) hgot
    have hsource := l.source.read_append (min room l.limit)
    rw [hgot, List.nil_append, hnil] at hsource
    rw [items, behind, hnil, hl', hsource]
    exact ⟨List.take_nil, List.drop_nil.symm⟩

/-! ## The copy

One buffer after the other, until a read gives nothing. Each of them is written before the next
read, so that what has been written and what is left of the source are at any time the two parts
of what there was. -/

/-- Copy with a buffer for `room` items, in at most `n` turns: what has been written behind
`written`, and the source. -/
def copyFor (room : ℕ) : ℕ → Limited α → List α → Option (List α × Source α)
  | 0, _, _ => none
  | n + 1, l, written =>
    match l.read room with
    | ([], l') => some (written, l'.source)
    | (got, l') => copyFor room n l' (written ++ got)

/-- Every turn that goes on lowers the limit. -/
def copy (room : ℕ) (l : Limited α) : Option (List α × Source α) := copyFor room (l.limit + 1) l []

/-- With as many turns as the limit, and one more, the copy ends. -/
theorem copyFor_eq {room : ℕ} (hroom : 0 < room) {n : ℕ} {l : Limited α} (hn : l.limit < n)
    (written : List α) :
    ∃ source, copyFor room n l written = some (written ++ l.items, source) ∧
      source.items = l.behind := by
  induction n generalizing l written with
  | zero => exact absurd hn (Nat.not_lt_zero _)
  | succ n ih =>
    obtain ⟨hitems, hbehind, hlimit⟩ := l.read_append room
    obtain ⟨got, l', hread⟩ : ∃ got l', l.read room = (got, l') := ⟨_, _, rfl⟩
    rw [hread] at hitems hbehind hlimit
    dsimp only at hitems hbehind hlimit
    cases got with
    | nil =>
      obtain ⟨hnil, hsource⟩ := of_read_nil hroom hread
      exact ⟨l'.source, by simp only [copyFor, hread, hnil, List.append_nil], hsource⟩
    | cons x xs =>
      have hle := l.length_read_le room
      rw [hread, List.length_cons] at hle
      rw [List.length_cons] at hlimit
      obtain ⟨source, hcopy, hsource⟩ := ih (l := l') (by omega) (written ++ x :: xs)
      refine ⟨source, ?_, hsource.trans hbehind⟩
      simp only [copyFor, hread, hcopy, ← hitems, List.append_assoc]

/-- **The copy.** It takes what the limit lets through off the source, and nothing else. -/
theorem copy_eq {room : ℕ} (hroom : 0 < room) (l : Limited α) :
    ∃ source, copy room l = some (l.items, source) ∧ source.items = l.behind :=
  copyFor_eq hroom (Nat.lt_succ_self l.limit) []

end Limited
