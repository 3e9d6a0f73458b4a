import Mathlib.Data.List.Basic

/-!
# Wildcard patterns

A pattern is a list of items: literals, each of which stands for certain strings, an item for
any one symbol, and one for any string. A string matches if it can be cut into pieces, one for
each item.

Between two literals only two things about the wildcards matter: how many single symbols they
stand for, and whether there may be more. `Glob` is a pattern in this form, and there the length
of a piece can be measured otherwise than by counting its symbols.

## The question

The same pattern can be read over two alphabets. A program that matches bytes lets the
single-symbol wildcard stand for one *byte*; its documentation, and its users, mean one
*character*. When do the two readings agree? Not always, and not only when everything is in
ASCII: a star next to the wildcard, or a literal that forces the match, can hide the difference.

To ask the question at all, both readings must be about one string. So strings stay lists of one
kind of symbol here, and what a wildcard counts is given by a *measure* `μ` from strings to
numbers: their length for the one reading, the number of bytes for the other. `matches_congr` is
the first answer: if no run of wildcards in the pattern can tell the two measures apart on any
part of the string, the readings agree on it. A run that asks for nothing, or only whether there
is something (`Wild.Lenient`), can tell apart very little.

## Runs of wildcards

`?*?` and `*??` mean the same. Patterns as lists of items have such spurious differences and a
matching relation with one existential for each item; the normal form collects the wildcards
between two literals in one `Wild`, and has one existential for each literal. `splits_iff`
proves that nothing is lost.

## Counting

For the converse — a pattern on which the readings differ on *some* string — one needs a string
that matches in one reading and cannot match in the other. `matches_fill` builds a match of a
pattern from one piece for each run and each literal. `sum_le_of_matches` bounds what every
match has to contain. A piece that is smaller in the one measure than the other asks for then
does it (`sum_lt_sum`).

## Main definitions

* `GlobItem` — the items of a pattern
* `Glob.Splits` — a string can be cut as the items say
* `Glob`, `Glob.Matches` — patterns by their literals, for any measure of what is in between
* `Wild.Lenient` — runs of wildcards that only ask whether there is something

## Main results

* `Glob.splits_iff` — both descriptions agree
* `Glob.matches_congr` — two measures that the runs of wildcards do not tell apart match the
  same
* `Glob.sum_le_of_matches`, `Glob.matches_fill` — what is in every match, and one match
-/

variable {α τ : Type}

/-! ## Patterns

A pattern is given in two ways. As a list of items it is what the text of the pattern says, one
item for each character. As an alternation of runs and literals it is what a matcher goes by,
since within a run the order of the wildcards does not matter. -/

/-- An item of a pattern over the literals `α`. -/
inductive GlobItem (α : Type) where
  /-- Any string. -/
  | any
  /-- Any one symbol. -/
  | one
  /-- A literal. -/
  | lit (a : α)
  deriving DecidableEq

/-- A run of wildcards: the number of single symbols, and whether there may be more. -/
structure Wild where
  /-- How many symbols it stands for at least. -/
  count : ℕ
  /-- There may be more of them. -/
  more : Bool
  deriving DecidableEq

/-- Wildcards and literals in turn. -/
inductive Glob (α : Type) where
  /-- The wildcards behind the last literal. -/
  | last (w : Wild)
  /-- Some wildcards, a literal, and the rest of the pattern. -/
  | seg (w : Wild) (a : α) (g : Glob α)

/-- The run stands for something of length `n`. -/
def Wild.Fits (w : Wild) (n : ℕ) : Prop := if w.more then w.count ≤ n else n = w.count

/-- No single symbol, or one and possibly more: the run only asks whether it stands for something.
-/
def Wild.Lenient (w : Wild) : Prop := w.count = 0 ∨ w.count = 1 ∧ w.more = true

instance : DecidablePred Wild.Lenient := fun w =>
  inferInstanceAs (Decidable (w.count = 0 ∨ w.count = 1 ∧ w.more = true))

/-- A lenient run distinguishes nothing from something, and no more. -/
theorem Wild.Lenient.fits_congr {w : Wild} (hw : w.Lenient) {m n : ℕ} (h : m = 0 ↔ n = 0) :
    w.Fits m ↔ w.Fits n := by
  unfold Wild.Fits
  obtain hzero | ⟨hone, hmore⟩ := hw
  · split <;> omega
  · rw [if_pos hmore, if_pos hmore]
    omega

/-- As many symbols as are asked for. -/
theorem Wild.fits_count (w : Wild) : w.Fits w.count := by
  unfold Wild.Fits
  split
  · exact Nat.le_refl _
  · rfl

/-- Fewer do not fit. -/
theorem Wild.Fits.count_le {w : Wild} {n : ℕ} (h : w.Fits n) : w.count ≤ n := by
  unfold Wild.Fits at h
  split at h
  · exact h
  · exact Nat.le_of_eq h.symm

/-- With a star in the run, more is allowed. -/
theorem Wild.Fits.more {w : Wild} {m n : ℕ} (h : w.Fits m) (hmn : m ≤ n) :
    ({ w with more := true } : Wild).Fits n :=
  Nat.le_trans h.count_le hmn

/-- With one more single symbol, one more is asked for. -/
theorem Wild.Fits.succ {w : Wild} {n : ℕ} (h : w.Fits n) :
    ({ w with count := w.count + 1 } : Wild).Fits (n + 1) := by
  unfold Wild.Fits at h ⊢
  split
  · rw [if_pos ‹_›] at h
    exact Nat.succ_le_succ h
  · rw [if_neg ‹_›] at h
    exact congrArg Nat.succ h

namespace Glob

/-! ## Cutting a string

The declarative reading: some way of cutting the string gives each item a piece that it stands
for. It says nothing about how the pieces are found, and with a star in the pattern there may be
many ways. -/

/-- What an item stands for, where `lits` says it of literals. -/
def Stands (lits : α → List τ → Prop) : GlobItem α → List τ → Prop
  | .any, _ => True
  | .one, x => x.length = 1
  | .lit a, x => lits a x

/-- The string can be cut into consecutive pieces, one for each item. -/
def Splits (lits : α → List τ → Prop) (items : List (GlobItem α)) (t : List τ) : Prop :=
  ∃ pieces, t = pieces.flatten ∧ List.Forall₂ (Stands lits) items pieces

variable {lits : α → List τ → Prop} {items : List (GlobItem α)} {t : List τ}

/-- A pattern without items. -/
theorem splits_nil : Splits lits [] t ↔ t = [] := by
  constructor
  · rintro ⟨pieces, rfl, hpieces⟩
    cases hpieces
    rfl
  · rintro rfl
    exact ⟨[], rfl, .nil⟩

/-- The first item takes a piece in front. -/
theorem splits_cons {item : GlobItem α} : Splits lits (item :: items) t ↔
    ∃ x y, t = x ++ y ∧ Stands lits item x ∧ Splits lits items y := by
  constructor
  · rintro ⟨pieces, rfl, hpieces⟩
    cases hpieces with
    | cons hx hrest => exact ⟨_, _, rfl, hx, _, rfl, hrest⟩
  · rintro ⟨x, y, rfl, hx, pieces, rfl, hpieces⟩
    exact ⟨x :: pieces, rfl, .cons hx hpieces⟩

/-- Items one after the other. -/
theorem splits_append {items' : List (GlobItem α)} : Splits lits (items ++ items') t ↔
    ∃ x y, t = x ++ y ∧ Splits lits items x ∧ Splits lits items' y := by
  induction items generalizing t with
  | nil => simp [splits_nil]
  | cons item items ih =>
    rw [List.cons_append, splits_cons]
    constructor
    · rintro ⟨v, z, rfl, hv, hz⟩
      obtain ⟨x, y, rfl, hx, hy⟩ := ih.mp hz
      exact ⟨v ++ x, y, (List.append_assoc _ _ _).symm, splits_cons.mpr ⟨v, x, rfl, hv, hx⟩, hy⟩
    · rintro ⟨w, y, rfl, hw, hy⟩
      obtain ⟨v, x, rfl, hv, hx⟩ := splits_cons.mp hw
      exact ⟨v, x ++ y, List.append_assoc _ _ _, hv, ih.mpr ⟨x, y, rfl, hx, hy⟩⟩

/-! ## Runs of wildcards

Neighbouring wildcards are one run, which stands for a piece of the string whose length fits. So
the cuts between the items of a run can be forgotten, and what is left is one length for each
run. `splits_iff` is the proof that nothing is lost by this. -/

/-- The pattern with a wildcard in front, by what it does to the first run. -/
def front (f : Wild → Wild) : Glob α → Glob α
  | last w => last (f w)
  | seg w a g => seg (f w) a g

/-- The pattern of a list of items: each wildcard joins the run in front. -/
def ofItems : List (GlobItem α) → Glob α
  | [] => last ⟨0, false⟩
  | .any :: items => (ofItems items).front fun w => { w with more := true }
  | .one :: items => (ofItems items).front fun w => { w with count := w.count + 1 }
  | .lit a :: items => seg ⟨0, false⟩ a (ofItems items)

/-- A match, where `μ` measures what the wildcards stand for. -/
def Matches (μ : List τ → ℕ) (lits : α → List τ → Prop) : Glob α → List τ → Prop
  | last w, t => w.Fits (μ t)
  | seg w a g, t =>
    ∃ u v y, t = u ++ (v ++ y) ∧ w.Fits (μ u) ∧ lits a v ∧ Matches μ lits g y

/-- The runs of wildcards of a pattern. -/
def wilds : Glob α → List Wild
  | last w => [w]
  | seg w _ g => w :: g.wilds

/-- A star takes a piece of any length off what the run stands for. -/
theorem fits_more {w : Wild} {x : List τ} : ({ w with more := true } : Wild).Fits x.length ↔
    ∃ y z, x = y ++ z ∧ w.Fits z.length := by
  constructor
  · intro h
    have hle : w.count ≤ x.length := h
    refine ⟨x.take (x.length - w.count), x.drop (x.length - w.count),
      (List.take_append_drop _ x).symm, ?_⟩
    rw [List.length_drop, Nat.sub_sub_self hle, Wild.Fits]
    split
    · exact Nat.le_refl _
    · rfl
  · rintro ⟨y, z, rfl, h⟩
    show w.count ≤ (y ++ z).length
    rw [List.length_append]
    unfold Wild.Fits at h
    split at h <;> omega

/-- A single wildcard takes one symbol. -/
theorem fits_one {w : Wild} {x : List τ} : ({ w with count := w.count + 1 } : Wild).Fits x.length ↔
    ∃ y z, x = y ++ z ∧ y.length = 1 ∧ w.Fits z.length := by
  unfold Wild.Fits
  constructor
  · intro h
    cases x with
    | nil => split at h <;> simp at h
    | cons a x =>
      refine ⟨[a], x, rfl, rfl, ?_⟩
      rw [List.length_cons] at h
      split at h <;> simp_all
  · rintro ⟨y, z, rfl, hy, h⟩
    rw [List.length_append, hy]
    split at h <;> simp_all <;> omega

/-- A wildcard in front takes some of the string in front. -/
theorem matches_front {f : Wild → Wild} {p : List τ → Prop}
    (hf : ∀ (w : Wild) (x : List τ), (f w).Fits x.length ↔ ∃ y z, x = y ++ z ∧ p y ∧
      w.Fits z.length)
    {g : Glob α} : (g.front f).Matches List.length lits t ↔
      ∃ x y, t = x ++ y ∧ p x ∧ g.Matches List.length lits y := by
  cases g with
  | last w => exact hf w t
  | seg w a g =>
    constructor
    · rintro ⟨u, v, y, rfl, hu, hv, hy⟩
      obtain ⟨x, z, rfl, hx, hz⟩ := (hf w u).mp hu
      exact ⟨x, z ++ (v ++ y), List.append_assoc _ _ _, hx, z, v, y, rfl, hz, hv, hy⟩
    · rintro ⟨x, -, rfl, hx, z, v, y, rfl, hz, hv, hy⟩
      exact ⟨x ++ z, v, y, (List.append_assoc _ _ _).symm, (hf w _).mpr ⟨x, z, rfl, hx, hz⟩, hv, hy⟩

/-- **Both descriptions of a match.** -/
theorem splits_iff : Splits lits items t ↔ (ofItems items).Matches List.length lits t := by
  induction items generalizing t with
  | nil =>
    rw [splits_nil, ofItems, Matches, Wild.Fits]
    exact List.length_eq_zero_iff.symm
  | cons item items ih =>
    simp only [splits_cons, ih]
    cases item with
    | any =>
      refine (matches_front (p := fun _ => True) fun w x => ?_).symm
      simpa only [true_and] using fits_more
    | one => exact (matches_front (p := fun x => x.length = 1) fun w x => fits_one).symm
    | lit a =>
      constructor
      · rintro ⟨x, y, rfl, hx, hy⟩
        exact ⟨[], x, y, rfl, rfl, hx, hy⟩
      · rintro ⟨u, v, y, rfl, hu, hv, hy⟩
        obtain rfl := List.length_eq_zero_iff.mp hu
        exact ⟨v, y, rfl, hv, hy⟩

/-! ## Two measures

A matcher may measure the pieces by another measure than the one that the description has in
mind, such as bytes and characters. It is right about all strings if none of its runs can tell
the two measures apart. -/

/-- A measure that the runs accept whenever they accept the other. -/
theorem Matches.mono {μ ν : List τ → ℕ} {g : Glob α} (h : g.Matches μ lits t)
    (hfits : ∀ w ∈ g.wilds, ∀ u, u <:+: t → w.Fits (μ u) → w.Fits (ν u)) :
    g.Matches ν lits t := by
  induction g generalizing t with
  | last w => exact hfits w List.mem_cons_self t List.infix_rfl h
  | seg w a g ih =>
    obtain ⟨u, v, y, rfl, hu, hv, hy⟩ := h
    refine ⟨u, v, y, rfl, hfits w List.mem_cons_self u ?_ hu, hv, ih hy fun w' hw' u' hu' => ?_⟩
    · exact (List.prefix_append u _).isInfix
    · refine hfits w' (List.mem_cons_of_mem _ hw') u' (hu'.trans ?_)
      exact ⟨u ++ v, [], by rw [List.append_nil, List.append_assoc]⟩

/-- Measures that the runs of wildcards do not tell apart. -/
theorem matches_congr {μ ν : List τ → ℕ} {g : Glob α}
    (hfits : ∀ w ∈ g.wilds, ∀ u, u <:+: t → (w.Fits (μ u) ↔ w.Fits (ν u))) :
    g.Matches μ lits t ↔ g.Matches ν lits t :=
  ⟨fun h => h.mono fun w hw u hu => (hfits w hw u hu).mp,
    fun h => h.mono fun w hw u hu => (hfits w hw u hu).mpr⟩

/-! ## Adding up

The converse needs a string on which the two measures lead to different answers. It is built from
pieces, one for each run and each literal, and the sum of their measures tells whether a match
could still exist: a string whose measure is less than the least sum has none. -/

/-- The sum over the runs of wildcards and the literals. -/
def sum (c : Wild → ℕ) (d : α → ℕ) : Glob α → ℕ
  | last w => c w
  | seg w a g => c w + (d a + g.sum c d)

/-- The string with these parts. -/
def fill (f : Wild → List τ) (l : α → List τ) : Glob α → List τ
  | last w => f w
  | seg w a g => f w ++ (l a ++ g.fill f l)

variable {c c' : Wild → ℕ} {d : α → ℕ} {ν μ : List τ → ℕ} {f : Wild → List τ} {l : α → List τ}
variable {g : Glob α}

/-- What is in every match. -/
theorem sum_le_of_matches (hν : ∀ x y, ν (x ++ y) = ν x + ν y)
    (hc : ∀ w u, w.Fits (μ u) → c w ≤ ν u)
    (hd : ∀ a v, lits a v → d a ≤ ν v) (h : g.Matches μ lits t) : g.sum c d ≤ ν t := by
  induction g generalizing t with
  | last w => exact hc w t h
  | seg w a g ih =>
    obtain ⟨u, v, y, rfl, hu, hv, hy⟩ := h
    rw [hν, hν]
    exact Nat.add_le_add (hc w u hu) (Nat.add_le_add (hd a v hv) (ih hy))

/-- **One match.** Pieces that fit their places make a string that matches. -/
theorem matches_fill (hf : ∀ w ∈ g.wilds, w.Fits (μ (f w))) (hl : ∀ a, lits a (l a)) :
    g.Matches μ lits (g.fill f l) := by
  induction g with
  | last w => exact hf w List.mem_cons_self
  | seg w a g ih =>
    obtain ⟨hw, hg⟩ := List.forall_mem_cons.mp hf
    exact ⟨f w, l a, g.fill f l, rfl, hw, hl a, ih hg⟩

/-- What that string measures. -/
theorem measure_fill (hν : ∀ x y, ν (x ++ y) = ν x + ν y) :
    ν (g.fill f l) = g.sum (fun w => ν (f w)) (fun a => ν (l a)) := by
  induction g with
  | last w => rfl
  | seg w a g ih => rw [fill, hν, hν, ih, sum]

/-- Smaller pieces have a smaller sum … -/
theorem sum_le_sum (h : ∀ w ∈ g.wilds, c w ≤ c' w) : g.sum c d ≤ g.sum c' d := by
  induction g with
  | last w => exact h w List.mem_cons_self
  | seg w a g ih =>
    obtain ⟨hw, hg⟩ := List.forall_mem_cons.mp h
    exact Nat.add_le_add hw (Nat.add_le_add_left (ih hg) _)

/-- … and a strictly smaller one if one of them is strictly smaller. -/
theorem sum_lt_sum (h : ∀ w ∈ g.wilds, c w ≤ c' w) (hlt : ∃ w ∈ g.wilds, c w < c' w) :
    g.sum c d < g.sum c' d := by
  induction g with
  | last w =>
    obtain ⟨w', hw', hlt⟩ := hlt
    obtain rfl := List.mem_singleton.mp hw'
    exact hlt
  | seg w a g ih =>
    obtain ⟨hw, hg⟩ := List.forall_mem_cons.mp h
    obtain ⟨w', hw', hlt⟩ := hlt
    obtain rfl | hw' := List.mem_cons.mp hw'
    · exact Nat.add_lt_add_of_lt_of_le hlt (Nat.add_le_add_left (sum_le_sum hg) _)
    · exact Nat.add_lt_add_of_le_of_lt hw (Nat.add_lt_add_left (ih hg ⟨w', hw', hlt⟩) _)

end Glob
