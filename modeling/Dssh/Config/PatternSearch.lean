import Dssh.Config.Pattern

/-!
# What the matcher tries

For one pattern and one text, `glob_match` is right unless its search gets to a place where
counting bytes makes a difference. This module is about that search: which calls the recursion
makes, in which order, and where it stops.

## The order of the search

Behind a star, the rest of the pattern is tried here first, and one byte further on only if that
has failed. So the calls made depend on what fails, and a call that would succeed ends the
search. `globCalls` lists the calls that are made, by the same recursion as `globMatch` and with
its results as the conditions.

Take the pattern `web?` and the text `münchen`. The text is not in ASCII, and the run of the `?`
counts. Yet the matcher is right: it compares `w` with `m`, and is done. The `?` is never tried.
In `abcü` and `a??*` the two `?` are tried, in front of ASCII letters; what the star takes
behind them does not matter. And for `*é?` there may be several places at which the `?` is
tried, all but the last in vain.

## The condition

`Pattern.TriesWide` describes a call that goes wrong, or may: the pattern is at a `?`, in a run
in which it matters whether one counts bytes or characters, and the text is at a byte that
begins a character of several bytes. The matcher is right about a pattern and a text if no such
call is made. It is a condition on the search and decidable, since `globCalls` can be computed.

It is a *sufficient* condition for one pattern and one text: a wide character that a `?` takes
for a single byte may still lead to the right answer, by an accident further on. It is exact
where one quantifies: a pattern is right on all texts exactly if all its runs are lenient, and a
text is matched right by all patterns exactly if it is in ASCII.

## How the proof goes

Along the pattern, one run of wildcards and one literal at a time. If the whole matches, the
first success of the search fixes the part of the text that the run stands for
(`exists_of_globMatch_run`); if it does not, the search has tried what follows behind *every*
part for which the run may stand (`globCalls_of_not_globMatch`), so that no call in any of them
was wide. In both cases the `?` of the run have been tried in front of ASCII characters only,
and then bytes and characters are counted alike (`runTakes_of_onesBeforeAscii`). The induction
over the pattern puts these together in `globMatch_iff_splits`.

## Main definitions

* `globCalls` — the calls of the recursion
* `Pattern.runAt` — the run of wildcards around a place of a pattern
* `Pattern.TriesWide` — a call in which it matters what is counted
* `OnesBeforeAscii` — the `?` of a run are tried in front of ASCII characters only

## Main results

* `globMatch_iff_splits` — without a wide call, the search is right
* `matchesAsSplit_iff` — for which patterns it is right on every text, and for which texts
-/

namespace Dssh

/-! ## The calls

The list is made by the same recursion as the matcher itself, short circuit included. A call that
is tried from one of the calls is tried. -/

/-- The calls that `glob_match` makes, itself included: behind a star it tries the rest of the
pattern here, and only if that fails the star on the rest of the text. -/
def globCalls : List UInt8 → List UInt8 → List (List UInt8 × List UInt8)
  | [], txt => [([], txt)]
  | p :: pat, txt =>
    (p :: pat, txt) ::
      if p = '*'.toUInt8 then
        globCalls pat txt ++
          if globMatch pat txt then []
          else
            match txt with
            | [] => []
            | _ :: txt => globCalls (p :: pat) txt
      else
        match txt with
        | t :: txt => if p = '?'.toUInt8 || eqIgnoreAsciiCase p t then globCalls pat txt else []
        | [] => []
termination_by pat txt => pat.length + txt.length

section

variable {p t : UInt8} {pat txt x y z : List UInt8}

/-- A call is one of those that it makes. -/
theorem mem_globCalls (pat txt : List UInt8) : (pat, txt) ∈ globCalls pat txt := by
  cases pat with
  | nil =>
    rw [globCalls]
    exact List.mem_singleton_self _
  | cons p pat =>
    rw [globCalls.eq_def]
    exact List.mem_cons_self

/-- A star makes the calls of what follows it … -/
theorem globCalls_star : globCalls pat txt ⊆ globCalls ('*'.toUInt8 :: pat) txt := by
  intro call hcall
  rw [globCalls.eq_def ('*'.toUInt8 :: pat)]
  simp only [if_true]
  exact List.mem_cons_of_mem _ (List.mem_append_left _ hcall)

/-- … and, if these fail, those of the star further on. -/
theorem globCalls_skip (h : ¬ globMatch pat (t :: txt) = true) :
    globCalls ('*'.toUInt8 :: pat) txt ⊆ globCalls ('*'.toUInt8 :: pat) (t :: txt) := by
  intro call hcall
  rw [globCalls.eq_def ('*'.toUInt8 :: pat) (t :: txt)]
  simp only [if_true, if_neg h]
  exact List.mem_cons_of_mem _ (List.mem_append_right _ hcall)

/-- A byte that matches makes the calls of what follows it. -/
theorem globCalls_cons (hp : p ≠ '*'.toUInt8)
    (h : p = '?'.toUInt8 ∨ eqIgnoreAsciiCase p t = true) :
    globCalls pat txt ⊆ globCalls (p :: pat) (t :: txt) := by
  intro call hcall
  have htake : (decide (p = '?'.toUInt8) || eqIgnoreAsciiCase p t) = true := by simpa using h
  rw [globCalls, if_neg hp]
  simp only [htake, if_true]
  exact List.mem_cons_of_mem _ hcall

/-- So do several of them. -/
theorem globCalls_append (hx : ∀ p ∈ x, p ≠ '*'.toUInt8 ∧ p ≠ '?'.toUInt8)
    (h : List.Forall₂ (fun p t => eqIgnoreAsciiCase p t = true) x y) :
    globCalls pat z ⊆ globCalls (x ++ pat) (y ++ z) := by
  induction h with
  | nil => exact List.Subset.refl _
  | cons hpt _ ih =>
    obtain ⟨⟨hstar, -⟩, hx⟩ := List.forall_mem_cons.mp hx
    exact List.Subset.trans (ih hx) (globCalls_cons hstar (.inr hpt))

end

/-! ## Runs of wildcards in the pattern

A place of the pattern determines the run around it: as far as there are wildcards, in both
directions. -/

/-- A star or a question mark. -/
def isWildcard (c : Char) : Bool := c = '*' || c = '?'

/-- A run of wildcard characters. -/
def wildOf (r : List Char) : Wild := ⟨r.count '?', decide ('*' ∈ r)⟩

/-- The run of wildcards around the place `i` of the pattern. -/
def Pattern.runAt (p : Pattern) (i : ℕ) : Wild :=
  wildOf (((p.value.take i).reverse.takeWhile isWildcard).reverse ++
    (p.value.drop i).takeWhile isWildcard)

/-- A call that tries a `?` in front of a character outside ASCII, in a run of wildcards in which it
matters whether bytes or characters are counted. -/
def Pattern.TriesWide (p : Pattern) (call : List UInt8 × List UInt8) : Prop :=
  ∃ i < p.value.length, p.value[i]? = some '?' ∧ call.1 = utf8 (p.value.drop i) ∧
    (call.2.head?.any fun b => 192 ≤ b) = true ∧ ¬ (p.runAt i).Lenient

instance (p : Pattern) : DecidablePred p.TriesWide := fun call =>
  inferInstanceAs (Decidable (∃ i < p.value.length, p.value[i]? = some '?' ∧
    call.1 = utf8 (p.value.drop i) ∧ (call.2.head?.any fun b => 192 ≤ b) = true ∧
      ¬ (p.runAt i).Lenient))

/-! ## One run of wildcards

For a run and what follows it, the search has one of two outcomes, and in both it is known which
calls have been made. These lemmas are still about bytes. -/

section

variable {c : Char} {r rest u : List Char} {t x y : List UInt8}

/-- An ASCII character is one byte. -/
theorem utf8_cons_ascii (hc : c.toNat < 128) (u : List Char) :
    utf8 (c :: u) = c.toUInt8 :: utf8 u := by
  rw [utf8_cons, utf8EncodeChar_ascii hc, List.singleton_append]

/-- A star is one. -/
theorem utf8_star (r : List Char) : utf8 ('*' :: r) = '*'.toUInt8 :: utf8 r :=
  utf8_cons_ascii (by decide) r

/-- So is a question mark. -/
theorem utf8_one (r : List Char) : utf8 ('?' :: r) = '?'.toUInt8 :: utf8 r :=
  utf8_cons_ascii (by decide) r

/-- There are two wildcards. -/
theorem isWildcard_iff : isWildcard c = true ↔ c = '*' ∨ c = '?' := by
  simp [isWildcard]

/-- A star in front of a run. -/
theorem wildOf_star (r : List Char) : wildOf ('*' :: r) = { wildOf r with more := true } := by
  simp [wildOf]

/-- A question mark in front of one. -/
theorem wildOf_one (r : List Char) :
    wildOf ('?' :: r) = { wildOf r with count := (wildOf r).count + 1 } := by
  simp [wildOf]

/-- A run stands for what its number of `?` and its stars say. -/
theorem splits_run {τ : Type} {lits : Char → List τ → Prop} {x : List τ}
    (hr : ∀ c ∈ r, isWildcard c = true) :
    Glob.Splits lits (r.map globItem) x ↔ (wildOf r).Fits x.length := by
  have hitems : Glob.ofItems (r.map globItem) = .last (wildOf r) := by
    induction r with
    | nil => rfl
    | cons c r ih =>
      obtain ⟨hc, hr'⟩ := List.forall_mem_cons.mp hr
      rw [List.map_cons]
      rcases isWildcard_iff.mp hc with rfl | rfl
      · rw [show globItem '*' = .any from rfl, Glob.ofItems, ih hr', Glob.front, wildOf_star]
      · rw [show globItem '?' = .one from rfl, Glob.ofItems, ih hr', Glob.front, wildOf_one]
  rw [Glob.splits_iff, hitems]
  exact Iff.rfl

/-- **The first success.** Where a run and what follows it match, the search goes on behind a part
of the text for which the run may stand. -/
theorem exists_of_globMatch_run (hr : ∀ c ∈ r, isWildcard c = true)
    (h : globMatch (utf8 (r ++ rest)) t = true) :
    ∃ x y, t = x ++ y ∧ (wildOf r).Fits x.length ∧ globMatch (utf8 rest) y = true ∧
      globCalls (utf8 rest) y ⊆ globCalls (utf8 (r ++ rest)) t := by
  induction r generalizing t with
  | nil => exact ⟨[], t, rfl, rfl, h, List.Subset.refl _⟩
  | cons c r ih =>
    obtain ⟨hc, hr'⟩ := List.forall_mem_cons.mp hr
    rw [List.cons_append] at h ⊢
    rcases isWildcard_iff.mp hc with rfl | rfl
    · rw [utf8_star] at h ⊢
      rw [wildOf_star]
      induction t with
      | nil =>
        have hhere : globMatch (utf8 (r ++ rest)) [] = true := by
          simpa [globMatch] using h
        obtain ⟨x, y, ht, hfits, hy, hcalls⟩ := ih hr' hhere
        exact ⟨x, y, ht, hfits.more (Nat.le_refl _), hy, List.Subset.trans hcalls globCalls_star⟩
      | cons b t iht =>
        by_cases hhere : globMatch (utf8 (r ++ rest)) (b :: t) = true
        · obtain ⟨x, y, ht, hfits, hy, hcalls⟩ := ih hr' hhere
          exact ⟨x, y, ht, hfits.more (Nat.le_refl _), hy, List.Subset.trans hcalls globCalls_star⟩
        · have hskip : globMatch ('*'.toUInt8 :: utf8 (r ++ rest)) t = true := by
            rw [globMatch, if_pos rfl, Bool.or_eq_true] at h
            exact h.resolve_left hhere
          obtain ⟨x, y, rfl, hfits, hy, hcalls⟩ := iht hskip
          refine ⟨b :: x, y, rfl, ?_, hy, List.Subset.trans hcalls (globCalls_skip hhere)⟩
          exact Nat.le_succ_of_le hfits
    · rw [utf8_one] at h ⊢
      obtain ⟨b, t, rfl, -, h⟩ := (globMatch_cons (by decide)).mp h
      obtain ⟨x, y, rfl, hfits, hy, hcalls⟩ := ih hr' h
      refine ⟨b :: x, y, rfl, ?_, hy,
        List.Subset.trans hcalls (globCalls_cons (by decide) (.inl rfl))⟩
      rw [wildOf_one, List.length_cons]
      exact hfits.succ

/-- **No success.** Where a run and what follows it do not match, the search tries what follows
behind every part of the text for which the run may stand. -/
theorem globCalls_of_not_globMatch (hr : ∀ c ∈ r, isWildcard c = true)
    (hx : Glob.Splits SameBytes (r.map globItem) x)
    (h : ¬ globMatch (utf8 (r ++ rest)) (x ++ y) = true) :
    globCalls (utf8 rest) y ⊆ globCalls (utf8 (r ++ rest)) (x ++ y) := by
  induction r generalizing x with
  | nil =>
    obtain rfl := Glob.splits_nil.mp hx
    exact List.Subset.refl _
  | cons c r ih =>
    obtain ⟨hc, hr'⟩ := List.forall_mem_cons.mp hr
    obtain ⟨v, z, rfl, hv, hz⟩ := Glob.splits_cons.mp hx
    clear hx
    rw [List.cons_append] at h ⊢
    rcases isWildcard_iff.mp hc with rfl | rfl
    · rw [utf8_star] at h ⊢
      clear hv
      induction v with
      | nil =>
        refine List.Subset.trans (ih hr' hz fun hmatch => h ?_) globCalls_star
        exact globMatch_star.mpr ⟨[], z ++ y, rfl, hmatch⟩
      | cons b v ihv =>
        have hhere : ¬ globMatch (utf8 (r ++ rest)) (b :: (v ++ z ++ y)) = true :=
          fun hmatch => h (globMatch_star.mpr ⟨[], _, rfl, hmatch⟩)
        refine List.Subset.trans (ihv fun hmatch => h ?_) (globCalls_skip hhere)
        obtain ⟨w, w', hw, hw'⟩ := globMatch_star.mp hmatch
        exact globMatch_star.mpr ⟨b :: w, w', congrArg (b :: ·) hw, hw'⟩
    · rw [utf8_one] at h ⊢
      obtain ⟨b, rfl⟩ := List.length_eq_one_iff.mp (show v.length = 1 from hv)
      refine List.Subset.trans (ih hr' hz fun hmatch => h ?_)
        (globCalls_cons (by decide) (.inl rfl))
      exact (globMatch_cons (by decide)).mpr ⟨b, z ++ y, rfl, .inl rfl, hmatch⟩

/-! ## Characters among the bytes

What follows a run is a literal, whose bytes are found at the beginning of a character only. So a
success is at a boundary of characters, whatever the run has taken. -/

/-- The bytes of a literal are not those of a wildcard. -/
theorem ne_wildcard_of_mem_utf8EncodeChar (hc : isWildcard c = false) {b : UInt8}
    (hb : b ∈ String.utf8EncodeChar c) : b ≠ '*'.toUInt8 ∧ b ≠ '?'.toUInt8 := by
  have hbyte : ∀ {a : Char}, a.toNat < 128 → c ≠ a → b ≠ a.toUInt8 := fun ha hne =>
    beq_eq_false_iff_ne.mp ((agrees_ascii ha c b hb).trans (beq_eq_false_iff_ne.mpr hne))
  constructor
  · refine hbyte (by decide) ?_
    rintro rfl
    cases hc
  · refine hbyte (by decide) ?_
    rintro rfl
    cases hc

/-- A literal takes a letter of the text. -/
theorem globMatch_literal (hc : isWildcard c = false) :
    globMatch (utf8 (c :: rest)) t = true ↔ ∃ d y, t = String.utf8EncodeChar d ++ y ∧
      c.toLower = d.toLower ∧ globMatch (utf8 rest) y = true := by
  rw [utf8_cons, globMatch_append fun b hb => ne_wildcard_of_mem_utf8EncodeChar hc hb]
  constructor
  · rintro ⟨x, y, rfl, hx, hy⟩
    obtain ⟨d, rfl, hd⟩ := sameBytes_iff.mp hx
    exact ⟨d, y, rfl, hd, hy⟩
  · rintro ⟨d, y, rfl, hd, hy⟩
    exact ⟨_, y, rfl, sameBytes_iff.mpr ⟨d, rfl, hd⟩, hy⟩

/-- A literal makes the calls of what follows it, behind its letter. -/
theorem globCalls_literal (hc : isWildcard c = false) {d : Char} (hd : c.toLower = d.toLower) :
    globCalls (utf8 rest) y ⊆ globCalls (utf8 (c :: rest)) (String.utf8EncodeChar d ++ y) := by
  rw [utf8_cons]
  exact globCalls_append (fun b hb => ne_wildcard_of_mem_utf8EncodeChar hc hb)
    (sameBytes_iff.mpr ⟨d, rfl, hd⟩)

/-- What follows a run: the end of the pattern, or a literal. -/
def AtLiteral (rest : List Char) : Prop := ∀ c ∈ rest.head?, isWildcard c = false

/-- What follows a run matches at characters only. -/
theorem AtLiteral.boundary (hrest : AtLiteral rest) (h : globMatch (utf8 rest) y = true)
    (hu : utf8 u = x ++ y) : ∃ u₁ u₂, u = u₁ ++ u₂ ∧ x = utf8 u₁ ∧ y = utf8 u₂ := by
  cases rest with
  | nil =>
    obtain rfl := globMatch_nil.mp h
    exact ⟨u, [], (List.append_nil u).symm, by rw [hu, List.append_nil], rfl⟩
  | cons c rest =>
    obtain ⟨d, y, rfl, -, -⟩ := (globMatch_literal (hrest c rfl)).mp h
    obtain ⟨u₁, u₂, rfl, rfl, rfl⟩ := exists_of_utf8_eq_append hu
    exact ⟨u₁, d :: u₂, rfl, rfl, (utf8_cons d u₂).symm⟩

/-! ## Counting characters

If the `?` of a run are tried in front of ASCII characters only, the moves of the search are
moves over characters: a star takes one more where the rest has failed, since a `?` of the run
has been tried there, and a `?` takes one. -/

/-- The `?` of the run are tried in front of ASCII characters only. -/
def OnesBeforeAscii (r rest u : List Char) : Prop :=
  ∀ r₁ r₂ c v, r = r₁ ++ '?' :: r₂ →
    (utf8 ('?' :: (r₂ ++ rest)), utf8 (c :: v)) ∈ globCalls (utf8 (r ++ rest)) (utf8 u) →
    c.toNat < 128

/-- The rest of a run is tried where the run is. -/
theorem OnesBeforeAscii.tail {v : List Char} (h : OnesBeforeAscii (c :: r) rest u)
    (hcalls : globCalls (utf8 (r ++ rest)) (utf8 v) ⊆ globCalls (utf8 (c :: r ++ rest)) (utf8 u)) :
    OnesBeforeAscii r rest v := by
  rintro r₁ r₂ d w rfl hcall
  exact h (c :: r₁) r₂ d w rfl (hcalls hcall)

/-- The first `?` of a run is tried wherever the run is. -/
theorem mem_globCalls_one (hr : ∀ c ∈ r, isWildcard c = true) (h : '?' ∈ r) (rest : List Char)
    (t : List UInt8) : ∃ r₁ r₂, r = r₁ ++ '?' :: r₂ ∧
      (utf8 ('?' :: (r₂ ++ rest)), t) ∈ globCalls (utf8 (r ++ rest)) t := by
  induction r with
  | nil => cases h
  | cons c r ih =>
    obtain ⟨hc, hr'⟩ := List.forall_mem_cons.mp hr
    rcases isWildcard_iff.mp hc with rfl | rfl
    · obtain ⟨r₁, r₂, rfl, hcall⟩ := ih hr' ((List.mem_cons.mp h).resolve_left (by decide))
      refine ⟨'*' :: r₁, r₂, rfl, ?_⟩
      rw [List.cons_append, utf8_star]
      exact globCalls_star hcall
    · exact ⟨[], r, rfl, mem_globCalls _ _⟩

/-- The run takes the beginning of the text, and what follows the run is tried behind that and
matches. -/
def RunTakes (r rest u : List Char) : Prop :=
  ∃ u₁ u₂, u = u₁ ++ u₂ ∧ (wildOf r).Fits u₁.length ∧ globMatch (utf8 rest) (utf8 u₂) = true ∧
    globCalls (utf8 rest) (utf8 u₂) ⊆ globCalls (utf8 (r ++ rest)) (utf8 u)

/-- Behind a star the rest is tried in the same place. -/
theorem globCalls_utf8_star (r rest u : List Char) :
    globCalls (utf8 (r ++ rest)) (utf8 u) ⊆ globCalls (utf8 ('*' :: r ++ rest)) (utf8 u) := by
  rw [List.cons_append, utf8_star]
  exact globCalls_star

/-- If the rest fails there, the star is tried behind the next character. -/
theorem globCalls_utf8_skip (hascii : c.toNat < 128)
    (hhere : ¬ globMatch (utf8 (r ++ rest)) (utf8 (c :: u)) = true) :
    globCalls (utf8 ('*' :: r ++ rest)) (utf8 u) ⊆
      globCalls (utf8 ('*' :: r ++ rest)) (utf8 (c :: u)) := by
  rw [utf8_cons_ascii hascii] at hhere ⊢
  rw [List.cons_append, utf8_star]
  exact globCalls_skip hhere

/-- Behind a `?` the rest is tried behind the next character. -/
theorem globCalls_utf8_one (hascii : c.toNat < 128) (r rest u : List Char) :
    globCalls (utf8 (r ++ rest)) (utf8 u) ⊆
      globCalls (utf8 ('?' :: r ++ rest)) (utf8 (c :: u)) := by
  rw [List.cons_append, utf8_one, utf8_cons_ascii hascii]
  exact globCalls_cons (by decide) (.inl rfl)

/-- The star may take nothing. -/
theorem RunTakes.star (h : RunTakes r rest u) : RunTakes ('*' :: r) rest u := by
  obtain ⟨u₁, u₂, hu, hfits, hmatch, hsub⟩ := h
  refine ⟨u₁, u₂, hu, ?_, hmatch, List.Subset.trans hsub (globCalls_utf8_star r rest u)⟩
  rw [wildOf_star]
  exact hfits.more (Nat.le_refl _)

/-- It takes one more character where the rest of the pattern fails. -/
theorem RunTakes.skip (hascii : c.toNat < 128)
    (hhere : ¬ globMatch (utf8 (r ++ rest)) (utf8 (c :: u)) = true)
    (h : RunTakes ('*' :: r) rest u) : RunTakes ('*' :: r) rest (c :: u) := by
  obtain ⟨u₁, u₂, rfl, hfits, hmatch, hsub⟩ := h
  refine ⟨c :: u₁, u₂, rfl, ?_, hmatch,
    List.Subset.trans hsub (globCalls_utf8_skip hascii hhere)⟩
  rw [wildOf_star] at hfits ⊢
  exact Nat.le_succ_of_le hfits

/-- The `?` takes one character. -/
theorem RunTakes.one (hascii : c.toNat < 128) (h : RunTakes r rest u) :
    RunTakes ('?' :: r) rest (c :: u) := by
  obtain ⟨u₁, u₂, rfl, hfits, hmatch, hsub⟩ := h
  refine ⟨c :: u₁, u₂, rfl, ?_, hmatch,
    List.Subset.trans hsub (globCalls_utf8_one hascii r rest _)⟩
  rw [wildOf_one, List.length_cons]
  exact hfits.succ

/-- A star in front of a run with a `?`. -/
theorem runTakes_star (hr : ∀ c ∈ r, isWildcard c = true) (hone : '?' ∈ r)
    (hrun : ∀ {u}, OnesBeforeAscii r rest u → globMatch (utf8 (r ++ rest)) (utf8 u) = true →
      RunTakes r rest u)
    (hones : OnesBeforeAscii ('*' :: r) rest u)
    (h : globMatch (utf8 ('*' :: r ++ rest)) (utf8 u) = true) : RunTakes ('*' :: r) rest u := by
  rw [List.cons_append, utf8_star] at h
  induction u with
  | nil =>
    have hhere : globMatch (utf8 (r ++ rest)) (utf8 []) = true := by simpa [globMatch] using h
    exact (hrun (hones.tail (globCalls_utf8_star r rest [])) hhere).star
  | cons c u ih =>
    by_cases hhere : globMatch (utf8 (r ++ rest)) (utf8 (c :: u)) = true
    · exact (hrun (hones.tail (globCalls_utf8_star r rest (c :: u))) hhere).star
    -- a `?` of the run has been tried here in vain, so the star takes a whole character
    · obtain ⟨r₁, r₂, rfl, hcall⟩ := mem_globCalls_one hr hone rest (utf8 (c :: u))
      have hascii := hones ('*' :: r₁) r₂ c u rfl (globCalls_utf8_star _ rest (c :: u) hcall)
      have hskip := globCalls_utf8_skip hascii hhere
      refine RunTakes.skip hascii hhere
        (ih (fun s₁ s₂ d v hs hcall => hones s₁ s₂ d v hs (hskip hcall)) ?_)
      rw [utf8_cons_ascii hascii] at h hhere
      rw [globMatch, if_pos rfl, Bool.or_eq_true] at h
      exact h.resolve_left hhere

/-- A run without a `?` takes any characters. -/
theorem runTakes_of_no_one (hr : ∀ c ∈ r, isWildcard c = true) (hrest : AtLiteral rest)
    (hone : '?' ∉ r) (h : globMatch (utf8 ('*' :: r ++ rest)) (utf8 u) = true) :
    RunTakes ('*' :: r) rest u := by
  obtain ⟨x, y, hu, -, hmatch, hsub⟩ :=
    exists_of_globMatch_run (List.forall_mem_cons.mpr ⟨by decide, hr⟩) h
  obtain ⟨u₁, u₂, rfl, rfl, rfl⟩ := hrest.boundary hmatch hu
  refine ⟨u₁, u₂, rfl, ?_, hmatch, hsub⟩
  have hcount : r.count '?' = 0 := List.count_eq_zero.mpr hone
  rw [wildOf_star, Wild.Fits, if_pos rfl]
  exact Nat.le_trans (Nat.le_of_eq hcount) (Nat.zero_le _)

/-- **Counting characters.** If the `?` of a run are tried in front of ASCII characters only, the
first success is behind as many characters as the run may stand for. -/
theorem runTakes_of_onesBeforeAscii (hr : ∀ c ∈ r, isWildcard c = true) (hrest : AtLiteral rest)
    (hones : OnesBeforeAscii r rest u) (h : globMatch (utf8 (r ++ rest)) (utf8 u) = true) :
    RunTakes r rest u := by
  induction r generalizing u with
  | nil => exact ⟨[], u, rfl, rfl, h, List.Subset.refl _⟩
  | cons c r ih =>
    obtain ⟨hc, hr'⟩ := List.forall_mem_cons.mp hr
    rcases isWildcard_iff.mp hc with rfl | rfl
    · by_cases hone : '?' ∈ r
      · exact runTakes_star hr' hone (ih hr') hones h
      · exact runTakes_of_no_one hr' hrest hone h
    · rw [List.cons_append, utf8_one] at h
      obtain ⟨b, t, ht, -, htail⟩ := (globMatch_cons (by decide)).mp h
      cases u with
      | nil => cases ht
      | cons c u =>
        have hascii := hones [] r c u rfl (mem_globCalls _ _)
        obtain ⟨rfl, rfl⟩ := List.cons.inj ((utf8_cons_ascii hascii u).symm.trans ht)
        exact (ih hr' (hones.tail (globCalls_utf8_one hascii r rest u)) htail).one hascii

/-- A run of `?` takes as many characters as it has, if these are tried in front of ASCII only. -/
theorem ascii_of_onesBeforeAscii {u₁ u₂ : List Char} (hr : ∀ c ∈ r, c = '?')
    (hones : OnesBeforeAscii r rest (u₁ ++ u₂)) (hlength : u₁.length = r.length) :
    ∀ c ∈ u₁, c.toNat < 128 := by
  induction r generalizing u₁ with
  | nil =>
    obtain rfl := List.length_eq_zero_iff.mp hlength
    exact fun c hc => absurd hc List.not_mem_nil
  | cons c r ih =>
    obtain ⟨rfl, hr'⟩ := List.forall_mem_cons.mp hr
    obtain ⟨d, u₁, rfl⟩ := List.exists_cons_of_length_eq_add_one hlength
    have hascii := hones [] r d (u₁ ++ u₂) rfl (mem_globCalls _ _)
    exact List.forall_mem_cons.mpr ⟨hascii,
      ih hr' (hones.tail (globCalls_utf8_one hascii r rest (u₁ ++ u₂))) (Nat.succ.inj hlength)⟩

/-! ## The runs of a pattern

Within the pattern, the run that is at hand is the one that `runAt` finds. This connects the
condition, which is about the whole pattern, with the run. -/

/-- A run ends in front of a literal. -/
theorem AtLiteral.takeWhile_eq_nil (h : AtLiteral rest) : rest.takeWhile isWildcard = [] := by
  cases rest with
  | nil => rfl
  | cons c rest => simp [h c rfl]

variable {q : Pattern} {pre : List Char}

/-- The run around one of its `?`. -/
theorem runAt_eq {r₁ r₂ : List Char} (hq : q.value = pre ++ (r₁ ++ '?' :: r₂ ++ rest))
    (hpre : AtLiteral pre.reverse) (hr : ∀ c ∈ r₁ ++ '?' :: r₂, isWildcard c = true)
    (hrest : AtLiteral rest) :
    q.runAt (pre ++ r₁).length = wildOf (r₁ ++ '?' :: r₂) := by
  obtain ⟨hr₁, hr₂⟩ := List.forall_mem_append.mp hr
  have hsplit : q.value = (pre ++ r₁) ++ ('?' :: r₂ ++ rest) := by
    rw [hq]
    simp only [List.append_assoc]
  have hbefore : ∀ c ∈ r₁.reverse, isWildcard c = true := fun c hc => hr₁ c (List.mem_reverse.mp hc)
  rw [Pattern.runAt, hsplit, List.take_left, List.drop_left, List.reverse_append,
    List.takeWhile_append_of_pos hbefore, hpre.takeWhile_eq_nil, List.append_nil,
    List.reverse_reverse, List.takeWhile_append_of_pos hr₂, hrest.takeWhile_eq_nil, List.append_nil]

/-- If the search tries no `?` of such a run in front of another character, those of this run are
tried in front of ASCII characters only. -/
theorem onesBeforeAscii_of_not_triesWide (hq : q.value = pre ++ (r ++ rest))
    (hpre : AtLiteral pre.reverse) (hr : ∀ c ∈ r, isWildcard c = true) (hrest : AtLiteral rest)
    (hwild : ¬ (wildOf r).Lenient)
    (htries : ∀ call ∈ globCalls (utf8 (r ++ rest)) (utf8 u), ¬ q.TriesWide call) :
    OnesBeforeAscii r rest u := by
  rintro r₁ r₂ c v rfl hcall
  by_contra hwide
  have hsplit : q.value = (pre ++ r₁) ++ ('?' :: (r₂ ++ rest)) := by
    rw [hq]
    simp only [List.append_assoc, List.cons_append]
  refine htries _ hcall ⟨(pre ++ r₁).length, ?_, ?_, ?_, ?_, ?_⟩
  · rw [hsplit]
    simp only [List.length_append, List.length_cons]
    omega
  · rw [hsplit, List.getElem?_append_right (Nat.le_refl _), Nat.sub_self]
    rfl
  · rw [hsplit, List.drop_left]
  · obtain ⟨b, hb, hhead⟩ := exists_head?_utf8 c v
    have hfirst : b ∈ (String.utf8EncodeChar c).head? := by
      rw [utf8_cons, List.head?_append] at hhead
      cases hbytes : String.utf8EncodeChar c with
      | nil => rw [hbytes] at hb; cases hb
      | cons b' bs => rw [hbytes] at hhead; exact hhead
    have hle := le_head_utf8EncodeChar (Nat.le_of_not_lt hwide) hfirst
    rw [hhead, Option.any_some, decide_eq_true_eq]
    exact UInt8.le_iff_toNat_le.mpr hle
  · rwa [runAt_eq hq hpre hr hrest]

/-! ## The whole search

By induction on the length of the pattern, one run and one literal at a time. If there is a
match, the first success gives the cut; if the text can be cut, the search cannot have failed,
since it would have tried this cut. -/

/-- What follows a run is matched as it should be if what follows its literal is. -/
theorem globMatch_literal_iff (hc : isWildcard c = false)
    (ih : ∀ {d v}, u = d :: v → c.toLower = d.toLower → (globMatch (utf8 rest) (utf8 v) = true ↔
      Glob.Splits SameLetter (rest.map globItem) v)) :
    globMatch (utf8 (c :: rest)) (utf8 u) = true ↔
      Glob.Splits SameLetter ((c :: rest).map globItem) u := by
  have hitem : globItem c = .lit c := by
    have hne := mt isWildcard_iff.mpr (Bool.eq_false_iff.mp hc)
    rw [globItem, if_neg fun h => hne (.inl h), if_neg fun h => hne (.inr h)]
  rw [globMatch_literal hc, List.map_cons, hitem, Glob.splits_cons]
  constructor
  · rintro ⟨d, y, hu, hd, hy⟩
    obtain ⟨u₁, v, rfl, hu₁, rfl⟩ := exists_of_utf8_eq_append (x := []) hu
    have hzero : byteLen u₁ = 0 := by
      rw [← length_utf8, ← hu₁]
      rfl
    obtain rfl := List.length_eq_zero_iff.mp (byteLen_eq_zero_iff.mp hzero)
    exact ⟨[d], v, rfl, ⟨d, rfl, hd⟩, (ih rfl hd).mp hy⟩
  · rintro ⟨-, v, rfl, ⟨d, rfl, hd⟩, hv⟩
    exact ⟨d, utf8 v, utf8_cons d v, hd, (ih rfl hd).mpr hv⟩

/-- **The run in front.** If it matters whether bytes or characters are counted, the run stands for
ASCII characters wherever its `?` are tried; and otherwise it does not matter. -/
theorem runTakes_of_globMatch (hq : q.value = pre ++ (r ++ rest)) (hpre : AtLiteral pre.reverse)
    (hr : ∀ c ∈ r, isWildcard c = true) (hrest : AtLiteral rest)
    (htries : ∀ call ∈ globCalls (utf8 (r ++ rest)) (utf8 u), ¬ q.TriesWide call)
    (h : globMatch (utf8 (r ++ rest)) (utf8 u) = true) : RunTakes r rest u := by
  by_cases hwild : (wildOf r).Lenient
  · obtain ⟨x, y, hu, hfits, hmatch, hsub⟩ := exists_of_globMatch_run hr h
    obtain ⟨u₁, u₂, rfl, rfl, rfl⟩ := hrest.boundary hmatch hu
    rw [length_utf8, hwild.fits_congr byteLen_eq_zero_iff] at hfits
    exact ⟨u₁, u₂, rfl, hfits, hmatch, hsub⟩
  · exact runTakes_of_onesBeforeAscii hr hrest
      (onesBeforeAscii_of_not_triesWide hq hpre hr hrest hwild htries) h

/-- The other way round: what the run may stand for in characters, it may in bytes. -/
theorem fits_byteLen_of_front {u₁ u₂ : List Char} (hq : q.value = pre ++ (r ++ rest))
    (hpre : AtLiteral pre.reverse) (hr : ∀ c ∈ r, isWildcard c = true) (hrest : AtLiteral rest)
    (htries : ∀ call ∈ globCalls (utf8 (r ++ rest)) (utf8 (u₁ ++ u₂)), ¬ q.TriesWide call)
    (h : (wildOf r).Fits u₁.length) : (wildOf r).Fits (byteLen u₁) := by
  by_cases hwild : (wildOf r).Lenient
  · exact (hwild.fits_congr byteLen_eq_zero_iff).mpr h
  by_cases hstar : '*' ∈ r
  · -- with a star, more bytes than characters are no harm
    have hmore : (wildOf r).more = true := decide_eq_true hstar
    rw [Wild.Fits, if_pos hmore] at h ⊢
    exact Nat.le_trans h (length_le_byteLen_text u₁)
  · have hones : ∀ c ∈ r, c = '?' := by
      intro c hc
      refine (isWildcard_iff.mp (hr c hc)).resolve_left ?_
      rintro rfl
      exact hstar hc
    have hlength : u₁.length = r.length := by
      have hmore : ¬ (wildOf r).more = true := by simpa [wildOf] using hstar
      rw [Wild.Fits, if_neg hmore] at h
      rw [h]
      exact List.count_eq_length.mpr fun c hc => (hones c hc).symm
    have hascii := ascii_of_onesBeforeAscii hones
      (onesBeforeAscii_of_not_triesWide hq hpre hr hrest hwild htries) hlength
    rwa [byteLen_of_ascii hascii]

/-- A text begins with a run of wildcard characters, which may be empty. -/
theorem exists_run (s : List Char) :
    ∃ r rest, s = r ++ rest ∧ (∀ c ∈ r, isWildcard c = true) ∧ AtLiteral rest := by
  refine ⟨_, _, (List.takeWhile_append_dropWhile (p := isWildcard)).symm,
    fun c hc => List.mem_takeWhile_imp hc, fun c hc => ?_⟩
  have hnot := List.head?_dropWhile_not isWildcard s
  rw [Option.mem_def.mp hc] at hnot
  exact hnot

/-- **The whole search.** Where it tries no `?` of such a run in front of a character outside ASCII,
it finds whether the text can be cut as the pattern says. -/
theorem globMatch_iff_splits {s : List Char} (hq : q.value = pre ++ s)
    (hpre : AtLiteral pre.reverse)
    (htries : ∀ call ∈ globCalls (utf8 s) (utf8 u), ¬ q.TriesWide call) :
    globMatch (utf8 s) (utf8 u) = true ↔ Glob.Splits SameLetter (s.map globItem) u := by
  induction hn : s.length using Nat.strong_induction_on generalizing pre s u with
  | h n ih =>
    obtain ⟨r, rest, rfl, hr, hrest⟩ := exists_run s
    have hlater : ∀ {u₂}, globCalls (utf8 rest) (utf8 u₂) ⊆ globCalls (utf8 (r ++ rest)) (utf8 u) →
        (globMatch (utf8 rest) (utf8 u₂) = true ↔
          Glob.Splits SameLetter (rest.map globItem) u₂) := by
      intro u₂ hsub
      cases rest with
      | nil =>
        rw [utf8_nil, globMatch_nil, List.map_nil, Glob.splits_nil, ← List.length_eq_zero_iff,
          length_utf8, byteLen_eq_zero_iff, List.length_eq_zero_iff]
      | cons c rest =>
        have hc := hrest c rfl
        refine globMatch_literal_iff hc fun {d v} hu₂ hd => ?_
        have hq' : q.value = (pre ++ r ++ [c]) ++ rest := by
          rw [hq]
          simp only [List.append_assoc, List.singleton_append]
        refine ih rest.length ?_ hq' ?_ (fun call hcall => htries call (hsub ?_)) rfl
        · rw [← hn, List.length_append, List.length_cons]
          omega
        · rw [List.reverse_append]
          exact fun e he => Option.some.inj he ▸ hc
        · rw [hu₂, utf8_cons]
          exact globCalls_literal hc hd hcall
    rw [List.map_append, Glob.splits_append]
    constructor
    · intro h
      obtain ⟨u₁, u₂, rfl, hfits, hmatch, hsub⟩ :=
        runTakes_of_globMatch hq hpre hr hrest htries h
      exact ⟨u₁, u₂, rfl, (splits_run hr).mpr hfits, (hlater hsub).mp hmatch⟩
    · rintro ⟨u₁, u₂, rfl, hu₁, hu₂⟩
      have hlength := fits_byteLen_of_front hq hpre hr hrest htries ((splits_run hr).mp hu₁)
      rw [← length_utf8] at hlength
      have hfits : Glob.Splits SameBytes (r.map globItem) (utf8 u₁) := (splits_run hr).mpr hlength
      -- were there no match, what follows would have been tried behind the run, and matched
      by_contra hnone
      rw [utf8_append u₁] at hnone hlater
      have hsub := globCalls_of_not_globMatch hr hfits hnone
      refine hnone ((globMatch_iff (r ++ rest)).mpr ?_)
      rw [List.map_append]
      exact Glob.splits_append.mpr
        ⟨_, _, rfl, hfits, (globMatch_iff rest).mp ((hlater hsub).mpr hu₂)⟩

end

/-! ## Where the matcher is right -/

/-- **Exactly when.** A pattern is matched as it should be on a text if no `?` of a run in which it
matters is tried in front of a character outside ASCII. On every text it is exactly if there is no
such run: each has no `?`, or one and a `*`; and every pattern is, on a text, exactly if this is in
ASCII. -/
theorem matchesAsSplit_iff (p : Pattern) (text : List Char) :
    ((∀ call ∈ globCalls (utf8 p.value) (utf8 text), ¬ p.TriesWide call) →
      p.MatchesAsSplit text) ∧
    ((∀ t, p.MatchesAsSplit t) ↔ ∀ w ∈ p.wilds, w.Lenient) ∧
    ((∀ q : Pattern, q.MatchesAsSplit text) ↔ ∀ c ∈ text, c.toNat < 128) := by
  refine ⟨fun h => ?_, ⟨fun h => ?_, fun h t => ?_⟩, fun h => ?_, fun h q => ?_⟩
  · refine matchesAsSplit_of_iff (globMatch_iff_splits (List.nil_append p.value).symm ?_ h)
    intro c hc
    cases hc
  · by_contra hnot
    obtain ⟨t, ht⟩ := exists_not_iff hnot
    exact ht (h t).1
  · exact matchesAsSplit_of_iff (globMatches_iff_splits (.inl h))
  · by_contra hnot
    obtain ⟨q, hq⟩ := exists_pattern_not_iff hnot
    exact hq (h q).1
  · exact matchesAsSplit_of_iff (globMatches_iff_splits (.inr h))

/-- The search for `web?` in `münchen` ends at the first letter, and in `abcü` the two `?` of `a??*`
are tried in front of ASCII letters only. -/
theorem asciiTries_matchesAsSplit :
    Pattern.MatchesAsSplit ⟨false, "web?".toList⟩ "münchen".toList ∧
      Pattern.MatchesAsSplit ⟨true, "a??*".toList⟩ "abcü".toList :=
  ⟨(matchesAsSplit_iff _ _).1 (by decide +kernel), (matchesAsSplit_iff _ _).1 (by decide +kernel)⟩

/-- `host?` -/
def oneBehindHost : Pattern := ⟨false, "host?".toList⟩

/-- The `é` has two bytes, and the `?` takes one of them. -/
theorem oneBehindHost_misses :
    oneBehindHost.globMatches "hosté".toList = false ∧ oneBehindHost.Splits "hosté".toList ∧
      ¬ oneBehindHost.MatchesAsSplit "hosté".toList := by
  have hmiss : oneBehindHost.globMatches "hosté".toList = false := by decide +kernel
  have hsplits : oneBehindHost.Splits "hosté".toList := by
    refine ⟨["h".toList, "o".toList, "s".toList, "t".toList, "é".toList], by decide, ?_⟩
    refine .cons ⟨'h', rfl, rfl⟩
      (.cons ⟨'o', rfl, rfl⟩ (.cons ⟨'s', rfl, rfl⟩ (.cons ⟨'t', rfl, rfl⟩
      (.cons rfl .nil))))
  refine ⟨hmiss, hsplits, fun h => ?_⟩
  rw [h.1.mpr hsplits] at hmiss
  cases hmiss

end Dssh
