import Mathlib.Data.List.Nodup
import Mathlib.Data.List.Range

/-!
# Lists in strictly increasing order of a key

Tickets order what happens with them, so histories of tickets are lists in strictly increasing
order of a numeric key. Such a list is determined by its elements, and its elements with small
keys come first.

Two histories of the same run are often recorded by different parties: what was accepted by one,
what was written by another. If both are in strict order of the tickets and have the same
elements up to some ticket, one is a prefix of the other. `eq_of_mem_iff` and
`filter_lt_isPrefix` are that argument; neither has an induction on the run in it.

Strictness is what matters. With equal keys allowed, a list would not be determined by its
elements.
-/

/-- The keys `f x` of the elements of `l` increase strictly. -/
def KeySorted {β : Type*} (f : β → ℕ) (l : List β) : Prop := l.Pairwise fun x y => f x < f y

namespace KeySorted

variable {β : Type*} {f : β → ℕ} {l l' : List β}

@[simp] theorem nil : KeySorted f [] := List.Pairwise.nil

/-- There are no duplicates. -/
theorem nodup (h : KeySorted f l) : l.Nodup :=
  h.imp fun hlt heq => absurd (congrArg f heq) (Nat.ne_of_lt hlt)

/-- A selection is in order. -/
theorem filter (h : KeySorted f l) (p : β → Bool) : KeySorted f (l.filter p) :=
  List.Pairwise.filter p h

/-- A new element with a larger key than all others goes to the end. -/
theorem concat (h : KeySorted f l) {x : β} (hx : ∀ y ∈ l, f y < f x) : KeySorted f (l ++ [x]) :=
  List.pairwise_append.mpr ⟨h, List.pairwise_singleton _ _,
    fun y hy _ hz => List.mem_singleton.mp hz ▸ hx y hy⟩

/-- The element with a key is unique. -/
theorem eq_of_key (h : KeySorted f l) {x y : β} (hx : x ∈ l) (hy : y ∈ l) (hkey : f x = f y) :
    x = y :=
  List.inj_on_of_nodup_map (List.Pairwise.imp Nat.ne_of_lt (List.pairwise_map.mpr h)) hx hy hkey

/-- Two such lists with the same elements are equal. -/
theorem eq_of_mem_iff (h : KeySorted f l) (h' : KeySorted f l') (hmem : ∀ x, x ∈ l ↔ x ∈ l') :
    l = l' :=
  List.Perm.eq_of_pairwise (fun _ _ _ _ h₁ h₂ => absurd h₁ (Nat.lt_asymm h₂)) h h'
    ((List.perm_ext_iff_of_nodup h.nodup h'.nodup).mpr hmem)

/-- The elements with keys below a bound come first. -/
theorem filter_lt_isPrefix (h : KeySorted f l) (n : ℕ) : l.filter (f · < n) <+: l := by
  induction l with
  | nil => exact List.prefix_rfl
  | cons t l ih =>
    obtain ⟨ht, hl⟩ := List.pairwise_cons.mp h
    by_cases hn : f t < n
    · rw [List.filter_cons_of_pos (by simpa using hn)]
      exact (List.prefix_cons_inj t).mpr (ih hl)
    · have hnil : (t :: l).filter (f · < n) = [] := by
        rw [List.filter_eq_nil_iff]
        intro u hu
        rcases List.mem_cons.mp hu with rfl | hu
        · simpa using hn
        · have := ht u hu
          simp only [decide_eq_true_eq]
          omega
      rw [hnil]
      exact List.nil_prefix

/-- A list whose keys are `0, 1, …`. -/
theorem of_map_eq_range (h : l.map f = List.range l.length) : KeySorted f l := by
  rw [KeySorted, ← List.pairwise_map (f := f) (R := (· < ·)), h]
  exact List.pairwise_lt_range

/-- In it, the element with key `k` is at place `k`. -/
theorem key_of_getElem? (h : l.map f = List.range l.length) {k : ℕ} {x : β} (hx : l[k]? = some x) :
    f x = k := by
  have hk := congrArg (·[k]?) h
  simp only [List.getElem?_map, hx, Option.map_some] at hk
  rw [List.getElem?_range (List.getElem?_eq_some_iff.mp hx).1] at hk
  exact Option.some.inj hk

end KeySorted
