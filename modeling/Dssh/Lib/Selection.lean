import Mathlib.Data.List.Basic

/-!
# Places in a selection

Selecting from a list keeps the order, so the place of a selected element in the selection is
the number of elements selected before it.

Pairing "the `k`-th request" with "the `k`-th answer" needs this. Requests are some of the
messages of one direction, answers some of those of the other, and each list is a selection from
a history that contains other things as well. Two selections agree in their counts up to a place
if they agree element by element before it (`countP_take_eq`), and so in what they put at the
places behind.
-/

namespace Selection

variable {α β γ : Type*}

/-- An element at place `k` that is selected is in the selection at the number of those before it.
-/
theorem getElem?_filterMap {f : α → Option β} {l : List α} {k : ℕ} {x : α} {y : β}
    (hx : l[k]? = some x) (hy : f x = some y) :
    (l.filterMap f)[(l.take k).countP fun x => (f x).isSome]? = some y := by
  obtain ⟨hk, rfl⟩ := List.getElem?_eq_some_iff.mp hx
  have hsplit : l = l.take k ++ l[k] :: l.drop (k + 1) := by
    rw [← List.drop_eq_getElem_cons hk, List.take_append_drop]
  have hcount : (l.take k).countP (fun x => (f x).isSome) = ((l.take k).filterMap f).length := by
    rw [List.length_filterMap_eq_countP]
  rw [hcount]
  conv_lhs => rw [hsplit]
  rw [List.filterMap_append, List.filterMap_cons_some hy]
  simp

/-- The same for a filter. -/
theorem getElem?_filter {p : α → Bool} {l : List α} {k : ℕ} {x : α} (hx : l[k]? = some x)
    (hp : p x = true) : (l.filter p)[(l.take k).countP p]? = some x := by
  have h := getElem?_filterMap (f := Option.guard p) hx (Option.guard_eq_some_iff.mpr ⟨rfl, hp⟩)
  simpa [List.filterMap_eq_filter, Option.isSome_guard] using h

/-- A longer list has the same elements at the same places. -/
theorem getElem?_mono {l l' : List α} (h : l <+: l') {k : ℕ} {x : α} (hx : l[k]? = some x) :
    l'[k]? = some x := by
  obtain ⟨more, rfl⟩ := h
  rw [List.getElem?_append_left (List.getElem?_eq_some_iff.mp hx).1, hx]

/-- So a place of the shorter one has one element in both. -/
theorem getElem?_of_lt {l l' : List α} (h : l <+: l') {k : ℕ} {x : α} (hk : k < l.length)
    (hx : l'[k]? = some x) : l[k]? = some x := by
  have hmono := getElem?_mono h (List.getElem?_eq_getElem hk)
  rw [List.getElem?_eq_getElem hk, ← hmono, hx]

/-- What has been added at the end, if anything. -/
theorem getElem?_append_toList {l : List α} {o : Option α} {k : ℕ} {x : α}
    (h : (l ++ o.toList)[k]? = some x) : l[k]? = some x ∨ k = l.length ∧ o = some x := by
  rcases Nat.lt_or_ge k l.length with hk | hk
  · rw [List.getElem?_append_left hk] at h
    exact Or.inl h
  · rw [List.getElem?_append_right hk] at h
    cases o with
    | none => simp at h
    | some y =>
      obtain ⟨hlt, hx⟩ := List.getElem?_eq_some_iff.mp h
      rw [Option.toList_some, List.length_singleton] at hlt
      refine Or.inr ⟨by omega, ?_⟩
      rw [← hx]
      simp

/-- Two selections that agree before place `k` select equally many there. -/
theorem countP_take_eq {p : α → Bool} {q : γ → Bool} {l : List α} {l' : List γ} {k : ℕ}
    (hk : k ≤ l.length) (hk' : k ≤ l'.length)
    (h : ∀ i x y, i < k → l[i]? = some x → l'[i]? = some y → p x = q y) :
    (l.take k).countP p = (l'.take k).countP q := by
  induction k with
  | zero => simp
  | succ k ih =>
    have hx : l[k]? = some l[k] := List.getElem?_eq_getElem hk
    have hy : l'[k]? = some l'[k] := List.getElem?_eq_getElem hk'
    have hbefore := ih (by omega) (by omega) fun i x y hi => h i x y (by omega)
    have hlast := h k _ _ (Nat.lt_succ_self k) hx hy
    rw [List.take_add_one, List.take_add_one, hx, hy, List.countP_append,
      List.countP_append, hbefore]
    simp [hlast]

end Selection
