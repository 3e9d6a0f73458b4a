import Dssh.Config.Match

/-!
# Why `Match` criteria are refused

A list of tokens that is no list of criteria is refused at the first token with which the loop
cannot go on, for the reason that it has there. `MatchFails` describes all refusals: nothing at
all, a token with which the criteria in front of it cannot go on, and an `all` in the wrong
place.

## Which error

Error messages are located, and a user goes where they point. So it is part of the parser's
behaviour *which* error a list with several gets. The loop reports the first one it meets, from
the left, and it checks the placement of `all` only when all criteria have been read; a list
with a misplaced `all` and a misspelt keyword further on reports the keyword. The relation has
the same order: the constructor for the placement asks for a list that *is* criteria.

What an unknown keyword is reported as is the text without its `!`, in the case it was written
in; a missing argument is reported with the keyword in lower case.

## Main definitions

* `CriterionFails` — a token at which the loop ends
* `PlacementFails` — an `all` in the wrong place
* `MatchFails` — the reasons for which tokens are refused

## Main results

* `parseCriteria_error_iff` — where the loop ends with an error
* `parseTokens_error_iff` — which lists are refused, and why
-/

namespace Dssh

/-- The keywords without an argument. -/
def plainKeywords : List String := plainCriteria.map Prod.fst

/-- The keywords with an argument. -/
def argumentKeywords : List String := "exec" :: "localnetwork" :: patternCriteria.map Prod.fst

/-- The loop cannot go on at `t`, with `rest` behind it. -/
inductive CriterionFails (t : Located (List Char)) :
    List (Located (List Char)) → Located ParseMatchArgsError → Prop
  /-- It is no keyword. -/
  | unknown {rest negated written}
      (hwritten : t.value = (if negated then ['!'] else []) ++ written)
      (hhead : negated = false → written.head? ≠ some '!')
      (hnone : ∀ keyword ∈ plainKeywords ++ argumentKeywords, ¬ Names t negated keyword) :
      CriterionFails t rest (t.withValue (.unknownCriterion written))
  /-- It is the keyword of a criterion with an argument, and the last token. -/
  | missing {negated keyword} (ht : Names t negated keyword)
      (hkeyword : keyword ∈ argumentKeywords) :
      CriterionFails t [] (t.withValue (.missingArgument keyword))

/-- The first `all` has something else than `canonical` and `final` in front of it. -/
inductive PlacementFails (es : List (Located MatchEntry)) : Located ParseMatchArgsError → Prop
  | intro {before e behind} (hes : es = before ++ e :: behind) (he : e.value.criterion = .all)
      (hfirst : ∀ e' ∈ before, e'.value.criterion ≠ .all)
      (hother : ∃ e' ∈ before, ¬ (e'.value.criterion = .canonical ∨ e'.value.criterion = .final)) :
      PlacementFails es (e.withValue .invalidAllPlacement)

/-- Why the arguments `args` with these tokens are refused. -/
inductive MatchFails (args : Located (List Char)) :
    List (Located (List Char)) → Located ParseMatchArgsError → Prop
  /-- There are no tokens. -/
  | empty : MatchFails args [] (args.withValue .empty)
  /-- Behind some criteria, there is a token with which it cannot go on. -/
  | criterion {front t rest es e} (hfront : Criteria front es) (ht : CriterionFails t rest e) :
      MatchFails args (front ++ t :: rest) e
  /-- They are criteria, with an `all` in the wrong place. -/
  | placement {tokens es e} (hne : tokens ≠ []) (htokens : Criteria tokens es)
      (hes : PlacementFails es e) : MatchFails args tokens e

variable {t : Located (List Char)} {ts front rest : List (Located (List Char))}
  {es : List (Located MatchEntry)} {e : Located ParseMatchArgsError} {negated : Bool}
  {keyword : String}

/-! ### Keywords

The two tables as lists of names, for saying that a token is none of them. -/

/-- They are those of the first table. -/
theorem mem_plainKeywords_iff :
    keyword ∈ plainKeywords ↔ (plainCriterion keyword).isSome = true := by
  unfold plainCriterion
  split <;> simp_all [plainKeywords, plainCriteria]

/-- And those of the second. -/
theorem mem_argumentKeywords_iff :
    keyword ∈ argumentKeywords ↔ (argumentCriterion keyword).isSome = true := by
  unfold argumentCriterion
  split <;> simp_all [argumentKeywords, patternCriteria]

/-- No keyword begins with a `!`. -/
theorem head_matchKeyword (h : keyword ∈ plainKeywords ++ argumentKeywords) :
    keyword.toList.head? ≠ some '!' := by
  obtain h | h := List.mem_append.mp h
  · obtain ⟨criterion, hcriterion⟩ := Option.isSome_iff_exists.mp (mem_plainKeywords_iff.mp h)
    exact head_plainCriterion hcriterion
  · exact (plainCriterion_eq_none (mem_argumentKeywords_iff.mp h)).2

/-! ### The loop

An error is found behind some criteria that are in order: at a token that is no keyword, or at a
keyword whose argument is missing. It is located there. -/

/-- A loop that puts something in front fails if the rest does. -/
theorem error_cons_iff {ε α : Type} {x : Except ε (List α)} {a : α} {e : ε} :
    (do let entries ← x; .ok (a :: entries) : Except ε (List α)) = .error e ↔ x = .error e := by
  cases x with
  | error e' =>
    refine ⟨fun h => ?_, fun h => ?_⟩
    · exact congrArg _ (Except.error.inj h)
    · exact congrArg _ (Except.error.inj h)
  | ok es => exact iff_of_false (by intro h; cases h) (by intro h; cases h)

/-- At such a token the loop ends. -/
theorem CriterionFails.parseCriteria (h : CriterionFails t rest e) :
    parseCriteria (t :: rest) = .error e := by
  cases h with
  | @unknown _ negated written hwritten hhead hnone =>
    have hstrip := stripNegation_eq_iff.mpr ⟨hwritten, hhead⟩
    have hnames := names_stripNegation t
    rw [hstrip] at hnames
    have hplain : plainCriterion (toAsciiLowercase written) = none := by
      refine Option.not_isSome_iff_eq_none.mp fun hsome => hnone _ ?_ hnames
      exact List.mem_append_left _ (mem_plainKeywords_iff.mpr hsome)
    have hargument : argumentCriterion (toAsciiLowercase written) = none := by
      refine Option.not_isSome_iff_eq_none.mp fun hsome => hnone _ ?_ hnames
      exact List.mem_append_right _ (mem_argumentKeywords_iff.mpr hsome)
    rw [Dssh.parseCriteria, hstrip]
    dsimp only
    rw [hplain, hargument]
  | missing ht hkeyword =>
    have hsome := mem_argumentKeywords_iff.mp hkeyword
    obtain ⟨f, hf⟩ := Option.isSome_iff_exists.mp hsome
    obtain ⟨hplain, hhead⟩ := plainCriterion_eq_none hsome
    obtain ⟨-, hlower⟩ := ht.strip hhead
    rw [Dssh.parseCriteria]
    dsimp only
    rw [hlower, hplain, hf]

/-- What fails behind criteria fails. -/
theorem Criteria.parseCriteria_append (h : Criteria front es)
    (hrest : parseCriteria ts = .error e) :
    parseCriteria (front ++ ts) = .error e := by
  induction h with
  | nil => exact hrest
  | plain ht hkeyword _ ih =>
    rw [List.cons_append, parseCriteria_plain ht (mem_plainCriteria_iff.mp hkeyword)]
    exact error_cons_iff.mpr ih
  | exec ht _ ih =>
    rw [List.cons_append, List.cons_append,
      parseCriteria_argument ht (argumentCriterion_iff.mpr (.inl ⟨rfl, rfl⟩))]
    exact error_cons_iff.mpr ih
  | localNetwork ht _ _ ih =>
    rw [List.cons_append, List.cons_append,
      parseCriteria_argument ht (argumentCriterion_iff.mpr (.inr (.inl ⟨rfl, rfl⟩)))]
    exact error_cons_iff.mpr ih
  | patterns ht hkeyword _ _ _ ih =>
    rw [List.cons_append, List.cons_append,
      parseCriteria_argument ht (argumentCriterion_iff.mpr (.inr (.inr ⟨_, hkeyword, rfl⟩)))]
    exact error_cons_iff.mpr ih

/-- A keyword and its argument are a criterion. -/
theorem Criteria.argument {arg : Located (List Char)} {f : Located (List Char) → MatchCriterion}
    (ht : Names t negated keyword) (hf : argumentCriterion keyword = some f)
    (hts : Criteria ts es) :
    Criteria (t :: arg :: ts) (t.withValue ⟨negated, f arg⟩ :: es) := by
  rw [← parseCriteria_ok_iff, parseCriteria_argument ht (by rw [hf]; rfl),
    parseCriteria_ok_iff.mpr hts]
  rfl

/-- **The loop** ends with an error behind some criteria, at a token with which it cannot go on. -/
theorem parseCriteria_error_iff : parseCriteria ts = .error e ↔
    ∃ front t rest es, ts = front ++ t :: rest ∧ Criteria front es ∧ CriterionFails t rest e := by
  constructor
  · intro h
    fun_induction parseCriteria ts with
    | case1 => cases h
    | case2 t rest negated keyword kwLower criterion hplain =>
      rename_i ih
      obtain ⟨front, t', rest', es, rfl, hfront, ht'⟩ := ih (error_cons_iff.mp h)
      exact ⟨t :: front, t', rest', _, rfl,
        .plain (names_stripNegation t) (mem_plainCriteria_iff.mpr hplain) hfront, ht'⟩
    | case3 t keyword kwLower hplain f hf =>
      rw [← Except.error.inj h]
      exact ⟨[], t, [], [], rfl, .nil, .missing (names_stripNegation t)
        (mem_argumentKeywords_iff.mpr (Option.isSome_iff_exists.mpr ⟨f, hf⟩))⟩
    | case4 t negated keyword kwLower hplain f hf arg rest =>
      rename_i ih
      obtain ⟨front, t', rest', es, rfl, hfront, ht'⟩ := ih (error_cons_iff.mp h)
      exact ⟨t :: arg :: front, t', rest', _, rfl, .argument (names_stripNegation t) hf hfront, ht'⟩
    | case5 t rest keyword kwLower hplain hargument =>
      rw [← Except.error.inj h]
      obtain ⟨hwritten, hhead⟩ := stripNegation_eq_iff.mp (Prod.ext rfl rfl :
        stripNegation t.value = (_, keyword))
      refine ⟨[], t, rest, [], rfl, .nil, .unknown hwritten hhead fun keyword' hkeyword ht => ?_⟩
      obtain ⟨-, hlower⟩ := ht.strip (head_matchKeyword hkeyword)
      obtain hkeyword | hkeyword := List.mem_append.mp hkeyword
      · rw [← hlower, mem_plainKeywords_iff, hplain] at hkeyword
        cases hkeyword
      · rw [← hlower, mem_argumentKeywords_iff, hargument] at hkeyword
        cases hkeyword
  · rintro ⟨front, t, rest, es, rfl, hfront, ht⟩
    exact hfront.parseCriteria_append ht.parseCriteria

/-! ### The placement of `all`

The check fails at the first `all`, and reports the place of that. -/

/-- Where the first `all` is. -/
theorem dropWhile_first_all {before : List (Located MatchEntry)} {a : Located MatchEntry}
    (behind : List (Located MatchEntry))
    (hbefore : ∀ e' ∈ before, e'.value.criterion ≠ .all) (ha : a.value.criterion = .all) :
    ((before ++ a :: behind).takeWhile fun e => !e.value.criterion.isAll) = before ∧
      ((before ++ a :: behind).dropWhile fun e => !e.value.criterion.isAll) = a :: behind := by
  have hnot : ∀ e' ∈ before, (!e'.value.criterion.isAll) = true := by
    intro e' he'
    rw [Bool.not_eq_true']
    exact Bool.eq_false_iff.mpr fun h => hbefore e' he' (isAll_iff.mp h)
  have hall : (!a.value.criterion.isAll) = false := by
    rw [isAll_iff.mpr ha]
    rfl
  constructor
  · rw [List.takeWhile_append_of_pos hnot, List.takeWhile_cons, hall]
    exact List.append_nil before
  · rw [List.dropWhile_append_of_pos hnot, List.dropWhile_cons, hall]
    rfl

/-- **The placement** is refused exactly if it is wrong in front of the first `all`. -/
theorem checkAllPlacement_error_iff : checkAllPlacement es = .error e ↔ PlacementFails es e := by
  constructor
  · intro h
    by_cases hall : ∃ a ∈ es, a.value.criterion = .all
    · obtain ⟨a, ha, hcriterion⟩ := hall
      obtain ⟨before, a, behind, rfl, ha, hbefore⟩ := exists_first_all ha hcriterion
      obtain ⟨htake, hdrop⟩ := dropWhile_first_all behind hbefore ha
      rw [checkAllPlacement, htake, hdrop] at h
      dsimp only at h
      split at h
      · cases h
      · rename_i hother
        rw [← Except.error.inj h]
        refine .intro rfl ha hbefore ?_
        rw [List.all_eq_true] at hother
        push Not at hother
        obtain ⟨e', he', hne⟩ := hother
        exact ⟨e', he', fun h => hne (isCanonicalOrFinal_iff.mpr h)⟩
    · have hnone : (es.dropWhile fun e => !e.value.criterion.isAll) = [] := by
        refine List.dropWhile_eq_nil_iff.mpr fun a ha => ?_
        rw [Bool.not_eq_true']
        exact Bool.eq_false_iff.mpr fun h => hall ⟨a, ha, isAll_iff.mp h⟩
      rw [checkAllPlacement, hnone] at h
      cases h
  · rintro ⟨rfl, ha, hbefore, e', he', hother⟩
    rename_i before a behind
    obtain ⟨htake, hdrop⟩ := dropWhile_first_all behind hbefore ha
    rw [checkAllPlacement, htake, hdrop]
    exact if_neg fun h => hother (isCanonicalOrFinal_iff.mp (List.all_eq_true.mp h e' he'))

/-- **What is refused**, and why. -/
theorem parseTokens_error_iff {args : Located (List Char)} :
    parseTokens args ts = .error e ↔ MatchFails args ts e := by
  constructor
  · intro h
    obtain rfl | hne := eq_or_ne ts []
    · rw [← Except.error.inj h]
      exact .empty
    cases hparse : parseCriteria ts with
    | error e' =>
      rw [parseTokens, if_neg (fun h => hne (List.isEmpty_iff.mp h)), hparse] at h
      obtain rfl := Except.error.inj h
      obtain ⟨front, t, rest, es, rfl, hfront, ht⟩ := parseCriteria_error_iff.mp hparse
      exact .criterion hfront ht
    | ok es =>
      rw [parseTokens_of_criteria hne hparse] at h
      cases hcheck : checkAllPlacement es with
      | error e' =>
        rw [hcheck] at h
        obtain rfl := Except.error.inj h
        exact .placement hne (parseCriteria_ok_iff.mp hparse)
          (checkAllPlacement_error_iff.mp hcheck)
      | ok u =>
        rw [hcheck] at h
        cases h
  · intro h
    cases h with
    | empty => rfl
    | criterion hfront ht =>
      rw [parseTokens, if_neg (by simp), hfront.parseCriteria_append ht.parseCriteria]
      rfl
    | placement hne htokens hes =>
      rw [parseTokens_of_criteria hne (parseCriteria_ok_iff.mpr htokens),
        checkAllPlacement_error_iff.mpr hes]
      rfl

-- a keyword as an argument, and then one without an argument
example : parseTokens ⟨[], ⟨"c", ⟨6, 20⟩, 1, 7⟩⟩ [⟨"exec".toList, ⟨"c", ⟨6, 10⟩, 1, 7⟩⟩,
    ⟨"host".toList, ⟨"c", ⟨11, 15⟩, 1, 12⟩⟩, ⟨"User".toList, ⟨"c", ⟨16, 20⟩, 1, 17⟩⟩] =
      .error ⟨.missingArgument "user", ⟨"c", ⟨16, 20⟩, 1, 17⟩⟩ := by decide +kernel

end Dssh
