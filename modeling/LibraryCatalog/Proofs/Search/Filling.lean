import Mathlib.Data.List.Basic
import LibraryCatalog.Proofs.Search.Casing
import LibraryCatalog.Proofs.Text.Sigma

/-!
# `LibraryCatalog.Proofs.Search.Filling` — texts that a pattern leaves room for

A star stands for any text, and a pattern with texts in place of its stars is what a glob would match. This search
asks for less than that, namely for the fragments in any order. Yet it does not find all filled patterns. A fragment
is put into small letters by itself, and the same letters inside the text together with what surrounds them there. A
capital sigma can be final in the one and not in the other, and then the fragment is not found, though it stands in the
text letter for letter.

## Contents
- **Filling.** `fill`, and the pieces between the stars: `infix_fill`.
- **Sigmas.** `KeepsSigmas`, a filling in which each sigma of the pattern is final or not as in the pattern, and
  `Exposed`, a pattern with a sigma for which that depends on the filling: `keepsSigmas_of_not_exposed`.
- **Small letters.** `lowercase_fill`: the small form of a filled pattern is its small form, filled.
- **Matching.** `holdsIn_fill`, `exists_missed`, and `fillings_match` with its limits: `sample_sigma_lost`.
-/

namespace LibraryCatalog.Search

open Text

/-! ## Filling -/

/-- A pattern with texts in place of its stars, one after the other. A star for which there is no text vanishes. -/
def fill : List Char → List (List Char) → List Char
  | [], _ => []
  | c :: cs, texts => if c = '*' then texts.headD [] ++ fill cs texts.tail else c :: fill cs texts

variable {c : Char} {cs ds pattern front rest : List Char} {text : List Char} {texts : List (List Char)}

@[simp] theorem fill_star (cs : List Char) (texts : List (List Char)) :
    fill ('*' :: cs) texts = texts.headD [] ++ fill cs texts.tail := rfl

theorem fill_cons (h : c ≠ '*') (cs : List Char) (texts : List (List Char)) :
    fill (c :: cs) texts = c :: fill cs texts := by
  rw [fill, if_neg h]

/-- Without stars a pattern is filled already. -/
theorem fill_append_of_not_mem (h : '*' ∉ cs) (ds : List Char) (texts : List (List Char)) :
    fill (cs ++ ds) texts = cs ++ fill ds texts := by
  induction cs with
  | nil => rfl
  | cons c cs ih =>
    rw [List.mem_cons, not_or] at h
    rw [List.cons_append, fill_cons (Ne.symm h.1), ih h.2, List.cons_append]

theorem fill_of_not_mem (h : '*' ∉ cs) (texts : List (List Char)) : fill cs texts = cs := by
  have happend := fill_append_of_not_mem h [] texts
  rwa [List.append_nil, fill, List.append_nil] at happend

/-- Two patterns in a row are filled one after the other. -/
theorem fill_append (cs ds : List Char) (texts : List (List Char)) :
    fill (cs ++ ds) texts = fill cs texts ++ fill ds (texts.drop (cs.count '*')) := by
  induction cs generalizing texts with
  | nil => rfl
  | cons c cs ih =>
    by_cases hc : c = '*'
    · rw [hc, List.cons_append, fill_star, fill_star, ih, List.count_cons_self, List.append_assoc, List.drop_tail]
    · rw [List.cons_append, fill_cons hc, fill_cons hc, ih, List.count_cons_of_ne hc, List.cons_append]

/-- **What stands between stars** stands in the filled pattern. -/
theorem infix_fill {pieces : List (List Char)} (h : Divided ['*'] cs pieces) (texts : List (List Char)) :
    ∀ piece ∈ pieces, piece <:+: fill cs texts := by
  have hnone := h.not_mem
  induction h generalizing texts with
  | @last cs _ =>
    have hfilled := fill_of_not_mem (hnone cs List.mem_cons_self) texts
    exact List.forall_mem_singleton.mpr (hfilled.symm ▸ List.infix_rfl)
  | @cut piece rest pieces _ _ ih =>
    obtain ⟨hpiece, hpieces⟩ := List.forall_mem_cons.mp hnone
    rw [List.append_assoc, fill_append_of_not_mem hpiece, List.singleton_append, fill_star]
    refine List.forall_mem_cons.mpr ⟨(List.prefix_append _ _).isInfix, ?_⟩
    intro piece' hpiece'
    have hrest : fill rest texts.tail <:+ piece ++ (texts.headD [] ++ fill rest texts.tail) :=
      (List.suffix_append _ _).trans (List.suffix_append _ _)
    exact (ih texts.tail hpieces piece' hpiece').trans hrest.isInfix

/-! ## Sigmas -/

/-- A filling that makes no capital sigma of the pattern final that was not so between the stars, and none otherwise
that was. -/
def KeepsSigmas (pattern : List Char) (texts : List (List Char)) : Prop :=
  ∀ before after, pattern = before ++ 'Σ' :: after →
    (FinalBetween (fill before texts) (fill after (texts.drop (before.count '*'))) ↔ FinalBetween before after)

/-- A pattern with a capital sigma that looks upon a star, so that it depends on the filling whether it is final: it
has a letter with case before it and a star after it, or a star before it and no letter with case after it. -/
def Exposed (pattern : List Char) : Prop :=
  ∃ before after, pattern = before ++ 'Σ' :: after ∧
    ((firstSeen before.reverse).any isCased = true ∧ firstSeen after = some '*' ∨
      firstSeen before.reverse = some '*' ∧ (firstSeen after).any isCased = false)

/-- What is seen first is not changed by a filling, unless it is a star. -/
theorem firstSeen_fill (h : firstSeen cs ≠ some '*') (texts : List (List Char)) :
    firstSeen (fill cs texts) = firstSeen cs := by
  induction cs with
  | nil => rfl
  | cons c cs ih =>
    by_cases hc : isCaseIgnorable c = true
    · have hstar : c ≠ '*' := by
        rintro rfl
        exact absurd hc (by decide)
      rw [firstSeen_cons_of_ignorable hc] at h
      rw [fill_cons hstar, firstSeen_cons_of_ignorable hc, firstSeen_cons_of_ignorable hc, ih h]
    · have hseen := eq_false_of_ne_true hc
      rw [firstSeen_cons_of_seen hseen] at h
      have hstar : c ≠ '*' := fun heq => h (congrArg some heq)
      rw [fill_cons hstar, firstSeen_cons_of_seen hseen, firstSeen_cons_of_seen hseen]

/-- Nor is what is seen last, unless it is a star. -/
theorem firstSeen_reverse_fill (h : firstSeen cs.reverse ≠ some '*') (texts : List (List Char)) :
    firstSeen (fill cs texts).reverse = firstSeen cs.reverse := by
  -- by induction on the reversed pattern, which begins with what is seen last
  suffices hrev : ∀ ds : List Char, firstSeen ds ≠ some '*' →
      firstSeen (fill ds.reverse texts).reverse = firstSeen ds by
    have hcs := hrev cs.reverse h
    rwa [List.reverse_reverse] at hcs
  intro ds hds
  induction ds with
  | nil => rfl
  | cons d ds ih =>
    have hlast : d ≠ '*' → (fill (d :: ds).reverse texts).reverse = d :: (fill ds.reverse texts).reverse := by
      intro hd
      rw [List.reverse_cons, fill_append, fill_cons hd, fill, List.reverse_append]
      rfl
    by_cases hd : isCaseIgnorable d = true
    · have hstar : d ≠ '*' := by
        rintro rfl
        exact absurd hd (by decide)
      rw [firstSeen_cons_of_ignorable hd] at hds
      rw [hlast hstar, firstSeen_cons_of_ignorable hd, firstSeen_cons_of_ignorable hd, ih hds]
    · have hseen := eq_false_of_ne_true hd
      rw [firstSeen_cons_of_seen hseen] at hds
      have hstar : d ≠ '*' := fun heq => hds (congrArg some heq)
      rw [hlast hstar, firstSeen_cons_of_seen hseen, firstSeen_cons_of_seen hseen]

/-- **In a pattern without an exposed sigma** every filling keeps the sigmas. -/
theorem keepsSigmas_of_not_exposed (h : ¬Exposed pattern) (texts : List (List Char)) : KeepsSigmas pattern texts := by
  intro before after heq
  have hstar : (some '*').any isCased = false := by decide
  rw [FinalBetween, FinalBetween]
  by_cases hbefore : firstSeen before.reverse = some '*'
  · -- there is no letter before the sigma in the pattern, and there is one after it, whatever the filling is
    have hafter : (firstSeen after).any isCased = true := by
      refine eq_true_of_ne_false fun hnone => h ⟨before, after, heq, .inr ⟨hbefore, hnone⟩⟩
    have hseen : firstSeen after ≠ some '*' := by
      intro hsome
      rw [hsome, hstar] at hafter
      cases hafter
    rw [firstSeen_fill hseen, hafter]
    exact iff_of_false (fun hfinal => Bool.noConfusion hfinal.2) (fun hfinal => Bool.noConfusion hfinal.2)
  · rw [firstSeen_reverse_fill hbefore]
    refine and_congr_right fun hcased => ?_
    have hseen : firstSeen after ≠ some '*' := fun hsome => h ⟨before, after, heq, .inl ⟨hcased, hsome⟩⟩
    rw [firstSeen_fill hseen]

/-! ## Small letters -/

/-- The small form of a filled pattern, reached in any state, is the small form of the pattern, filled; as long as the
states before both, and what follows, make the same sigmas final. -/
theorem lowerFrom_fill {b b' : Bool}
    (h : ∀ before after, pattern = before ++ 'Σ' :: after →
      ((fill before texts).foldl endsCased b' && !startsCased (fill after (texts.drop (before.count '*')))) =
        (before.foldl endsCased b && !startsCased after)) :
    ∃ texts', lowerFrom b' (fill pattern texts) = fill (lowerFrom b pattern) texts' := by
  have hneutral : CaseNeutral '*' := by decide
  induction pattern generalizing b b' texts with
  | nil => exact ⟨[], rfl⟩
  | cons c cs ih =>
    by_cases hc : c = '*'
    · subst hc
      have hrest : ∃ texts', lowerFrom ((texts.headD []).foldl endsCased b') (fill cs texts.tail) =
          fill (lowerFrom false cs) texts' := by
        refine ih ?_
        intro before after heq
        have hsame := h ('*' :: before) after (by rw [heq, List.cons_append])
        rwa [fill_star, List.foldl_append, List.count_cons_self, ← List.drop_tail, List.foldl_cons,
          hneutral.endsCased_eq] at hsame
      obtain ⟨texts', htexts'⟩ := hrest
      refine ⟨lowerWithin b' (texts.headD []) (fill cs texts.tail) :: texts', ?_⟩
      rw [fill_star, lowerFrom_append, htexts', lowerFrom, hneutral.lowerChar_eq, hneutral.endsCased_eq]
      rfl
    · have hrest : ∃ texts', lowerFrom (endsCased b' c) (fill cs texts) =
          fill (lowerFrom (endsCased b c) cs) texts' := by
        refine ih ?_
        intro before after heq
        have hsame := h (c :: before) after (by rw [heq, List.cons_append])
        rwa [fill_cons hc, List.count_cons_of_ne hc, List.foldl_cons, List.foldl_cons] at hsame
      obtain ⟨texts', htexts'⟩ := hrest
      have hchar : lowerChar b' c (fill cs texts) = lowerChar b c cs := by
        refine lowerChar_congr fun hsigma => ?_
        exact h [] cs (by rw [hsigma, List.nil_append])
      have hnone : '*' ∉ lowerChar b c cs := fun hmem => hc (hneutral.eq_of_mem_lowerChar hmem)
      refine ⟨texts', ?_⟩
      rw [fill_cons hc, lowerFrom, lowerFrom, hchar, htexts', fill_append_of_not_mem hnone]

/-- **The small form of a filled pattern** is the small form of the pattern, filled with other texts. -/
theorem lowercase_fill (h : KeepsSigmas pattern texts) :
    ∃ texts', lowercase (fill pattern texts) = fill (lowercase pattern) texts' := by
  refine lowerFrom_fill ?_
  intro before after heq
  rw [Bool.eq_iff_iff, ← finalBetween_iff, ← finalBetween_iff]
  exact h before after heq

/-! ## Matching -/

/-- **A filling that keeps the sigmas matches.** -/
theorem holdsIn_fill (h : KeepsSigmas pattern texts) :
    (Pattern.ofChars pattern).holdsIn (String.ofList (fill pattern texts)) = true := by
  have hpieces := divided_splitOn '*' pattern
  rw [holdsIn_ofChars_iff, Covers, String.toList_ofList]
  refine ⟨pattern.splitOn '*', hpieces, ?_⟩
  intro piece hpiece _
  obtain ⟨texts', htexts'⟩ := lowercase_fill h
  rw [htexts']
  exact infix_fill (hpieces.lowercase caseNeutral_star (List.cons_ne_nil _ _)) texts' _ (List.mem_map_of_mem hpiece)

variable {f a b : List Char}

/-- What a text between two stars asks for. -/
theorem infix_of_holdsIn (hf : '*' ∉ f) (h : (Pattern.ofChars ('*' :: f ++ ['*'])).holdsIn (String.ofList cs) = true)
    (hne : f ≠ []) : lowercase f <:+: lowercase cs := by
  have hpieces : Divided ['*'] ('*' :: f ++ ['*']) [[], f, []] := by
    have hclosed : Divided ['*'] (f ++ ['*'] ++ []) [f, []] := by
      refine .cut_of_not_occurs ?_ (.nil (List.cons_ne_nil _ _))
      intro hstar
      rw [List.dropLast_singleton, List.append_nil] at hstar
      exact hf (hstar.subset List.mem_cons_self)
    rw [List.append_nil] at hclosed
    exact hclosed.sep_append
  rw [holdsIn_ofChars_iff, Covers, hpieces.exists_and_iff, String.toList_ofList] at h
  exact h f (by simp) hne

/-- A sigma between two stars stands in the text between them. -/
theorem exists_sigma_between (h : '*' :: f ++ ['*'] = front ++ 'Σ' :: rest) :
    ∃ a b, f = a ++ 'Σ' :: b ∧ front = '*' :: a ∧ rest = b ++ ['*'] := by
  cases front with
  | nil => exact absurd (List.cons.inj h).1 (by decide)
  | cons c a =>
    rw [List.cons_append, List.cons_append, List.cons.injEq] at h
    obtain ⟨rfl, h⟩ := h
    rcases List.eq_nil_or_concat rest with rfl | ⟨b, d, rfl⟩
    · exact absurd (List.append_inj' h rfl).2 (by decide)
    · rw [List.concat_eq_append, ← List.cons_append, ← List.append_assoc] at h
      obtain ⟨hf, hd⟩ := List.append_inj' h rfl
      obtain rfl := List.singleton_inj.mp hd
      exact ⟨a, b, hf, rfl, List.concat_eq_append⟩

theorem firstSeen_star_cons (cs : List Char) : firstSeen ('*' :: cs) = some '*' :=
  firstSeen_cons_of_seen (by decide) cs

/-- What is seen before the end of a text without stars, if a star follows it. -/
theorem firstSeen_append_star (h : '*' ∉ cs) :
    (firstSeen (cs ++ ['*']) = some '*' ↔ firstSeen cs = none) ∧
      (firstSeen (cs ++ ['*'])).any isCased = (firstSeen cs).any isCased := by
  rw [firstSeen_append, firstSeen_star_cons]
  cases hcs : firstSeen cs with
  | none => exact ⟨iff_of_true rfl rfl, by decide⟩
  | some c =>
    have hc : c ≠ '*' := by
      rintro rfl
      exact h (List.mem_of_find?_eq_some hcs)
    exact ⟨iff_of_false (fun heq => hc (Option.some.inj heq)) (Option.some_ne_none c), rfl⟩

/-- **An exposed sigma between two stars** makes a pattern miss a text in which the letters between the stars stand as
they are: a letter after them, or before them, changes the sigma. -/
theorem exists_missed (hf : '*' ∉ f) (h : Exposed ('*' :: f ++ ['*'])) :
    ∃ before after, (Pattern.ofChars ('*' :: f ++ ['*'])).holdsIn (String.ofList (before ++ f ++ after)) = false := by
  obtain ⟨front, rest, heq, hexposed⟩ := h
  obtain ⟨a, b, rfl, rfl, rfl⟩ := exists_sigma_between heq
  have hne : a ++ 'Σ' :: b ≠ [] := List.append_ne_nil_of_right_ne_nil a (List.cons_ne_nil _ _)
  have ha : '*' ∉ a.reverse := fun hmem => hf (List.mem_append_left _ (List.mem_reverse.mp hmem))
  have hb : '*' ∉ b := fun hmem => hf (List.mem_append_right _ (List.mem_cons_of_mem _ hmem))
  obtain ⟨hastar, hacased⟩ := firstSeen_append_star ha
  obtain ⟨hbstar, hbcased⟩ := firstSeen_append_star hb
  rw [List.reverse_cons, hacased, hastar, hbstar, hbcased] at hexposed
  rcases hexposed with ⟨hcased, hnone⟩ | ⟨hnone, huncased⟩
  · refine ⟨[], ['a'], eq_false_of_ne_true fun hholds => ?_⟩
    exact not_infix_lowercase_append hcased hnone (infix_of_holdsIn hf hholds hne)
  · refine ⟨['a'], [], eq_false_of_ne_true fun hholds => ?_⟩
    rw [List.append_nil] at hholds
    exact not_infix_lowercase_cons hnone huncased (infix_of_holdsIn hf hholds hne)

/-- **Which fillings of a pattern match.** Every filling does that keeps the sigmas of the pattern, and so all fillings
do of a pattern without an exposed sigma. For letters between two stars this is the only case in which the pattern
holds in every text that contains them. -/
theorem fillings_match (pattern : List Char) :
    (∀ texts, KeepsSigmas pattern texts →
      (Pattern.ofChars pattern).holdsIn (String.ofList (fill pattern texts)) = true) ∧
    (¬Exposed pattern →
      ∀ texts, (Pattern.ofChars pattern).holdsIn (String.ofList (fill pattern texts)) = true) ∧
    ∀ f, '*' ∉ f → pattern = '*' :: f ++ ['*'] →
      ((∀ before after, (Pattern.ofChars pattern).holdsIn (String.ofList (before ++ f ++ after)) = true) ↔
        ¬Exposed pattern) := by
  have hunexposed : ¬Exposed pattern →
      ∀ texts, (Pattern.ofChars pattern).holdsIn (String.ofList (fill pattern texts)) = true :=
    fun h texts => holdsIn_fill (keepsSigmas_of_not_exposed h texts)
  refine ⟨fun texts h => holdsIn_fill h, hunexposed, ?_⟩
  rintro f hf rfl
  constructor
  · intro hall hexposed
    obtain ⟨before, after, hmissed⟩ := exists_missed hf hexposed
    rw [hall before after] at hmissed
    cases hmissed
  · intro h before after
    have hfilled : fill ('*' :: f ++ ['*']) [before, after] = before ++ f ++ after := by
      rw [List.cons_append, fill_star, fill_append_of_not_mem hf, fill_star, fill, List.append_assoc]
      simp
    rw [← hfilled]
    exact hunexposed h _

/-- A sigma that looks upon a star, filled with a blank so that it stays final; and one that has letters on both
sides. -/
theorem sample_fillings :
    KeepsSigmas "ΑΣ*".toList [" Α".toList] ∧ (Pattern.ofText "ΑΣ*").holdsIn "ΑΣ Α" = true ∧
      ¬Exposed "*ΑΣΑ*".toList ∧ (Pattern.ofText "*ΑΣΑ*").holdsIn "ΣΑΣΑΣ" = true := by
  have hkeeps : KeepsSigmas "ΑΣ*".toList [" Α".toList] := by
    intro before after heq
    have hsplit := (List.append_cons_inj_of_notMem (by decide : 'Σ' ∉ ['Α']) (by decide : 'Σ' ∉ ['*'])).mp heq
    obtain ⟨rfl, -, rfl⟩ := hsplit
    exact iff_of_true (by decide) (by decide)
  have hnot : ¬Exposed "*ΑΣΑ*".toList := by
    rintro ⟨before, after, heq, hexposed⟩
    have hsplit :=
      (List.append_cons_inj_of_notMem (by decide : 'Σ' ∉ ['*', 'Α']) (by decide : 'Σ' ∉ ['Α', '*'])).mp heq
    obtain ⟨rfl, -, rfl⟩ := hsplit
    exact absurd hexposed (by decide)
  have hkept := (fillings_match "ΑΣ*".toList).1 _ hkeeps
  have hall := ((fillings_match "*ΑΣΑ*".toList).2.2 "ΑΣΑ".toList (by decide) rfl).mpr hnot "Σ".toList "Σ".toList
  have hblank : String.ofList (fill "ΑΣ*".toList [" Α".toList]) = "ΑΣ Α" := by decide +kernel
  have hletters : String.ofList ("Σ".toList ++ "ΑΣΑ".toList ++ "Σ".toList) = "ΣΑΣΑΣ" := by decide +kernel
  rw [hblank] at hkept
  rw [hletters] at hall
  exact ⟨hkeeps, hkept, hnot, hall⟩

/-- **A star before a letter is not found again**: the text is the pattern with a letter in place of the star, and the
pattern does not hold in it. -/
theorem sample_sigma_lost :
    String.ofList (fill "ΑΣ*".toList ["Α".toList]) = "ΑΣΑ" ∧ (Pattern.ofText "ΑΣ*").holdsIn "ΑΣΑ" = false := by
  decide +kernel

end LibraryCatalog.Search
