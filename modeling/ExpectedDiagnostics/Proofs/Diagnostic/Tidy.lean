import ExpectedDiagnostics.Proofs.Diagnostic.Order
import Mathlib.Data.List.Destutter
import Mathlib.Data.List.Sort

/-!
# What tidying keeps

Tidying sorts diagnostics and drops each one that says the same as its neighbour. The category is
not part of the rank: it does not decide where a diagnostic is sorted to, but it does decide which
ones say the same. So diagnostics that say the same come to stand side by side, and are dropped but
for the first one, unless one of another category with the same rank was reported between them. Then
they are parted for good: sorting keeps the order of those with equal ranks.

Main results:

* `tidy_eq_destutter` — tidying is sorting, and keeping the first one of each run that says the
  same.
* `exists_kept` — what differs from its neighbours in a part of the list is kept by one that says
  the same.
* `tidy_duplicates` — duplicates survive exactly if they are parted.
* `tidy_sorts_and_keeps` — tidying keeps one of each, and is known by what the diagnostics say if
  their ranks tell it.
-/

namespace ExpectedDiagnostics.Diagnostic

/-- What a diagnostic says: its rank and its category. -/
def said (d : Diagnostic) : Rank × String :=
  (d.rank, d.category)

variable {a b c d : Diagnostic} {ds : List Diagnostic}

theorem saysSame_iff : a.saysSame b = true ↔ a.said = b.said := by
  unfold saysSame said
  rw [Bool.and_eq_true, beq_iff_eq, beq_iff_eq, key_eq_iff, Prod.mk.injEq]

/-! ## Runs -/

/-- Two diagnostics do not say the same. -/
abbrev Differ (a b : Diagnostic) : Prop :=
  a.said ≠ b.said

instance : DecidableRel Differ :=
  fun a b => inferInstanceAs (Decidable (a.said ≠ b.said))

/-- Behind a diagnostic that is kept, the first one that differs from it is kept next. -/
theorem cons_dropRepeats (d : Diagnostic) (ds : List Diagnostic) :
    d :: dropRepeats (some d) ds = ds.destutter' Differ d := by
  induction ds generalizing d with
  | nil => rfl
  | cons e ds ih =>
    rw [dropRepeats, Option.any_some]
    -- the next one is dropped, or is what the others are compared with from there on
    by_cases hsame : d.saysSame e = true
    · rw [if_pos hsame, List.destutter'_cons_neg]
      · exact ih d
      · exact not_not.mpr (saysSame_iff.mp hsame)
    · rw [if_neg hsame, List.destutter'_cons_pos]
      · rw [ih e]
      · exact mt saysSame_iff.mpr hsame

/-- **Tidying is sorting**, and keeping the first one of each run that says the same. -/
theorem tidy_eq_destutter (ds : List Diagnostic) : tidy ds = (sort ds).destutter Differ := by
  unfold tidy
  cases sort ds with
  | nil => rfl
  | cons d ds => exact cons_dropRepeats d ds

section

variable {T : Type} [Wording T] [DecidableEq T]

theorem dropRepeats_sublist (last : Option (Diagnostic T)) (ds : List (Diagnostic T)) :
    (dropRepeats last ds).Sublist ds := by
  induction ds generalizing last with
  | nil => exact .slnil
  | cons d ds ih =>
    rw [dropRepeats]
    split
    · exact (ih last).cons d
    · exact (ih (some d)).cons_cons d

variable [Ord T]

theorem tidy_sublist (ds : List (Diagnostic T)) : (tidy ds).Sublist (sort ds) :=
  dropRepeats_sublist none (sort ds)

/-- Tidying adds nothing, whatever diagnostics are worded in. -/
theorem mem_of_mem_tidy {d : Diagnostic T} {ds : List (Diagnostic T)} (h : d ∈ tidy ds) :
    d ∈ ds :=
  List.mem_mergeSort.mp ((tidy_sublist ds).subset h)

end

theorem isChain_tidy (ds : List Diagnostic) : (tidy ds).IsChain Differ := by
  rw [tidy_eq_destutter]
  exact List.isChain_destutter Differ (sort ds)

theorem ordered_tidy (ds : List Diagnostic) : (tidy ds).Pairwise fun a b => a.rank ≤ b.rank :=
  (isStableSort_sort ds).ordered.sublist (tidy_sublist ds)

/-- Each run leaves one that says the same: whatever is picked from the list, so that neighbours
differ, is kept by diagnostics that say the same. The one in front is picked or not. -/
theorem exists_kept_behind {few : List Diagnostic} (hfew : few.IsChain Differ)
    (hsub : few.Sublist (d :: ds)) :
    ∃ kept : List Diagnostic, kept.Sublist (ds.destutter' Differ d) ∧
      kept.map said = few.map said := by
  induction ds generalizing d few with
  | nil => exact ⟨few, hsub, rfl⟩
  | cons e ds ih =>
    by_cases hdiffer : d.Differ e
    · rw [List.destutter'_cons_pos _ hdiffer]
      rcases List.sublist_cons_iff.mp hsub with hbehind | ⟨rest, rfl, hbehind⟩
      · obtain ⟨kept, hkept, hsaid⟩ := ih hfew hbehind
        exact ⟨kept, hkept.cons d, hsaid⟩
      · obtain ⟨kept, hkept, hsaid⟩ := ih hfew.tail hbehind
        exact ⟨d :: kept, hkept.cons_cons d, congrArg (d.said :: ·) hsaid⟩
    · -- the next one is dropped, and the one in front stands for it
      have hsame : d.said = e.said := not_not.mp hdiffer
      rw [List.destutter'_cons_neg _ hdiffer]
      rcases List.sublist_cons_iff.mp hsub with hbehind | ⟨rest, rfl, hbehind⟩
      · rcases List.sublist_cons_iff.mp hbehind with hrest | ⟨rest, rfl, hrest⟩
        · exact ih hfew (hrest.cons d)
        · have hchain : (d :: rest).IsChain Differ := by
            rw [List.isChain_cons] at hfew ⊢
            refine ⟨fun next hnext => ?_, hfew.2⟩
            show d.said ≠ next.said
            rw [hsame]
            exact hfew.1 next hnext
          obtain ⟨kept, hkept, hsaid⟩ := ih hchain (hrest.cons_cons d)
          exact ⟨kept, hkept, by rw [hsaid, List.map_cons, List.map_cons, hsame]⟩
      · rcases List.sublist_cons_iff.mp hbehind with hrest | ⟨more, rfl, -⟩
        · exact ih hfew (hrest.cons_cons d)
        · -- both are picked, but they say the same
          exact absurd hsame (List.isChain_cons_cons.mp hfew).1

/-- **What is kept**: whatever is picked from sorted diagnostics, so that neighbours differ, there
are diagnostics that say the same in what tidying gives, in the same order. -/
theorem exists_kept {few : List Diagnostic} (hfew : few.IsChain Differ)
    (hsub : few.Sublist (sort ds)) :
    ∃ kept : List Diagnostic, kept.Sublist (tidy ds) ∧ kept.map said = few.map said := by
  rw [tidy_eq_destutter]
  cases hsorted : sort ds with
  | nil =>
    rw [hsorted] at hsub
    exact ⟨few, hsub, rfl⟩
  | cons first others =>
    rw [hsorted] at hsub
    exact exists_kept_behind hfew hsub

/-- Tidying says what there was to be said, and nothing else. -/
theorem mem_map_said_tidy {said' : Rank × String} :
    said' ∈ (tidy ds).map said ↔ said' ∈ ds.map said := by
  constructor
  · intro h
    obtain ⟨d, hd, rfl⟩ := List.mem_map.mp h
    exact List.mem_map_of_mem (mem_of_mem_tidy hd)
  · intro h
    obtain ⟨d, hd, rfl⟩ := List.mem_map.mp h
    -- a diagnostic on its own has no neighbours, so it is kept by one that says the same
    obtain ⟨kept, hkept, hsaid⟩ := exists_kept (.singleton d)
      (List.singleton_sublist.mpr (mem_sort.mpr hd))
    have hmem : d.said ∈ kept.map said := by
      rw [hsaid]
      exact List.mem_singleton_self _
    exact (hkept.map said).subset hmem

/-- If all neighbours in a list are related, two members that are not have one between them to which
the first one is related. -/
private theorem exists_between {α : Type} {R : α → α → Prop} {xs : List α} {x y : α}
    (hxs : xs.IsChain R) (hsub : [x, y].Sublist xs) (hno : ¬ R x y) :
    ∃ z, R x z ∧ [x, z, y].Sublist xs := by
  induction xs with
  | nil => exact absurd hsub (by simp)
  | cons first xs ih =>
    rcases List.sublist_cons_iff.mp hsub with hbehind | ⟨rest, hrest, hbehind⟩
    · obtain ⟨z, hz, hzs⟩ := ih hxs.tail hbehind
      exact ⟨z, hz, hzs.cons first⟩
    · obtain ⟨rfl, rfl⟩ := List.cons.inj hrest
      cases xs with
      | nil => exact absurd hbehind (by simp)
      | cons z xs =>
        have hz : R x z := (List.isChain_cons_cons.mp hxs).1
        rcases List.sublist_cons_iff.mp hbehind with hlater | ⟨more, hmore, -⟩
        · exact ⟨z, hz, (hlater.cons_cons z).cons_cons x⟩
        · -- the second one comes next, but then the two are neighbours
          obtain ⟨rfl, -⟩ := List.cons.inj hmore
          exact absurd hz hno

/-- Between two that say the same and are both kept there is one with their rank and another
category. -/
theorem exists_between_tidy (hsub : [a, c].Sublist (tidy ds)) (hsaid : a.said = c.said) :
    ∃ b, [a, b, c].Sublist (tidy ds) ∧ b.rank = a.rank ∧ b.category ≠ a.category := by
  obtain ⟨b, hdiffer, hthree⟩ := exists_between (isChain_tidy ds) hsub (not_not.mpr hsaid)
  have hb : b.rank = a.rank := by
    -- the ranks ascend, and the last one is the first one again
    have hranks := (ordered_tidy ds).sublist hthree
    apply le_antisymm
    · rw [show a.rank = c.rank from congrArg Prod.fst hsaid]
      exact (List.pairwise_cons.mp (List.pairwise_cons.mp hranks).2).1 c (by simp)
    · exact (List.pairwise_cons.mp hranks).1 b (by simp)
  refine ⟨b, hthree, hb, ?_⟩
  intro hcategory
  exact hdiffer (Prod.ext hb.symm hcategory.symm)

/-- Tidying does nothing to what is tidy. -/
theorem tidy_tidy (ds : List Diagnostic) : tidy (tidy ds) = tidy ds := by
  rw [tidy_eq_destutter (tidy ds), sort_eq_self (ordered_tidy ds)]
  exact List.destutter_of_isChain Differ _ (isChain_tidy ds)

/-! ## Duplicates -/

/-- Two diagnostics are the same in all that they tell: where they are, what they are called and
what they say. Their messages may be made up in different ways, if they read the same. -/
structure IsDuplicate (a b : Diagnostic) : Prop where
  file : a.file = b.file
  line : a.line = b.line
  column : a.column = b.column
  code : a.code = b.code
  flat : a.flat = b.flat
  category : a.category = b.category

theorem IsDuplicate.said_eq (h : a.IsDuplicate b) : a.said = b.said := by
  unfold said rank
  rw [h.file, h.line, h.column, h.code, show a.message.flat = b.message.flat from h.flat, h.category]

/-- A diagnostic without a file has the rank of one with the empty file name, and nothing else is
confused. -/
theorem isDuplicate_of_said_eq (ha : a.file ≠ some "") (hb : b.file ≠ some "")
    (h : a.said = b.said) : a.IsDuplicate b := by
  simp only [said, rank, Prod.mk.injEq, EmbeddingLike.apply_eq_iff_eq] at h
  obtain ⟨⟨hfile, hline, hcolumn, hcode, hflat⟩, hcategory⟩ := h
  refine ⟨?_, hline, hcolumn, hcode, hflat, hcategory⟩
  cases hfa : a.file with
  | none =>
    cases hfb : b.file with
    | none => rfl
    | some other =>
      rw [hfa, hfb] at hfile
      exact absurd (hfb.trans (congrArg some hfile.symm)) hb
  | some file =>
    cases hfb : b.file with
    | none =>
      rw [hfa, hfb] at hfile
      exact absurd (hfa.trans (congrArg some hfile)) ha
    | some other =>
      rw [hfa, hfb] at hfile
      exact congrArg some hfile

/-- Between two duplicates there is a diagnostic with their rank and another category. -/
def Parted (ds : List Diagnostic) : Prop :=
  ∃ a b c, [a, b, c].Sublist ds ∧ a.IsDuplicate c ∧ b.rank = a.rank ∧ b.category ≠ a.category

/-- Duplicates that survive are parted. -/
theorem parted_of_sublist_tidy (hsub : [a, c].Sublist (tidy ds)) (h : a.IsDuplicate c) :
    Parted ds := by
  obtain ⟨b, hthree, hb, hcategory⟩ := exists_between_tidy hsub h.said_eq
  -- all three have one rank, so sorting has not changed their order
  have hequal : ∀ d ∈ [a, b, c], d.rank = a.rank := by
    simp [hb, show c.rank = a.rank from congrArg Prod.fst h.said_eq.symm]
  exact ⟨a, b, c, (sublist_sort_iff hequal).mp (hthree.trans (tidy_sublist ds)), h, hb, hcategory⟩

/-- Of duplicates that are parted two survive that say the same. -/
theorem exists_sublist_tidy_of_parted (h : Parted ds) :
    ∃ a c, [a, c].Sublist (tidy ds) ∧ a.said = c.said := by
  obtain ⟨a, b, c, hthree, hsame, hb, hcategory⟩ := h
  have hac : a.rank = c.rank := congrArg Prod.fst hsame.said_eq
  have hequal : ∀ d ∈ [a, b, c], d.rank = a.rank := by simp [hb, hac]
  have hchain : [a, b, c].IsChain Differ := by
    refine .cons_cons (fun hsaid => ?_) (.cons_cons (fun hsaid => ?_) (.singleton c))
    · exact hcategory (congrArg Prod.snd hsaid).symm
    · exact hcategory ((congrArg Prod.snd hsaid).trans hsame.category.symm)
  obtain ⟨kept, hkept, hsaid⟩ := exists_kept hchain ((sublist_sort_iff hequal).mpr hthree)
  -- three are kept, and the outer two say what the duplicates say
  obtain ⟨first, others, rfl, hfirst, hothers⟩ := List.map_eq_cons_iff.mp hsaid
  obtain ⟨middle, others, rfl, -, hothers⟩ := List.map_eq_cons_iff.mp hothers
  obtain ⟨last, others, rfl, hlast, -⟩ := List.map_eq_cons_iff.mp hothers
  refine ⟨first, last, ?_, ?_⟩
  · have houter : [first, last].Sublist (first :: middle :: last :: others) := by simp
    exact houter.trans hkept
  · rw [hfirst, hlast, hsame.said_eq]

/-- **Duplicates after tidying.** Neighbours are never duplicates. If no duplicates are parted, none
survive, and if some are, and no file has the empty name, two survive. -/
theorem tidy_duplicates (ds : List Diagnostic) :
    (tidy ds).IsChain (fun a b => ¬ a.IsDuplicate b) ∧
      (¬ Parted ds → (tidy ds).Pairwise fun a b => ¬ a.IsDuplicate b) ∧
      ((∀ d ∈ ds, d.file ≠ some "") →
        ((tidy ds).Pairwise (fun a b => ¬ a.IsDuplicate b) ↔ ¬ Parted ds)) := by
  have hnone : ¬ Parted ds → (tidy ds).Pairwise fun a b => ¬ a.IsDuplicate b := by
    intro hparted
    rw [List.pairwise_iff_forall_sublist]
    intro a c hsub hsame
    exact hparted (parted_of_sublist_tidy hsub hsame)
  refine ⟨(isChain_tidy ds).imp fun a b hdiffer h => hdiffer h.said_eq, hnone, ?_⟩
  intro hnamed
  refine ⟨fun hpairwise hparted => ?_, hnone⟩
  -- the two that survive say the same, and with file names they are duplicates as well
  obtain ⟨a, c, hsub, hsaid⟩ := exists_sublist_tidy_of_parted hparted
  have hmem : ∀ d ∈ [a, c], d ∈ ds := fun d hd => mem_of_mem_tidy (hsub.subset hd)
  have ha := hnamed a (hmem a (by simp))
  have hc := hnamed c (hmem c (by simp))
  exact List.pairwise_iff_forall_sublist.mp hpairwise hsub (isDuplicate_of_said_eq ha hc hsaid)

/-- An error or a warning on the second line of a file. -/
def secondLine (category : String) : Diagnostic :=
  ⟨some "/a.ts", 1, .text "x", 1, 0, category⟩

theorem rank_secondLine (first second : String) :
    (secondLine first).rank ≤ (secondLine second).rank :=
  le_refl (secondLine first).rank

/-- A warning between two errors parts them, and one behind them does not. -/
theorem tidy_duplicates_secondLine :
    ¬ (tidy [secondLine "error", secondLine "warning", secondLine "error"]).Pairwise
        (fun a b => ¬ a.IsDuplicate b) ∧
      (tidy [secondLine "error", secondLine "error", secondLine "warning"]).Pairwise
        fun a b => ¬ a.IsDuplicate b := by
  constructor
  · have hnamed : ∀ d ∈ [secondLine "error", secondLine "warning", secondLine "error"],
        d.file ≠ some "" := by decide
    rw [(tidy_duplicates _).2.2 hnamed, not_not]
    exact ⟨_, _, _, List.Sublist.refl _, ⟨rfl, rfl, rfl, rfl, rfl, rfl⟩, rfl, by decide⟩
  · refine (tidy_duplicates _).2.1 ?_
    rintro ⟨a, b, c, hsub, hsame, -, -⟩
    -- the list has three members, so the outer two would be an error and a warning
    have hthree := hsub.eq_of_length rfl
    simp only [List.cons.injEq] at hthree
    obtain ⟨rfl, rfl, rfl, -⟩ := hthree
    exact absurd hsame.category (by decide)

/-- Of two errors with a warning between them both are kept, though they are duplicates. -/
theorem not_pairwise_tidy_parted :
    ¬ (tidy [secondLine "error", secondLine "warning", secondLine "error"]).Pairwise
        fun a b => ¬ a.IsDuplicate b := by
  have hsorted : sort [secondLine "error", secondLine "warning", secondLine "error"] =
      [secondLine "error", secondLine "warning", secondLine "error"] := by
    apply sort_eq_self
    apply List.pairwise_of_forall_mem_list
    intro a ha b hb
    simp only [List.mem_cons, List.not_mem_nil, or_false] at ha hb
    rcases ha with rfl | rfl | rfl <;> rcases hb with rfl | rfl | rfl <;>
      exact rank_secondLine _ _
  have htidy : tidy [secondLine "error", secondLine "warning", secondLine "error"] =
      [secondLine "error", secondLine "warning", secondLine "error"] := by
    unfold tidy
    rw [hsorted]
    rfl
  rw [htidy]
  intro hpairwise
  have hfirst := (List.pairwise_cons.mp hpairwise).1 (secondLine "error") (by simp)
  exact hfirst ⟨rfl, rfl, rfl, rfl, rfl, rfl⟩

/-! ## What is known of the result -/

/-- Diagnostics of equal ranks have the same category. -/
def CategoryByRank (ds : List Diagnostic) : Prop :=
  ∀ a ∈ ds, ∀ b ∈ ds, a.rank = b.rank → a.category = b.category

/-- If the ranks tell the categories, no rank is kept twice. -/
theorem strict_tidy (h : CategoryByRank ds) : (tidy ds).Pairwise fun a b => a.rank < b.rank := by
  rw [List.pairwise_iff_forall_sublist]
  intro a c hsub
  have ha : a ∈ ds := mem_of_mem_tidy (hsub.subset (by simp))
  have hc : c ∈ ds := mem_of_mem_tidy (hsub.subset (by simp))
  refine lt_of_le_of_ne (List.pairwise_iff_forall_sublist.mp (ordered_tidy ds) hsub) ?_
  intro hrank
  -- two with one rank would say the same, and have one of another category between them
  have hsaid : a.said = c.said := Prod.ext hrank (h a ha c hc hrank)
  obtain ⟨b, hthree, hb, hcategory⟩ := exists_between_tidy hsub hsaid
  exact hcategory (h b (mem_of_mem_tidy (hthree.subset (by simp))) a ha hb)

theorem CategoryByRank.of_mem_iff {other : List Diagnostic} (h : CategoryByRank ds)
    (hmem : ∀ d, d ∈ other ↔ d ∈ ds) : CategoryByRank other :=
  fun a ha b hb => h a ((hmem a).mp ha) b ((hmem b).mp hb)

/-- Lists with the same members are tidied to lists that say the same. -/
theorem map_said_tidy_eq {other : List Diagnostic} (h : CategoryByRank ds)
    (hmem : ∀ d, d ∈ other ↔ d ∈ ds) : (tidy other).map said = (tidy ds).map said := by
  have hstrict : ∀ {ds : List Diagnostic}, CategoryByRank ds →
      ((tidy ds).map said).Pairwise fun p q => p.1 < q.1 := fun h =>
    List.pairwise_map.mpr (strict_tidy h)
  have hother := hstrict (h.of_mem_iff hmem)
  have hds := hstrict h
  -- both ascend strictly, so they are known by their members
  have hperm : ((tidy other).map said).Perm ((tidy ds).map said) := by
    rw [List.perm_ext_iff_of_nodup (hother.imp fun hlt heq => hlt.ne (congrArg Prod.fst heq))
      (hds.imp fun hlt heq => hlt.ne (congrArg Prod.fst heq))]
    intro p
    rw [mem_map_said_tidy, mem_map_said_tidy, List.mem_map, List.mem_map]
    simp only [hmem]
  exact hperm.eq_of_pairwise (fun p q _ _ hpq hqp => absurd hpq hqp.asymm) hother hds

/-- **What tidying keeps.** It gives a part of the one stable sort, so it invents nothing and puts
nothing out of order; for every diagnostic it keeps one that says the same; and it does nothing to
what is tidy. If the ranks tell the categories, every rank is kept once, and what is said depends on
the members of the list alone, not on their order or on how often each of them comes. -/
theorem tidy_sorts_and_keeps (ds : List Diagnostic) :
    (∃ sorted, (∀ other, IsStableSort ds other ↔ other = sorted) ∧ (tidy ds).Sublist sorted) ∧
      (tidy ds).Pairwise (fun a b => a.rank ≤ b.rank) ∧
      (∀ d ∈ ds, ∃ kept ∈ tidy ds, kept.rank = d.rank ∧ kept.category = d.category) ∧
      tidy (tidy ds) = tidy ds ∧
      (CategoryByRank ds →
        (tidy ds).Pairwise (fun a b => a.rank < b.rank) ∧
          ∀ other : List Diagnostic, (∀ d, d ∈ other ↔ d ∈ ds) →
            (tidy other).map said = (tidy ds).map said) := by
  refine ⟨⟨sort ds, fun _ => isStableSort_iff, tidy_sublist ds⟩, ordered_tidy ds, ?_, tidy_tidy ds,
    fun h => ⟨strict_tidy h, fun other hmem => map_said_tidy_eq h hmem⟩⟩
  intro d hd
  obtain ⟨kept, hkept, hsaid⟩ := List.mem_map.mp (mem_map_said_tidy.mpr (List.mem_map_of_mem hd))
  exact ⟨kept, hkept, congrArg Prod.fst hsaid, congrArg Prod.snd hsaid⟩

/-- The error on the second line, with its message made up in another way. -/
def secondLineChain : Diagnostic :=
  { secondLine "error" with message := .chain "x" [] }

/-- The same error on the first line, which ranks before the others. -/
def firstLine : Diagnostic :=
  { secondLine "error" with line := 0 }

theorem rank_firstLine : firstLine.rank < (secondLine "error").rank := by
  simp [rank, firstLine, secondLine, Prod.Lex.toLex_lt_toLex]

/-- The list is out of order, and two of its members say the same: tidying puts it in order, and it
makes no difference which one comes first and how often. -/
theorem tidy_sorts_and_keeps_secondLine :
    ¬ [secondLine "error", firstLine, secondLineChain].Pairwise (fun a b => a.rank ≤ b.rank) ∧
      (tidy [secondLine "error", firstLine, secondLineChain]).Pairwise
        (fun a b => a.rank < b.rank) ∧
      (tidy [firstLine, secondLineChain, secondLine "error", firstLine]).map said =
        (tidy [secondLine "error", firstLine, secondLineChain]).map said := by
  have hranks : CategoryByRank [secondLine "error", firstLine, secondLineChain] := by
    intro a ha b hb _
    -- all the categories are the same one
    have hcategory : ∀ d ∈ [secondLine "error", firstLine, secondLineChain],
        d.category = "error" := by decide
    rw [hcategory a ha, hcategory b hb]
  have hmem : ∀ d, d ∈ [firstLine, secondLineChain, secondLine "error", firstLine] ↔
      d ∈ [secondLine "error", firstLine, secondLineChain] := by
    intro d
    simp only [List.mem_cons, List.not_mem_nil, or_false]
    tauto
  have hknown :=
    (tidy_sorts_and_keeps [secondLine "error", firstLine, secondLineChain]).2.2.2.2 hranks
  refine ⟨fun hsorted => ?_, hknown.1, hknown.2 _ hmem⟩
  exact absurd ((List.pairwise_cons.mp hsorted).1 firstLine (by simp)) rank_firstLine.not_ge

end ExpectedDiagnostics.Diagnostic
