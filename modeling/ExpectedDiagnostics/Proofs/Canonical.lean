import ExpectedDiagnostics.Path
import Mathlib.Data.List.Basic
import Mathlib.Tactic.Common

/-!
# Canonical paths

The text of a place is a canonical path if the names on the way to the place are such that the text
shows where each one begins and ends, and that none of them leads elsewhere. A canonical path is
resolved to the place it was written for, from any directory, and resolving a path gives a place
whose text is canonical.

Main results:

* `resolve_toString_of_isCanonical` — a canonical path leads to its place.
* `isCanonical_of_resolve` — what resolving gives is canonical.
-/

namespace ExpectedDiagnostics

/-- A name on the way to a place: it is seen between slashes, and leads one step on. -/
structure Path.IsName (name : String) : Prop where
  nonempty : name ≠ ""
  notHere : name ≠ "."
  notUp : name ≠ ".."
  noSlash : '/' ∉ name.toList
  noNull : '\x00' ∉ name.toList

instance (name : String) : Decidable (Path.IsName name) :=
  decidable_of_iff (name ≠ "" ∧ name ≠ "." ∧ name ≠ ".." ∧ '/' ∉ name.toList ∧ '\x00' ∉ name.toList)
    ⟨fun h => ⟨h.1, h.2.1, h.2.2.1, h.2.2.2.1, h.2.2.2.2⟩,
      fun h => ⟨h.nonempty, h.notHere, h.notUp, h.noSlash, h.noNull⟩⟩

/-- All names on the way to a place are names in this sense. -/
def Location.IsCanonical (place : Location) : Prop :=
  ∀ name ∈ place.names, Path.IsName name

instance (place : Location) : Decidable place.IsCanonical :=
  List.decidableBAll Path.IsName place.names

theorem Location.isCanonical_root : Location.root.IsCanonical :=
  fun _ hname => absurd hname List.not_mem_nil

namespace Path

/-! ## Cutting at slashes -/

theorem splitSlashes_of_not_mem {cs : List Char} (h : '/' ∉ cs) : splitSlashes cs = [cs] := by
  induction cs with
  | nil => rfl
  | cons c cs ih =>
    rw [List.mem_cons, not_or] at h
    have hc : ¬ (c == '/') = true := by
      rw [beq_iff_eq]
      exact fun heq => h.1 heq.symm
    rw [splitSlashes, if_neg hc, ih h.2]

theorem splitSlashes_append {cs rest : List Char} (h : '/' ∉ cs) :
    splitSlashes (cs ++ '/' :: rest) = cs :: splitSlashes rest := by
  induction cs with
  | nil => rfl
  | cons c cs ih =>
    rw [List.mem_cons, not_or] at h
    have hc : ¬ (c == '/') = true := by
      rw [beq_iff_eq]
      exact fun heq => h.1 heq.symm
    rw [List.cons_append, splitSlashes, if_neg hc, ih h.2]

/-- Names that are joined by slashes are found again between the slashes. -/
theorem splitSlashes_intercalate {names : List String} (hne : names ≠ [])
    (h : ∀ name ∈ names, '/' ∉ name.toList) :
    splitSlashes (String.intercalate "/" names).toList = names.map (·.toList) := by
  induction names with
  | nil => exact absurd rfl hne
  | cons name names ih =>
    have hname := h name List.mem_cons_self
    cases names with
    | nil => rw [String.intercalate_singleton, splitSlashes_of_not_mem hname]; rfl
    | cons next names =>
      have htail := ih (List.cons_ne_nil _ _) fun n hn => h n (List.mem_cons_of_mem _ hn)
      rw [String.intercalate_cons_cons, String.toList_append, String.toList_append,
        List.append_assoc, show "/".toList = ['/'] from rfl, List.singleton_append,
        splitSlashes_append hname, htail]
      rfl

/-- No piece of a text that is cut at slashes has a slash. -/
theorem slash_not_mem_of_mem_splitSlashes {cs piece : List Char}
    (hpiece : piece ∈ splitSlashes cs) : '/' ∉ piece := by
  induction cs generalizing piece with
  | nil =>
    rw [splitSlashes, List.mem_singleton] at hpiece
    rw [hpiece]
    exact List.not_mem_nil
  | cons c cs ih =>
    rw [splitSlashes] at hpiece
    split at hpiece
    · rcases List.mem_cons.mp hpiece with rfl | htail
      · exact List.not_mem_nil
      · exact ih htail
    -- another character goes to the first piece of what follows
    · rename_i hc
      have hne : '/' ≠ c := fun heq => hc (heq ▸ beq_self_eq_true _)
      split at hpiece
      · rw [List.mem_singleton.mp hpiece, List.mem_singleton]
        exact hne
      · rename_i p ps hsplit
        rcases List.mem_cons.mp hpiece with rfl | htail
        · rw [List.mem_cons, not_or]
          exact ⟨hne, ih (hsplit ▸ List.mem_cons_self)⟩
        · exact ih (hsplit ▸ List.mem_cons_of_mem _ htail)

/-! ## Canonical paths lead to their places -/

/-- Whatever holds of the names on the way to a place, and of names that do not lead back, holds of
all names on the way that they lead on. -/
theorem forall_names_follow {P : String → Prop} {place : Location} {names : List String}
    (hplace : ∀ name ∈ place.names, P name) (hnames : ∀ name ∈ names, name ≠ ".." → P name) :
    ∀ name ∈ (place.follow names).names, P name := by
  induction names generalizing place with
  | nil => exact hplace
  | cons first names ih =>
    refine ih ?_ fun name hname => hnames name (List.mem_cons_of_mem _ hname)
    intro name hname
    unfold Location.step at hname
    dsimp only at hname
    split at hname
    · exact hplace name (List.dropLast_subset _ hname)
    · rename_i hup
      rcases List.mem_append.mp hname with hname | hname
      · exact hplace name hname
      · rw [List.mem_singleton.mp hname]
        exact hnames first List.mem_cons_self fun heq => hup (heq ▸ beq_self_eq_true _)

/-- Names that do not lead back lead to the place below. -/
theorem follow_of_isName {place : Location} {names : List String}
    (h : ∀ name ∈ names, IsName name) : place.follow names = ⟨place.names ++ names⟩ := by
  induction names generalizing place with
  | nil => rw [List.append_nil]; rfl
  | cons name names ih =>
    have hup : ¬ (name == "..") = true := by
      rw [beq_iff_eq]
      exact (h name List.mem_cons_self).notUp
    have hstep : place.step name = ⟨place.names ++ [name]⟩ := by
      rw [Location.step, if_neg hup]
    rw [Location.follow, List.foldl_cons, hstep]
    refine (ih fun n hn => h n (List.mem_cons_of_mem _ hn)).trans ?_
    rw [List.append_assoc, List.singleton_append]

theorem toList_toString (place : Location) :
    place.toString.toList = '/' :: (String.intercalate "/" place.names).toList := by
  unfold Location.toString Location.toPath toString
  dsimp only
  rw [String.toList_append]
  rfl

/-- Joined names begin with a character of the first one, which is no slash. -/
theorem exists_cons_intercalate {name : String} {names : List String} (h : IsName name) :
    ∃ c more, (String.intercalate "/" (name :: names)).toList = c :: more ∧ c ≠ '/' := by
  have hne : name.toList ≠ [] := by
    rw [Ne, String.toList_eq_nil_iff]
    exact h.nonempty
  obtain ⟨c, cs, hcs⟩ := List.exists_cons_of_ne_nil hne
  have hc : c ≠ '/' := by
    rintro rfl
    apply h.noSlash
    rw [hcs]
    exact List.mem_cons_self
  cases names with
  | nil => exact ⟨c, cs, by rw [String.intercalate_singleton, hcs], hc⟩
  | cons next names =>
    refine ⟨c, cs ++ ("/" ++ String.intercalate "/" (next :: names)).toList, ?_, hc⟩
    rw [String.intercalate_cons_cons, String.append_assoc, String.toList_append, hcs,
      List.cons_append]

/-- There is exactly one slash at the front of the text of a canonical place. -/
theorem anchorOf_toString {place : Location} (h : place.IsCanonical) :
    anchorOf place.toString.toList = .root := by
  obtain ⟨names⟩ := place
  rw [toList_toString]
  dsimp only
  cases names with
  | nil => rfl
  | cons name names =>
    obtain ⟨c, more, hmore, hc⟩ := exists_cons_intercalate (h name List.mem_cons_self)
    have hone : ('/' :: (String.intercalate "/" (name :: names)).toList).takeWhile (· == '/') =
        ['/'] := by
      rw [hmore, List.takeWhile_cons_of_pos (by decide), List.takeWhile_cons_of_neg]
      rw [beq_iff_eq]
      exact hc
    unfold anchorOf
    rw [hone]
    rfl

/-- The names are those between the slashes. -/
theorem namesOf_toString {place : Location} (h : place.IsCanonical) :
    namesOf place.toString.toList = place.names := by
  obtain ⟨names⟩ := place
  rw [toList_toString]
  dsimp only
  cases names with
  | nil => rfl
  | cons name names =>
    have hcut : splitSlashes ('/' :: (String.intercalate "/" (name :: names)).toList) =
        [] :: splitSlashes (String.intercalate "/" (name :: names)).toList := rfl
    have hnames : ∀ n ∈ name :: names, (n != "" && n != ".") = true := by
      intro n hn
      simp [(h n hn).nonempty, (h n hn).notHere]
    have hround : (name :: names).map (String.ofList ∘ fun n => n.toList) = name :: names := by
      rw [List.map_congr_left (g := id), List.map_id]
      intro n _
      exact String.ofList_toList
    unfold namesOf
    rw [hcut, splitSlashes_intercalate (List.cons_ne_nil _ _) fun n hn => (h n hn).noSlash,
      List.map_cons, List.map_map, List.filter_cons_of_neg (by decide), hround,
      List.filter_eq_self.mpr hnames]

/-- Read as a path, the text of a canonical place has the names on the way to it. -/
theorem ofString_toString {place : Location} (h : place.IsCanonical) :
    ofString place.toString = ⟨.root, place.names⟩ := by
  unfold ofString
  rw [anchorOf_toString h, namesOf_toString h]

theorem hasNull_toPath {place : Location} (h : place.IsCanonical) :
    place.toPath.hasNull = false := by
  unfold hasNull
  rw [List.any_eq_false]
  intro name hname hnull
  unfold isNullName at hnull
  exact (h name hname).noNull (List.contains_iff_mem.mp hnull)

/-- **A canonical path leads to its place**, from any directory. -/
theorem resolve_toString_of_isCanonical {place : Location} (h : place.IsCanonical)
    (directory : Location) : (ofString place.toString).resolve directory = .ok place := by
  have hnull : hasNull ⟨.root, place.names⟩ = false := hasNull_toPath h
  rw [ofString_toString h]
  unfold resolve
  rw [hnull]
  have hfollow : Location.root.follow place.names = place := by
    rw [follow_of_isName h]
    rfl
  exact congrArg Except.ok hfollow

/-! ## What resolving gives -/

theorem isName_of_mem_ofString {s name : String} (hname : name ∈ (ofString s).parts)
    (hup : name ≠ "..") (hnull : isNullName name = false) : IsName name := by
  obtain ⟨hmem, hkept⟩ := List.mem_filter.mp hname
  obtain ⟨piece, hpiece, rfl⟩ := List.mem_map.mp hmem
  simp only [Bool.and_eq_true, bne_iff_ne, ne_eq] at hkept
  refine ⟨hkept.1, hkept.2, hup, ?_, ?_⟩
  · rw [String.toList_ofList]
    exact slash_not_mem_of_mem_splitSlashes hpiece
  · intro hmem
    unfold isNullName at hnull
    rw [List.contains_iff_mem.mpr hmem] at hnull
    exact absurd hnull (by decide)

/-- **Resolving gives a canonical place**, seen from a canonical directory. -/
theorem isCanonical_of_resolve {directory place : Location} {s : String}
    (hdirectory : directory.IsCanonical) (h : (ofString s).resolve directory = .ok place) :
    place.IsCanonical := by
  unfold resolve at h
  split at h
  · exact absurd h (by simp)
  · rename_i hnull
    obtain rfl := Except.ok.inj h
    rw [Bool.or_eq_true, not_or] at hnull
    unfold Path.place
    apply forall_names_follow
    · split
      · exact Location.isCanonical_root
      · exact hdirectory
    · intro name hname hup
      refine isName_of_mem_ofString hname hup (Bool.eq_false_iff.mpr fun hnull' => hnull.1 ?_)
      exact List.any_eq_true.mpr ⟨name, hname, hnull'⟩

end Path

end ExpectedDiagnostics
