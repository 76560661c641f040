import ExpectedDiagnostics.Proofs.Canonical

/-!
# The null character

The null character is all that keeps a path from being resolved. A path without it is resolved from
every place that has none in its names, and what is resolved has none in its names and its text, so
that this text can be resolved again, from anywhere.

Main results:

* `Path.exists_resolve` — a path without null characters is resolved.
* `Path.nullFree_of_resolve` — what is resolved has none.
* `Location.resolve_toString` — the text of a resolved path can be resolved.
-/

namespace ExpectedDiagnostics

/-- No name holds the null character. -/
def NullFree (names : List String) : Prop :=
  ∀ name ∈ names, Path.isNullName name = false

/-! ## Texts and names -/

namespace Path

theorem isNullName_eq_false_iff {name : String} :
    isNullName name = false ↔ '\x00' ∉ name.toList := by
  unfold isNullName
  rw [← Bool.not_eq_true, List.contains_iff_mem]

theorem hasNull_eq_false_iff {p : Path} : p.hasNull = false ↔ NullFree p.parts := by
  unfold hasNull NullFree
  simp only [List.any_eq_false, Bool.not_eq_true]

/-- The pieces of a text that is cut at slashes are made of its characters. -/
theorem mem_of_mem_splitSlashes {cs piece : List Char} (hpiece : piece ∈ splitSlashes cs) {c : Char}
    (hc : c ∈ piece) : c ∈ cs := by
  induction cs generalizing piece with
  | nil =>
    rw [splitSlashes, List.mem_singleton] at hpiece
    exact hpiece ▸ hc
  | cons d ds ih =>
    rw [splitSlashes] at hpiece
    split at hpiece
    -- a slash begins an empty piece; any other character goes to the first piece of the rest
    · rcases List.mem_cons.mp hpiece with rfl | htail
      · exact absurd hc List.not_mem_nil
      · exact List.mem_cons_of_mem _ (ih htail hc)
    · split at hpiece
      · rw [List.mem_singleton.mp hpiece, List.mem_singleton] at hc
        exact hc ▸ List.mem_cons_self
      · rename_i p ps hsplit
        rcases List.mem_cons.mp hpiece with rfl | htail
        · rcases List.mem_cons.mp hc with rfl | hc
          · exact List.mem_cons_self
          · exact List.mem_cons_of_mem _ (ih (hsplit ▸ List.mem_cons_self) hc)
        · exact List.mem_cons_of_mem _ (ih (hsplit ▸ List.mem_cons_of_mem _ htail) hc)

/-- A text without the null character writes a path without it. -/
theorem nullFree_ofString {s : String} (h : '\x00' ∉ s.toList) : NullFree (ofString s).parts := by
  intro name hname
  obtain ⟨piece, hpiece, rfl⟩ := List.mem_map.mp (List.mem_of_mem_filter hname)
  rw [isNullName_eq_false_iff, String.toList_ofList]
  exact fun hnull => h (mem_of_mem_splitSlashes hpiece hnull)

/-- Every other character of the text is in a piece. -/
theorem exists_mem_splitSlashes {cs : List Char} {c : Char} (hc : c ∈ cs) (hslash : c ≠ '/') :
    ∃ piece ∈ splitSlashes cs, c ∈ piece := by
  induction cs with
  | nil => exact absurd hc List.not_mem_nil
  | cons d ds ih =>
    rw [splitSlashes]
    rcases List.mem_cons.mp hc with rfl | hds
    · rw [if_neg (mt beq_iff_eq.mp hslash)]
      split
      · exact ⟨[c], List.mem_cons_self, List.mem_cons_self⟩
      · exact ⟨_, List.mem_cons_self, List.mem_cons_self⟩
    · obtain ⟨piece, hpiece, hmem⟩ := ih hds
      split
      · exact ⟨piece, List.mem_cons_of_mem _ hpiece, hmem⟩
      · split
        · rename_i hsplit
          rw [hsplit] at hpiece
          exact absurd hpiece List.not_mem_nil
        · rename_i first others hsplit
          rw [hsplit] at hpiece
          -- the character in front goes to the first piece
          rcases List.mem_cons.mp hpiece with rfl | hothers
          · exact ⟨d :: piece, List.mem_cons_self, List.mem_cons_of_mem _ hmem⟩
          · exact ⟨piece, List.mem_cons_of_mem _ hothers, hmem⟩

/-- A text with the null character writes a path with it. -/
theorem hasNull_ofString {s : String} (h : '\x00' ∈ s.toList) : (ofString s).hasNull = true := by
  obtain ⟨piece, hpiece, hnull⟩ := exists_mem_splitSlashes h (by decide)
  have hname : '\x00' ∈ (String.ofList piece).toList := by rwa [String.toList_ofList]
  -- the name is neither empty nor a dot, so it is not left out
  have hkept : String.ofList piece ∈ (ofString s).parts := by
    refine List.mem_filter.mpr ⟨List.mem_map_of_mem hpiece, ?_⟩
    rw [Bool.and_eq_true, bne_iff_ne, bne_iff_ne]
    constructor
    · intro heq
      rw [heq] at hname
      exact absurd hname (by decide)
    · intro heq
      rw [heq] at hname
      exact absurd hname (by decide)
  refine List.any_eq_true.mpr ⟨_, hkept, ?_⟩
  rw [isNullName, List.contains_iff_mem]
  exact hname

/-- A text that starts with a slash writes a path from the root. -/
theorem isAbsolute_ofString {s : String} {cs : List Char} (h : s.toList = '/' :: cs) :
    (ofString s).isAbsolute = true := by
  have hslashes : (s.toList.takeWhile (· == '/')).length =
      (cs.takeWhile (· == '/')).length + 1 := by
    rw [h]
    rfl
  unfold isAbsolute ofString anchorOf
  dsimp only
  -- there is at least one slash, so the path has an anchor
  rw [hslashes]
  split
  · omega
  · rfl
  · rfl

end Path

namespace Location

variable {place : Location}

theorem IsCanonical.nullFree (h : place.IsCanonical) : NullFree place.names :=
  fun name hname => Path.isNullName_eq_false_iff.mpr (h name hname).noNull

/-- The text of a place is made of slashes and of the characters of its names. -/
theorem null_not_mem_intercalate {names : List String} (h : NullFree names) :
    '\x00' ∉ (String.intercalate "/" names).toList := by
  induction names with
  | nil => decide
  | cons name names ih =>
    have hname := Path.isNullName_eq_false_iff.mp (h name List.mem_cons_self)
    have htail := ih fun n hn => h n (List.mem_cons_of_mem _ hn)
    cases names with
    | nil => rwa [String.intercalate_singleton]
    | cons next names =>
      rw [String.intercalate_cons_cons, String.toList_append, String.toList_append]
      intro hmem
      rcases List.mem_append.mp hmem with hmem | hmem
      · rcases List.mem_append.mp hmem with hmem | hmem
        · exact hname hmem
        · exact absurd hmem (by decide)
      · exact htail hmem

end Location

/-! ## Resolving -/

namespace Path

variable {directory place : Location} {p : Path}

/-- A path without null characters leads from a place without them to one without them. -/
theorem nullFree_place (hdirectory : p.isAbsolute = false → NullFree directory.names)
    (hp : NullFree p.parts) : NullFree (p.place directory).names := by
  unfold place
  refine forall_names_follow ?_ fun name hname _ => hp name hname
  split
  · exact fun _ hname => absurd hname List.not_mem_nil
  · rename_i hrelative
    exact hdirectory (Bool.eq_false_iff.mpr hrelative)

/-- **What is resolved**: a path without null characters that is seen from a place without them, and
it leads to its place. -/
theorem resolve_eq_ok_iff : p.resolve directory = .ok place ↔
    NullFree p.parts ∧ (p.isAbsolute = false → NullFree directory.names) ∧
      place = p.place directory := by
  constructor
  · intro h
    unfold resolve at h
    split at h
    · exact absurd h (by simp)
    · rename_i hnull
      rw [Bool.not_eq_true, Bool.or_eq_false_iff] at hnull
      refine ⟨hasNull_eq_false_iff.mp hnull.1, fun hrelative => ?_, (Except.ok.inj h).symm⟩
      have hnames := hnull.2
      rw [hrelative, Bool.not_false, Bool.true_and, List.any_eq_false] at hnames
      exact fun name hname => Bool.eq_false_iff.mpr (hnames name hname)
  · rintro ⟨hp, hdirectory, rfl⟩
    have hnames : (!p.isAbsolute && directory.names.any isNullName) = false := by
      cases habsolute : p.isAbsolute with
      | true => rfl
      | false =>
        rw [Bool.not_false, Bool.true_and, List.any_eq_false]
        exact fun name hname => Bool.eq_false_iff.mp (hdirectory habsolute name hname)
    unfold resolve
    rw [hasNull_eq_false_iff.mpr hp, hnames]
    rfl

/-- **A path without null characters is resolved**, from any place without them. -/
theorem exists_resolve (hdirectory : p.isAbsolute = false → NullFree directory.names)
    (hp : NullFree p.parts) : ∃ place, p.resolve directory = .ok place :=
  ⟨_, resolve_eq_ok_iff.mpr ⟨hp, hdirectory, rfl⟩⟩

theorem exists_resolve_ofString (hdirectory : NullFree directory.names) {text : String}
    (h : '\x00' ∉ text.toList) : ∃ place, (ofString text).resolve directory = .ok place :=
  exists_resolve (fun _ => hdirectory) (nullFree_ofString h)

/-- A text that writes a path which can be resolved from a directory: there is no null character in
it, nor, if the path is seen from there, in the directory. -/
def CanResolve (directory : Location) (text : String) : Prop :=
  '\x00' ∉ text.toList ∧ ((ofString text).isAbsolute = false → NullFree directory.names)

instance (directory : Location) (text : String) : Decidable (CanResolve directory text) :=
  inferInstanceAs (Decidable (_ ∧ (_ → ∀ name ∈ directory.names, isNullName name = false)))

theorem exists_resolve_ofString_iff {text : String} :
    (∃ place, (ofString text).resolve directory = .ok place) ↔ CanResolve directory text := by
  constructor
  · rintro ⟨place, hplace⟩
    obtain ⟨hparts, hdirectory, -⟩ := resolve_eq_ok_iff.mp hplace
    refine ⟨fun hmem => ?_, hdirectory⟩
    have hnull := hasNull_ofString hmem
    rw [hasNull_eq_false_iff.mpr hparts] at hnull
    exact absurd hnull Bool.false_ne_true
  · rintro ⟨htext, hdirectory⟩
    exact exists_resolve hdirectory (nullFree_ofString htext)

/-- **A path that can be resolved** leads to a place without the null character. -/
theorem nullFree_of_resolve (h : p.resolve directory = .ok place) : NullFree place.names := by
  obtain ⟨hparts, hdirectory, rfl⟩ := resolve_eq_ok_iff.mp h
  exact nullFree_place hdirectory hparts

end Path

/-- The text of a place without the null character can be resolved. -/
theorem Location.resolve_toString {place : Location} (h : NullFree place.names)
    (directory : Location) :
    ∃ found, (Path.ofString place.toString).resolve directory = .ok found := by
  have htext : place.toString = "/" ++ String.intercalate "/" place.names := rfl
  have hnull : '\x00' ∉ place.toString.toList := by
    rw [htext, String.toList_append]
    intro hmem
    rcases List.mem_append.mp hmem with hmem | hmem
    · exact absurd hmem (by decide)
    · exact null_not_mem_intercalate h hmem
  have habsolute : (Path.ofString place.toString).isAbsolute = true := by
    apply Path.isAbsolute_ofString
    rw [htext, String.toList_append]
    rfl
  refine Path.exists_resolve (fun hrelative => ?_) (Path.nullFree_ofString hnull)
  exact absurd (habsolute.symm.trans hrelative) (by decide)

end ExpectedDiagnostics
