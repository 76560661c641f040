import ExpectedDiagnostics.Proofs.Canonical
import ExpectedDiagnostics.Staging
import Mathlib.Data.List.TakeWhile

/-!
# Names of copies

The name of a copy has a piece between the stem and the suffix of the name of its source. A suffix
begins with the last dot of a name, and a name whose last dot has something on both sides has one,
so the source can be told from the copy: two sources never have one copy.

Main results:

* `copyName_injective`, `copyPlace_injective` — different sources have different copies.
* `isCanonical_copyPlace` — the place of a copy is canonical.
* `exists_toString_copyPlace` — the text of a copy's path is that of its source with a piece put in.
-/

namespace ExpectedDiagnostics

/-! ## Stems and suffixes -/

namespace Path

/-- A name is cut at its last dot, if something stands on both sides of it. -/
theorem dotAt?_append (stem : List Char) {ext : List Char} (hext : '.' ∉ ext) :
    dotAt? (stem ++ '.' :: ext) = if stem = [] ∨ ext = [] then none else some stem.length := by
  have hno : ∀ c ∈ ext.reverse, (c != '.') = true := by
    intro c hc
    rw [bne_iff_ne]
    rintro rfl
    exact hext (List.mem_reverse.mp hc)
  have htail : ((stem ++ '.' :: ext).reverse.takeWhile (· != '.')) = ext.reverse := by
    rw [List.reverse_append, List.reverse_cons, List.append_assoc, List.singleton_append,
      List.takeWhile_append_of_pos hno, List.takeWhile_cons_of_neg (by decide), List.append_nil]
  unfold dotAt?
  rw [htail, List.length_reverse, List.length_append, List.length_cons]
  by_cases hempty : stem = [] ∨ ext = []
  · rw [if_pos hempty]
    rcases hempty with rfl | rfl
    · simp
    · simp
  · rw [if_neg hempty]
    rw [not_or] at hempty
    have hstem := List.length_pos_of_ne_nil hempty.1
    have hrest := List.length_pos_of_ne_nil hempty.2
    have hcut : ¬ (ext.length == 0 ||
        decide (stem.length + (ext.length + 1) ≤ ext.length + 1)) = true := by
      rw [Bool.or_eq_true, beq_iff_eq, decide_eq_true_eq]
      omega
    rw [if_neg hcut]
    congr 1
    omega

theorem dotAt?_of_not_mem {cs : List Char} (h : '.' ∉ cs) : dotAt? cs = none := by
  have hno : ∀ c ∈ cs.reverse, (c != '.') = true := by
    intro c hc
    rw [bne_iff_ne]
    rintro rfl
    exact h (List.mem_reverse.mp hc)
  unfold dotAt?
  rw [List.takeWhile_eq_self_iff.mpr hno, List.length_reverse, if_pos]
  rw [Bool.or_eq_true, decide_eq_true_eq]
  exact .inr (Nat.le_succ _)

/-- Two texts that are cut at their last dots are the same only if both pieces are. -/
theorem eq_of_append_dot_eq {a b e f : List Char} (h : a ++ '.' :: e = b ++ '.' :: f) (he : '.' ∉ e)
    (hf : '.' ∉ f) : a = b ∧ e = f := by
  rcases List.append_eq_append_iff.mp h with ⟨mid, hb, hrest⟩ | ⟨mid, ha, hrest⟩
  · cases mid with
    | nil => exact ⟨by rw [hb, List.append_nil], (List.cons.inj hrest).2⟩
    | cons c mid =>
      rw [List.cons_append] at hrest
      rw [(List.cons.inj hrest).2] at he
      exact absurd (List.mem_append_right _ List.mem_cons_self) he
  · cases mid with
    | nil => exact ⟨by rw [ha, List.append_nil], (List.cons.inj hrest).2.symm⟩
    | cons c mid =>
      rw [List.cons_append] at hrest
      rw [(List.cons.inj hrest).2] at hf
      exact absurd (List.mem_append_right _ List.mem_cons_self) hf

/-- How a name is cut into a stem and a suffix: the suffix is empty, because no dot has something on
both sides, or it begins with the last dot. -/
inductive Cut (name : List Char) : List Char → List Char → Prop
  | whole (h : ∀ stem ext, name = stem ++ '.' :: ext → '.' ∉ ext → stem = [] ∨ ext = []) :
      Cut name name []
  | dot {stem ext : List Char} (hname : name = stem ++ '.' :: ext) (hext : '.' ∉ ext)
      (hstem : stem ≠ []) (hne : ext ≠ []) : Cut name stem ('.' :: ext)

theorem cut_name (name : String) : Cut name.toList (stemOf name).toList (suffixOf name).toList := by
  unfold stemOf suffixOf
  by_cases hdot : '.' ∈ name.toList
  · obtain ⟨back, front, hreverse, hback⟩ := List.eq_append_cons_of_mem (List.mem_reverse.mpr hdot)
    have hname : name.toList = front.reverse ++ '.' :: back.reverse := by
      rw [← List.reverse_reverse name.toList, hreverse, List.reverse_append, List.reverse_cons,
        List.append_assoc, List.singleton_append]
    have hext : '.' ∉ back.reverse := fun hmem => hback (List.mem_reverse.mp hmem)
    have hat := dotAt?_append front.reverse hext
    rw [← hname] at hat
    rw [hat]
    split_ifs with hempty
    · rw [show "".toList = [] from rfl]
      refine .whole fun stem ext hcut hno => ?_
      obtain ⟨hstem, hrest⟩ := eq_of_append_dot_eq (hname.symm.trans hcut) hext hno
      rwa [hstem, hrest] at hempty
    · rw [not_or] at hempty
      dsimp only
      rw [String.toList_ofList, String.toList_ofList, hname, List.take_left, List.drop_left]
      exact .dot rfl hext hempty.1 hempty.2
  · rw [dotAt?_of_not_mem hdot, show "".toList = [] from rfl]
    refine .whole fun stem ext hcut _ => absurd ?_ hdot
    rw [hcut]
    exact List.mem_append_right _ List.mem_cons_self

theorem stemOf_append_suffixOf (name : String) :
    (stemOf name).toList ++ (suffixOf name).toList = name.toList := by
  have hcut := cut_name name
  revert hcut
  generalize (stemOf name).toList = stem
  generalize (suffixOf name).toList = suffix
  intro hcut
  cases hcut with
  | whole h => exact List.append_nil _
  | dot hname => exact hname.symm

end Path

namespace Staging

/-! ## Names of copies -/

theorem toList_copyName (name : String) :
    (copyName name).toList =
      (Path.stemOf name).toList ++ '.' :: (stem.toList ++ (Path.suffixOf name).toList) := by
  unfold copyName
  rw [String.toList_append, String.toList_append, String.toList_append, List.append_assoc,
    List.append_assoc]
  rfl

/-- The stem of a copy ends in the piece that was put in, if its source has a suffix. -/
theorem stemOf_copyName {name : String} (h : Path.suffixOf name ≠ "") :
    (Path.stemOf (copyName name)).toList = (Path.stemOf name).toList ++ '.' :: stem.toList := by
  have hcut := Path.cut_name name
  have htext := toList_copyName name
  rw [Ne, ← String.toList_eq_nil_iff] at h
  revert hcut htext h
  generalize (Path.suffixOf name).toList = suffix
  generalize (Path.stemOf name).toList = front
  intro h hcut htext
  cases hcut with
  | whole => exact absurd rfl h
  | @dot _ ext _ hext _ hne =>
    -- the last dot of the copy is that of the source
    rw [← List.cons_append, ← List.append_assoc] at htext
    have hat := Path.dotAt?_append (front ++ '.' :: stem.toList) hext
    have hfront : ¬ (front ++ '.' :: stem.toList = [] ∨ ext = []) := by
      rw [not_or]
      exact ⟨List.append_ne_nil_of_right_ne_nil _ (List.cons_ne_nil _ _), hne⟩
    rw [if_neg hfront, ← htext] at hat
    unfold Path.stemOf
    rw [hat]
    dsimp only
    rw [String.toList_ofList, htext, List.take_left]

/-- **Different names have different copies.** -/
theorem copyName_injective {a b : String} (h : copyName a = copyName b) : a = b := by
  have htext := congrArg String.toList h
  have hdot : '.' ∉ stem.toList := by decide
  have hstem : stem.toList ≠ [] := by decide
  have hA := Path.cut_name a
  have hB := Path.cut_name b
  rw [toList_copyName, toList_copyName] at htext
  rw [← String.toList_inj]
  revert hA hB htext
  generalize (Path.stemOf a).toList = stemA
  generalize (Path.suffixOf a).toList = suffixA
  generalize (Path.stemOf b).toList = stemB
  generalize (Path.suffixOf b).toList = suffixB
  intro htext hA hB
  cases hA with
  | whole hwholeA =>
    cases hB with
    | whole hwholeB => exact List.append_cancel_right htext
    | @dot stemB extB hnameB hextB hneB _ =>
      rw [List.append_nil, ← List.cons_append, ← List.append_assoc] at htext
      obtain ⟨hcut, -⟩ := Path.eq_of_append_dot_eq htext hdot hextB
      rcases hwholeA _ _ hcut hdot with hempty | hempty
      · exact absurd hempty hneB
      · exact absurd hempty hstem
  | @dot stemA extA hnameA hextA hneA _ =>
    rw [← List.cons_append, ← List.append_assoc] at htext
    cases hB with
    | whole hwholeB =>
      rw [List.append_nil] at htext
      obtain ⟨hcut, -⟩ := Path.eq_of_append_dot_eq htext hextA hdot
      rcases hwholeB _ _ hcut.symm hdot with hempty | hempty
      · exact absurd hempty hneA
      · exact absurd hempty hstem
    | @dot stemB extB hnameB hextB _ _ =>
      rw [← List.cons_append, ← List.append_assoc] at htext
      obtain ⟨hfront, hback⟩ := Path.eq_of_append_dot_eq htext hextA hextB
      rw [hnameA, hnameB, List.append_cancel_right hfront, hback]

/-- The name of a copy is longer than the piece that was put in. -/
theorem copyName_ne (name : String) {short : String} (hshort : short.toList.length < 16) :
    copyName name ≠ short := by
  have hpiece : stem.toList.length = 15 := by decide
  have hlong : 16 ≤ (copyName name).toList.length := by
    rw [toList_copyName, List.length_append, List.length_cons, List.length_append]
    omega
  rintro rfl
  omega

theorem isName_copyName {name : String} (h : Path.IsName name) : Path.IsName (copyName name) := by
  have hparts := Path.stemOf_append_suffixOf name
  -- no character comes in that a name could not have
  have hmem : ∀ c, c ∉ name.toList → c ∉ '.' :: stem.toList → c ∉ (copyName name).toList := by
    intro c hname hpiece hc
    rw [toList_copyName, ← List.cons_append] at hc
    rw [← hparts, List.mem_append, not_or] at hname
    rcases List.mem_append.mp hc with hc | hc
    · exact hname.1 hc
    · rcases List.mem_append.mp hc with hc | hc
      · exact hpiece hc
      · exact hname.2 hc
  exact ⟨copyName_ne _ (by decide), copyName_ne _ (by decide), copyName_ne _ (by decide),
    hmem _ h.noSlash (by decide), hmem _ h.noNull (by decide)⟩

/-! ## Places of copies -/

theorem copyPlace_snoc (dirs : List String) {name : String} (h : Path.IsName name) :
    copyPlace ⟨dirs ++ [name]⟩ = ⟨dirs ++ [copyName name]⟩ := by
  have hup : ¬ (copyName name == "..") = true := by
    rw [beq_iff_eq]
    exact (isName_copyName h).notUp
  unfold copyPlace Location.parent Location.step
  dsimp only
  rw [List.getLast?_concat, List.dropLast_concat, Option.getD_some, if_neg hup]

/-- A place other than the root has a name, and is in a directory. -/
theorem exists_snoc {place : Location} (h : place.IsCanonical) (hroot : place ≠ .root) :
    ∃ dirs name, place = ⟨dirs ++ [name]⟩ ∧ (∀ dir ∈ dirs, Path.IsName dir) ∧
      Path.IsName name := by
  obtain ⟨names⟩ := place
  have hne : names ≠ [] := fun hnil => hroot (congrArg Location.mk hnil)
  obtain ⟨dirs, name, rfl⟩ : ∃ dirs name, names = dirs ++ [name] :=
    ⟨_, _, (List.dropLast_append_getLast hne).symm⟩
  exact ⟨dirs, name, rfl, fun dir hdir => h dir (List.mem_append_left _ hdir),
    h name (List.mem_append_right _ List.mem_cons_self)⟩

theorem isCanonical_copyPlace {place : Location} (h : place.IsCanonical) (hroot : place ≠ .root) :
    (copyPlace place).IsCanonical := by
  obtain ⟨dirs, name, rfl, hdirs, hname⟩ := exists_snoc h hroot
  rw [copyPlace_snoc dirs hname]
  intro n hn
  rcases List.mem_append.mp hn with hn | hn
  · exact hdirs n hn
  · rw [List.mem_singleton.mp hn]
    exact isName_copyName hname

/-- **Different sources have different copies.** -/
theorem copyPlace_injective {a b : Location} (hA : a.IsCanonical) (hB : b.IsCanonical)
    (hrootA : a ≠ .root) (hrootB : b ≠ .root) (h : copyPlace a = copyPlace b) : a = b := by
  obtain ⟨dirsA, nameA, rfl, -, hnameA⟩ := exists_snoc hA hrootA
  obtain ⟨dirsB, nameB, rfl, -, hnameB⟩ := exists_snoc hB hrootB
  rw [copyPlace_snoc _ hnameA, copyPlace_snoc _ hnameB, Location.mk.injEq] at h
  obtain ⟨hdirs, hlast⟩ := List.append_inj' h rfl
  rw [hdirs, copyName_injective (List.cons.inj hlast).1]

/-! ## The text of a copy's path -/

theorem exists_intercalate_snoc (dirs : List String) :
    ∃ front : List Char, ∀ name : String,
      (String.intercalate "/" (dirs ++ [name])).toList = front ++ name.toList := by
  induction dirs with
  | nil => exact ⟨[], fun name => by rw [List.nil_append, String.intercalate_singleton]; rfl⟩
  | cons dir dirs ih =>
    obtain ⟨front, hfront⟩ := ih
    refine ⟨(dir ++ "/").toList ++ front, fun name => ?_⟩
    obtain ⟨next, more, hmore⟩ : ∃ next more, dirs ++ [name] = next :: more :=
      List.exists_cons_of_ne_nil (List.append_ne_nil_of_right_ne_nil _ (List.cons_ne_nil _ _))
    have hname := hfront name
    rw [List.cons_append]
    rw [hmore] at hname ⊢
    rw [String.intercalate_cons_cons, String.toList_append, hname, List.append_assoc]

/-- The text of a copy's path is that of its source with a piece put in, which begins with a dot. -/
theorem exists_toString_copyPlace {place : Location} (h : place.IsCanonical)
    (hroot : place ≠ .root) :
    ∃ front back, place.toString.toList = front ++ back ∧
      (copyPlace place).toString.toList = front ++ '.' :: (stem.toList ++ back) := by
  obtain ⟨dirs, name, rfl, -, hname⟩ := exists_snoc h hroot
  obtain ⟨front, hfront⟩ := exists_intercalate_snoc dirs
  refine ⟨'/' :: (front ++ (Path.stemOf name).toList), (Path.suffixOf name).toList, ?_, ?_⟩
  · rw [Path.toList_toString, hfront, ← Path.stemOf_append_suffixOf, List.cons_append,
      List.append_assoc]
  · rw [copyPlace_snoc _ hname, Path.toList_toString, hfront, toList_copyName, List.cons_append,
      List.append_assoc]

end Staging

end ExpectedDiagnostics
