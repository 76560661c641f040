import ExpectedDiagnostics.Proofs.Listing.RoundTrip
import ExpectedDiagnostics.Proofs.Staging.Copies

/-!
# Diagnostics of copies

The compiler sees copies in place of some files, and tells of them under the paths of the copies.
Such a diagnostic can be printed if that of the source can: the piece that is put in the path begins
with a dot, and no mark has one. Moving it to the source gives the diagnostic of the source back.

Main results:

* `printable_restaged` — what is told of a copy can be printed.
* `Staged.mapBack_restaged` — moving diagnostics from the copies to the sources undoes `restaged`.
-/

namespace ExpectedDiagnostics

namespace Listing

/-- Two texts without a mark stay without one when a character that no mark has comes between
them. -/
theorem MarkFree.append_cons {front back : List Char} {c : Char}
    (hc : ∀ mark, IsMark mark → c ∉ mark) (hfront : MarkFree front) (hback : MarkFree back) :
    MarkFree (front ++ c :: back) := by
  rintro mark hmark ⟨before, after, hpart⟩
  rcases List.append_eq_append_iff.mp hpart with ⟨mid, hmid, -⟩ | ⟨mid, hends, hrest⟩
  -- the mark ends in the first text
  · exact hfront mark hmark ⟨before, mid, hmid.symm⟩
  cases mid with
  | nil =>
    rw [List.append_nil] at hends
    exact hfront mark hmark ⟨before, [], by rw [hends, List.append_nil]⟩
  | cons d mid =>
    obtain ⟨rfl, rfl⟩ := List.cons.inj hrest
    rcases List.append_eq_append_iff.mp hends with ⟨more, -, hover⟩ | ⟨more, -, hlater⟩
    -- the mark goes over the character
    · refine hc mark hmark ?_
      rw [hover]
      exact List.mem_append_right _ List.mem_cons_self
    -- the mark begins behind the first text
    · cases more with
      | nil =>
        refine hc mark hmark ?_
        rw [List.nil_append] at hlater
        rw [← hlater]
        exact List.mem_cons_self
      | cons e more =>
        obtain ⟨-, rfl⟩ := List.cons.inj hlater
        exact hback mark hmark ⟨more, after, rfl⟩

theorem IsMark.dot_not_mem {mark : List Char} (h : IsMark mark) : '.' ∉ mark := by
  obtain ⟨line, column, category, code, hline, hcolumn, hcategory, hcode, rfl⟩ := h
  have hdigit : Text.isDigit '.' = false := by decide
  have hword : '.' ∉ category.toList := by
    revert category
    decide
  simp [markText, statementText, hline.not_mem hdigit, hcolumn.not_mem hdigit,
    hcode.not_mem hdigit, hword]

theorem MarkFree.of_append {cs ds : List Char} (h : MarkFree (cs ++ ds)) :
    MarkFree cs ∧ MarkFree ds := by
  constructor
  · intro mark hmark hpart
    exact h mark hmark (hpart.trans (List.prefix_append _ _).isInfix)
  · intro mark hmark hpart
    exact h mark hmark (hpart.trans (List.suffix_append _ _).isInfix)

end Listing

namespace Staging

variable {w : Workspace} {sources : List Location} {d : Diagnostic}

/-! ## What is told of copies -/

/-- A diagnostic as the compiler tells it: that of a file which has a copy is told of the copy. -/
def restaged (w : Workspace) (sources : List Location) (d : Diagnostic) : Diagnostic :=
  match sources.find? fun source => hasCopy w source && d.file == some source.toString with
  | some source => { d with file := some (copyPlace source).toString }
  | none => d

/-- The text of a copy's path stays on its line and has no mark, if that of the source does. -/
theorem oneLine_markFree_copyPlace {source : Location} (hcanonical : source.IsCanonical)
    (hroot : source ≠ .root) (hline : Text.OneLine source.toString.toList)
    (hfree : Listing.MarkFree source.toString.toList) :
    Text.OneLine (copyPlace source).toString.toList ∧
      Listing.MarkFree (copyPlace source).toString.toList := by
  have hpiece : Text.OneLine ('.' :: stem.toList) := by decide
  have hparenthesis : '(' ∉ stem.toList := by decide
  obtain ⟨front, back, hsource, hcopy⟩ := exists_toString_copyPlace hcanonical hroot
  rw [hsource] at hline hfree
  rw [hcopy]
  obtain ⟨hlineFront, hlineBack⟩ := List.forall_mem_append.mp hline
  obtain ⟨hfreeFront, hfreeBack⟩ := hfree.of_append
  refine ⟨?_, hfreeFront.append_cons (fun _ => Listing.IsMark.dot_not_mem) ?_⟩
  · exact Text.OneLine.append hlineFront (hpiece.append hlineBack)
  · exact hfreeBack.append_left hparenthesis

/-- What is told of a copy can be printed, if what it tells of the source can. -/
theorem printable_restaged (h : Listing.Printable d) (hall : ∀ p ∈ sources, Stageable w p)
    (hroot : w.tree.entry? .root = some .directory) :
    Listing.Printable (restaged w sources d) := by
  unfold restaged
  split
  · rename_i source hfind
    have hsource := hall source (List.mem_of_find?_eq_some hfind)
    have hfound := List.find?_some hfind
    rw [Bool.and_eq_true, beq_iff_eq] at hfound
    obtain ⟨-, hline, hfree⟩ := h.file _ hfound.2
    have hne := hsource.ne_root hroot
    have hcopy := oneLine_markFree_copyPlace hsource.canonical hne hline hfree
    refine { h with file := ?_, noFile := fun hnone => absurd hnone (by simp) }
    intro file hfile
    obtain rfl := Option.some.inj hfile
    exact ⟨⟨_, isCanonical_copyPlace hsource.canonical hne, rfl⟩, hcopy⟩
  · exact h

/-! ## Moving diagnostics back -/

theorem lookup_copies {copies : List Location} {source : Location}
    (hinj : ∀ p ∈ copies, copyPlace p = copyPlace source → p = source) (hmem : source ∈ copies) :
    (copies.map fun p => (copyPlace p, p)).lookup (copyPlace source) = some source := by
  induction copies with
  | nil => exact absurd hmem List.not_mem_nil
  | cons p copies ih =>
    rw [List.map_cons, List.lookup_cons]
    by_cases hp : copyPlace p = copyPlace source
    · rw [hinj p List.mem_cons_self hp, beq_self_eq_true]
    · rw [beq_eq_false_iff_ne.mpr fun heq => hp heq.symm]
      refine ih (fun q hq => hinj q (List.mem_cons_of_mem _ hq)) ?_
      rcases List.mem_cons.mp hmem with rfl | hmem
      · exact absurd rfl hp
      · exact hmem

theorem lookup_copies_eq_none {copies : List Location} {place : Location}
    (h : ∀ p ∈ copies, place ≠ copyPlace p) :
    (copies.map fun p => (copyPlace p, p)).lookup place = none := by
  rw [List.lookup_eq_none_iff]
  intro pair hpair
  obtain ⟨p, hp, rfl⟩ := List.mem_map.mp hpair
  exact bne_iff_ne.mpr (h p hp)

variable {s : Staging}

/-- A diagnostic of a copy is moved to the source of the copy. -/
theorem mapBack?_of_copy (s : Staging) {directory place source : Location} {d : Diagnostic}
    {file : String} (hfile : d.file = some file)
    (hresolve : (Path.ofString file).resolve directory = .ok place)
    (hlookup : s.copies.lookup place = some source) :
    s.mapBack? directory d = .ok (some { d with file := some source.toString }) := by
  simp only [mapBack?, hfile, FileTree.disk_resolve, hresolve, Except.mapError, bind, Except.bind,
    hlookup]
  rfl

/-- A diagnostic of no copy is dropped, or left as it is. -/
theorem mapBack?_of_no_copy (s : Staging) {directory place : Location} {d : Diagnostic}
    {file : String} (hfile : d.file = some file)
    (hresolve : (Path.ofString file).resolve directory = .ok place)
    (hlookup : s.copies.lookup place = none) : s.mapBack? directory d =
      .ok (if s.copies.any (·.2 == place) then none else some d) := by
  simp only [mapBack?, hfile, FileTree.disk_resolve, hresolve, Except.mapError, bind, Except.bind,
    hlookup]
  rfl

/-- What is told of a copy is moved to its source, and what is told of any other file is left as it
is. -/
theorem Staged.mapBack?_restaged (h : Staged w sources s)
    (hroot : w.tree.entry? .root = some .directory) (hall : ∀ p ∈ sources, Stageable w p)
    (hd : Listing.Printable d)
    (hforeign : ∀ p ∈ sources, hasCopy w p = true → d.file ≠ some (copyPlace p).toString)
    (directory : Location) : s.mapBack? directory (restaged w sources d) = .ok (some d) := by
  unfold restaged
  cases hfind : sources.find? fun source => hasCopy w source && d.file == some source.toString with
  | some source =>
    have hmem := List.mem_of_find?_eq_some hfind
    have hsource := hall source hmem
    have hfound := List.find?_some hfind
    rw [Bool.and_eq_true, beq_iff_eq] at hfound
    have hresolve := Path.resolve_toString_of_isCanonical
      (isCanonical_copyPlace hsource.canonical (hsource.ne_root hroot)) directory
    have hlookup : s.copies.lookup (copyPlace source) = some source := by
      rw [h.copies]
      refine lookup_copies (fun p hp heq => ?_) (List.mem_filter.mpr ⟨hmem, hfound.1⟩)
      have hp' := hall p (List.mem_filter.mp hp).1
      exact copyPlace_injective hp'.canonical hsource.canonical (hp'.ne_root hroot)
        (hsource.ne_root hroot) heq
    rw [s.mapBack?_of_copy rfl hresolve hlookup, ← hfound.2]
  | none =>
    cases hfile : d.file with
    | none =>
      unfold mapBack?
      rw [hfile]
    | some file =>
      obtain ⟨⟨place, hplace, rfl⟩, -⟩ := hd.file file hfile
      have hresolve := Path.resolve_toString_of_isCanonical hplace directory
      have hlookup : s.copies.lookup place = none := by
        rw [h.copies]
        refine lookup_copies_eq_none fun p hp heq => ?_
        obtain ⟨hmem, hcopy⟩ := List.mem_filter.mp hp
        exact hforeign p hmem hcopy (by rw [hfile, heq])
      have hany : s.copies.any (·.2 == place) = false := by
        rw [List.any_eq_false, h.copies]
        intro pair hpair heq
        obtain ⟨p, hp, rfl⟩ := List.mem_map.mp hpair
        obtain ⟨hmem, hcopy⟩ := List.mem_filter.mp hp
        obtain rfl := eq_of_beq heq
        refine List.find?_eq_none.mp hfind p hmem ?_
        rw [hcopy, hfile, beq_self_eq_true]
        rfl
      rw [s.mapBack?_of_no_copy hfile hresolve hlookup, hany]
      rfl

/-- **Moving diagnostics from the copies to the sources** gives the diagnostics of the sources. -/
theorem Staged.mapBack_restaged (h : Staged w sources s)
    (hroot : w.tree.entry? .root = some .directory) (hall : ∀ p ∈ sources, Stageable w p)
    {ds : List Diagnostic} (hds : ∀ d ∈ ds, Listing.Printable d)
    (hforeign : ∀ d ∈ ds, ∀ p ∈ sources, hasCopy w p = true →
      d.file ≠ some (copyPlace p).toString)
    (directory : Location) :
    s.mapBack directory (ds.map (restaged w sources)) = .ok ds := by
  induction ds with
  | nil => rfl
  | cons d ds ih =>
    have hd := h.mapBack?_restaged hroot hall (hds d List.mem_cons_self)
      (hforeign d List.mem_cons_self) directory
    have hrest := ih (fun e he => hds e (List.mem_cons_of_mem _ he))
      fun e he => hforeign e (List.mem_cons_of_mem _ he)
    rw [List.map_cons, mapBack, hd, hrest]
    rfl

end Staging

end ExpectedDiagnostics
