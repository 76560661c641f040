import ExpectedDiagnostics.Proofs.Index.Program
import ExpectedDiagnostics.Proofs.Null

/-!
# One key for every spelling

What a checker writes down of a file is the text of the place that the file's path leads to, and the
index of a program goes by places. The text of a place is absolute and has one spelling only, so it
leads to the same place from everywhere, and no other place has it. So a diagnostic is found under
every path that leads to its file, whatever path it was reported with, and from wherever either of
the two is seen.

Main results:

* `Location.IsCanonical.isKey` — what the text of a place is like.
* `Path.place_join` — a path that is joined to a directory leads where it leads from there.
* `ProgramIndex.meets_of_isKey` — a diagnostic is found under every path to its file.
* `ProgramIndex.resolve_isKey` — the whole of it, for a path that is seen from a directory.
-/

namespace ExpectedDiagnostics

/-! ## The text of a place -/

/-- A text that stands for a place, as its only spelling: one slash, and behind it the names on the
way, none of which is empty, `.` or `..`, with single slashes between them. -/
structure Location.IsKey (place : Location) (text : String) : Prop where
  spelled : text = "/" ++ String.intercalate "/" place.names
  canonical : place.IsCanonical
  notDoubled : ¬ ['/', '/'] <+: text.toList
  resolved : ∀ directory, (Path.ofString text).resolve directory = .ok place
  unique : ∀ other : Location, other.IsCanonical → other.toString = text → other = place

namespace Location

variable {place other : Location}

/-- Canonical places are known by their texts. -/
theorem IsCanonical.eq_of_toString_eq (h : place.IsCanonical) (hother : other.IsCanonical)
    (heq : other.toString = place.toString) : other = place := by
  have hplace := Path.resolve_toString_of_isCanonical h .root
  rw [← heq, Path.resolve_toString_of_isCanonical hother] at hplace
  exact Except.ok.inj hplace

/-- There is only one slash at the front. -/
theorem IsCanonical.not_doubled (h : place.IsCanonical) :
    ¬ ['/', '/'] <+: place.toString.toList := by
  obtain ⟨names⟩ := place
  rw [Path.toList_toString, List.cons_prefix_cons, and_iff_right rfl]
  cases names with
  | nil => decide
  | cons name names =>
    obtain ⟨c, more, hmore, hc⟩ :=
      @Path.exists_cons_intercalate name names (h name List.mem_cons_self)
    rw [hmore, List.cons_prefix_cons]
    exact fun hslash => hc hslash.1.symm

/-- **The text of a canonical place** is its only spelling. -/
theorem IsCanonical.isKey (h : place.IsCanonical) : place.IsKey place.toString where
  spelled := rfl
  canonical := h
  notDoubled := h.not_doubled
  resolved := Path.resolve_toString_of_isCanonical h
  unique _ hother heq := h.eq_of_toString_eq hother heq

end Location

/-! ## Paths that are seen from a directory -/

namespace Path

variable {directory place : Location} {base p : Path}

/-- A path that starts at the root leads to the same place from everywhere. -/
theorem resolve_of_isAbsolute (h : p.isAbsolute = true) (directory other : Location) :
    p.resolve directory = p.resolve other := by
  unfold resolve place
  rw [h]
  rfl

/-- Names can be followed one part after the other. -/
theorem follow_append (place : Location) (names more : List String) :
    place.follow (names ++ more) = (place.follow names).follow more :=
  List.foldl_append

/-- **Joined to a directory**, a path leads where it leads from the directory's place. -/
theorem place_join (base p : Path) (directory : Location) :
    (base.join p).place directory = p.place (base.place directory) := by
  unfold join
  by_cases hp : p.isAbsolute = true
  · rw [if_pos hp]
    unfold place
    rw [hp]
    rfl
  · have hseen : p.place (base.place directory) = (base.place directory).follow p.parts := by
      rw [place, if_neg hp]
    rw [if_neg hp, hseen]
    -- joining keeps where the directory starts
    exact follow_append _ base.parts p.parts

/-- A path that can be resolved from a directory can be resolved when it is joined to it. -/
theorem resolve_join {start : Location} (hbase : base.resolve start = .ok directory)
    (hp : p.resolve directory = .ok place) : (base.join p).resolve start = .ok place := by
  obtain ⟨hnames, hstart, rfl⟩ := resolve_eq_ok_iff.mp hbase
  obtain ⟨hparts, -, rfl⟩ := resolve_eq_ok_iff.mp hp
  rw [← place_join]
  refine resolve_eq_ok_iff.mpr ⟨?_, ?_, rfl⟩
  · unfold join
    split
    · exact hparts
    · exact List.forall_mem_append.mpr ⟨hnames, hparts⟩
  · unfold join
    split
    · rename_i habsolute
      exact fun hrelative => absurd (habsolute.symm.trans hrelative) (by decide)
    · exact hstart

end Path

/-! ## Diagnostics and files -/

namespace ProgramIndex

/-- **A diagnostic is found under every path to its file**: once it has been added with the text of
a place, the file at the place is known, and taking from the line of the diagnostic gives it behind
what was there before. -/
theorem meets_of_isKey {place : Location} {text : String} (h : place.IsKey text)
    (ix : ProgramIndex) {d : Diagnostic} (hd : d.file = some text) (directory : Location)
    {other : Location} {spelling : String}
    (hspelling : (Path.ofString spelling).resolve other = .ok place) :
    ∃ next rest, ix.add directory d = .ok next ∧ next.knows other spelling = .ok true ∧
      next.takeFrom other spelling d.line =
        .ok ((ix.forFile place).on d.line ++ [d], rest) := by
  refine ⟨ix.addAt place d, ((ix.addAt place d).take place d.line).2, ?_, ?_, ?_⟩
  · unfold add addTo
    rw [hd]
    dsimp only
    rw [h.resolved directory]
    rfl
  · have hknown : (ix.addAt place d).contains place = true := by
      rw [contains_addAt, beq_self_eq_true, Bool.true_or]
    unfold knows find
    rw [hspelling, ← hknown]
    rfl
  · have htaken : ((ix.addAt place d).take place d.line).1 =
        (ix.forFile place).on d.line ++ [d] := by
      show ((ix.addAt place d).forFile place).on d.line = _
      rw [forFile_addAt, if_pos rfl, LineIndex.on_add, if_pos rfl]
    unfold takeFrom find
    rw [hspelling, ← htaken]
    rfl

/-- **Resolved paths are keys.** A path that is seen from a directory leads to a place whose text is
its only spelling. If the path is absolute, it does so from anywhere, and joined to the directory it
leads to the same place. A diagnostic that is reported with this text is found under every path that
leads to the place. -/
theorem resolve_isKey {b p : String} (hb : (Path.ofString b).isAbsolute = true)
    (hbnull : '\x00' ∉ b.toList) (hpnull : '\x00' ∉ p.toList) :
    ∃ base place, (∀ directory, (Path.ofString b).resolve directory = .ok base) ∧
      (Path.ofString p).resolve base = .ok place ∧ place.IsKey place.toString ∧
      ((Path.ofString p).isAbsolute = true →
        ∀ directory, (Path.ofString p).resolve directory = .ok place) ∧
      (∀ directory, ((Path.ofString b).join (Path.ofString p)).resolve directory = .ok place) ∧
      ∀ (ix : ProgramIndex) (d : Diagnostic) (directory other : Location) (spelling : String),
        d.file = some place.toString → (Path.ofString spelling).resolve other = .ok place →
          ∃ next rest, ix.add directory d = .ok next ∧ next.knows other spelling = .ok true ∧
            next.takeFrom other spelling d.line =
              .ok ((ix.forFile place).on d.line ++ [d], rest) := by
  have hroot : NullFree Location.root.names := fun _ hname => absurd hname List.not_mem_nil
  obtain ⟨base, hbase⟩ := Path.exists_resolve_ofString hroot hbnull
  have hcanonical := Path.isCanonical_of_resolve Location.isCanonical_root hbase
  obtain ⟨place, hplace⟩ := Path.exists_resolve_ofString hcanonical.nullFree hpnull
  have hkey := (Path.isCanonical_of_resolve hcanonical hplace).isKey
  -- the directory is absolute, so it does not matter from where it is seen
  have hbase : ∀ directory, (Path.ofString b).resolve directory = .ok base := fun directory =>
    (Path.resolve_of_isAbsolute hb directory .root).trans hbase
  refine ⟨base, place, hbase, hplace, hkey, ?_, ?_, ?_⟩
  · intro hp directory
    exact (Path.resolve_of_isAbsolute hp directory base).trans hplace
  · intro directory
    exact Path.resolve_join (hbase directory) hplace
  · intro ix d directory other spelling hd hspelling
    exact meets_of_isKey hkey ix hd directory hspelling

/-- A path that leads up and down again, seen from a directory with two slashes at its front. -/
theorem resolve_isKey_respelled :
    ∃ place, (Path.ofString "../src//./a.ts").resolve ⟨["home", "me"]⟩ = .ok place ∧
      place.toString = "/home/src/a.ts" ∧ place.IsKey "/home/src/a.ts" := by
  obtain ⟨base, place, hbase, hplace, hkey, -⟩ :=
    @resolve_isKey "//work/../home/me" "../src//./a.ts" (by decide) (by decide) (by decide)
  have hhome : (Path.ofString "//work/../home/me").resolve .root = .ok ⟨["home", "me"]⟩ := by
    decide
  obtain rfl := Except.ok.inj ((hbase .root).symm.trans hhome)
  have htext : (Path.ofString "../src//./a.ts").resolve ⟨["home", "me"]⟩ =
      .ok ⟨["home", "src", "a.ts"]⟩ := by
    decide
  obtain rfl := Except.ok.inj (hplace.symm.trans htext)
  exact ⟨_, hplace, rfl, hkey⟩

end ProgramIndex

end ExpectedDiagnostics
