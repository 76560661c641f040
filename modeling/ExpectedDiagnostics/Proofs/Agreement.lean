import ExpectedDiagnostics.Proofs.Capture
import ExpectedDiagnostics.Proofs.Compiler.Collect
import ExpectedDiagnostics.Proofs.Utf8
import Mathlib.Data.String.Basic

/-!
# All sources of diagnostics agree

Diagnostics come from a document of records, from a listing that was kept, or from a run of the
compiler on staged files. Whichever way they come, the same diagnostics are collected, in order and
without repetitions.

Main results:

* `sources_agree` — the three sources give the same diagnostics.
* `not_agree_beyond_limits` — they do not, if a copy would have too long a name or an option cannot
  be written.
-/

namespace ExpectedDiagnostics

/-- **All sources of diagnostics agree.** The same diagnostics are collected from a document that
records them, from a listing of them, and from a run that prints this listing with the copies of the
staged files in place of their sources. -/
theorem sources_agree {ds : List Diagnostic} (hds : ∀ d ∈ ds, Listing.Printable d)
    -- the document of records, wherever it is
    {records : Capture} {u : Workspace} (hrecords : records.form = .records)
    (hdocument : records.Holds u (Json.compact (Record.document ds)))
    -- the listing, wherever it is
    {listing : Capture} {v : Workspace} (hlisting : listing.form = .listing)
    (hprinted : listing.Holds v (Listing.print ds))
    -- the run of the compiler
    {c : Compiler} {w : Workspace} {execute : Executor} {inputs : List String}
    {sources : List Location} {directory config : Option Location}
    (hreports : c.Reports w execute inputs sources directory config ds)
    (hlimits : c.WithinLimits w sources directory config) :
    records.collect u = .ok (Diagnostic.tidy ds) ∧
      listing.collect v = .ok (Diagnostic.tidy ds) ∧
      (c.collect w execute (inputs.map Path.ofString)).collected.result =
        .ok (Diagnostic.tidy ds) :=
  ⟨Capture.collect_records hrecords hdocument fun d hd => (hds d hd).recordable,
    Capture.collect_listing hlisting hprinted hds,
    Compiler.collect_of_reports hreports hlimits hds⟩

/-! ## A run on two files -/

namespace Agreement

/-- What is told of a file that has a copy, of one that has none, of one that is not staged, and of
the whole program. -/
def diagnostics : List Diagnostic :=
  [⟨some "/src/a.ts", 1, .chain "head" [.chain "below" []], 2322, 0, "error"⟩,
    ⟨some "/src/b.ts", 0, .text "text", 2304, 4, "warning"⟩,
    ⟨some "/lib/c.d.ts", 7, .text "text", 1, 0, "error"⟩,
    ⟨none, 0, .text "text", 2318, 0, "error"⟩]

/-- A file with a marker of the compiler, one without, and a document of the diagnostics; their
listing comes in on the standard input. -/
def workspace : Workspace where
  tree :=
    { directories := [⟨["src"]⟩]
      files := [(⟨["src", "a.ts"]⟩, Utf8.encode "// @ts-expect-error: x\n1".toList),
        (⟨["src", "b.ts"]⟩, Utf8.encode "2".toList),
        (⟨["d.json"]⟩, Utf8.encode (Json.compact (Record.document diagnostics)).toList)] }
  directory := .root
  home := .root
  input := Listing.print diagnostics

def inputs : List String := ["src/a.ts", "/src/none/../b.ts"]

def sources : List Location := [⟨["src", "a.ts"]⟩, ⟨["src", "b.ts"]⟩]

def compiler : Compiler := ⟨"npx tsc", none, [("strict", .bool true)], none, .null⟩

/-- An executor that finds errors, and tells of the copy in place of its source. -/
def execute : Executor :=
  fun _ => .exited 2 (Listing.print (diagnostics.map (Staging.restaged workspace sources))) ""

theorem printable_diagnostics : ∀ d ∈ diagnostics, Listing.Printable d := by
  have htext : Text.OneLine "text".toList := by decide
  have hplain : ∀ (place : Location) (line column code : Nat) (category : String),
      place.IsCanonical → Text.OneLine place.toString.toList →
      Listing.MarkFree place.toString.toList → category ∈ Listing.categories →
      Listing.Printable ⟨some place.toString, line, .text "text", code, column, category⟩ := by
    intro place line column code category hplace hline hfree hcategory
    refine ⟨hcategory, Int.natCast_nonneg _, Int.natCast_nonneg _, Int.natCast_nonneg _, ?_,
      fun h => absurd h (by simp), htext, fun _ _ h => absurd h (by simp)⟩
    intro file hfile
    obtain rfl := Option.some.inj hfile
    exact ⟨⟨place, hplace, rfl⟩, hline, hfree⟩
  simp only [diagnostics, List.forall_mem_cons]
  refine ⟨?_, hplain ⟨["src", "b.ts"]⟩ 0 4 2304 _ (by decide) (by decide) (by decide) (by decide),
    hplain ⟨["lib", "c.d.ts"]⟩ 7 0 1 _ (by decide) (by decide) (by decide) (by decide), ?_,
    fun d hd => absurd hd List.not_mem_nil⟩
  · refine ⟨by decide, by decide, by decide, by decide, ?_, fun h => absurd h (by simp),
      by decide, ?_⟩
    · rintro file hfile
      obtain rfl := Option.some.inj hfile
      exact ⟨⟨⟨["src", "a.ts"]⟩, by decide, rfl⟩, by decide, by decide⟩
    · intro head next hmessage
      obtain ⟨rfl, rfl⟩ := Message.chain.inj hmessage
      exact ⟨by simp, ⟨by decide, trivial⟩, trivial⟩
  · exact ⟨by decide, by decide, by decide, by decide, fun _ h => absurd h (by simp),
      fun _ => ⟨rfl, rfl, by decide⟩, by decide, fun _ _ h => absurd h (by simp)⟩

theorem hasInputs : Compiler.HasInputs workspace inputs sources where
  directory := by decide
  nonempty := by decide
  resolved := rfl
  distinct := by decide
  readable := by
    simp only [sources, List.forall_mem_cons]
    exact ⟨⟨_, rfl⟩, ⟨_, rfl⟩, fun _ h => absurd h List.not_mem_nil⟩
  free := by decide

theorem callable : compiler.Callable workspace none none where
  command := ⟨_, rfl⟩
  resolved := rfl
  resolvedConfig := rfl
  exists_directory := rfl

theorem reports : compiler.Reports workspace execute inputs sources none none diagnostics where
  hasInputs := hasInputs
  callable := callable
  foreign := by decide
  prints _ := ⟨2, by decide, "", rfl⟩

theorem withinLimits : compiler.WithinLimits workspace sources none none where
  copies := by decide
  project := by decide
  options := fun _ => rfl

def document : Capture := ⟨.records, Path.ofString "d.json", none⟩

def listing : Capture := ⟨.listing, Path.ofString "-", none⟩

theorem sources_agree_two :
    document.collect workspace = .ok (Diagnostic.tidy diagnostics) ∧
      listing.collect workspace = .ok (Diagnostic.tidy diagnostics) ∧
      (compiler.collect workspace execute (inputs.map Path.ofString)).collected.result =
        .ok (Diagnostic.tidy diagnostics) := by
  have hdocument : document.Holds workspace (Json.compact (Record.document diagnostics)) := rfl
  have hlisting : listing.Holds workspace (Listing.print diagnostics) := rfl
  exact sources_agree printable_diagnostics rfl hdocument rfl hlisting reports withinLimits

/-! ## Beyond the limits -/

def annotated : String := "// @ts-expect-error: x\n1"

/-- One annotated file of a name, in the root. -/
def single (name : String) : Workspace where
  tree := { directories := [], files := [(⟨[name]⟩, Utf8.encode annotated.toList)] }
  directory := .root
  home := .root
  input := ""

section

variable {name : String}

theorem entry?_single (name : String) (place : Location) :
    (single name).tree.entry? place = if place = ⟨[name]⟩ then
      some (.file (Utf8.encode annotated.toList))
    else if place = .root then some .directory else none := by
  unfold FileTree.entry? single
  dsimp only
  rw [List.lookup_cons]
  by_cases hplace : place = ⟨[name]⟩
  · rw [if_pos hplace, beq_iff_eq.mpr hplace]
  · rw [if_neg hplace, beq_eq_false_iff_ne.mpr hplace, List.lookup_nil]
    by_cases hroot : place = .root
    · rw [if_pos hroot, beq_iff_eq.mpr hroot]
      rfl
    · rw [if_neg hroot, beq_eq_false_iff_ne.mpr hroot]
      rfl

theorem follow_single (name other : String) (hother : Path.IsName other) :
    (single name).tree.follow .root [other] =
      if FileTree.nameLimit < other.utf8ByteSize then .error .tooLong else .ok ⟨[other]⟩ := by
  have hroot : (single name).tree.entry? .root = some .directory := by
    rw [entry?_single, if_neg, if_pos rfl]
    exact fun heq => absurd (Location.mk.inj heq) (by simp)
  rw [FileTree.follow, hroot]
  dsimp only
  split
  · rfl
  · have hstep : Location.root.step other = ⟨[other]⟩ := by
      rw [Location.step, if_neg]
      · rfl
      · rw [beq_iff_eq]
        exact hother.notUp
    rw [hstep]
    rfl

/-- The name of the copy is the longer one by sixteen octets. -/
theorem copyName_single (hdot : '.' ∉ name.toList) :
    Staging.copyName name = name ++ "." ++ Staging.stem := by
  unfold Staging.copyName Path.stemOf Path.suffixOf
  rw [Path.dotAt?_of_not_mem hdot]
  exact String.append_empty

theorem copyPlace_single (hname : Path.IsName name) :
    Staging.copyPlace ⟨[name]⟩ = ⟨[Staging.copyName name]⟩ :=
  Staging.copyPlace_snoc [] hname

theorem isCanonical_single (hname : Path.IsName name) : Location.IsCanonical ⟨[name]⟩ := by
  intro n hn
  rwa [List.mem_singleton.mp hn]

/-- A file in the root can be read, if its name is not too long. -/
theorem readText_single (hname : Path.IsName name)
    (hshort : name.utf8ByteSize ≤ FileTree.nameLimit) :
    (single name).readText (Location.toPath ⟨[name]⟩) = .ok annotated.toList := by
  have hpath : ¬ FileTree.pathLimit < (Location.toPath ⟨[name]⟩).toString.utf8ByteSize := by
    have htext : (Location.toPath ⟨[name]⟩).toString = "/" ++ name := by
      show "/" ++ String.intercalate "/" [name] = _
      rw [String.intercalate_singleton]
    rw [htext, String.utf8ByteSize_append]
    show ¬ 4095 < 1 + _
    have hlimit : FileTree.nameLimit = 255 := rfl
    omega
  have hlocate : (single name).tree.locate (single name).directory (Location.toPath ⟨[name]⟩) =
      .ok ⟨[name]⟩ := by
    rw [FileTree.locate_toPath_eq, if_neg hpath, follow_single name name hname,
      if_neg (Nat.not_lt.mpr hshort)]
  have hread : (single name).readOctets (Location.toPath ⟨[name]⟩) =
      .ok (Utf8.encode annotated.toList) := by
    have hcontent : (single name).tree.read (single name).directory (Location.toPath ⟨[name]⟩) =
        .ok (Utf8.encode annotated.toList) := by
      refine FileTree.read_eq_ok_iff.mpr ⟨_, hlocate, ?_⟩
      rw [entry?_single, if_pos rfl]
    unfold Workspace.readOctets
    rw [Path.hasNull_toPath (isCanonical_single hname), hcontent]
    rfl
  exact Workspace.readText_of_readOctets hread (by decide)

/-- What is at the place of a copy cannot be asked for, if the copy's name is too long. -/
theorem find?_single (name : String) {other : String} (hother : Path.IsName other)
    (hlong : FileTree.nameLimit < other.utf8ByteSize) :
    (single name).find? (Location.toPath ⟨[other]⟩) =
      .error (.file ⟨.tooLong, Location.toPath ⟨[other]⟩⟩) := by
  have hlocate : (single name).tree.locate (single name).directory (Location.toPath ⟨[other]⟩) =
      .error .tooLong := by
    rw [FileTree.locate_toPath_eq, follow_single name other hother, if_pos hlong, ite_self]
  unfold Workspace.find? FileTree.find?
  rw [Path.hasNull_toPath (isCanonical_single hother), hlocate]
  rfl

theorem hasInputs_single (hname : Path.IsName name)
    (hshort : name.utf8ByteSize ≤ FileTree.nameLimit) (hdot : '.' ∉ name.toList) :
    Compiler.HasInputs (single name) [Location.toString ⟨[name]⟩] [⟨[name]⟩] where
  directory := Location.isCanonical_root
  nonempty := List.cons_ne_nil _ _
  resolved := by
    have hresolve := Path.resolve_toString_of_isCanonical (isCanonical_single hname)
      (single name).directory
    rw [List.map_singleton, Workspace.resolveAll, Workspace.resolve, hresolve]
    rfl
  distinct := List.nodup_singleton _
  readable := by
    rintro source hsource
    rw [List.mem_singleton.mp hsource]
    exact ⟨_, readText_single hname hshort⟩
  free := by
    rintro source hsource -
    rw [List.mem_singleton.mp hsource, entry?_single, copyPlace_single hname,
      copyName_single hdot, if_neg, if_neg]
    · exact fun heq => absurd (Location.mk.inj heq) (by simp)
    · intro heq
      have hsize := congrArg String.utf8ByteSize (List.cons.inj (Location.mk.inj heq)).1
      rw [String.utf8ByteSize_append, String.utf8ByteSize_append,
        show Staging.stem.utf8ByteSize = 15 by decide] at hsize
      omega

theorem hasCopy_single (hname : Path.IsName name)
    (hshort : name.utf8ByteSize ≤ FileTree.nameLimit) :
    Staging.hasCopy (single name) ⟨[name]⟩ = true := by
  rw [Staging.hasCopy_eq (readText_single hname hshort), String.ofList_toList]
  decide

end

/-- A name that a file can have, while its copy would have one that is too long. -/
def longName : String := .ofList (List.replicate 240 'a')

theorem utf8ByteSize_longName : longName.utf8ByteSize = 240 := by
  unfold longName
  rw [Utf8.utf8ByteSize_replicate]
  rfl

theorem utf8ByteSize_longName_le : longName.utf8ByteSize ≤ FileTree.nameLimit := by
  rw [utf8ByteSize_longName]
  decide

theorem eq_of_mem_longName {c : Char} (hc : c ∈ longName.toList) : c = 'a' := by
  unfold longName at hc
  rw [String.toList_ofList] at hc
  exact List.eq_of_mem_replicate hc

theorem dot_not_mem_longName : '.' ∉ longName.toList :=
  fun h => absurd (eq_of_mem_longName h) (by decide)

theorem isName_longName : Path.IsName longName := by
  have hne : ∀ other : String, other.utf8ByteSize < 240 → longName ≠ other := by
    intro other hother heq
    rw [← heq, utf8ByteSize_longName] at hother
    exact Nat.lt_irrefl _ hother
  have hno : ∀ c, c ≠ 'a' → c ∉ longName.toList := fun c hc h => hc (eq_of_mem_longName h)
  exact ⟨hne _ (by decide), hne _ (by decide), hne _ (by decide), hno _ (by decide),
    hno _ (by decide)⟩

/-- An executor that finds no errors. -/
def quiet : Executor :=
  fun _ => .exited 0 (Listing.print []) ""

/-- The compiler with an option that JSON has no form for. -/
def datedCompiler : Compiler :=
  { compiler with options := [("since", .moment (.day ⟨2024, 1, 1⟩))] }

theorem reports_longName : compiler.Reports (single longName) quiet
    [Location.toString ⟨[longName]⟩] [⟨[longName]⟩] none none [] where
  hasInputs := hasInputs_single isName_longName utf8ByteSize_longName_le dot_not_mem_longName
  callable := ⟨⟨_, rfl⟩, rfl, rfl, rfl⟩
  foreign d hd := absurd hd List.not_mem_nil
  prints _ := ⟨0, by decide, "", rfl⟩

theorem reports_dated :
    datedCompiler.Reports workspace execute inputs sources none none diagnostics where
  hasInputs := hasInputs
  callable := ⟨⟨_, rfl⟩, rfl, rfl, rfl⟩
  foreign := reports.foreign
  prints := reports.prints

/-- Without the limits the sources do not agree: a file whose copy would have too long a name, and
an option that JSON has no form for, each keep a run from giving what it reports. -/
theorem not_agree_beyond_limits :
    (compiler.Reports (single longName) quiet [Location.toString ⟨[longName]⟩] [⟨[longName]⟩] none
        none [] ∧
      (compiler.collect (single longName) quiet
        ([Location.toString ⟨[longName]⟩].map Path.ofString)).collected.result ≠
          .ok (Diagnostic.tidy [])) ∧
    ((∀ d ∈ diagnostics, Listing.Printable d) ∧
      datedCompiler.Reports workspace execute inputs sources none none diagnostics ∧
      (datedCompiler.collect workspace execute (inputs.map Path.ofString)).collected.result ≠
        .ok (Diagnostic.tidy diagnostics)) := by
  refine ⟨⟨reports_longName, ?_⟩, printable_diagnostics, reports_dated, ?_⟩
  · have hlong : FileTree.nameLimit < (Staging.copyName longName).utf8ByteSize := by
      rw [copyName_single dot_not_mem_longName, String.utf8ByteSize_append,
        String.utf8ByteSize_append, utf8ByteSize_longName]
      decide
    have hfind := find?_single longName (Staging.isName_copyName isName_longName) hlong
    rw [← copyPlace_single isName_longName] at hfind
    rw [Compiler.collect_of_find?_error reports_longName.hasInputs rfl
      (hasCopy_single isName_longName utf8ByteSize_longName_le) hfind]
    simp
  · have hresult : ∃ project, (datedCompiler.collect workspace execute
        (inputs.map Path.ofString)).collected.result = .error (.unwritable project) :=
      Compiler.collect_of_unwritable hasInputs reports_dated.callable withinLimits.copies
        withinLimits.project rfl
    obtain ⟨project, hproject⟩ := hresult
    rw [hproject]
    simp

end Agreement

end ExpectedDiagnostics
