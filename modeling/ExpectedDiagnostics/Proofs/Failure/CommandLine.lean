import ExpectedDiagnostics.CommandLine
import ExpectedDiagnostics.Proofs.Check.Repeats
import ExpectedDiagnostics.Proofs.Compiler.Effects
import ExpectedDiagnostics.Proofs.Failure.Compiler

/-!
# How the program ends when diagnostics cannot be collected

A call of the program that comes to collecting diagnostics ends with the status of the failure that
it meets there. So a problem of the checker's kind ends it with status 2. What captures and runs of
the compiler pass on as it is ends it with status 1.

Main results:

* `Reaches.ending_run` — how a call ends whose diagnostics cannot be collected.
* `collecting_failsAsChecker_iff` — when collecting fails with problems of the checker's kind only,
  and how a call ends that meets one.
-/

namespace ExpectedDiagnostics

namespace Check

variable {w : Workspace} {paths : List Path} {sources : List Source}

/-- A check whose diagnostics cannot be collected fails in the same way. -/
theorem perform_of_collect_error {groupsOf : List Source → List (Source × List CommentGroup)}
    {collect : List Path → Collected} (unexpected : Bool) (hload : load w paths = .ok sources)
    {f : Failure} (hf : (collect paths).result = .error f) :
    (perform w groupsOf collect unexpected paths).result = .error f := by
  unfold perform
  simp only [hload, map_path_of_load hload, hf]

end Check

namespace CommandLine

variable {execute : Executor} {i : Invocation} {arguments : List Argument} {settings : Settings}
  {place : Option Location} {w : Workspace} {files : List Path} {collect : List Path → Collected}

/-- A call that comes to collecting diagnostics: its words ask for a check and none of them is
refused, settings are loaded, the log is opened, the files are found and loaded, and there is one
way to collect their diagnostics. -/
structure Reaches (execute : Executor) (i : Invocation) (arguments : List Argument)
    (settings : Settings) (place : Option Location) (w : Workspace) (files : List Path)
    (collect : List Path → Collected) : Prop where
  reads : readWords i.words = .ok arguments
  notEager : eagerSwitch? arguments = none
  accepted : refused? i.workspace arguments = none
  nonempty : pathsOf arguments ≠ []
  loads : Settings.load ⟨i.workspace, (valueOf? arguments .config).map Path.ofString,
    i.environment, overrides arguments⟩ = .ok settings
  opens : openLog i.workspace arguments = .ok (place, w)
  finds : ∃ log, Selection.expand ⟨settings.suffixes, .ofData settings.excluded⟩ w
    ((pathsOf arguments).map Path.ofString) = ⟨files, log, none⟩
  loadsFiles : ∃ sources, Check.load w files = .ok sources
  collects : collector w execute settings arguments = .ok collect

namespace Reaches

variable (h : Reaches execute i arguments settings place w files collect)

include h

theorem result_work {f : Failure} (hf : (collect files).result = .error f) :
    (work w execute settings arguments).result = .error f := by
  obtain ⟨log, hfinds⟩ := h.finds
  obtain ⟨sources, hloads⟩ := h.loadsFiles
  unfold work
  simp only [hfinds, h.collects, Check.perform_of_collect_error _ hloads hf]
  rfl

/-- **A call whose diagnostics cannot be collected** ends with the status of the failure. -/
theorem ending_run {f : Failure} (hf : (collect files).result = .error f) :
    (run execute i).ending = .status f.exitStatus := by
  have hempty : (pathsOf arguments).isEmpty = false := List.isEmpty_eq_false_iff.mpr h.nonempty
  -- the words are read and none of them ends the call
  unfold run
  simp only [h.reads, h.notEager, h.accepted, hempty]
  unfold check
  simp only [h.loads, h.opens, h.result_work hf]
  rfl

end Reaches

/-- **When collecting diagnostics fails with problems of the checker's kind only.** A capture does
so unless it is in a file whose octets are no text, and a run of the compiler unless it is stopped
before it comes to a call. Any problem of the checker's kind ends the program with status 2. -/
theorem collecting_failsAsChecker_iff (w : Workspace) :
    (∀ c : Capture, c.WithoutNull w →
      (FailsAsChecker (c.collect w) ↔ c.path.toString = "-" ∨
        ∀ octets, w.readOctets c.path = .ok octets → ∃ cs, Utf8.decode octets = .ok cs)) ∧
    (∀ (c : Compiler) (execute : Executor) (inputs : List String) (sources : List Location)
        (directory config : Option Location),
      c.Given w inputs sources directory config →
      (∀ call status output errors, execute call = .exited status output errors →
        Listing.WithoutNull output.toList) →
      (FailsAsChecker (c.collect w execute (inputs.map Path.ofString)).collected.result ↔
        inputs = [] ∨ ¬ c.Stops w (directory.getD w.directory) config sources)) ∧
    ∀ (execute : Executor) (i : Invocation) (arguments : List Argument) (settings : Settings)
        (place : Option Location) (files : List Path) (collect : List Path → Collected)
        (f : Failure),
      Reaches execute i arguments settings place w files collect →
      (collect files).result = .error f → f.IsChecker → (run execute i).ending = .status 2 := by
  refine ⟨fun c => Capture.failsAsChecker_iff, ?_, ?_⟩
  · intro c execute inputs sources directory config hgiven houtputs
    exact Compiler.failsAsChecker_iff hgiven houtputs
  · intro execute i arguments settings place files collect f hreaches hf hchecker
    rw [hreaches.ending_run hf, hchecker.exitStatus_eq]

/-! ## A capture that is no text, a command line that is none, and a compiler that never ends -/

/-- A document with one octet that is no text. -/
def sampleCapture : Capture := ⟨.records, .ofString "d.json", none⟩

/-- The workspace with this document. -/
def sampleUndecodable : Workspace where
  tree := { directories := [], files := [(⟨["d.json"]⟩, [0xff])] }
  directory := .root
  home := .root
  input := ""

theorem withoutNull_sampleCapture : sampleCapture.WithoutNull sampleUndecodable where
  directory _ hname := absurd hname List.not_mem_nil
  path := rfl
  base base hbase := absurd hbase (Option.not_mem_none base)
  files hform := absurd hform (by decide)

/-- A compiler whose command line has a quote without its end. -/
def sampleUnquoted : Compiler := ⟨"tsc 'x", none, [], none, .null⟩

theorem given_sample {c : Compiler} (hdirectory : c.directory = none) (hconfig : c.config = none) :
    c.Given Staging.sample Staging.sampleInputs Staging.sampleSources none none where
  canonical := by decide
  root := rfl
  loaded := Staging.loaded_sampleInputs
  resolved := rfl
  resolvedDirectory := by rw [hdirectory]; rfl
  resolvedConfig := by rw [hconfig]; rfl

/-- No call comes to an end. -/
def neverEnding : Executor := fun _ => .timedOut

theorem withoutNull_neverEnding (call : Call) (status : Int) (output errors : String)
    (h : neverEnding call = .exited status output errors) : Listing.WithoutNull output.toList :=
  nomatch h

/-- The document and the command line make collecting fail, and not with a problem of the checker's
kind. -/
theorem collecting_fails_otherwise :
    ¬ FailsAsChecker (sampleCapture.collect sampleUndecodable) ∧
      ¬ FailsAsChecker (sampleUnquoted.collect Staging.sample neverEnding
        (Staging.sampleInputs.map Path.ofString)).collected.result := by
  constructor
  · rw [Capture.failsAsChecker_iff withoutNull_sampleCapture]
    rintro (hinput | hall)
    · exact absurd hinput (by decide)
    · obtain ⟨cs, hcs⟩ := hall [0xff] rfl
      exact nomatch hcs
  · rw [Compiler.failsAsChecker_iff (given_sample rfl rfl) withoutNull_neverEnding]
    rintro (hinputs | hgo)
    · exact absurd hinputs (by decide)
    · exact hgo (.inr ⟨_, rfl, .inr (.inr ⟨_, rfl⟩)⟩)

/-- A call with a capture that is not there. -/
def sampleCall : Invocation := ⟨Staging.sample, [], ["--tsc-output", "none.txt", "src/b.ts"]⟩

/-- The sample with its files staged. -/
def sampleStaged : Staging := (Staging.enter Staging.sample.tree Staging.sampleSources).1

theorem enter_sample : Staging.enter Staging.sample.tree Staging.sampleSources =
    (sampleStaged, none) := rfl

/-- A compiler with an option of its own and no configuration file. -/
def sampleCompiler : Compiler := ⟨"npx tsc", none, [("strict", .bool true)], none, .null⟩

/-- Nothing keeps the compiler from being called on the staged files. -/
theorem not_uncallable_sample : ¬ sampleCompiler.Uncallable .root none sampleStaged := by
  have hlocate : (sampleStaged.tree.locate .root
      (Compiler.projectPlace sampleStaged.tree .root).toPath).toOption.isSome = true := by
    decide +kernel
  rintro (⟨cause, hcause⟩ | hwrite | ⟨fault, hfault⟩)
  · have hcause : sampleStaged.tree.locate .root
        (Compiler.projectPlace sampleStaged.tree .root).toPath = .error cause := hcause
    rw [hcause] at hlocate
    exact nomatch hlocate
  · exact nomatch (Compiler.canWrite_project (fun _ => rfl) sampleStaged.places).symm.trans hwrite
  · exact nomatch hfault

theorem collecting_sample :
    FailsAsChecker (Capture.collect ⟨.listing, .ofString "none.txt", none⟩ Staging.sample) ∧
      FailsAsChecker (sampleCompiler.collect Staging.sample neverEnding
        (Staging.sampleInputs.map Path.ofString)).collected.result ∧
      (run neverEnding sampleCall).ending = .status 2 := by
  obtain ⟨hcapture, hcompiler, hcall⟩ := collecting_failsAsChecker_iff Staging.sample
  refine ⟨?_, ?_, ?_⟩
  · refine (hcapture _ ⟨?_, rfl, ?_, ?_⟩).mpr (.inr fun octets hoctets => nomatch hoctets)
    · exact fun name hname => absurd hname List.not_mem_nil
    · exact fun base hbase => absurd hbase (Option.not_mem_none base)
    · exact fun _ text htext => nomatch htext
  · refine (hcompiler _ _ _ _ none none (given_sample rfl rfl) withoutNull_neverEnding).mpr
      (.inr ?_)
    rw [Compiler.stops_iff_of_staged enter_sample]
    exact not_uncallable_sample
  · refine hcall _ _ [.parameter .listing "none.txt", .path "src/b.ts"] _ none
      [.ofString "src/b.ts"] _ _ ⟨rfl, rfl, rfl, by decide, rfl, rfl, ⟨_, rfl⟩, ⟨_, rfl⟩, rfl⟩ rfl
      ⟨_, rfl, rfl⟩

end CommandLine

end ExpectedDiagnostics
