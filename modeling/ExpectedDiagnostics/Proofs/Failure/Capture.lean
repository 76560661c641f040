import ExpectedDiagnostics.Capture
import ExpectedDiagnostics.Proofs.FileTree.Additions
import ExpectedDiagnostics.Proofs.Listing.Blocks

/-!
# How captures fail

Whatever is in a document of records, and whatever is missing from it, is told as a problem of the
checker's kind, and a listing is read whatever it is. So the only other failure of a capture is that
of a file whose octets are no text: nobody turns it into a problem.

Main results:

* `Listing.exists_read` — every listing is read, if its files can be resolved.
* `Capture.failsAsChecker_iff` — when a capture fails with problems of the checker's kind only.
-/

namespace ExpectedDiagnostics

/-- A problem of the checker's own kind. -/
def Failure.IsChecker (f : Failure) : Prop :=
  ∃ p, f = .problem p ∧ p.kind.isUnder .checker = true

/-- A problem of the checker's kind ends the program with status 2. -/
theorem Failure.IsChecker.exitStatus_eq {f : Failure} (h : f.IsChecker) : f.exitStatus = 2 := by
  obtain ⟨p, rfl, hp⟩ := h
  unfold Failure.exitStatus Problem.exitStatus
  dsimp only
  revert hp
  cases p.kind <;> decide

/-- A computation comes to a result, or to a problem of the checker's own kind. -/
def FailsAsChecker {α : Type} (result : Except Failure α) : Prop :=
  ∀ f, result = .error f → f.IsChecker

theorem failsAsChecker_ok {α : Type} (a : α) : FailsAsChecker (.ok a) :=
  fun _ hf => nomatch hf

theorem failsAsChecker_error_iff {α : Type} {f : Failure} :
    FailsAsChecker (.error f : Except Failure α) ↔ f.IsChecker := by
  constructor
  · exact fun h => h f rfl
  · rintro h g hg
    rwa [← Except.error.inj hg]

/-- What is no problem at all is none of the checker's kind. -/
theorem Failure.not_isChecker {f : Failure} (h : ∀ p, f ≠ .problem p) : ¬ f.IsChecker := by
  rintro ⟨p, hp, -⟩
  exact h p hp

/-! ## Listings -/

namespace Listing

/-- No file that a listing tells of has a null character. -/
def WithoutNull (text : List Char) : Prop :=
  ∀ h, Line.header h ∈ (Text.splitLines text).map Line.ofText →
    ∀ place ∈ h.place, '\x00' ∉ place.1

/-- **Every listing is read**, if no file in it has a null character. -/
theorem exists_read {directory : Location} (hdirectory : NullFree directory.names)
    {text : List Char} (h : WithoutNull text) : ∃ ds, read directory text = .ok ds := by
  rw [exists_read_iff]
  intro line hline header hheader place hplace
  have hmem := List.mem_map_of_mem (f := Line.ofText) hline
  rw [hheader.ofText] at hmem
  refine ⟨?_, fun _ => hdirectory⟩
  rw [String.toList_ofList]
  exact h header hmem place hplace

end Listing

/-! ## Texts -/

/-- What reading a path without null characters comes to: a text, octets that are none, or a fault
of the file. -/
theorem Workspace.readText_cases (w : Workspace) {p : Path} (hp : p.hasNull = false) :
    (∃ text, w.readText p = .ok text) ∨
      (∃ octets fault, w.readOctets p = .ok octets ∧ Utf8.decode octets = .error fault ∧
        w.readText p = .error (.encoding fault)) ∨
      ∃ fault, w.readOctets p = .error (.file fault) ∧ w.readText p = .error (.file fault) := by
  have hread : w.readOctets p = (w.tree.read w.directory p).mapError .file := by
    unfold readOctets
    rw [hp]
    rfl
  unfold readText
  cases hoctets : w.tree.read w.directory p with
  | error fault =>
    rw [hoctets] at hread
    exact .inr (.inr ⟨fault, hread, by rw [hread]; rfl⟩)
  | ok octets =>
    rw [hoctets] at hread
    have hread : w.readOctets p = .ok octets := hread
    cases hdecode : Utf8.decode octets with
    | error fault =>
      refine .inr (.inl ⟨octets, fault, hread, hdecode, ?_⟩)
      rw [hread]
      show (textOf octets).mapError _ = _
      unfold textOf
      rw [hdecode]
      rfl
    | ok cs =>
      refine .inl ⟨Text.unifyLineEnds cs, ?_⟩
      rw [hread]
      show (textOf octets).mapError _ = _
      unfold textOf
      rw [hdecode]
      rfl

/-! ## Captures -/

namespace Capture

variable {c : Capture} {w : Workspace}

/-- No path of a capture has a null character: neither its own, nor that of the directory from which
its files are seen, nor, in a listing, those of the files. -/
structure WithoutNull (c : Capture) (w : Workspace) : Prop where
  directory : NullFree w.directory.names
  path : c.path.hasNull = false
  base : ∀ base ∈ c.base, base.hasNull = false
  files : c.form = .listing → ∀ text, c.text w = .ok text → Listing.WithoutNull text

/-- A text comes to diagnostics, or to a problem of the checker's kind. -/
theorem failsAsChecker_diagnosticsOf (h : c.WithoutNull w) {text : List Char}
    (htext : c.text w = .ok text) :
    FailsAsChecker (c.diagnosticsOf ((c.base.map w.place).getD w.directory) text) := by
  unfold diagnosticsOf
  cases hform : c.form with
  | records =>
    cases hrecords : ofRecords ((c.base.map w.place).getD w.directory) text with
    | error reason => exact failsAsChecker_error_iff.mpr ⟨_, rfl, rfl⟩
    | ok ds => exact failsAsChecker_ok ((Diagnostic.tidy ds).map Diagnostic.shown)
  | listing =>
    have hdirectory : NullFree ((c.base.map w.place).getD w.directory).names := by
      cases hbase : c.base with
      | none => exact h.directory
      | some base =>
        exact Path.nullFree_place (fun _ => h.directory)
          (Path.hasNull_eq_false_iff.mp (h.base base hbase))
    obtain ⟨ds, hds⟩ := Listing.exists_read hdirectory (h.files hform text htext)
    dsimp only
    rw [hds]
    exact failsAsChecker_ok (Diagnostic.tidy ds)

/-- A capture whose text is read fails with problems of the checker's kind only. -/
theorem failsAsChecker_of_text (h : c.WithoutNull w) {text : List Char}
    (htext : c.text w = .ok text) : FailsAsChecker (c.collect w) := by
  unfold collect
  rw [htext]
  exact failsAsChecker_diagnosticsOf h htext

/-- What keeps a text from being read is what the capture fails with. -/
theorem collect_of_text_error {f : Failure} (hf : c.text w = .error f) :
    c.collect w = .error f := by
  unfold collect
  rw [hf]
  rfl

/-- The text of a capture that is in a file, and what keeps it from being read: octets that are no
text are passed on as they are, and a fault of the file is told as a problem. -/
theorem text_of_readText (hinput : c.path.toString ≠ "-") {text : List Char}
    (h : w.readText c.path = .ok text) : c.text w = .ok text := by
  unfold Capture.text
  rw [if_neg fun heq => hinput (beq_iff_eq.mp heq), h]

theorem text_of_encoding (hinput : c.path.toString ≠ "-") {fault : Utf8.Fault}
    (h : w.readText c.path = .error (.encoding fault)) : c.text w = .error (.encoding fault) := by
  unfold Capture.text
  rw [if_neg fun heq => hinput (beq_iff_eq.mp heq), h]

theorem text_of_file (hinput : c.path.toString ≠ "-") {fault : FileTree.Fault}
    (h : w.readText c.path = .error (.file fault)) :
    c.text w = .error (.problem (.diagnosticsFormat c.path fault.message)) := by
  unfold Capture.text
  rw [if_neg fun heq => hinput (beq_iff_eq.mp heq), h]

/-- **A capture fails with problems of the checker's kind only**, unless it is in a file that is
read and whose octets are no text. -/
theorem failsAsChecker_iff (h : c.WithoutNull w) :
    FailsAsChecker (c.collect w) ↔ c.path.toString = "-" ∨
      ∀ octets, w.readOctets c.path = .ok octets → ∃ cs, Utf8.decode octets = .ok cs := by
  by_cases hinput : c.path.toString = "-"
  · have htext : c.text w = .ok w.input.toList := if_pos (beq_iff_eq.mpr hinput)
    exact iff_of_true (failsAsChecker_of_text h htext) (.inl hinput)
  rw [or_iff_right hinput]
  rcases w.readText_cases h.path with
    ⟨text, hok⟩ | ⟨octets, fault, hoctets, hdecode, herror⟩ | ⟨fault, hoctets, herror⟩
  · have hcollect := failsAsChecker_of_text h (text_of_readText hinput hok)
    refine iff_of_true hcollect fun octets hoctets => ?_
    obtain ⟨other, hother, hread⟩ := exists_of_bind_eq_ok hok
    obtain rfl := Except.ok.inj (hoctets.symm.trans hother)
    obtain ⟨cs, hcs, -⟩ := exists_of_bind_eq_ok (exists_of_mapError_eq_ok hread)
    exact ⟨cs, hcs⟩
  -- nobody turns octets that are no text into a problem
  · rw [collect_of_text_error (text_of_encoding hinput herror), failsAsChecker_error_iff]
    have hnot : ¬ (Failure.encoding fault).IsChecker := Failure.not_isChecker (by simp)
    refine iff_of_false hnot fun hall => ?_
    obtain ⟨cs, hcs⟩ := hall octets hoctets
    exact absurd (hdecode.symm.trans hcs) (by simp)
  · rw [collect_of_text_error (text_of_file hinput herror), failsAsChecker_error_iff]
    refine iff_of_true ⟨_, rfl, rfl⟩ fun octets hok => ?_
    exact absurd (hoctets.symm.trans hok) (by simp)

end Capture

end ExpectedDiagnostics
