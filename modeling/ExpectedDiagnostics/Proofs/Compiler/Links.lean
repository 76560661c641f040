import ExpectedDiagnostics.Lexeme.Scan
import ExpectedDiagnostics.Proofs.Compiler.Effects
import ExpectedDiagnostics.Proofs.Staging.Links

/-!
# What a run of the compiler does to a tree with links

A run on a tree with links leaves it as it was, if no copy goes to the name of a dead link. The
place of the project file is one at which nothing stands, no link either, so the project file is
made there, and it is this file that is removed.

Main results:

* `isFree_projectPlace`, `remove_create` — the place of a project file is free, and a file that is
  made at a free place can be removed again.
* `collectOn_leavesTree` — a run leaves the tree as it was, and its call finds the project file and
  the copies more.
-/

namespace ExpectedDiagnostics

namespace LinkedTree

variable {t : LinkedTree} {directory place : Location}

/-! ## Free places -/

/-- The tree in which directories stand where the links do. -/
def filled (t : LinkedTree) : FileTree :=
  { t.toFileTree with directories := t.directories ++ t.links.map (·.1) }

theorem isFreeAt_of_filled (h : t.filled.entry? place = none) : t.isFreeAt place = true := by
  unfold filled FileTree.entry? at h
  dsimp only at h
  split at h
  · exact nomatch h
  rename_i hfiles
  split at h
  · exact nomatch h
  rename_i hnone
  rw [Bool.or_eq_true, not_or, List.contains_iff_mem, List.mem_append, not_or] at hnone
  obtain ⟨hroot, hdirectories, hlinks⟩ := hnone
  have hentry : t.entry? place = none := by
    unfold FileTree.entry?
    rw [hfiles]
    dsimp only
    rw [if_neg]
    rw [Bool.or_eq_true, not_or, List.contains_iff_mem]
    exact ⟨hroot, hdirectories⟩
  have hlink : t.link? place = none := by
    unfold link?
    rw [List.lookup_eq_none_iff]
    intro link hlink
    rw [bne_iff_ne]
    rintro rfl
    exact hlinks (List.mem_map_of_mem hlink)
  unfold isFreeAt
  rw [hentry, hlink]
  rfl

/-- Not all places for a project file are taken: they lead to different ones, and these are more
than things stand in the tree. -/
theorem exists_isFree (t : LinkedTree) (directory : Location) :
    ∃ n ∈ List.range (Disk.size t + 1), t.isFree (Compiler.candidate directory n) = true := by
  by_contra hall
  push Not at hall
  -- each of them leads to a name in one and the same directory
  have htaken : ∀ n ∈ List.range (Disk.size t + 1), ∃ d,
      t.walk true linkLimit .root directory.names = .ok d ∧
        t.isFreeAt (d.step (Compiler.projectName n)) = false := by
    intro n hn
    have hn := hall n hn
    unfold isFree at hn
    cases hlocate : t.locate false (Compiler.candidate directory n) with
    | error cause =>
      rw [hlocate] at hn
      exact absurd rfl hn
    | ok found =>
      rw [hlocate] at hn
      obtain ⟨-, hwalk⟩ := locate_eq_ok_iff.mp hlocate
      rw [Compiler.candidate_eq] at hwalk
      obtain ⟨d, hd, rfl⟩ := walk_snoc hwalk
      exact ⟨d, hd, eq_false_of_ne_true hn⟩
  obtain ⟨d, hd, -⟩ := htaken 0 (List.mem_range.mpr (Nat.succ_pos _))
  obtain ⟨n, hn, hnothing⟩ := Compiler.exists_free t.filled d
  have hsize : t.filled.files.length + t.filled.directories.length = Disk.size t := by
    show t.files.length + (t.directories ++ t.links.map (·.1)).length =
      t.files.length + t.directories.length + t.links.length
    rw [List.length_append, List.length_map, Nat.add_assoc]
  rw [hsize] at hn
  obtain ⟨other, hother, hfull⟩ := htaken n hn
  obtain rfl := Except.ok.inj (hd.symm.trans hother)
  exact nomatch hfull.symm.trans (isFreeAt_of_filled hnothing)

theorem isFree_projectPlace (t : LinkedTree) (directory : Location) :
    t.isFree (Compiler.projectPlace t directory) = true := by
  obtain ⟨n, hn, hfree⟩ := t.exists_isFree directory
  unfold Compiler.projectPlace
  dsimp only
  cases hfind : ((List.range (Disk.size t + 1)).map fun n =>
      directory.step (Compiler.projectName n)).find? (Disk.isFree t) with
  | some place => exact List.find?_some hfind
  | none =>
    exact absurd hfree (List.find?_eq_none.mp hfind _ (List.mem_map.mpr ⟨n, hn, rfl⟩))

/-- What stands where a free path leads: nothing, and no link either. -/
theorem free_of_isFree {found : Location} (hfree : t.isFree place = true)
    (hlocate : t.locate false place = .ok found) :
    t.entry? found = none ∧ t.link? found = none := by
  unfold isFree at hfree
  rw [hlocate] at hfree
  obtain ⟨hentry, hlink⟩ := Bool.and_eq_true_iff.mp hfree
  exact ⟨Option.isNone_iff_eq_none.mp hentry, Option.isNone_iff_eq_none.mp hlink⟩

/-- A file is made where the path leads, if it leads anywhere. -/
theorem create_of_locate {found : Location} (hlocate : t.locate false place = .ok found)
    (content : List UInt8) : Disk.create t place content = t.put found content := by
  show t.create place content = _
  unfold create
  rw [hlocate]

/-- A place is reached if its path leads somewhere. -/
theorem exists_locate_of_reach (h : Disk.reach t place = .ok ()) :
    ∃ found, t.locate false place = .ok found := by
  cases hlocate : t.locate false place with
  | ok found => exact ⟨found, rfl⟩
  | error cause =>
    rw [disk_reach, hlocate] at h
    exact absurd h (by simp)

/-- A file that is made at a free place can be removed again. -/
theorem remove_create (hfree : t.isFree place = true) (content : List UInt8) :
    Disk.remove (Disk.create t place content) place = t := by
  cases hlocate : t.locate false place with
  | error cause =>
    show (t.create place content).remove place = t
    unfold create
    rw [hlocate]
    unfold remove
    dsimp only
    rw [hlocate]
  | ok found =>
    rw [create_of_locate hlocate]
    obtain ⟨hentry, hlink⟩ := free_of_isFree hfree hlocate
    have hadds : t.Adds (t.put found content) [(found, content)] :=
      (Adds.refl t).put hentry hlink content
    exact (hadds.remove hlocate).eq_of_nil

/-! ## Staging -/

/-- What staging files does to the tree: it comes to an end with their copies more, which are gone
when it is left, or it is stopped and nothing is changed. -/
def StagingLeavesTree (t : LinkedTree) (sources : List Location) : Prop :=
  match Staging.enter t sources with
  | (s, none) => (∃ copies, t.AreCopies sources copies ∧ t.Adds s.tree copies) ∧ s.cleaned.tree = t
  | (s, some _) => s.tree = t

theorem stagingLeavesTree {sources : List Location} (halive : t.CopiesAlive sources) :
    t.StagingLeavesTree sources := by
  unfold StagingLeavesTree
  split
  · rename_i s henter
    obtain ⟨copies, hentered⟩ := entered_enter halive henter
    exact ⟨⟨copies, hentered.copied, hentered.adds⟩, tree_cleaned hentered⟩
  · rename_i s f henter
    exact tree_enter_of_failure halive henter

end LinkedTree

/-! ## Runs -/

namespace Compiler

variable {c : Compiler} {tell : Telling LinkedTree} {t : LinkedTree} {here directory : Location}
  {execute : Executor LinkedTree} {sources : List Location}

theorem tree_callOn_linked (halive : t.CopiesAlive sources)
    (hoptions : c.config = none → Json.canWrite (.table c.options) = true) :
    (c.callOn tell t here directory execute sources).tree = t := by
  refine tree_callOn (LinkedTree.tree_enter_of_failure halive) (fun henter => ?_)
    fun _ hconfig => tree_call ?_ fun content => ?_
  · obtain ⟨copies, hentered⟩ := LinkedTree.entered_enter halive henter
    exact LinkedTree.tree_cleaned hentered
  · exact canWrite_project (fun hnone => hoptions (eq_none_of_resolve? (hnone ▸ hconfig))) _
  · exact LinkedTree.remove_create (LinkedTree.isFree_projectPlace _ _) content

/-- The tree that a call finds: the first one, with the copies of the files and the project file
more, which stands where the path leads that the compiler is given for it. -/
def FindsCopies (t : LinkedTree) (sources : List Location) (call : Call LinkedTree) : Prop :=
  ∃ copies place, t.AreCopies sources copies ∧
    t.locate false call.projectPlace = .ok place ∧
      t.Adds call.tree
        (copies ++ [(place, Utf8.encode (Json.indented call.project).toList)])

theorem findsCopies_callOn (halive : t.CopiesAlive sources) {call : Call LinkedTree}
    (hcall : call ∈ (c.callOn tell t here directory execute sources).calls) :
    FindsCopies t sources call := by
  obtain ⟨s, config, henter, hcall⟩ := mem_calls_callOn hcall
  obtain ⟨hplace, hreach, htree⟩ := mem_calls_call hcall
  obtain ⟨copies, hentered⟩ := LinkedTree.entered_enter halive henter
  have hfree := s.tree.isFree_projectPlace (projectDirectory directory config)
  rw [← hplace] at hfree
  obtain ⟨place, hlocate⟩ := LinkedTree.exists_locate_of_reach hreach
  obtain ⟨hentry, hlink⟩ := LinkedTree.free_of_isFree hfree hlocate
  refine ⟨copies, place, hentered.copied, hentered.adds.locate_iff.mp hlocate, ?_⟩
  rw [htree, LinkedTree.create_of_locate hlocate]
  exact hentered.adds.put hentry hlink _

/-- **A run leaves the tree as it was**, whatever the inputs are and whatever comes of the call, if
no copy would be written through a dead link. The compiler finds the project file and the copies of
the files that retagging changes more in it, and nothing else changed. Staging alone leaves the tree
as it was, too. -/
theorem collectOn_leavesTree (c : Compiler) (tell : Telling LinkedTree) (t : LinkedTree)
    (here : Location) (execute : Executor LinkedTree) (paths : List Path)
    (hoptions : c.config = none → Json.canWrite (.table c.options) = true)
    (halive : ∀ sources, Disk.resolveAll t here paths = .ok sources → t.CopiesAlive sources) :
    (c.collectOn tell t here execute paths).tree = t ∧
      (∀ call ∈ (c.collectOn tell t here execute paths).calls, ∃ sources,
        Disk.resolveAll t here paths = .ok sources ∧ FindsCopies t sources call) ∧
      ∀ sources, Disk.resolveAll t here paths = .ok sources → t.StagingLeavesTree sources := by
  refine ⟨?_, ?_, fun sources hsources => LinkedTree.stagingLeavesTree (halive _ hsources)⟩
  · rcases c.collectOn_cases tell t here execute paths with
      ⟨result, heq, -⟩ | ⟨directory, sources, hsources, heq⟩
    · rw [heq]
    · rw [heq]
      exact tree_callOn_linked (halive _ hsources) hoptions
  · intro call hcall
    rcases c.collectOn_cases tell t here execute paths with
      ⟨result, heq, -⟩ | ⟨directory, sources, hsources, heq⟩
    · rw [heq] at hcall
      exact absurd hcall List.not_mem_nil
    · rw [heq] at hcall
      exact ⟨sources, hsources, findsCopies_callOn (halive _ hsources) hcall⟩

/-! ## A link on the way to a file -/

/-- A compiler with an option of its own and no configuration file. -/
def sampleOptions : Compiler := ⟨"npx tsc", none, [("strict", .bool true)], none, .null⟩

/-- A file with a marker and one without, in a directory that a link leads to. -/
def sampleLinked : LinkedTree where
  directories := [⟨["src"]⟩]
  files := [(⟨["src", "a.ts"]⟩, Utf8.encode "// @ts-expect-error: x\n1".toList),
    (⟨["src", "b.ts"]⟩, Utf8.encode "2".toList)]
  links := [(⟨["lib"]⟩, .ofString "src")]

/-- Paths of the files, one of them through the link. -/
def sampleLinkedPaths : List Path := [.ofString "lib/a.ts", .ofString "/src/b.ts"]

/-- Where the paths lead. -/
def sampleLinkedSources : List Location := [⟨["src", "a.ts"]⟩, ⟨["src", "b.ts"]⟩]

theorem resolveAll_sampleLinked :
    Disk.resolveAll sampleLinked .root sampleLinkedPaths = .ok sampleLinkedSources := by
  rfl

theorem copiesAlive_sampleLinked : sampleLinked.CopiesAlive sampleLinkedSources := by
  have hlinks : ∀ source ∈ sampleLinkedSources,
      (sampleLinked.locate false (Staging.copyPlace source)).toOption.bind sampleLinked.link? =
        none := by
    decide
  rintro source hsource - ⟨last, found, hlast, hlink, -⟩
  have hnone := hlinks source hsource
  rw [hlast] at hnone
  rw [show sampleLinked.link? last = none from hnone] at hlink
  exact nomatch hlink

/-- A run that is called and never ends. -/
theorem collectOn_leavesTree_sample :
    (sampleOptions.collectOn (fun _ _ _ => .ok []) sampleLinked .root (fun _ => .timedOut)
        sampleLinkedPaths).tree = sampleLinked ∧
      (∃ call ∈ (sampleOptions.collectOn (fun _ _ _ => .ok []) sampleLinked .root
          (fun _ => .timedOut) sampleLinkedPaths).calls,
        FindsCopies sampleLinked sampleLinkedSources call) ∧
      sampleLinked.StagingLeavesTree sampleLinkedSources := by
  have halive : ∀ sources, Disk.resolveAll sampleLinked .root sampleLinkedPaths = .ok sources →
      sampleLinked.CopiesAlive sources := by
    intro sources hsources
    obtain rfl := Except.ok.inj (resolveAll_sampleLinked.symm.trans hsources)
    exact copiesAlive_sampleLinked
  obtain ⟨htree, hcalls, hstaging⟩ := collectOn_leavesTree sampleOptions (fun _ _ _ => .ok [])
    sampleLinked .root (fun _ => .timedOut) sampleLinkedPaths (fun _ => rfl) halive
  refine ⟨htree, ?_, hstaging _ resolveAll_sampleLinked⟩
  have hcalled : (sampleOptions.collectOn (fun _ _ _ => .ok []) sampleLinked .root
      (fun _ => .timedOut) sampleLinkedPaths).calls ≠ [] := by
    rw [← List.length_pos_iff]
    decide +kernel
  obtain ⟨call, hcall⟩ := List.exists_mem_of_ne_nil _ hcalled
  obtain ⟨sources, hsources, hfinds⟩ := hcalls call hcall
  obtain rfl := Except.ok.inj (hsources.symm.trans resolveAll_sampleLinked)
  exact ⟨call, hcall, hfinds⟩

/-! ## A marker in a text, and a dead link -/

/-- A program whose only marker stands in a text. -/
def sampleQuoted : String := "x(\"// @ts-expect-error: x\")"

/-- A tree with this program. -/
def sampleQuotedTree : LinkedTree where
  directories := []
  files := [(⟨["a.ts"]⟩, Utf8.encode sampleQuoted.toList)]
  links := []

/-- A tree with a dead link by the name of a copy. -/
def sampleDead : LinkedTree where
  directories := []
  files := [(⟨["a.ts"]⟩, Utf8.encode "// @ts-expect-error: x\n1".toList)]
  links := [(⟨["a.ts-expect-error.ts"]⟩, .ofString "gone.ts")]

/-- A file without any annotation has a copy while the compiler runs, because of a marker that is in
no comment. With a dead link by the name of a copy, a run does not leave the tree as it was: a file
is added where the link leads, and the link is gone. -/
theorem collectOn_changesTree :
    (CommentGroup.ofText sampleQuoted .plain = [] ∧
      ((sampleOptions.collectOn (fun _ _ _ => .ok []) sampleQuotedTree .root (fun _ => .timedOut)
        [.ofString "a.ts"]).calls.map fun call =>
          (call.tree.entry? ⟨["a.ts-expect-error.ts"]⟩).isSome) = [true]) ∧
      (sampleOptions.collectOn (fun _ _ _ => .ok []) sampleDead .root (fun _ => .timedOut)
        [.ofString "a.ts"]).tree.files.map (·.1) = [⟨["a.ts"]⟩, ⟨["gone.ts"]⟩] ∧
      (sampleOptions.collectOn (fun _ _ _ => .ok []) sampleDead .root (fun _ => .timedOut)
        [.ofString "a.ts"]).tree.links = [] := by
  refine ⟨⟨?_, ?_⟩, ?_, ?_⟩ <;> decide +kernel

end Compiler

end ExpectedDiagnostics
