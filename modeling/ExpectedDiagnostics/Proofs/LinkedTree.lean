import ExpectedDiagnostics.LinkedTree
import ExpectedDiagnostics.Proofs.FileTree.Additions

/-!
# Where names lead through links

What names lead to depends on the directories and the links that there are, so files that come and
go where nothing is change nothing of it.

Main results:

* `walk_induction` — what holds of names once it holds of where the first link leads.
* `Adds.walk_iff`, `Adds.locate_iff` — names lead to the same place once files were added.
* `Adds.put`, `Adds.removed` — one more file, and removing the files by the paths that lead to them.
* `exists_locate_of_followsEnd` — where names lead if their end is not followed.
* `walk_snoc` — the way to a name in a directory goes to the directory.
* `readText_eq_ok_iff`, `write_eq_ok` — what is read and written.
-/

namespace ExpectedDiagnostics

namespace LinkedTree

variable {t other : LinkedTree} {here place found : Location} {name : String}
  {names : List String} {followsEnd : Bool} {links : Nat} {added : List (Location × List UInt8)}

/-! ## Going along names -/

theorem linkAhead?_cons (next : String) :
    t.linkAhead? followsEnd here name (next :: names) = t.linkBy? here name := rfl

theorem linkAhead?_nil : t.linkAhead? false here name [] = none := rfl

theorem linkAhead?_true : t.linkAhead? true here name names = t.linkBy? here name := by
  unfold linkAhead?
  rw [Bool.not_true, Bool.and_false]
  rfl

theorem link?_of_linkBy? {target : Path} (h : t.linkBy? here name = some target) :
    t.link? (here.step name) = some target := by
  unfold linkBy? at h
  split at h
  · exact nomatch h
  · exact h

theorem leg_cons_eq_ok_iff {reached : Leg} :
    t.leg followsEnd here (name :: names) = .ok reached ↔
      t.entry? here = some .directory ∧ name.utf8ByteSize ≤ FileTree.nameLimit ∧
        match t.linkAhead? followsEnd here name names with
        | some target => reached = .link (here.step name) target names
        | none => t.leg followsEnd (here.step name) names = .ok reached := by
  rw [leg]
  cases t.entry? here with
  | none => simp
  | some entry =>
    cases entry with
    | file content => simp
    | directory =>
      by_cases hlong : FileTree.nameLimit < name.utf8ByteSize
      · simp [hlong, Nat.not_le.mpr hlong]
      · cases t.linkAhead? followsEnd here name names with
        | none => simp [hlong, Nat.not_lt.mp hlong]
        | some target => simp [hlong, Nat.not_lt.mp hlong, eq_comm]

theorem walk_of_arrived (h : t.leg followsEnd here names = .ok (.arrived found)) :
    t.walk followsEnd links here names = .ok found := by
  rw [walk, h]

theorem walk_of_link {target : Path} {rest : List String}
    (h : t.leg followsEnd here names = .ok (.link place target rest))
    (hrest : t.walk followsEnd links (startOf place target) (target.parts ++ rest) = .ok found) :
    t.walk followsEnd (links + 1) here names = .ok found := by
  rw [walk, h]
  exact hrest

/-- What holds of names that lead to a place without a link on the way, and of names that lead to a
link if it holds of where they go on, holds of all names that lead to the place. -/
theorem walk_induction {P : Nat → Location → List String → Prop}
    (harrived : ∀ {links here names}, t.leg followsEnd here names = .ok (.arrived found) →
      P links here names)
    (hlink : ∀ {links here names place target rest},
      t.leg followsEnd here names = .ok (.link place target rest) →
        P links (startOf place target) (target.parts ++ rest) → P (links + 1) here names)
    (h : t.walk followsEnd links here names = .ok found) : P links here names := by
  -- each link on the way is one less that can still be there
  induction links generalizing here names with
  | zero =>
    rw [walk] at h
    split at h
    · exact nomatch h
    · rename_i hleg
      exact harrived (hleg.trans (by rw [Except.ok.inj h]))
    · exact nomatch h
  | succ links ih =>
    rw [walk] at h
    split at h
    · exact nomatch h
    · rename_i hleg
      exact harrived (hleg.trans (by rw [Except.ok.inj h]))
    · rename_i hleg
      exact hlink hleg (ih h)

theorem locate_eq_ok_iff :
    t.locate followsEnd place = .ok found ↔
      place.toPath.toString.utf8ByteSize ≤ FileTree.pathLimit ∧
        t.walk followsEnd linkLimit .root place.names = .ok found := by
  unfold locate
  split
  · rename_i hlong
    exact iff_of_false nofun fun h => Nat.not_le.mpr hlong h.1
  · rename_i hshort
    exact (and_iff_right (Nat.not_lt.mp hshort)).symm

/-- Where names lead whose end is followed, they lead to a place if it is not. This is the same
place, unless a link stands there. -/
theorem exists_leg_of_followsEnd {reached : Leg} (h : t.leg true here names = .ok reached) :
    t.leg false here names = .ok reached ∨ ∃ place target,
      reached = .link place target [] ∧ t.leg false here names = .ok (.arrived place) ∧
        t.link? place = some target := by
  induction names generalizing here with
  | nil => exact .inl h
  | cons name names ih =>
    obtain ⟨hdirectory, hshort, h⟩ := leg_cons_eq_ok_iff.mp h
    rw [linkAhead?_true] at h
    simp only [leg_cons_eq_ok_iff, hdirectory, hshort, true_and]
    cases names with
    -- the last name
    | nil =>
      rw [linkAhead?_nil]
      cases hlink : t.linkBy? here name with
      | some target =>
        rw [hlink] at h
        exact .inr ⟨here.step name, target, h, rfl, link?_of_linkBy? hlink⟩
      | none =>
        rw [hlink] at h
        exact .inl h
    -- a name before the last one is followed in any case
    | cons next names =>
      rw [linkAhead?_cons]
      cases hlink : t.linkBy? here name with
      | some target =>
        rw [hlink] at h
        exact .inl h
      | none =>
        rw [hlink] at h
        exact ih h

/-- A path that leads somewhere leads to the same place if its end is not followed, unless a link
stands there. -/
theorem exists_walk_of_followsEnd (h : t.walk true links here names = .ok found) :
    ∃ place, t.walk false links here names = .ok place ∧
      (t.link? place = none → place = found) := by
  refine walk_induction (P := fun links here names => ∃ place,
    t.walk false links here names = .ok place ∧ (t.link? place = none → place = found))
    (fun hleg => ?_) (fun hleg ih => ?_) h
  · rcases exists_leg_of_followsEnd hleg with hsame | ⟨_, _, hreached, _⟩
    · exact ⟨found, walk_of_arrived hsame, fun _ => rfl⟩
    · exact nomatch hreached
  · rcases exists_leg_of_followsEnd hleg with hsame | ⟨place, target, -, hplace, hlink⟩
    -- a link on the way: what it leads to is gone along in the same way
    · obtain ⟨place, hplace, hend⟩ := ih
      exact ⟨place, walk_of_link hsame hplace, hend⟩
    -- a link at the end
    · exact ⟨place, walk_of_arrived hplace, fun hnone => nomatch hlink.symm.trans hnone⟩

theorem exists_locate_of_followsEnd (h : t.locate true place = .ok found) :
    ∃ q, t.locate false place = .ok q ∧ (t.link? q = none → q = found) := by
  obtain ⟨hshort, hwalk⟩ := locate_eq_ok_iff.mp h
  obtain ⟨q, hq, hend⟩ := exists_walk_of_followsEnd hwalk
  exact ⟨q, locate_eq_ok_iff.mpr ⟨hshort, hq⟩, hend⟩

/-- The way to a name in a directory goes to the directory first, whose own end is followed. -/
theorem leg_snoc {reached : Leg} (h : t.leg false here (names ++ [name]) = .ok reached) :
    (∃ directory, t.leg true here names = .ok (.arrived directory) ∧
        reached = .arrived (directory.step name)) ∨
      ∃ place target rest, t.leg true here names = .ok (.link place target rest) ∧
        reached = .link place target (rest ++ [name]) := by
  induction names generalizing here with
  | nil =>
    obtain ⟨-, -, hlast⟩ := leg_cons_eq_ok_iff.mp h
    exact .inl ⟨here, rfl, (Except.ok.inj hlast).symm⟩
  | cons first names ih =>
    rw [List.cons_append] at h
    obtain ⟨hdirectory, hshort, h⟩ := leg_cons_eq_ok_iff.mp h
    have hahead : t.linkAhead? false here first (names ++ [name]) = t.linkBy? here first := by
      cases names <;> rfl
    simp only [leg_cons_eq_ok_iff, hdirectory, hshort, true_and, linkAhead?_true]
    rw [hahead] at h
    cases hlink : t.linkBy? here first with
    | some target =>
      rw [hlink] at h
      exact .inr ⟨_, target, names, rfl, h⟩
    | none =>
      rw [hlink] at h
      exact ih h

theorem walk_snoc (h : t.walk false links here (names ++ [name]) = .ok found) :
    ∃ directory, t.walk true links here names = .ok directory ∧ found = directory.step name := by
  refine walk_induction (P := fun links here all => ∀ names, all = names ++ [name] →
    ∃ directory, t.walk true links here names = .ok directory ∧ found = directory.step name)
    ?_ ?_ h names rfl
  · rintro links here _ hleg names rfl
    rcases leg_snoc hleg with ⟨directory, hdirectory, hfound⟩ | ⟨_, _, _, _, hreached⟩
    · exact ⟨directory, walk_of_arrived hdirectory, Leg.arrived.inj hfound⟩
    · exact nomatch hreached
  · rintro links here _ place target rest hleg ih names rfl
    rcases leg_snoc hleg with ⟨_, _, hreached⟩ | ⟨_, _, before, hbefore, hreached⟩
    · exact nomatch hreached
    · obtain ⟨rfl, rfl, rfl⟩ := Leg.link.inj hreached
      obtain ⟨directory, hdirectory, hfound⟩ := ih _ (List.append_assoc _ _ _).symm
      exact ⟨directory, walk_of_link hbefore hdirectory, hfound⟩

/-! ## Growing -/

/-- The second tree is the first one with these files more: they stand where nothing was, no link
either, and everything else is as it was. -/
structure Adds (t other : LinkedTree) (added : List (Location × List UInt8)) : Prop where
  tree : t.toFileTree.Adds other.toFileTree added
  links : other.links = t.links
  apart : ∀ file ∈ added, t.link? file.1 = none

namespace Adds

theorem refl (t : LinkedTree) : t.Adds t [] where
  tree := .refl _
  links := rfl
  apart _ hfile := absurd hfile List.not_mem_nil

theorem link? (h : t.Adds other added) : other.link? place = t.link? place := by
  unfold LinkedTree.link?
  rw [h.links]

theorem linkAhead? (h : t.Adds other added) :
    other.linkAhead? followsEnd here name names = t.linkAhead? followsEnd here name names := by
  unfold LinkedTree.linkAhead? LinkedTree.linkBy?
  rw [h.link?]

theorem entry?_directory_iff (h : t.Adds other added) :
    other.entry? place = some .directory ↔ t.entry? place = some .directory := by
  refine ⟨fun hother => ?_, h.tree.toExtends place .directory⟩
  rcases h.tree.entry?_cases hother with ⟨_, -, hfile⟩ | hbefore
  · exact nomatch hfile
  · exact hbefore

theorem leg_iff (h : t.Adds other added) {reached : Leg} :
    other.leg followsEnd here names = .ok reached ↔
      t.leg followsEnd here names = .ok reached := by
  induction names generalizing here with
  | nil => rfl
  | cons name names ih =>
    rw [leg_cons_eq_ok_iff, leg_cons_eq_ok_iff, h.entry?_directory_iff, h.linkAhead?]
    cases t.linkAhead? followsEnd here name names with
    | some target => rfl
    | none => simp only [ih]

/-- **Names lead to the same place** once files were added. -/
theorem walk_iff (h : t.Adds other added) :
    other.walk followsEnd links here names = .ok found ↔
      t.walk followsEnd links here names = .ok found := by
  constructor
  · exact walk_induction
      (P := fun links here names => t.walk followsEnd links here names = .ok found)
      (fun hleg => walk_of_arrived (h.leg_iff.mp hleg))
      fun hleg ih => walk_of_link (h.leg_iff.mp hleg) ih
  · exact walk_induction
      (P := fun links here names => other.walk followsEnd links here names = .ok found)
      (fun hleg => walk_of_arrived (h.leg_iff.mpr hleg))
      fun hleg ih => walk_of_link (h.leg_iff.mpr hleg) ih

theorem locate_iff (h : t.Adds other added) :
    other.locate followsEnd place = .ok found ↔ t.locate followsEnd place = .ok found := by
  rw [locate_eq_ok_iff, locate_eq_ok_iff, h.walk_iff]

/-- **One more file, where nothing is**, no link either. -/
theorem put (h : t.Adds other added) (hfree : other.entry? place = none)
    (hlink : other.link? place = none) (content : List UInt8) :
    t.Adds (other.put place content) (added ++ [(place, content)]) where
  tree := h.tree.write hfree content
  links := h.links
  apart := by
    intro file hfile
    rcases List.mem_append.mp hfile with hfile | hfile
    · exact h.apart file hfile
    · rw [List.mem_singleton.mp hfile, ← h.link?]
      exact hlink

/-- Without any files more, it is the same tree. -/
theorem eq_of_nil (h : t.Adds other []) : other = t := by
  have htree : other.toFileTree = t.toFileTree := h.tree.removed
  have hlinks := h.links
  cases t
  cases other
  congr

/-- Removing the first one of the added files by a path that leads to it. -/
theorem remove {file : Location × List UInt8} (h : t.Adds other (file :: added))
    (hpath : t.locate false place = .ok file.1) : t.Adds (other.remove place) added := by
  have hlink : other.link? file.1 = none := h.link?.trans (h.apart _ List.mem_cons_self)
  obtain ⟨hfirst, hrest⟩ := List.nodup_cons.mp h.tree.distinct
  have hold := FileTree.not_mem_of_entry?_eq_none (h.tree.fresh _ List.mem_cons_self)
  unfold LinkedTree.remove
  rw [h.locate_iff.mpr hpath]
  dsimp only
  rw [hlink, Option.isSome_none, if_neg Bool.false_ne_true]
  refine ⟨⟨h.tree.directories, ?_, ?_, hrest⟩, h.links, ?_⟩
  · unfold FileTree.remove
    dsimp only
    rw [h.tree.files, List.filter_append, FileTree.filter_ne_eq_self hold,
      List.filter_cons_of_neg (by simp), FileTree.filter_ne_eq_self hfirst]
  · exact fun q hq => h.tree.fresh q (List.mem_cons_of_mem _ hq)
  · exact fun q hq => h.apart q (List.mem_cons_of_mem _ hq)

/-- **Removing the added files undoes adding them**, by the paths that lead to them. -/
theorem removed {paths : List Location} (h : t.Adds other added)
    (hpaths : List.Forall₂ (fun path file => t.locate false path = .ok file.1) paths added) :
    paths.foldl LinkedTree.remove other = t := by
  induction hpaths generalizing other with
  | nil => exact h.eq_of_nil
  | cons hpath _ ih => exact ih (h.remove hpath)

end Adds

/-! ## Reading and writing -/

/-- A text is read where a path leads to a file whose octets are the text. -/
theorem readText_eq_ok_iff {text : List Char} :
    t.readText place = .ok text ↔ place.toPath.hasNull = false ∧ ∃ found content,
      t.locate true place = .ok found ∧ t.entry? found = some (.file content) ∧
        Workspace.textOf content = .ok text := by
  unfold readText readOctets
  cases place.toPath.hasNull with
  | true => simp [bind, Except.bind]
  | false =>
    cases hlocate : t.locate true place with
    | error cause => simp [bind, Except.bind]
    | ok found =>
      cases hentry : t.entry? found with
      | none => simp [bind, Except.bind, hentry]
      | some entry =>
        cases entry with
        | directory => simp [bind, Except.bind, hentry]
        | file content =>
          cases htext : Workspace.textOf content <;>
            simp [bind, Except.bind, Except.mapError, hentry, htext]

/-- What is written where nothing is found is written where the path leads to. -/
theorem write_eq_ok {content : List UInt8} (hfind : t.find? place = .ok none)
    (h : t.write place content = .ok other) :
    ∃ found, t.locate true place = .ok found ∧ t.entry? found = none ∧
      other = t.put found content := by
  unfold find? at hfind
  unfold write at h
  split at h
  · exact nomatch h
  rename_i hnull
  rw [if_neg hnull] at hfind
  cases hlocate : t.locate true place with
  | error cause =>
    rw [hlocate] at h
    exact nomatch h
  | ok found =>
    rw [hlocate] at h hfind
    have hnone : t.entry? found = none := Except.ok.inj hfind
    dsimp only at h
    rw [hnone] at h
    exact ⟨found, rfl, hnone, (Except.ok.inj h).symm⟩

end LinkedTree

end ExpectedDiagnostics
