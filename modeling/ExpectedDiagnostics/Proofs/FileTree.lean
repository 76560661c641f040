import ExpectedDiagnostics.Proofs.Canonical
import ExpectedDiagnostics.Proofs.Except
import ExpectedDiagnostics.Workspace

/-!
# Growing file trees

A file that is written where nothing was changes nothing else: every path that led somewhere leads
there still, because the directories on the way are what they were. Trees are compared by what is at
their places (`Extends`).

Main results:

* `entry?_write` — what is at a place after a file was written.
* `Extends.locate`, `Extends.read` — paths lead where they led, and files have the content they had.
* `locate_toPath`, `exists_locate_sibling` — where the path of a place leads, and that it leads
  somewhere if that of a neighbour does.
* `readText_of_extends` — a text that can be read is read from the grown tree, too.
-/

namespace ExpectedDiagnostics

namespace FileTree

/-! ## What is at a place -/

theorem lookup_filter_ne (place q : Location) (files : List (Location × List UInt8)) :
    (files.filter (·.1 != place)).lookup q = if q = place then none else files.lookup q := by
  induction files with
  | nil =>
    rw [List.filter_nil, List.lookup_nil, ite_self]
  | cons f files ih =>
    obtain ⟨p, content⟩ := f
    by_cases hp : p = place
    · subst hp
      rw [List.filter_cons_of_neg (by simp), ih]
      split
      · rfl
      · rename_i hq
        rw [List.lookup_cons, beq_eq_false_iff_ne.mpr hq]
    · rw [List.filter_cons_of_pos (by simp [hp]), List.lookup_cons, List.lookup_cons, ih]
      by_cases hq : q = p
      · subst hq
        rw [if_neg hp, if_neg hp]
      · rw [beq_eq_false_iff_ne.mpr hq]

theorem entry?_write (t : FileTree) (place : Location) (content : List UInt8) (q : Location) :
    FileTree.entry? (t.write place content) q =
      if q = place then some (.file content) else t.entry? q := by
  unfold entry? write
  dsimp only
  rw [List.lookup_append, lookup_filter_ne]
  by_cases hq : q = place
  · subst hq
    rw [if_pos rfl, if_pos rfl, List.lookup_cons_self]
    rfl
  · rw [if_neg hq, if_neg hq, List.lookup_cons, beq_eq_false_iff_ne.mpr hq, List.lookup_nil,
      Option.or_none]

/-- A file is at each place that one was put to. -/
theorem mem_files_iff {t : FileTree} {place : Location} :
    place ∈ t.files.map (·.1) ↔ ∃ content, t.entry? place = some (.file content) := by
  unfold entry?
  cases hlookup : t.files.lookup place with
  | none =>
    rw [List.lookup_eq_none_iff] at hlookup
    refine iff_of_false ?_ ?_
    · intro hmem
      obtain ⟨file, hfile, rfl⟩ := List.mem_map.mp hmem
      exact absurd (hlookup file hfile) (by simp)
    · dsimp only
      split
      · exact nofun
      · exact nofun
  | some content =>
    refine iff_of_true ?_ ⟨content, rfl⟩
    obtain ⟨before, after, hfiles, -⟩ := List.lookup_eq_some_iff.mp hlookup
    rw [hfiles]
    simp

/-- A content is read where a path leads to a file that has it. -/
theorem read_eq_ok_iff {t : FileTree} {here : Location} {p : Path} {content : List UInt8} :
    t.read here p = .ok content ↔
      ∃ place, t.locate here p = .ok place ∧ t.entry? place = some (.file content) := by
  unfold read
  cases hlocate : t.locate here p with
  | error cause => simp
  | ok place =>
    dsimp only
    cases hentry : t.entry? place with
    | none => simp [hentry]
    | some entry =>
      cases entry with
      | directory => simp [hentry]
      | file found => simp [hentry]

/-! ## Growing -/

/-- Whatever is at a place of one tree is there in the other one, too. -/
def Extends (t other : FileTree) : Prop :=
  ∀ place entry, t.entry? place = some entry → other.entry? place = some entry

theorem Extends.refl (t : FileTree) : t.Extends t :=
  fun _ _ h => h

theorem Extends.trans {t u v : FileTree} (htu : t.Extends u) (huv : u.Extends v) : t.Extends v :=
  fun place entry h => huv place entry (htu place entry h)

theorem extends_write {t : FileTree} {place : Location} (h : t.entry? place = none)
    (content : List UInt8) : t.Extends (t.write place content) := by
  intro q entry hq
  have hne : q ≠ place := by
    rintro rfl
    rw [h] at hq
    exact absurd hq (by simp)
  rw [entry?_write, if_neg hne]
  exact hq

namespace Extends

variable {t other : FileTree} {here place : Location} {p : Path}

theorem follow (h : t.Extends other) {names : List String}
    (hfollow : t.follow here names = .ok place) : other.follow here names = .ok place := by
  induction names generalizing here with
  | nil => exact hfollow
  | cons name names ih =>
    rw [FileTree.follow] at hfollow ⊢
    split at hfollow
    · rename_i hdirectory
      rw [h here .directory hdirectory]
      dsimp only
      split at hfollow
      · exact absurd hfollow (by simp)
      · rename_i hshort
        rw [if_neg hshort]
        exact ih hfollow
    · exact absurd hfollow (by simp)
    · exact absurd hfollow (by simp)

theorem locate (h : t.Extends other) (hlocate : t.locate here p = .ok place) :
    other.locate here p = .ok place := by
  unfold FileTree.locate at hlocate ⊢
  split at hlocate
  · exact absurd hlocate (by simp)
  · rename_i hshort
    rw [if_neg hshort]
    exact h.follow hlocate

theorem read (h : t.Extends other) {content : List UInt8} (hread : t.read here p = .ok content) :
    other.read here p = .ok content := by
  obtain ⟨place, hlocate, hentry⟩ := read_eq_ok_iff.mp hread
  exact read_eq_ok_iff.mpr ⟨place, h.locate hlocate, h place _ hentry⟩

end Extends

/-! ## The path of a place -/

variable {t : FileTree} {place : Location}

theorem follow_eq {here : Location} {names : List String} (h : t.follow here names = .ok place) :
    place = here.follow names := by
  induction names generalizing here with
  | nil => exact (Except.ok.inj h).symm
  | cons name names ih =>
    rw [FileTree.follow] at h
    split at h
    · split at h
      · exact absurd h (by simp)
      · exact ih h
    · exact absurd h (by simp)
    · exact absurd h (by simp)

/-- The path of a canonical place leads to the place, if it leads anywhere. -/
theorem locate_toPath {here found : Location} (hplace : place.IsCanonical)
    (h : t.locate here place.toPath = .ok found) : found = place := by
  unfold locate at h
  split at h
  · exact absurd h (by simp)
  · have hfollow : found = Location.root.follow place.names := follow_eq h
    rw [hfollow, Path.follow_of_isName hplace]
    rfl

theorem follow_snoc (t : FileTree) (here : Location) (names : List String) (name : String) :
    t.follow here (names ++ [name]) = (do
      let place ← t.follow here names
      t.follow place [name]) := by
  induction names generalizing here with
  | nil => rfl
  | cons first names ih =>
    rw [List.cons_append, follow, follow]
    split
    · split
      · rfl
      · exact ih (here.step first)
    · rfl
    · rfl

/-- A file can be at a place as far as lengths go: neither its name nor its path is too long. -/
structure Fits (place : Location) : Prop where
  name : ∀ name ∈ place.names.getLast?, name.utf8ByteSize ≤ nameLimit
  path : place.toPath.toString.utf8ByteSize ≤ pathLimit

instance (place : Location) : Decidable (Fits place) :=
  decidable_of_iff ((∀ name ∈ place.names.getLast?, name.utf8ByteSize ≤ nameLimit) ∧
      place.toPath.toString.utf8ByteSize ≤ pathLimit)
    ⟨fun h => ⟨h.1, h.2⟩, fun h => ⟨h.name, h.path⟩⟩

theorem locate_toPath_eq (t : FileTree) (here place : Location) : t.locate here place.toPath =
    if pathLimit < place.toPath.toString.utf8ByteSize then .error .tooLong
    else t.follow .root place.names := by
  rfl

/-- The path of a place in a directory leads somewhere, if it is not too long. -/
theorem exists_locate_snoc {dirs : List String} {name : String} {dir : Location}
    (hdir : t.follow .root dirs = .ok dir) (hentry : t.entry? dir = some .directory)
    (hfits : Fits ⟨dirs ++ [name]⟩) (here : Location) :
    ∃ found, t.locate here (Location.toPath ⟨dirs ++ [name]⟩) = .ok found := by
  have hname := hfits.name name (by rw [List.getLast?_concat]; rfl)
  rw [locate_toPath_eq, if_neg (Nat.not_lt.mpr hfits.path), follow_snoc, hdir]
  simp only [bind, Except.bind, follow, hentry]
  rw [if_neg (Nat.not_lt.mpr hname)]
  exact ⟨_, rfl⟩

/-- Where the path of a place leads somewhere, that of a neighbour does, too, if it is not too
long. -/
theorem exists_locate_sibling {dirs : List String} {name other : String} {here found : Location}
    (h : t.locate here (Location.toPath ⟨dirs ++ [name]⟩) = .ok found)
    (hfits : Fits ⟨dirs ++ [other]⟩) :
    ∃ sibling, t.locate here (Location.toPath ⟨dirs ++ [other]⟩) = .ok sibling := by
  rw [locate_toPath_eq, follow_snoc] at h
  split at h
  · exact absurd h (by simp)
  cases hdir : t.follow .root dirs with
  | error cause =>
    rw [hdir] at h
    exact absurd h (by simp [bind, Except.bind])
  | ok dir =>
    rw [hdir] at h
    simp only [bind, Except.bind, follow] at h
    split at h
    · rename_i hentry
      exact exists_locate_snoc hdir hentry hfits here
    · exact absurd h (by simp)
    · exact absurd h (by simp)

theorem isAbsolute_toPath (place : Location) : place.toPath.isAbsolute = true := rfl

/-- An absolute path leads to the same place from everywhere. -/
theorem locate_of_isAbsolute {p : Path} (h : p.isAbsolute = true) (t : FileTree)
    (here other : Location) : t.locate here p = t.locate other p := by
  unfold locate
  rw [h]
  rfl

end FileTree

/-! ## Texts of files -/

namespace Workspace

/-- What can be read is read from the tree. -/
theorem read_of_readOctets {w : Workspace} {p : Path} {octets : List UInt8}
    (h : w.readOctets p = .ok octets) :
    p.hasNull = false ∧ w.tree.read w.directory p = .ok octets := by
  unfold readOctets at h
  split at h
  · exact absurd h (by simp)
  · rename_i hnull
    exact ⟨eq_false_of_ne_true hnull, exists_of_mapError_eq_ok h⟩

/-- What is read as text is a file. -/
theorem exists_file_of_readText {w : Workspace} {p : Path} {text : List Char}
    (h : w.readText p = .ok text) :
    ∃ place content, w.tree.locate w.directory p = .ok place ∧
      w.tree.entry? place = some (.file content) := by
  obtain ⟨octets, hoctets, -⟩ := exists_of_bind_eq_ok h
  obtain ⟨place, hplace⟩ := FileTree.read_eq_ok_iff.mp (read_of_readOctets hoctets).2
  exact ⟨place, octets, hplace⟩

/-- A text that can be read by an absolute path is read from a grown tree, too. -/
theorem readText_of_extends {w other : Workspace} (h : w.tree.Extends other.tree) {p : Path}
    (habsolute : p.isAbsolute = true) {text : List Char} (hread : w.readText p = .ok text) :
    other.readText p = .ok text := by
  obtain ⟨octets, hoctets, htext⟩ := exists_of_bind_eq_ok hread
  obtain ⟨hnull, hcontent⟩ := read_of_readOctets hoctets
  have hgrown : other.tree.read other.directory p = .ok octets := by
    unfold FileTree.read
    rw [FileTree.locate_of_isAbsolute habsolute other.tree other.directory w.directory]
    exact h.read hcontent
  have hoctets' : other.readOctets p = .ok octets := by
    unfold readOctets
    rw [hnull, hgrown]
    rfl
  unfold readText
  rw [hoctets']
  exact htext

/-- What an absolute path leads to depends on the tree only. -/
theorem find?_of_isAbsolute (w other : Workspace) (h : other.tree = w.tree) {p : Path}
    (habsolute : p.isAbsolute = true) : other.find? p = w.find? p := by
  unfold find? FileTree.find?
  rw [h, FileTree.locate_of_isAbsolute habsolute w.tree other.directory w.directory]

end Workspace

end ExpectedDiagnostics
