import ExpectedDiagnostics.Path.Torn
import ExpectedDiagnostics.Proofs.Null
import ExpectedDiagnostics.Proofs.Text.Torn
import Mathlib.Data.List.TakeWhile

/-!
# Torn paths

A torn path is resolved exactly if a name can hold each of its halves and the path that is shown for
it can be resolved. Where it leads is told by the characters that can be put in for its halves:
whatever they are, as long as they mean nothing in a path, the place is the one that the path leads
to with these characters in it. The names are looked up one after the other, so what has to hold of
the whole text is first found out about each of them.

Main results:

* `filledPieces_tornPlace`, `leadsTo_iff` — the place that a torn path leads to.
* `tornPlace_piecesOf` — a path without halves leads to the same place as ever.
* `resolveTorn_eq_ok_iff` — which torn paths are resolved.
-/

namespace ExpectedDiagnostics.Path

open Text (Piece Torn piecesOf filledPieces shownPieces)

/-- Characters that mean nothing in a path, to be put in for halves. -/
structure MeanNothing (f : Nat → Char) : Prop where
  slash : ∀ n, f n ≠ '/'
  dot : ∀ n, f n ≠ '.'
  null : ∀ n, f n ≠ '\x00'

theorem meanNothing_shown : MeanNothing fun _ => '\uFFFD' :=
  ⟨fun _ => by decide, fun _ => by decide, fun _ => by decide⟩

variable {f : Nat → Char}

/-! ## Names -/

theorem filled_eq_iff {c : Char} (hc : ∀ n, f n ≠ c) {p : Piece} :
    p.filled f = c ↔ p = .char c := by
  cases p with
  | char d => simp [Piece.filled]
  | half unit => simpa [Piece.filled] using hc unit

/-- The pieces are cut where the text is cut that has characters for its halves. -/
theorem map_splitPieces (hf : MeanNothing f) (pieces : Torn) :
    (splitPieces pieces).map (·.map (Piece.filled f)) =
      splitSlashes (pieces.map (Piece.filled f)) := by
  induction pieces with
  | nil => rfl
  | cons p ps ih =>
    rw [splitPieces, List.map_cons, splitSlashes, ← ih]
    have hslash : (p.filled f == '/') = (p == .char '/') := by
      rw [Bool.eq_iff_iff, beq_iff_eq, beq_iff_eq]
      exact filled_eq_iff hf.slash
    rw [hslash]
    split
    · rfl
    · cases splitPieces ps with
      | nil => rfl
      | cons name names => rfl

theorem toList_filledPieces (f : Nat → Char) (pieces : Torn) :
    (filledPieces f pieces).toList = pieces.map (Piece.filled f) :=
  String.toList_ofList

/-- The names of a torn path are those of the path that has characters for its halves. -/
theorem map_tornNames (hf : MeanNothing f) (pieces : Torn) :
    (tornNames pieces).map (filledPieces f) = (ofString (filledPieces f pieces)).parts := by
  -- a name is left out if it is empty or a dot, and this does not depend on the characters
  have hkept : ∀ name : Torn, (name != [] && name != [.char '.']) =
      ((filledPieces f name != "") && filledPieces f name != ".") := by
    intro name
    have hempty : filledPieces f name = "" ↔ name = [] := by
      rw [← String.toList_inj, toList_filledPieces, String.toList_empty, List.map_eq_nil_iff]
    have hdot : filledPieces f name = "." ↔ name = [.char '.'] := by
      rw [← String.toList_inj, toList_filledPieces, show ".".toList = ['.'] from rfl,
        List.map_eq_singleton_iff]
      simp only [filled_eq_iff hf.dot, exists_eq_right]
    rw [Bool.eq_iff_iff]
    simp only [Bool.and_eq_true, bne_iff_ne, ne_eq, hempty, hdot]
  have hcut : (splitPieces pieces).map (filledPieces f) =
      (splitSlashes (pieces.map (Piece.filled f))).map String.ofList := by
    rw [← map_splitPieces hf, List.map_map]
    rfl
  unfold ofString namesOf tornNames
  dsimp only
  rw [toList_filledPieces, ← hcut, List.filter_map]
  congr 1
  exact List.filter_congr fun name _ => hkept name

/-- Whether a path starts at the root does not depend on the characters for its halves. -/
theorem isAbsolute_filledPieces (hf : MeanNothing f) (pieces : Torn) :
    (ofString (filledPieces f pieces)).isAbsolute =
      (ofString (shownPieces pieces)).isAbsolute := by
  have hstart : ∀ {g : Nat → Char}, MeanNothing g →
      ((filledPieces g pieces).toList.takeWhile (· == '/')).length =
        (pieces.takeWhile (· == .char '/')).length := by
    intro g hg
    have hslash : (fun p : Piece => p.filled g == '/') = (· == .char '/') := by
      funext p
      rw [Bool.eq_iff_iff, beq_iff_eq, beq_iff_eq]
      exact filled_eq_iff hg.slash
    rw [toList_filledPieces, List.takeWhile_map, List.length_map, Function.comp_def, hslash]
  unfold ofString isAbsolute anchorOf
  rw [hstart hf, shownPieces, hstart meanNothing_shown]

/-- The pieces of a torn text apart from its slashes are in what it is cut into. -/
theorem exists_mem_splitPieces_iff {pieces : Torn} {p : Piece} :
    (∃ name ∈ splitPieces pieces, p ∈ name) ↔ p ∈ pieces ∧ p ≠ .char '/' := by
  induction pieces with
  | nil => simp [splitPieces]
  | cons first rest ih =>
    rw [splitPieces]
    split
    -- a slash begins a new name, which is empty so far
    · rename_i hslash
      obtain rfl := eq_of_beq hslash
      rw [List.exists_mem_cons_iff, or_iff_right List.not_mem_nil, ih, List.mem_cons]
      exact ⟨fun h => ⟨.inr h.1, h.2⟩, fun h => ⟨h.1.resolve_left h.2, h.2⟩⟩
    · rename_i hslash
      have hfirst : first ≠ .char '/' := fun heq => hslash (beq_iff_eq.mpr heq)
      have hsplit : (∃ name ∈ splitPieces rest, p ∈ name) ∨ p = first ↔
          p ∈ first :: rest ∧ p ≠ .char '/' := by
        rw [ih, List.mem_cons]
        constructor
        · rintro (⟨hmem, hne⟩ | rfl)
          · exact ⟨.inr hmem, hne⟩
          · exact ⟨.inl rfl, hfirst⟩
        · rintro ⟨rfl | hmem, hne⟩
          · exact .inr rfl
          · exact .inl ⟨hmem, hne⟩
      rw [← hsplit]
      cases splitPieces rest with
      | nil => simp
      | cons name names => simp [or_assoc, or_comm]

/-- What holds of an empty name's and a dot's pieces holds of all pieces if it holds of those of the
names, and of the slashes. -/
theorem forall_tornNames_iff {P : Piece → Prop} (hslash : P (.char '/')) (hdot : P (.char '.'))
    {pieces : Torn} :
    (∀ name ∈ tornNames pieces, ∀ p ∈ name, P p) ↔ ∀ p ∈ pieces, P p := by
  constructor
  · intro h p hp
    by_cases heq : p = .char '/'
    · exact heq ▸ hslash
    -- any other piece is in a name, which is only left out if it is a dot
    obtain ⟨name, hname, hmem⟩ := exists_mem_splitPieces_iff.mpr ⟨hp, heq⟩
    by_cases hleft : name = [.char '.']
    · rw [hleft, List.mem_singleton] at hmem
      exact hmem ▸ hdot
    · have hkept : (name != [] && name != [.char '.']) = true := by
        rw [Bool.and_eq_true, bne_iff_ne, bne_iff_ne]
        exact ⟨List.ne_nil_of_mem hmem, hleft⟩
      exact h name (List.mem_filter.mpr ⟨hname, hkept⟩) p hmem
  · intro h name hname p hp
    exact h p (exists_mem_splitPieces_iff.mp ⟨name, List.mem_of_mem_filter hname, hp⟩).1

/-! ## Resolving -/

theorem unencodable?_eq_none_iff {name : Torn} :
    unencodable? name = none ↔ ∀ p ∈ name, p.isNameable = true := by
  unfold unencodable?
  rw [← List.dropWhile_eq_nil_iff, ← List.isEmpty_iff]
  simp

theorem blocked?_eq_none_iff {place : Location} {names : List Torn} :
    blocked? place names = none ↔
      ∀ name ∈ names, (∀ p ∈ name, p.isNameable = true) ∧ .char '\x00' ∉ name := by
  induction names generalizing place with
  | nil => simp [blocked?]
  | cons name names ih =>
    rw [blocked?, List.forall_mem_cons, ← unencodable?_eq_none_iff]
    cases unencodable? name with
    | some found => simp
    | none =>
      by_cases hnull : .char '\x00' ∈ name
      · simp [hnull]
      · simp [hnull, ih]

theorem null_mem_filledPieces_iff (hf : MeanNothing f) {pieces : Torn} :
    '\x00' ∈ (filledPieces f pieces).toList ↔ .char '\x00' ∈ pieces := by
  rw [toList_filledPieces, List.mem_map]
  simp only [filled_eq_iff hf.null, exists_eq_right]

/-! ### The place -/

variable {directory : Location} {pieces : Torn}

theorem filledPieces_eq_up_iff (hf : MeanNothing f) {name : Torn} :
    filledPieces f name = ".." ↔ name = piecesOf ".." := by
  constructor
  · intro h
    have hlist : name.map (Piece.filled f) = ['.', '.'] := by
      rw [← toList_filledPieces]
      exact congrArg String.toList h
    obtain ⟨p, rest, rfl, hp, hrest⟩ := List.map_eq_cons_iff.mp hlist
    obtain ⟨q, rfl, hq⟩ := List.map_eq_singleton_iff.mp hrest
    rw [(filled_eq_iff hf.dot).mp hp, (filled_eq_iff hf.dot).mp hq]
    rfl
  · rintro rfl
    exact Text.filledPieces_piecesOf f ".."

/-- Going on by torn names is going on by names that have characters for their halves. -/
theorem map_foldl_stepTorn (hf : MeanNothing f) (start : Location) (torn names : List Torn)
    (hstart : torn.map (filledPieces f) = start.names) :
    (names.foldl stepTorn torn).map (filledPieces f) =
      (start.follow (names.map (filledPieces f))).names := by
  induction names generalizing start torn with
  | nil => exact hstart
  | cons name names ih =>
    refine ih (start.step (filledPieces f name)) (stepTorn torn name) ?_
    unfold stepTorn Location.step
    by_cases hup : name = piecesOf ".."
    · rw [if_pos (beq_iff_eq.mpr hup),
        if_pos (beq_iff_eq.mpr ((filledPieces_eq_up_iff hf).mpr hup)), List.map_dropLast, hstart]
    · rw [if_neg (mt beq_iff_eq.mp hup),
        if_neg fun h => hup ((filledPieces_eq_up_iff hf).mp (beq_iff_eq.mp h)), List.map_append,
        hstart]
      rfl

theorem filledPieces_intercalate (f : Nat → Char) (names : List Torn) :
    filledPieces f ([.char '/'].intercalate names) =
      "/".intercalate (names.map (filledPieces f)) := by
  induction names with
  | nil => rfl
  | cons name names ih =>
    cases names with
    | nil => simp
    | cons next names =>
      rw [List.intercalate_cons_cons, Text.filledPieces_append, Text.filledPieces_append, ih,
        List.map_cons, List.map_cons, List.map_cons, String.intercalate_cons_cons]
      rfl

/-- **The place that a torn path leads to**, whatever characters are put in for halves. -/
theorem filledPieces_tornPlace (hf : MeanNothing f) (directory : Location) (pieces : Torn) :
    filledPieces f (tornPlace directory pieces) =
      ((ofString (filledPieces f pieces)).place directory).toString := by
  have hnames := map_foldl_stepTorn hf (tornStart directory pieces)
    ((tornStart directory pieces).names.map piecesOf) (tornNames pieces)
    (by rw [List.map_map]
        exact (List.map_congr_left fun name _ => Text.filledPieces_piecesOf f name).trans
          (List.map_id _))
  rw [map_tornNames hf] at hnames
  unfold tornPlace place
  rw [isAbsolute_filledPieces hf, ← List.singleton_append, Text.filledPieces_append,
    filledPieces_intercalate, hnames]
  rfl

theorem of_mem_foldl_stepTorn {names torn : List Torn} {name : Torn}
    (h : name ∈ names.foldl stepTorn torn) : name ∈ torn ∨ name ∈ names := by
  induction names generalizing torn with
  | nil => exact .inl h
  | cons first names ih =>
    rcases ih h with hstep | hmem
    · unfold stepTorn at hstep
      split at hstep
      · exact .inl (List.dropLast_subset _ hstep)
      · rcases List.mem_append.mp hstep with hmem | hmem
        · exact .inl hmem
        · exact .inr (List.mem_singleton.mp hmem ▸ List.mem_cons_self)
    · exact .inr (List.mem_cons_of_mem _ hmem)

theorem of_mem_intercalate {p q : Piece} {names : List Torn} (h : p ∈ [q].intercalate names) :
    p = q ∨ ∃ name ∈ names, p ∈ name := by
  induction names with
  | nil => exact absurd h List.not_mem_nil
  | cons name names ih =>
    cases names with
    | nil => exact .inr ⟨name, List.mem_cons_self, by simpa using h⟩
    | cons next names =>
      rw [List.intercalate_cons_cons, List.append_assoc, List.mem_append, List.mem_append] at h
      rcases h with hname | hseparator | hrest
      · exact .inr ⟨name, List.mem_cons_self, hname⟩
      · exact .inl (List.mem_singleton.mp hseparator)
      · exact (ih hrest).imp_right fun ⟨n, hn, hp⟩ => ⟨n, List.mem_cons_of_mem _ hn, hp⟩

/-- The pieces of the place that a path leads to are slashes, those of the names that it starts
from, and its own. -/
theorem of_mem_tornPlace {p : Piece} (h : p ∈ tornPlace directory pieces) :
    p = .char '/' ∨ (∃ name, p ∈ piecesOf name) ∨ p ∈ pieces := by
  rcases List.mem_cons.mp h with hslash | h
  · exact .inl hslash
  rcases of_mem_intercalate h with hslash | ⟨name, hname, hp⟩
  · exact .inl hslash
  rcases of_mem_foldl_stepTorn hname with hstart | hown
  · obtain ⟨start, -, rfl⟩ := List.mem_map.mp hstart
    exact .inr (.inl ⟨start, hp⟩)
  · exact .inr (.inr (exists_mem_splitPieces_iff.mp ⟨name, List.mem_of_mem_filter hown, hp⟩).1)

/-- **A path without halves** leads to the same place as ever. -/
theorem tornPlace_piecesOf (directory : Location) (s : String) :
    tornPlace directory (piecesOf s) = piecesOf ((ofString s).place directory).toString := by
  have hshown := filledPieces_tornPlace meanNothing_shown directory (piecesOf s)
  rw [Text.filledPieces_piecesOf] at hshown
  rw [← hshown]
  refine (Text.piecesOf_shownPieces fun n hn => ?_).symm
  rcases of_mem_tornPlace hn with hslash | ⟨name, hname⟩ | hmem
  · exact absurd hslash (by simp)
  · exact Text.not_half_mem_piecesOf name n hname
  · exact Text.not_half_mem_piecesOf s n hmem

/-! ### What the halves say -/

/-- Pieces are told apart by what can be put in for halves. -/
theorem eq_of_filled {p q : Piece} (h : ∀ f, MeanNothing f → p.filled f = q.filled f) : p = q := by
  have htwo : ∀ {f : Nat → Char}, (∀ n, f n = 'a' ∨ f n = 'b') → p.filled f = q.filled f := by
    intro f hf
    refine h f ⟨fun n => ?_, fun n => ?_, fun n => ?_⟩ <;>
      rcases hf n with hn | hn <;> rw [hn] <;> decide
  -- a half is neither the one nor the other of two characters that are put in for it
  have hleft := @htwo (fun _ => 'a') fun _ => .inl rfl
  have hright := @htwo (fun _ => 'b') fun _ => .inr rfl
  cases p with
  | char c =>
    cases q with
    | char d => rw [show c = d from hleft]
    | half n => exact absurd (hleft.symm.trans hright) (show 'a' ≠ 'b' by decide)
  | half m =>
    cases q with
    | char d => exact absurd (hleft.trans hright.symm) (show 'a' ≠ 'b' by decide)
    | half n =>
      by_contra hne
      have hmark := @htwo (fun k => if k = m then 'a' else 'b') fun k => by
        by_cases hk : k = m
        · exact .inl (if_pos hk)
        · exact .inr (if_neg hk)
      have hn : n ≠ m := fun heq => hne (heq ▸ rfl)
      simp [Piece.filled, hn] at hmark

/-- So are torn texts. -/
theorem eq_of_filledPieces {ps qs : Torn}
    (h : ∀ f, MeanNothing f → filledPieces f ps = filledPieces f qs) : ps = qs := by
  have hmap : ∀ f, MeanNothing f → ps.map (Piece.filled f) = qs.map (Piece.filled f) :=
    fun f hf => String.ofList_injective (h f hf)
  clear h
  induction ps generalizing qs with
  | nil => exact (List.map_eq_nil_iff.mp (hmap _ meanNothing_shown).symm).symm
  | cons p ps ih =>
    cases qs with
    | nil => exact absurd (hmap _ meanNothing_shown) (by simp)
    | cons q qs =>
      rw [eq_of_filled fun f hf => (List.cons.inj (hmap f hf)).1,
        ih fun f hf => (List.cons.inj (hmap f hf)).2]

/-- The place that a torn path leads to from a directory: whatever is put in for the halves, as long
as it means nothing in a path, it is the place that the path leads to. -/
def LeadsTo (directory : Location) (pieces file : Torn) : Prop :=
  ∀ f, MeanNothing f → ∃ place, (ofString (filledPieces f pieces)).resolve directory = .ok place ∧
    filledPieces f file = place.toString

theorem leadsTo_iff {file : Torn} : LeadsTo directory pieces file ↔
    CanResolve directory (shownPieces pieces) ∧ file = tornPlace directory pieces := by
  have hplace : ∀ {f : Nat → Char} {place : Location}, MeanNothing f →
      (ofString (filledPieces f pieces)).resolve directory = .ok place →
        filledPieces f (tornPlace directory pieces) = place.toString := by
    intro f place hf hresolve
    rw [filledPieces_tornPlace hf, (resolve_eq_ok_iff.mp hresolve).2.2]
  constructor
  · intro h
    obtain ⟨place, hresolve, -⟩ := h _ meanNothing_shown
    refine ⟨exists_resolve_ofString_iff.mp ⟨place, hresolve⟩, eq_of_filledPieces fun f hf => ?_⟩
    obtain ⟨place, hresolve, hfile⟩ := h f hf
    rw [hfile, hplace hf hresolve]
  · rintro ⟨⟨hnull, hdirectory⟩, rfl⟩ f hf
    have hcan : CanResolve directory (filledPieces f pieces) := by
      refine ⟨fun hmem => hnull ?_, fun hrelative => hdirectory ?_⟩
      · exact (null_mem_filledPieces_iff meanNothing_shown).mpr
          ((null_mem_filledPieces_iff hf).mp hmem)
      · rwa [← isAbsolute_filledPieces hf]
    obtain ⟨place, hresolve⟩ := exists_resolve_ofString_iff.mpr hcan
    exact ⟨place, hresolve, hplace hf hresolve⟩

/-! ### Faults -/

/-- A name can hold each half of a torn text. -/
def Nameable (pieces : Torn) : Prop :=
  ∀ unit, .half unit ∈ pieces → 0xDC80 ≤ unit ∧ unit ≤ 0xDCFF

theorem forall_isNameable_iff : (∀ p ∈ pieces, p.isNameable = true) ↔ Nameable pieces := by
  constructor
  · intro h unit hunit
    simpa [Piece.isNameable] using h _ hunit
  · intro h p hp
    cases p with
    | char c => rfl
    | half unit => simpa [Piece.isNameable] using h unit hp

/-- Nothing is in the way of the names exactly if no piece is a half that they cannot hold, or the
null character. -/
theorem blocked?_tornNames_eq_none_iff {start : Location} :
    blocked? start (tornNames pieces) = none ↔ Nameable pieces ∧ .char '\x00' ∉ pieces := by
  have hmem : ∀ ps : Torn, (∀ p ∈ ps, p ≠ .char '\x00') ↔ .char '\x00' ∉ ps :=
    fun ps => ⟨fun h hp => h _ hp rfl, fun h p hp heq => h (heq ▸ hp)⟩
  have hnull := @forall_tornNames_iff (· ≠ .char '\x00') (by decide) (by decide) pieces
  simp only [hmem] at hnull
  rw [blocked?_eq_none_iff, ← forall_isNameable_iff, ← hnull,
    ← @forall_tornNames_iff (fun p => p.isNameable = true) rfl rfl pieces]
  exact ⟨fun h => ⟨fun name hname => (h name hname).1, fun name hname => (h name hname).2⟩,
    fun h name hname => ⟨h.1 name hname, h.2 name hname⟩⟩

/-- **A torn path is resolved** if a name can hold each of its halves and the path can be resolved
that is shown for it. -/
theorem resolveTorn_eq_ok_iff {file : Torn} :
    resolveTorn directory pieces = .ok file ↔ Nameable pieces ∧ LeadsTo directory pieces file := by
  have hdirectory : (!(ofString (shownPieces pieces)).isAbsolute &&
      directory.names.any isNullName) = true ↔
        ¬ ((ofString (shownPieces pieces)).isAbsolute = false → NullFree directory.names) := by
    unfold NullFree
    simp
  rw [leadsTo_iff, CanResolve, shownPieces, null_mem_filledPieces_iff meanNothing_shown,
    ← shownPieces]
  unfold resolveTorn
  split
  · rename_i hnull
    exact iff_of_false (by simp) fun h => hdirectory.mp hnull h.2.1.2
  · rename_i hnull
    have hfree := not_not.mp (mt hdirectory.mpr hnull)
    split
    · rename_i f hf
      refine iff_of_false (by simp) fun h => ?_
      rw [blocked?_tornNames_eq_none_iff.mpr ⟨h.1, h.2.1.1⟩] at hf
      exact absurd hf (by simp)
    · rename_i hf
      obtain ⟨hnameable, hparts⟩ := blocked?_tornNames_eq_none_iff.mp hf
      rw [and_iff_right hnameable, and_iff_right ⟨hparts, hfree⟩, eq_comm (a := file)]
      exact Except.ok.injEq .. |>.to_iff

/-- A path without halves is resolved as ever. -/
theorem resolveTorn_piecesOf {s : String} {place : Location}
    (h : (ofString s).resolve directory = .ok place) :
    resolveTorn directory (piecesOf s) = .ok (piecesOf place.toString) := by
  rw [resolveTorn_eq_ok_iff, leadsTo_iff, Text.shownPieces_piecesOf, tornPlace_piecesOf]
  refine ⟨fun n hn => absurd hn (Text.not_half_mem_piecesOf s n), ?_, ?_⟩
  · exact exists_resolve_ofString_iff.mp ⟨place, h⟩
  · rw [← (resolve_eq_ok_iff.mp h).2.2]

end ExpectedDiagnostics.Path
