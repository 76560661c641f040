import ExpectedDiagnostics.Proofs.CommentGroup
import ExpectedDiagnostics.Proofs.Marker.Tags
import ExpectedDiagnostics.Proofs.Text.Words

/-!
# The text of an annotation

A comment group is an annotation from its first comment with a marker on. What follows the marker,
and what follows the slashes of each later comment, are put together, and only the words of that
count. So it does not matter how the words are laid out over the comments, as long as none is cut in
two; nor what is in front of the marker, but for the problem, which tells the whole group.

Main results:

* `firstMarked?_eq_some_iff` — where the annotation of a group begins.
* `extract_of_opens` — the text of an annotation, or what keeps it from having one.
* `extract_layout` — the text depends on the words only.
* `extract_words` — all of this together.
-/

namespace ExpectedDiagnostics.Marker

/-! ## Comments -/

/-- A marker opens the comment: two slashes, any number of spaces, and the token with the tag of an
annotation. The rest follows it. -/
def Opens (part : String) (rest : List Char) : Prop :=
  ∃ spaces, part.toList =
    "//".toList ++ (List.replicate spaces ' ' ++ ("%ts-expect-error:".toList ++ rest))

/-- A comment that no marker opens. -/
def IsUnmarked (part : String) : Prop :=
  ∀ rest, ¬ Opens part rest

/-- A comment that goes on to the end of its line. -/
def IsLineComment (part : String) : Prop :=
  "//".toList <+: part.toList

instance (part : String) : Decidable (IsLineComment part) :=
  inferInstanceAs (Decidable ("//".toList <+: part.toList))

theorem opens_iff {part : String} {rest : List Char} :
    Opens part rest ↔ afterMarker? part.toList = some rest :=
  afterMarker?_eq_some_iff.symm

theorem isUnmarked_iff {part : String} :
    IsUnmarked part ↔ afterMarker? part.toList = none := by
  rw [Option.eq_none_iff_forall_ne_some]
  exact forall_congr' fun rest => not_congr opens_iff

instance (part : String) : Decidable (IsUnmarked part) :=
  decidable_of_iff _ isUnmarked_iff.symm

/-- A line comment is read as what follows its slashes. -/
theorem lineComment?_eq (part : String) :
    lineComment? part = if IsLineComment part then some (part.toList.drop 2) else none := by
  unfold lineComment?
  split
  · rename_i hline
    obtain ⟨text, htext⟩ := hline
    rw [← htext]
    exact Text.after?_append _ text
  · rename_i hother
    rw [Option.eq_none_iff_forall_ne_some]
    intro text htext
    exact hother ⟨text, (Text.eq_append_of_after? htext).symm⟩

/-- Comments are read one after the other if all of them are line comments. -/
theorem mapM_lineComment? (parts : List String) : parts.mapM lineComment? =
    if ∀ part ∈ parts, IsLineComment part then some (parts.map (·.toList.drop 2)) else none := by
  induction parts with
  | nil => rfl
  | cons part parts ih =>
    rw [List.mapM_cons, lineComment?_eq, ih]
    by_cases hpart : IsLineComment part
    · by_cases hparts : ∀ part ∈ parts, IsLineComment part
      · rw [if_pos hpart, if_pos hparts, if_pos (List.forall_mem_cons.mpr ⟨hpart, hparts⟩)]
        rfl
      · rw [if_pos hpart, if_neg hparts, if_neg fun h => hparts (List.forall_mem_cons.mp h).2]
        rfl
    · rw [if_neg hpart, if_neg fun h => hpart (List.forall_mem_cons.mp h).1]
      rfl

/-! ## Where the annotation begins -/

theorem extract_eq_none_iff {parts : List String} :
    extract parts = .ok none ↔ ∀ part ∈ parts, IsUnmarked part := by
  have hunmarked := @CommentGroup.extract_eq_none_iff ⟨0, parts⟩
  rw [hunmarked, CommentGroup.isMarked, List.any_eq_false]
  refine forall₂_congr fun part _ => ?_
  rw [Bool.not_eq_true, Option.isSome_eq_false_iff, Option.isNone_iff_eq_none, isUnmarked_iff]

variable {before : List String}

theorem firstMarked?_append (h : ∀ part ∈ before, IsUnmarked part) (parts : List String) :
    firstMarked? (before ++ parts) = firstMarked? parts := by
  induction before with
  | nil => rfl
  | cons part before ih =>
    obtain ⟨hpart, hbefore⟩ := List.forall_mem_cons.mp h
    rw [List.cons_append, firstMarked?, isUnmarked_iff.mp hpart]
    exact ih hbefore

/-- Comments in front of the marker do not matter, but for the problem, which tells them, too. -/
theorem extract_append (h : ∀ part ∈ before, IsUnmarked part) (parts : List String) :
    extract (before ++ parts) =
      (extract parts).mapError fun _ => .malformedComment (before ++ parts) := by
  unfold extract
  rw [firstMarked?_append h]
  cases firstMarked? parts with
  | none => rfl
  | some found =>
    obtain ⟨rest, following⟩ := found
    dsimp only
    cases following.mapM lineComment? with
    | none => rfl
    | some texts => rfl

/-! ## The text -/

variable {part : String} {rest : List Char}

/-- **The text of an annotation** is what follows the marker and the slashes of later comments,
which must all be line comments. -/
theorem extract_cons (h : Opens part rest) (after : List String) : extract (part :: after) =
    if ∀ later ∈ after, IsLineComment later then
      .ok (some (Text.joined (Text.words (rest ++ after.flatMap (·.toList.drop 2)))))
    else .error (.malformedComment (part :: after)) := by
  unfold extract
  rw [firstMarked?, opens_iff.mp h]
  dsimp only
  rw [mapM_lineComment?]
  by_cases hafter : ∀ later ∈ after, IsLineComment later
  · rw [if_pos hafter, if_pos hafter]
    dsimp only
    rw [← List.flatMap_def, Text.ofList_tidy]
  · rw [if_neg hafter, if_neg hafter]

/-! ## Layouts -/

/-- A line comment with this text. -/
def comment (text : List Char) : String :=
  .ofList ("//".toList ++ text)

theorem toList_comment (text : List Char) : (comment text).toList = "//".toList ++ text :=
  String.toList_ofList

/-- If no word is cut in two, the words are those of the texts one after the other. -/
theorem words_flatten {texts : List (List Char)} (h : ∀ text ∈ texts, Text.BeginsApart text) :
    Text.words (rest ++ texts.flatten) = Text.words rest ++ texts.flatMap Text.words := by
  induction texts generalizing rest with
  | nil => rw [List.flatten_nil, List.flatMap_nil, List.append_nil, List.append_nil]
  | cons text texts ih =>
    obtain ⟨htext, htexts⟩ := List.forall_mem_cons.mp h
    rw [List.flatten_cons, ← List.append_assoc, ih htexts, Text.words_append rest htext,
      List.flatMap_cons, List.append_assoc]

/-- **The text depends on the words only**, however they are laid out over line comments. -/
theorem extract_layout (h : Opens part rest) {texts : List (List Char)}
    (htexts : ∀ text ∈ texts, Text.BeginsApart text) :
    extract (part :: texts.map comment) =
      .ok (some (Text.joined (Text.words rest ++ texts.flatMap Text.words))) := by
  have hlines : ∀ later ∈ texts.map comment, IsLineComment later := by
    intro later hlater
    obtain ⟨text, -, rfl⟩ := List.mem_map.mp hlater
    exact ⟨text, (toList_comment text).symm⟩
  have hbehind : (texts.map comment).flatMap (·.toList.drop 2) = texts.flatten := by
    rw [List.flatMap_map, List.flatMap_def]
    congr 1
    refine (List.map_congr_left fun text _ => ?_).trans (List.map_id texts)
    rw [toList_comment]
    rfl
  rw [extract_cons h, if_pos hlines, hbehind, words_flatten htexts]

/-- **What is read of a comment group.** There is an annotation exactly if a marker opens some
comment. It is malformed exactly if a comment behind the first such one is no line comment, and
otherwise it is the words of what follows the marker and of what follows the slashes of the comments
behind it. What is in front of the marker does not matter, but for the problem of a malformed group,
which tells all of the group; nor does it matter how the words are laid out over line comments, if
each goes on with a blank behind its slashes, or is empty. -/
theorem extract_words (parts : List String) :
    (extract parts = .ok none ↔ ∀ part ∈ parts, IsUnmarked part) ∧
      (∀ before part rest after, parts = before ++ part :: after →
        (∀ p ∈ before, IsUnmarked p) → Opens part rest →
          (extract parts = .error (.malformedComment parts) ↔
            ∃ later ∈ after, ¬ IsLineComment later) ∧
          ((∀ later ∈ after, IsLineComment later) → extract parts =
            .ok (some (Text.joined (Text.words (rest ++ after.flatMap (·.toList.drop 2))))))) ∧
      (∀ before, (∀ p ∈ before, IsUnmarked p) → extract (before ++ parts) =
        (extract parts).mapError fun _ => .malformedComment (before ++ parts)) ∧
      ∀ part rest (texts : List (List Char)) ws, Opens part rest →
        (∀ text ∈ texts, Text.BeginsApart text) →
        Text.words rest ++ texts.flatMap Text.words = ws →
          extract (part :: texts.map comment) = .ok (some (Text.joined ws)) := by
  refine ⟨extract_eq_none_iff, ?_, fun before h => extract_append h parts, ?_⟩
  · rintro before part rest after rfl hbefore hopens
    rw [extract_append hbefore, extract_cons hopens]
    by_cases hafter : ∀ later ∈ after, IsLineComment later
    · rw [if_pos hafter]
      refine ⟨iff_of_false nofun ?_, fun _ => rfl⟩
      rintro ⟨later, hlater, hother⟩
      exact hother (hafter later hlater)
    · rw [if_neg hafter]
      obtain ⟨later, hlater⟩ := not_forall.mp hafter
      exact ⟨iff_of_true rfl ⟨later, Classical.not_imp.mp hlater⟩, fun h => absurd h hafter⟩
  · rintro part rest texts ws hopens htexts rfl
    exact extract_layout hopens htexts

/-- Comments that no marker opens: one has no slashes, the other has three. -/
def sampleFront : List String :=
  ["/* Foo */", "/// %ts-expect-error: no"]

def sampleBack : List String :=
  ["//\u00A0is", "/// %ts-expect-error:  (7)"]

/-- The third slash, a second marker and the blank that is no space belong to the text. -/
theorem extract_words_sample :
    (∀ p ∈ sampleFront, IsUnmarked p) ∧ Opens "//   %ts-expect-error: Foo" " Foo".toList ∧
      (∀ later ∈ sampleBack, IsLineComment later) ∧
      extract (sampleFront ++ "//   %ts-expect-error: Foo" :: sampleBack) =
        .ok (some "Foo is/ %ts-expect-error: (7)") ∧
      (∃ later ∈ sampleBack ++ ["/* x */"], ¬ IsLineComment later) ∧
      extract (sampleFront ++ "//   %ts-expect-error: Foo" :: (sampleBack ++ ["/* x */"])) =
        .error (.malformedComment
          (sampleFront ++ "//   %ts-expect-error: Foo" :: (sampleBack ++ ["/* x */"]))) ∧
      extract ("//   %ts-expect-error: Foo" :: ["\u00A0is\t".toList, [], " (7)".toList].map comment) =
        .ok (some "Foo is (7)") := by
  have hfront : ∀ p ∈ sampleFront, IsUnmarked p := by decide
  have hopens : Opens "//   %ts-expect-error: Foo" " Foo".toList := ⟨3, by decide⟩
  have hback : ∀ later ∈ sampleBack, IsLineComment later := by decide
  have hother : ∃ later ∈ sampleBack ++ ["/* x */"], ¬ IsLineComment later := by decide
  have happly := fun after => (extract_words _).2.1 sampleFront _ _ after rfl hfront hopens
  refine ⟨hfront, hopens, hback, ?_, hother, (happly _).1.mpr hother, ?_⟩
  · rw [(happly sampleBack).2 hback]
    rfl
  · rw [(extract_words []).2.2.2 _ _ _ ["Foo".toList, "is".toList, "(7)".toList] hopens
      (by decide) (by decide)]
    rfl

end ExpectedDiagnostics.Marker
