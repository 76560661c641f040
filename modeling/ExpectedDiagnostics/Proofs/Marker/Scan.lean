import ExpectedDiagnostics.Proofs.Marker.Tags

/-!
# Looking for markers from left to right

Markers are found one after the other: where one begins, the search goes on behind it, and otherwise
one character further on (`pieces`). No marker begins inside another one, and none is continued by
what follows it. So putting the new tag in all markers that are found is retagging, and as many are
found as there are places at which a marker begins.

Main results:

* `retag_eq_pieces` — retagging puts the new tag in the markers that are found.
* `count_eq_pieces` — the count of a text is the number of markers that are found.
-/

namespace ExpectedDiagnostics.Marker

variable {t : Char} {cs rest : List Char} {spaces : Nat}

/-! ## Markers that a text begins with -/

/-- The text of a marker: its slashes, its spaces, its tag, and the token. -/
def written (t : Char) (spaces : Nat) : List Char :=
  '/' :: '/' :: (List.replicate spaces ' ' ++ t :: token)

/-- The spaces of the marker that a text begins with, and what follows the marker. -/
def match? (t : Char) : List Char → Option (Nat × List Char)
  | '/' :: '/' :: cs =>
    (Text.after? (t :: token) (cs.dropWhile (· == ' '))).map fun rest =>
      ((cs.takeWhile (· == ' ')).length, rest)
  | _ => none

theorem match?_eq_some_iff (ht : t ≠ ' ') :
    match? t cs = some (spaces, rest) ↔ cs = written t spaces ++ rest := by
  unfold written
  constructor
  · intro h
    unfold match? at h
    split at h
    · rename_i behind
      obtain ⟨back, hback, hpair⟩ := Option.map_eq_some_iff.mp h
      obtain ⟨rfl, rfl⟩ := Prod.mk.inj hpair
      obtain ⟨n, hn⟩ := exists_spaces behind
      rw [Text.eq_append_of_after? hback, List.cons_append] at hn
      rw [hn, (takeWhile_spaces ht n _).1, List.length_replicate]
      simp
    · exact nomatch h
  · rintro rfl
    have hafter := Text.after?_append (t :: token) rest
    rw [List.cons_append] at hafter
    simp only [List.cons_append, List.append_assoc, match?, (takeWhile_spaces ht spaces _).1,
      (takeWhile_spaces ht spaces _).2, List.length_replicate]
    rw [hafter]
    rfl

theorem length_lt_of_match? (h : match? t cs = some (spaces, rest)) : rest.length < cs.length := by
  unfold match? at h
  split at h
  · rename_i behind
    obtain ⟨back, hback, hpair⟩ := Option.map_eq_some_iff.mp h
    obtain ⟨-, rfl⟩ := Prod.mk.inj hpair
    have hlength := congrArg List.length (Text.eq_append_of_after? hback)
    have hdropped := (List.dropWhile_suffix (l := behind) (· == ' ')).length_le
    simp only [List.length_append, List.length_cons] at hlength ⊢
    omega
  · exact nomatch h

/-! ## The search -/

/-- What a search meets: a marker, with its number of spaces, or a character that none begins at. -/
inductive Piece
  | marker (spaces : Nat)
  | other (c : Char)

/-- Tells whether a piece is a marker. -/
def Piece.isMarker : Piece → Bool
  | marker _ => true
  | other _ => false

/-- The text of a piece, with a tag in it if it is a marker. -/
def Piece.text (t : Char) : Piece → List Char
  | marker spaces => written t spaces
  | other c => [c]

/-- The pieces of a text, found from left to right. -/
def pieces (t : Char) : List Char → List Piece
  | [] => []
  | c :: cs =>
    match _h : match? t (c :: cs) with
    | some (spaces, rest) => .marker spaces :: pieces t rest
    | none => .other c :: pieces t cs
termination_by cs => cs.length
decreasing_by
  · exact length_lt_of_match? _h
  · exact Nat.lt_succ_self _

theorem pieces_of_match? (h : match? t cs = some (spaces, rest)) :
    pieces t cs = .marker spaces :: pieces t rest := by
  cases cs with
  | nil => exact nomatch h
  | cons c cs =>
    rw [pieces]
    split
    · rename_i heq
      obtain ⟨rfl, rfl⟩ := Prod.mk.inj (Option.some.inj (heq.symm.trans h))
      rfl
    · rename_i heq
      exact nomatch heq.symm.trans h

theorem pieces_of_no_match {c : Char} (h : match? t (c :: cs) = none) :
    pieces t (c :: cs) = .other c :: pieces t cs := by
  rw [pieces]
  split
  · rename_i heq
    exact nomatch heq.symm.trans h
  · rfl

/-- A property of texts that holds of the empty one, and of any other one if it holds of what the
search goes on with. -/
theorem pieces_induction {P : List Char → Prop} (ht : t ≠ ' ') (hnil : P [])
    (hmarker : ∀ spaces rest, P rest → P (written t spaces ++ rest))
    (hother : ∀ c cs, match? t (c :: cs) = none → P cs → P (c :: cs)) (cs : List Char) : P cs := by
  fun_induction pieces t cs with
  | case1 => exact hnil
  | case2 c cs spaces rest h ih =>
    rw [(match?_eq_some_iff ht).mp h]
    exact hmarker spaces rest ih
  | case3 c cs h ih => exact hother c cs h ih

/-- The pieces of a text are the text. -/
theorem flatMap_pieces (ht : t ≠ ' ') (cs : List Char) :
    (pieces t cs).flatMap (Piece.text t) = cs := by
  induction cs using pieces_induction ht with
  | hnil => rw [pieces, List.flatMap_nil]
  | hmarker spaces rest ih =>
    rw [pieces_of_match? ((match?_eq_some_iff ht).mpr rfl), List.flatMap_cons, ih]
    rfl
  | hother c cs h ih =>
    rw [pieces_of_no_match h, List.flatMap_cons, ih]
    rfl

/-! ## Counting -/

theorem countIn_cons_of_ne {c : Char} (hc : c ≠ '/') (cs : List Char) :
    countIn (c :: cs) = countIn cs := by
  rw [countIn]
  have hnone : afterMarker? (c :: cs) = none := by
    unfold afterMarker?
    split
    · rename_i heq
      exact absurd (List.cons.inj heq).1 hc
    · rfl
  rw [hnone]
  exact Nat.zero_add _

theorem countIn_append_of_not_mem {xs : List Char} (h : '/' ∉ xs) (cs : List Char) :
    countIn (xs ++ cs) = countIn cs := by
  induction xs with
  | nil => rfl
  | cons x xs ih =>
    rw [List.mem_cons, not_or] at h
    rw [List.cons_append, countIn_cons_of_ne (Ne.symm h.1), ih h.2]

/-- A marker counts once: none begins inside it. -/
theorem countIn_written (spaces : Nat) (rest : List Char) :
    countIn (written tag spaces ++ rest) = 1 + countIn rest := by
  have hbehind : '/' ∉ List.replicate spaces ' ' ++ tag :: token := by
    rw [List.mem_append, not_or]
    exact ⟨fun h => absurd (List.eq_of_mem_replicate h) (by decide), by decide⟩
  obtain ⟨d, ds, hd⟩ : ∃ d ds, List.replicate spaces ' ' ++ tag :: token = d :: ds := by
    cases spaces with
    | zero => exact ⟨_, _, rfl⟩
    | succ n => exact ⟨' ', _, rfl⟩
  have hfirst : (afterMarker? (written tag spaces ++ rest)).isSome = true :=
    isSome_afterMarker?_iff.mpr ⟨spaces, rest, by simp [written]⟩
  -- the second slash is followed by no other one
  have hsecond : afterMarker? ('/' :: ((List.replicate spaces ' ' ++ tag :: token) ++ rest)) =
      none := by
    rw [hd] at hbehind ⊢
    rw [List.mem_cons, not_or] at hbehind
    unfold afterMarker?
    split
    · rename_i heq
      exact absurd (List.cons.inj (List.cons.inj heq).2).1.symm hbehind.1
    · rfl
  unfold written at hfirst ⊢
  rw [List.cons_append, List.cons_append] at hfirst ⊢
  rw [countIn, countIn, hfirst, hsecond, countIn_append_of_not_mem hbehind]
  exact congrArg _ (Nat.zero_add _)

theorem afterMarker?_eq_none (h : match? tag cs = none) : afterMarker? cs = none := by
  rw [Option.eq_none_iff_forall_ne_some]
  intro rest hrest
  obtain ⟨spaces, hcs⟩ := afterMarker?_eq_some_iff.mp hrest
  have htag : tag ≠ ' ' := by decide
  have hmatch : match? tag cs = some (spaces, rest) :=
    (match?_eq_some_iff htag).mpr (by rw [hcs]; simp [written])
  exact nomatch h.symm.trans hmatch

theorem countIn_eq_pieces (cs : List Char) :
    countIn cs = (pieces tag cs).countP Piece.isMarker := by
  have htag : tag ≠ ' ' := by decide
  induction cs using pieces_induction htag with
  | hnil => rw [pieces]; rfl
  | hmarker spaces rest ih =>
    rw [pieces_of_match? ((match?_eq_some_iff htag).mpr rfl), countIn_written, ih,
      List.countP_cons_of_pos rfl, Nat.add_comm]
  | hother c cs h ih =>
    rw [pieces_of_no_match h, countIn, afterMarker?_eq_none h, ih,
      List.countP_cons_of_neg (Bool.false_ne_true)]
    exact Nat.zero_add _

/-- **The count of a text** is the number of markers that are found from left to right. -/
theorem count_eq_pieces (s : String) : count s = (pieces tag s.toList).countP Piece.isMarker :=
  countIn_eq_pieces s.toList

/-! ## Retagging -/

theorem retagFrom_append_of_not_mem {xs : List Char} (h : compilerTag ∉ xs)
    (before cs : List Char) :
    retagFrom before (xs ++ cs) = xs ++ retagFrom (xs.reverse ++ before) cs := by
  induction xs generalizing before with
  | nil => rfl
  | cons x xs ih =>
    rw [List.mem_cons, not_or] at h
    have hx : (x == compilerTag) = false := beq_eq_false_iff_ne.mpr (Ne.symm h.1)
    rw [List.cons_append, retagFrom, hx, ih h.2, List.reverse_cons, List.append_assoc]
    rfl

/-- What stands in front of a text matters only as far as it could be the beginning of a marker. -/
theorem retagFrom_congr {before other : List Char}
    (h : ∀ front back, cs = front ++ compilerTag :: (token ++ back) →
      opensMarker (front.reverse ++ before) = opensMarker (front.reverse ++ other)) :
    retagFrom before cs = retagFrom other cs := by
  induction cs generalizing before other with
  | nil => rfl
  | cons c cs ih =>
    have hhead : (c == compilerTag && (Text.after? token cs).isSome && opensMarker before) =
        (c == compilerTag && (Text.after? token cs).isSome && opensMarker other) := by
      cases hmarked : c == compilerTag && (Text.after? token cs).isSome with
      | false => rfl
      | true =>
        obtain ⟨hc, htoken⟩ := Bool.and_eq_true_iff.mp hmarked
        obtain ⟨back, rfl⟩ := isSome_after?_iff.mp htoken
        obtain rfl : c = compilerTag := beq_iff_eq.mp hc
        exact h [] back rfl
    have htail : retagFrom (c :: before) cs = retagFrom (c :: other) cs := by
      refine ih fun front back hcs => ?_
      have hlonger := h (c :: front) back (by rw [hcs]; rfl)
      rwa [List.reverse_cons, List.append_assoc, List.append_assoc] at hlonger
    rw [retagFrom, retagFrom, hhead, htail]

/-- No marker begins in front of a character that is neither a space nor a slash and goes on behind
it. -/
theorem opensMarker_append_cons {c : Char} (hspace : c ≠ ' ') (hslash : c ≠ '/')
    (before behind : List Char) :
    opensMarker (before ++ c :: behind) = opensMarker before := by
  have hc : (c == '/') = false := beq_eq_false_iff_ne.mpr hslash
  induction before with
  | nil =>
    rw [List.nil_append, opensMarker_cons hspace, hc]
    rfl
  | cons d before ih =>
    by_cases hd : d = ' '
    · subst hd
      exact ih
    · rw [List.cons_append, opensMarker_cons hd, opensMarker_cons hd]
      cases before with
      | nil =>
        rw [List.nil_append, List.head?_cons, List.head?_nil]
        simp [hslash]
      | cons e before => rfl

/-- Behind a marker, a text is retagged as if nothing were in front of it. -/
theorem retagFrom_written (spaces : Nat) (rest : List Char) :
    retagFrom [] (written compilerTag spaces ++ rest) =
      written tag spaces ++ retagFrom [] rest := by
  have hopens : opensMarker ('/' :: '/' :: List.replicate spaces ' ').reverse = true :=
    opensMarker_iff.mpr ⟨spaces, [], by simp⟩
  have hfront : compilerTag ∉ '/' :: '/' :: List.replicate spaces ' ' := by
    simp only [List.mem_cons, not_or]
    exact ⟨by decide, by decide, fun h => absurd (List.eq_of_mem_replicate h) (by decide)⟩
  have htoken : compilerTag ∉ token := by decide
  have hcut : ∀ t, written t spaces ++ rest =
      ('/' :: '/' :: List.replicate spaces ' ') ++ t :: (token ++ rest) := by
    intro t
    simp [written]
  have hbehind : retagFrom (token.reverse ++ compilerTag ::
      ('/' :: '/' :: List.replicate spaces ' ').reverse) rest = retagFrom [] rest := by
    refine retagFrom_congr fun front back _ => ?_
    have hend : ∃ more, token.reverse = ':' :: more := ⟨_, rfl⟩
    obtain ⟨more, hmore⟩ := hend
    rw [hmore, List.cons_append, opensMarker_append_cons (by decide) (by decide),
      List.append_nil]
  rw [hcut, retagFrom_append_of_not_mem hfront, List.append_nil, retagFrom, hopens,
    Text.after?_append, retagFrom_append_of_not_mem htoken, hbehind]
  simp [written]

/-- A character at which no marker begins does not matter to what is behind it. -/
theorem retagFrom_of_no_match {c : Char} (h : match? compilerTag (c :: cs) = none) :
    retagFrom [] (c :: cs) = c :: retagFrom [] cs := by
  have hopens : opensMarker [] = false := rfl
  have hbehind : retagFrom [c] cs = retagFrom [] cs := by
    refine retagFrom_congr fun front back hcs => ?_
    rw [Bool.eq_iff_iff, List.append_nil, opensMarker_iff, opensMarker_iff]
    constructor
    · rintro ⟨spaces, rest, hrest⟩
      have hfront := congrArg List.reverse hrest
      simp only [List.reverse_append, List.reverse_cons, List.reverse_nil, List.nil_append,
        List.reverse_reverse, List.singleton_append, List.append_assoc, List.reverse_replicate]
        at hfront
      cases hback : rest.reverse with
      -- the character and the next one would open a marker
      | nil =>
        rw [hback] at hfront
        obtain ⟨rfl, hslash⟩ := List.cons.inj hfront
        have hmatch : match? compilerTag ('/' :: cs) = some (spaces, back) :=
          (match?_eq_some_iff (by decide)).mpr (by rw [hcs, hslash]; simp [written])
        exact nomatch h.symm.trans hmatch
      | cons d more =>
        rw [hback] at hfront
        obtain ⟨-, htail⟩ := List.cons.inj hfront
        refine ⟨spaces, more.reverse, ?_⟩
        rw [htail]
        simp
    · rintro ⟨spaces, rest, hrest⟩
      exact ⟨spaces, rest ++ [c], by rw [hrest]; simp⟩
  rw [retagFrom, hopens, Bool.and_false, hbehind]
  rfl

/-- **Retagging** puts the new tag in the markers that are found from left to right. -/
theorem retag_eq_pieces (s : String) :
    retag s = .ofList ((pieces compilerTag s.toList).flatMap (Piece.text tag)) := by
  have htag : compilerTag ≠ ' ' := by decide
  unfold retag
  congr 1
  induction s.toList using pieces_induction htag with
  | hnil => rw [pieces]; rfl
  | hmarker spaces rest ih =>
    rw [pieces_of_match? ((match?_eq_some_iff htag).mpr rfl), retagFrom_written, ih,
      List.flatMap_cons]
    rfl
  | hother c cs h ih =>
    rw [pieces_of_no_match h, retagFrom_of_no_match h, ih, List.flatMap_cons]
    rfl

end ExpectedDiagnostics.Marker
