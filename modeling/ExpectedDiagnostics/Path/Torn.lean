import ExpectedDiagnostics.Path
import ExpectedDiagnostics.Text.Torn

/-!
# Torn paths

A path that may be torn is resolved one name after the other: the file system is asked about each
name on the way, and it cannot be asked about one with a half that no name can hold. The place that
the path leads to is told with all the halves of its names.
-/

namespace ExpectedDiagnostics.Path

open Text (Piece Torn piecesOf shownPieces)

/-- What keeps a torn path from being resolved. -/
inductive TornFault
  /-- What keeps any path from being resolved. -/
  | whole (f : Fault)
  /-- A name has halves that no name can hold: those that stand there side by side, and the number
  of characters of the path before them. -/
  | unencodable (halves : List Nat) (position : Nat)
  deriving DecidableEq, Repr

/-- The wording of a fault. -/
def TornFault.message : TornFault → String
  | whole f => f.message
  | unencodable [unit] position =>
    "'utf-8' codec can't encode character '\\u" ++ .ofList (Text.hex 4 unit) ++ "' in position " ++
      position.repr ++ ": surrogates not allowed"
  | unencodable halves position =>
    "'utf-8' codec can't encode characters in position " ++ position.repr ++ "-" ++
      (position + halves.length - 1).repr ++ ": surrogates not allowed"

/-- Cuts pieces at every slash. -/
def splitPieces : Torn → List Torn
  | [] => [[]]
  | p :: ps =>
    if p == .char '/' then [] :: splitPieces ps
    else
      match splitPieces ps with
      | [] => [[p]]
      | name :: names => (p :: name) :: names

/-- The names of a torn path, in order. -/
def tornNames (pieces : Torn) : List Torn :=
  (splitPieces pieces).filter fun name => name != [] && name != [.char '.']

/-- The first halves of a name that no name can hold, and the number of characters before them. -/
def unencodable? (name : Torn) : Option (List Nat × Nat) :=
  let rest := name.dropWhile Piece.isNameable
  if rest.isEmpty then none
  else
    let halves := (rest.takeWhile Piece.isHalf).filterMap fun
      | .half unit => some unit
      | .char _ => none
    some (halves, name.length - rest.length)

/-- Goes along names from a place, up to the first one that the file system cannot be asked
about. -/
def blocked? (place : Location) : List Torn → Option TornFault
  | [] => none
  | name :: names =>
    match unencodable? name with
    | some (halves, before) =>
      -- the path of a place and of one more name begins with the path of the empty name there
      some (.unencodable halves ((place.step "").toString.length + before))
    | none =>
      if name.contains (.char '\x00') then some (.whole .nullCharacter)
      else blocked? (place.step (shownPieces name)) names

/-- The names that one more name leads to from others. -/
def stepTorn (names : List Torn) (name : Torn) : List Torn :=
  if name == piecesOf ".." then names.dropLast else names ++ [name]

/-- The place that a torn path starts from. -/
def tornStart (directory : Location) (pieces : Torn) : Location :=
  if (ofString (shownPieces pieces)).isAbsolute then .root else directory

/-- The text of the place that a torn path leads to from a directory. -/
def tornPlace (directory : Location) (pieces : Torn) : Torn :=
  let start := (tornStart directory pieces).names.map piecesOf
  .char '/' :: [.char '/'].intercalate ((tornNames pieces).foldl stepTorn start)

/-- Resolves a torn path that is seen from a directory. -/
def resolveTorn (directory : Location) (pieces : Torn) : Except TornFault Torn :=
  if !(ofString (shownPieces pieces)).isAbsolute && directory.names.any isNullName then
    .error (.whole .nullCharacter)
  else
    match blocked? (tornStart directory pieces) (tornNames pieces) with
    | some f => .error f
    | none => .ok (tornPlace directory pieces)

end ExpectedDiagnostics.Path
