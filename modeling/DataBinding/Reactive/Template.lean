/-
  Texts with placeholders.

  A placeholder is an expression in double braces.  `Template.pieces` takes a
  text apart: scanned from the left, a placeholder begins at the first position
  from which one can be completed, and its expression is the shortest text on
  the same line, of at least one character, that two closing braces follow.

  * `Template.hasPlaceholder` and `Template.placeholders` list them;
  * `Store.fill` puts the displays of the values in their place.
-/
import DataBinding.Reactive.Expression

namespace DataBinding

namespace Template

/-- A piece of a text. -/
inductive Piece where
  /-- A character that belongs to no placeholder. -/
  | literal (c : Char)
  /-- The inside of a placeholder. -/
  | placeholder (inner : List Char)
  deriving DecidableEq

/-- The shortest text, of at least one character and on the same line, that two
    closing braces follow. -/
def inside? : List Char → Option (List Char)
  | [] => none
  | c :: rest =>
    if c = '\n' then none
    else if rest.take 2 = ['\x7d', '\x7d'] then some [c]
    else (inside? rest).map (c :: ·)

/-- The inside of a placeholder that begins here. -/
def opening? : List Char → Option (List Char)
  | a :: b :: rest => if a = '\x7b' ∧ b = '\x7b' then inside? rest else none
  | _ => none

/-- The pieces of a text after its first `skip` characters. -/
def scan : Nat → List Char → List Piece
  | _, [] => []
  | skip + 1, _ :: rest => scan skip rest
  | 0, c :: rest =>
    match opening? (c :: rest) with
    | some inner => .placeholder inner :: scan (inner.length + 3) rest
    | none => .literal c :: scan 0 rest

/-- The pieces of a text. -/
def pieces (text : String) : List Piece :=
  scan 0 text.toList

/-- The expression of a placeholder, without the blanks around it. -/
def Piece.expression? : Piece → Option String
  | literal _ => none
  | placeholder inner => some (String.ofList (Text.trimChars inner))

/-- The expressions of the placeholders of a text, in order. -/
def placeholders (text : String) : List String :=
  (pieces text).filterMap Piece.expression?

/-- Whether a text has a placeholder. -/
def hasPlaceholder (text : String) : Bool :=
  (pieces text).any fun p => p.expression?.isSome

end Template

namespace Store

variable {R : Type}

/-- Put the displays of the values in the place of the placeholders, in order,
    up to the first that does not resolve. -/
def fillPieces (s : Store R) (root : MappingId) :
    List Template.Piece → Except PathError (List Char) × Store R
  | [] => (.ok [], s)
  | .literal c :: rest =>
    let (result, s) := fillPieces s root rest
    (result.map (c :: ·), s)
  | .placeholder inner :: rest =>
    match s.evaluate root (String.ofList inner) with
    | (.error e, s) => (.error e, s)
    | (.ok v, s) =>
      let (result, s) := fillPieces s root rest
      (result.map (v.display.toList ++ ·), s)

/-- A text with the displays of the values in the place of its placeholders. -/
def fill (s : Store R) (root : MappingId) (text : String) : Except PathError String × Store R :=
  let (result, s) := s.fillPieces root (Template.pieces text)
  (result.map String.ofList, s)

end Store

end DataBinding
