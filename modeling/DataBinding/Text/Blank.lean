/-
  White space, and the text operations that depend on it.

  * `isBlank` is the Unicode property White_Space;
  * `trim` drops blanks at both ends, `words` are the maximal runs without a
    blank;
  * `splitOn` cuts at every occurrence of one character.
-/

namespace DataBinding.Text

/-- The Unicode property White_Space, as ranges of code points. -/
def blankRanges : List (Nat × Nat) :=
  [(0x9, 0xD), (0x20, 0x20), (0x85, 0x85), (0xA0, 0xA0), (0x1680, 0x1680), (0x2000, 0x200A),
    (0x2028, 0x2029), (0x202F, 0x202F), (0x205F, 0x205F), (0x3000, 0x3000)]

/-- A character of White_Space. -/
def isBlank (c : Char) : Bool :=
  blankRanges.any fun r => r.1 ≤ c.toNat && c.toNat ≤ r.2

theorem isBlank_of_isWhitespace {c : Char} (h : c.isWhitespace = true) : isBlank c = true := by
  simp only [Char.isWhitespace, Bool.or_eq_true, decide_eq_true_eq] at h
  rcases h with ((h | h) | h) | h <;> subst h <;> decide

/-- A list without its last elements that satisfy `p`. -/
def dropTrailing {α : Type} (p : α → Bool) (l : List α) : List α :=
  (l.reverse.dropWhile p).reverse

/-- The characters without the blanks at either end. -/
def trimChars (cs : List Char) : List Char :=
  dropTrailing isBlank (cs.dropWhile isBlank)

/-- The text without the blanks at either end. -/
def trim (s : String) : String :=
  String.ofList (trimChars s.toList)

/-- The pieces between the occurrences of `sep`: one more than there are
    occurrences. -/
def splitChars (sep : Char) : List Char → List (List Char)
  | [] => [[]]
  | c :: rest =>
    if c = sep then [] :: splitChars sep rest
    else
      match splitChars sep rest with
      | [] => [[c]]
      | piece :: pieces => (c :: piece) :: pieces

/-- The pieces of a text between the occurrences of `sep`. -/
def splitOn (sep : Char) (s : String) : List String :=
  (splitChars sep s.toList).map String.ofList

/-- The non-empty runs of characters outside `p`, given the run read so far in
    reverse. -/
def runsOutside (p : Char → Bool) (current : List Char) : List Char → List (List Char)
  | [] => if current.isEmpty then [] else [current.reverse]
  | c :: rest =>
    if p c then
      if current.isEmpty then runsOutside p [] rest
      else current.reverse :: runsOutside p [] rest
    else runsOutside p (c :: current) rest

/-- The words of a text: its maximal runs without a blank. -/
def words (s : String) : List String :=
  (runsOutside isBlank [] s.toList).map String.ofList

/-- An ASCII capital as the small letter, any other character as it is. -/
def lowerChar (c : Char) : Char :=
  if 'A' ≤ c ∧ c ≤ 'Z' then Char.ofNat (c.toNat + 32) else c

/-- A text with its ASCII capitals as small letters. -/
def lower (s : String) : String :=
  String.ofList (s.toList.map lowerChar)

end DataBinding.Text
