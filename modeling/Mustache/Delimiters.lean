import Mustache.Text.Line

/-!
# Delimiters

A tag stands between an opening and a closing delimiter.  The pair in effect is
written as two words with a space between them, and a set-delimiter tag may
install any two words that hold no equals sign.

Words are the maximal runs of characters that are not white space.  White space
here is the Unicode property `White_Space`, which is wider than blanks on one
side (the no-break space, the line separator) and narrower on the other (the
control characters without that property).
-/

namespace Mustache

namespace Text

/-- The ranges of code points with the property `White_Space`. -/
def whiteSpaceRanges : List (Nat × Nat) :=
  [(0x09, 0x0D), (0x20, 0x20), (0x85, 0x85), (0xA0, 0xA0), (0x1680, 0x1680),
    (0x2000, 0x200A), (0x2028, 0x2029), (0x202F, 0x202F), (0x205F, 0x205F),
    (0x3000, 0x3000)]

/-- Has the character the property `White_Space`? -/
def isWhiteSpace (character : Char) : Bool :=
  whiteSpaceRanges.any fun (low, high) =>
    low ≤ character.toNat && character.toNat ≤ high

/--
The words of a text, given the characters of the word being read, last one
first.
-/
def wordsFrom (word : Text) : Text → List Text
  | [] => if word.isEmpty then [] else [word.reverse]
  | character :: rest =>
    if isWhiteSpace character then
      if word.isEmpty then
        wordsFrom [] rest
      else
        word.reverse :: wordsFrom [] rest
    else
      wordsFrom (character :: word) rest

/-- The words of a text, in order. -/
def words (text : Text) : List Text :=
  wordsFrom [] text

end Text

/-- What tags open and close with. -/
structure Delimiters where
  opening : Text
  closing : Text
deriving DecidableEq, Repr

namespace Delimiters

/--
Two braces on either side, the pair that every template starts with unless told
otherwise.
-/
def standard : Delimiters :=
  ⟨['{', '{'], ['}', '}']⟩

instance : Inhabited Delimiters :=
  ⟨standard⟩

/-- Read two words, neither of which holds an equals sign. -/
def parse? (text : Text) : Option Delimiters :=
  match text.words with
  | [opening, closing] =>
    if '=' ∈ opening ∨ '=' ∈ closing then none else some ⟨opening, closing⟩
  | _ => none

/-- The two delimiters with a space between them. -/
def written (delimiters : Delimiters) : Text :=
  delimiters.opening ++ ' ' :: delimiters.closing

/-- Is this the pair of double braces? -/
def isStandard (delimiters : Delimiters) : Bool :=
  delimiters == standard

/--
Can a tag be told from text?  An empty delimiter leaves everything as text.
-/
def canMarkTags (delimiters : Delimiters) : Bool :=
  !delimiters.opening.isEmpty && !delimiters.closing.isEmpty

end Delimiters

end Mustache
