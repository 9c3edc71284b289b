import RowSieve.Text.CharacterClass

/-!
# Searching and cutting texts

Texts are searched in their encoding in UTF-8, where places count bytes.  They are cut as lists of
characters, where positions and lengths count characters; `before` leads from a place to the
characters in front of it.
-/

namespace RowSieve.Text

/-- The encoding of a text, byte by byte. -/
def bytes (text : String) : List UInt8 :=
  text.toUTF8.data.toList

/-- The first place at which the pattern occurs. -/
def find? (pattern : List UInt8) : List UInt8 → Option Nat
  | [] => if pattern.isEmpty then some 0 else none
  | byte :: rest =>
    if pattern.isPrefixOf (byte :: rest) then some 0 else (find? pattern rest).map (· + 1)

/-- The characters of a text that lie before a place in its encoding. -/
def before (place : Nat) : List Char → List Char
  | [] => []
  | c :: rest => if c.utf8Size ≤ place then c :: before (place - c.utf8Size) rest else []

/-- The characters from one position up to another, or up to the end.  Positions past the end stand
for the end; no text has as many characters as a number of 64 bits can count. -/
def slice (start : Nat) (stop : Option Nat) (text : List Char) : List Char :=
  let count :=
    match stop with
    | some stop => stop - start
    | none => UInt64.size - 1
  (text.drop start).take count

/-- The text without the white space at both ends. -/
def strip (text : List Char) : List Char :=
  ((text.dropWhile isBlank).reverse.dropWhile isBlank).reverse

/-- The order of the encodings in UTF-8, byte by byte. -/
def compareBytes (left right : String) : Ordering :=
  compare left.toUTF8.data.toList right.toUTF8.data.toList

end RowSieve.Text
