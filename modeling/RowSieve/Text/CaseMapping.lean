import RowSieve.Text.Cased
import RowSieve.Text.CaseTables

/-!
# Upper and lower case

A text is put in upper or lower case character by character; a character may become several.  The
one character that looks at its neighbours is the capital sigma, which has a form of its own at
the end of a word.
-/

namespace RowSieve.Text

/-- The code point that a run leads to, if the code point belongs to the run. -/
def CaseRun.target? (run : CaseRun) (code : Nat) : Option Nat :=
  if run.first ≤ code && code ≤ run.last && (code - run.first) % run.step = 0 then
    some (code + run.shift).toNat
  else none

/-- What a character becomes under a table of runs and expansions. -/
def mapCase (runs : List CaseRun) (expansions : List (Nat × List Nat)) (c : Char) : List Char :=
  match runs.findSome? (·.target? c.toNat) with
  | some code => [Char.ofNat code]
  | none =>
    match expansions.lookup c.toNat with
    | some codes => codes.map Char.ofNat
    | none => [c]

/-- The text in upper case. -/
def upper (text : List Char) : List Char :=
  text.flatMap (mapCase upperRuns upperExpansions)

/-- A cased letter comes first, ignorable characters passed over. -/
def startsCased (text : List Char) : Bool :=
  match text.dropWhile isCaseIgnorable with
  | c :: _ => isCased c
  | [] => false

/-- A character in lower case between the reversed text before it and the text after it.  A capital
sigma that ends a word becomes a final sigma. -/
def lowerAt (before : List Char) (c : Char) (after : List Char) : List Char :=
  if c = 'Σ' then
    if startsCased before && !startsCased after then ['ς'] else ['σ']
  else mapCase lowerRuns lowerExpansions c

/-- The rest of a text in lower case, after a reversed beginning. -/
def lowerAfter (before : List Char) : List Char → List Char
  | [] => []
  | c :: after => lowerAt before c after ++ lowerAfter (c :: before) after

/-- The text in lower case. -/
def lower (text : List Char) : List Char :=
  lowerAfter [] text

end RowSieve.Text
