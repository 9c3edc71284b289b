import RowSieve.ColumnFunction
import RowSieve.Text.CaseMapping
import RowSieve.Text.Search

/-!
# Functions on texts

Column functions that take one column of texts.  They work slot by slot and keep the nulls;
lengths and positions count characters, though patterns are searched for in the encoding.
-/

namespace RowSieve

/-- A function on texts. -/
inductive TextFunction where
  /-- The text in upper case. -/
  | upper
  /-- The text in lower case. -/
  | lower
  /-- The text without white space at its ends. -/
  | strip
  /-- The number of characters. -/
  | length
  /-- The pattern occurs in the text. -/
  | contains (pattern : String)
  /-- The text begins with the pattern. -/
  | startsWith (pattern : String)
  /-- The text ends with the pattern. -/
  | endsWith (pattern : String)
  /-- The first position of the pattern, or −1. -/
  | find (pattern : String)
  /-- The characters from one position up to another. -/
  | slice (start : Nat) (stop : Option Nat)
  deriving DecidableEq

namespace TextFunction

/-- The name of a function in the text of a refusal. -/
def name : TextFunction → String
  | .upper => "upper"
  | .lower => "lower"
  | .strip => "strip"
  | .length => "len"
  | .contains _ => "contains"
  | .startsWith _ => "starts_with"
  | .endsWith _ => "ends_with"
  | .find _ => "find"
  | .slice _ _ => "slice"

/-- The type of the results. -/
def kind : TextFunction → Kind
  | .upper | .lower | .strip | .slice _ _ => .string
  | .length | .find _ => .int
  | .contains _ | .startsWith _ | .endsWith _ => .boolean

/-- A position as an integer, −1 for none. -/
def position : Option Nat → Int64
  | some place => .ofNat place
  | none => -1

/-- The result for one text. -/
def apply : (function : TextFunction) → String → function.kind.Slot
  | .upper, text => String.ofList (Text.upper text.toList)
  | .lower, text => String.ofList (Text.lower text.toList)
  | .strip, text => String.ofList (Text.strip text.toList)
  | .length, text => Int64.ofNat text.toList.length
  | .contains pattern, text => (Text.find? (Text.bytes pattern) (Text.bytes text)).isSome
  | .startsWith pattern, text => (Text.bytes pattern).isPrefixOf (Text.bytes text)
  | .endsWith pattern, text => (Text.bytes pattern).isSuffixOf (Text.bytes text)
  | .find pattern, text =>
    position <| (Text.find? (Text.bytes pattern) (Text.bytes text)).map fun place =>
      (Text.before place text.toList).length
  | .slice start stop, text => String.ofList (Text.slice start stop text.toList)

/-- The function on columns. -/
def call (function : TextFunction) : ColumnFunction
  | [input] =>
    match input.strings? with
    | none =>
      ColumnFunction.refuse s!"{function.name} expects a string column, got {input.kind.name}"
    | some texts =>
      let output : Column := ⟨function.kind, texts.map function.apply, none⟩
      match input.validity with
      | some validity => Outcome.ofExcept ((output.withValidity validity).mapError Failure.data)
      | none => .ok output
  | arguments =>
    ColumnFunction.refuse s!"{function.name} takes exactly one column, got {arguments.length}"

/-- The functions without parameters, under the names by which they are registered together. -/
def named : List (String × ColumnFunction) :=
  [("str_upper", upper.call), ("str_lower", lower.call), ("str_strip", strip.call),
   ("str_len", length.call)]

end TextFunction

end RowSieve
