import TokenPatterns.CharClass
import TokenPatterns.Regex.Token

/-!
# Mistakes in patterns

Positions count characters of the pattern's text, from 0.
-/
namespace TokenPatterns

def RangeError.message (error : RangeError) : String :=
  "range out of order in character class (" ++ Text.quoted error.first ++ " > " ++
    Text.quoted error.last ++ ")"

inductive PatternError where
  | rangeOutOfOrder (pos : Nat) (error : RangeError)
  | trailingBackslash (pos : Nat)
  /-- A `\u` escape of a code point that is no character. -/
  | invalidEscape (pos : Nat)
  | nothingToRepeat (pos : Nat)
  | boundsOutOfOrder (pos : Nat)
  | invalidGroup (pos : Nat)
  | unknownReference (pos : Nat)
  | unexpectedToken (pos : Nat) (c : Char)
  | expectedToken (pos : Nat) (expected : Regex.Token) (actual : Option Regex.Token)
  | unknownFlag (c : Char)
  | duplicateFlag (c : Char)
deriving DecidableEq

namespace PatternError

private def place (pos : Nat) : String := " at " ++ pos.repr

private def actualToken : Option Regex.Token → String
  | none => "None"
  | some token => "Some(" ++ token.description ++ ")"

def message : PatternError → String
  | rangeOutOfOrder pos error => error.message ++ place pos
  | trailingBackslash pos => "\\ at end of pattern" ++ place pos
  | invalidEscape pos => "invalid unicode escape" ++ place pos
  | nothingToRepeat pos => "nothing to repeat" ++ place pos
  | boundsOutOfOrder pos => "numbers out of order in \x7b\x7d quantifier" ++ place pos
  | invalidGroup pos => "invalid group" ++ place pos
  | unknownReference pos => "invalid named reference" ++ place pos
  | unexpectedToken pos c => "unexpected '" ++ c.toString ++ "'" ++ place pos
  | expectedToken pos expected actual =>
    "expected " ++ expected.description ++ ", got " ++ actualToken actual ++ place pos
  | unknownFlag c => "invalid regular expression flag '" ++ c.toString ++ "'"
  | duplicateFlag c => "duplicate regular expression flag '" ++ c.toString ++ "'"

/-- The position that a mistake names. Only those in flags name none. -/
def pos? : PatternError → Option Nat
  | rangeOutOfOrder pos _ => some pos
  | trailingBackslash pos => some pos
  | invalidEscape pos => some pos
  | nothingToRepeat pos => some pos
  | boundsOutOfOrder pos => some pos
  | invalidGroup pos => some pos
  | unknownReference pos => some pos
  | unexpectedToken pos _ => some pos
  | expectedToken pos _ _ => some pos
  | unknownFlag _ => none
  | duplicateFlag _ => none

end PatternError
end TokenPatterns
