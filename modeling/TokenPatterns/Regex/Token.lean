import TokenPatterns.Text.Quoted

/-!
# Tokens of regular expressions
-/
namespace TokenPatterns

/-- What a lookaround asks of the text beside a place. -/
structure Look where
  /-- Whether the text before the place is asked for, rather than that after it. -/
  behind : Bool
  negated : Bool
deriving DecidableEq

namespace Regex

inductive GroupKind where
  | capture
  | nonCapture
  | look (look : Look)
deriving DecidableEq

inductive Token where
  | literal (c : Char)
  /-- A character written as an escape, already decoded. -/
  | escaped (c : Char)
  | any
  /-- The letter of a shorthand class. -/
  | shorthand (letter : Char)
  | groupOpen (kind : GroupKind)
  | groupClose
  | classOpen
  | classClose
  | caret
  | dollar
  | wordBoundary
  | nonWordBoundary
  | pipe
  | star
  | plus
  | question
  | braces (min : Nat) (max : Option Nat)
  /-- A hyphen in a class. -/
  | minus
  /-- A reference to a group by the order of its opening parenthesis, from 1. -/
  | backreference (index : Nat)
deriving DecidableEq

/-- The character that a token stands for in a class, or begins with. -/
def Token.char : Token → Char
  | literal c => c
  | escaped c => c
  | any => '.'
  | shorthand letter => letter
  | groupOpen _ => '('
  | groupClose => ')'
  | classOpen => '['
  | classClose => ']'
  | caret => '^'
  | dollar => '$'
  | wordBoundary => 'b'
  | nonWordBoundary => 'B'
  | pipe => '|'
  | star => '*'
  | plus => '+'
  | question => '?'
  | braces .. => '{'
  | minus => '-'
  | backreference _ => '\\'

structure PlacedToken where
  pos : Nat
  token : Token
deriving DecidableEq

def GroupKind.description : GroupKind → String
  | capture => "Capture"
  | nonCapture => "NonCapture"
  | look ⟨false, false⟩ => "Lookahead"
  | look ⟨false, true⟩ => "NegativeLookahead"
  | look ⟨true, false⟩ => "Lookbehind"
  | look ⟨true, true⟩ => "NegativeLookbehind"

/-- How a token is named in the text of an error. -/
def Token.description : Token → String
  | literal c => "Literal(" ++ Text.quoted c ++ ")"
  | escaped c => "EscapedLiteral(" ++ Text.quoted c ++ ")"
  | any => "Any"
  | shorthand letter => "Class(" ++ Text.quoted letter ++ ")"
  | groupOpen kind => "LParen(" ++ kind.description ++ ")"
  | groupClose => "RParen"
  | classOpen => "LBracket"
  | classClose => "RBracket"
  | caret => "Caret"
  | dollar => "Dollar"
  | wordBoundary => "WordBoundary"
  | nonWordBoundary => "NonWordBoundary"
  | pipe => "Pipe"
  | star => "Star"
  | plus => "Plus"
  | question => "Question"
  | braces min none => "Braces(" ++ min.repr ++ ", None)"
  | braces min (some max) => "Braces(" ++ min.repr ++ ", Some(" ++ max.repr ++ "))"
  | minus => "Minus"
  | backreference index => "Backreference(" ++ index.repr ++ ")"

end Regex
end TokenPatterns
