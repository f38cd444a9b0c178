import TokenPatterns.Unicode.Extending
import TokenPatterns.Unicode.Ignorable
import TokenPatterns.Unicode.Printable

/-!
# Quoted characters

How a character is shown in the text of an error: between single quotes, with a backslash form
for what cannot be seen or would end the quotation.
-/
namespace TokenPatterns
namespace Text

/-- Whether the character can be seen for itself, on its own. -/
def isVisible (c : Char) : Bool :=
  Unicode.isPrintable c && !Unicode.isExtending c && !Unicode.isIgnorable c

def hexadecimal (code : Nat) : String := String.ofList (Nat.toDigits 16 code)

/-- The character as it stands between single quotes. -/
def escaped (c : Char) : String :=
  match c with
  | '\x00' => "\\0"
  | '\t' => "\\t"
  | '\r' => "\\r"
  | '\n' => "\\n"
  | '\'' => "\\'"
  | '\\' => "\\\\"
  | c =>
    if isVisible c then c.toString
    else "\\u\x7b" ++ hexadecimal c.toNat ++ "\x7d"

def quoted (c : Char) : String := "'" ++ escaped c ++ "'"

end Text
end TokenPatterns
