import TokenPatterns.Regex.Error

/-!
# Flags of patterns
-/
namespace TokenPatterns

/-- The global and the sticky flag only change how matches are searched for, so they are kept and
otherwise have no effect. -/
structure Flags where
  ignoreCase : Bool := false
  multiline : Bool := false
  dotAll : Bool := false
  unicode : Bool := false
  global : Bool := false
  sticky : Bool := false
deriving DecidableEq

namespace Flags

def get? (flags : Flags) : Char → Option Bool
  | 'i' => some flags.ignoreCase
  | 'm' => some flags.multiline
  | 's' => some flags.dotAll
  | 'u' => some flags.unicode
  | 'g' => some flags.global
  | 'y' => some flags.sticky
  | _ => none

/-- Sets the flag that `letter` names, if it names one. -/
def set (flags : Flags) (letter : Char) : Flags :=
  match letter with
  | 'i' => { flags with ignoreCase := true }
  | 'm' => { flags with multiline := true }
  | 's' => { flags with dotAll := true }
  | 'u' => { flags with unicode := true }
  | 'g' => { flags with global := true }
  | 'y' => { flags with sticky := true }
  | _ => flags

def add (flags : Flags) (letter : Char) : Except PatternError Flags :=
  match flags.get? letter with
  | none => .error (.unknownFlag letter)
  | some true => .error (.duplicateFlag letter)
  | some false => .ok (flags.set letter)

def ofString? (text : String) : Except PatternError Flags :=
  text.toList.foldlM add {}

end Flags
end TokenPatterns
