import TokenPatterns.Analysis.LeadingCodes

/-!
# Leading characters of token types

What is known of the characters that a match of a token type can begin with. What is declared of
them is taken as it is, and then the pattern is not even read.
-/
namespace TokenPatterns

/-- Why a token type has to be tried everywhere. -/
inductive Unlisted where
  /-- The leading codes of the pattern cannot be listed, or there are none. -/
  | notEnumerable
  | invalidPattern (error : PatternError)
deriving DecidableEq

inductive LeadingChars where
  | declared (codes : Array Nat)
  | listed (codes : Array Nat)
  | unlisted (reason : Unlisted)
deriving DecidableEq

namespace LeadingChars

def codes? : LeadingChars → Option (Array Nat)
  | declared codes => some codes
  | listed codes => some codes
  | unlisted _ => none

def ofPattern (mapping : CaseMapping) (pattern : Pattern) (declared? : Option (Array Nat)) :
    LeadingChars :=
  match declared? with
  | some codes => declared codes
  | none =>
    let codes := pattern.leadingCodes mapping none
    if codes.isEmpty then unlisted .notEnumerable else listed codes

def ofSource (mapping : CaseMapping) (source : PatternSource) (flags : Flags)
    (declared? : Option (Array Nat)) : LeadingChars :=
  match declared? with
  | some codes => declared codes
  | none =>
    match Pattern.ofSource? source flags with
    | .ok pattern => ofPattern mapping pattern none
    | .error error => unlisted (.invalidPattern error)

end LeadingChars
end TokenPatterns
