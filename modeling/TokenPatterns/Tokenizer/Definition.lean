import TokenPatterns.Analysis.Membership
import TokenPatterns.Dispatch.Table
import TokenPatterns.Machine.Run

/-!
# Tokenizers

A tokenizer is defined by token types, the earlier ones first in priority. All that can be known
of a type beforehand is found when the tokenizer is made. A type that matches the empty text is
refused, since it would never advance.
-/
namespace TokenPatterns

inductive TokenGroup where
  | main
  /-- Such tokens are matched and dropped. -/
  | skipped
  | named (name : String)
deriving DecidableEq

structure TokenType where
  name : String
  pattern : Pattern
  group : TokenGroup := .main
  /-- The code points that a match can begin with, if they are declared. -/
  declaredCodes? : Option (Array Nat) := none
  /-- Whether a match can hold line breaks, if that is declared. -/
  lineBreaks? : Option Bool := none
deriving DecidableEq

/-- Which places are recorded beside the offsets. -/
inductive PositionDetail where
  | full
  | start
  | offset
deriving DecidableEq

namespace PositionDetail

def showsStart (detail : PositionDetail) : Bool := detail != .offset

def showsEnd (detail : PositionDetail) : Bool := detail == .full

end PositionDetail

structure TokenizerOptions where
  mapping : CaseMapping := .unicode
  /-- A type that would have to be tried everywhere is refused. -/
  requireListed : Bool := false
  /-- Every type is tried everywhere. -/
  tryAll : Bool := false
  positions : PositionDetail := .full
deriving DecidableEq

inductive TokenizerError where
  | noTypes
  | matchesEmpty (name : String)
  | unlisted (name : String)
deriving DecidableEq

def TokenizerError.message : TokenizerError → String
  | noTypes => "a tokenizer needs at least one token type"
  | matchesEmpty name => "token type '" ++ name ++ "' can match the empty string"
  | unlisted name =>
    "the start characters of token type '" ++ name ++ "' cannot be determined; " ++
      "supply a start_chars_hint or disable ensure_optimizations"

/-- A token type with what is known of it beforehand. -/
structure AnalyzedType where
  type : TokenType
  program : Program
  leadingChars : LeadingChars
  /-- Whether lines are counted in what the type matches. -/
  tracksLines : Bool

def TokenType.analyze (options : TokenizerOptions) (type : TokenType) :
    Except TokenizerError AnalyzedType :=
  let program := type.pattern.program
  if (program.matchAt? options.mapping #[] 0).isSome then .error (.matchesEmpty type.name)
  else
    let leadingChars := LeadingChars.ofPattern options.mapping type.pattern type.declaredCodes?
    if options.requireListed && leadingChars.codes?.isNone then
      .error (.unlisted type.name)
    else
      .ok {
        type
        program
        leadingChars
        tracksLines := type.lineBreaks?.getD
          (type.pattern.canContain options.mapping lineTerminators) }

structure Tokenizer where
  types : Array AnalyzedType
  options : TokenizerOptions
  /-- The table by which types are picked, unless all are tried everywhere. -/
  dispatch? : Option DispatchTable

namespace Tokenizer

def ofTypes? (types : List TokenType) (options : TokenizerOptions) :
    Except TokenizerError Tokenizer :=
  if types.isEmpty then .error .noTypes
  else do
    let analyzed ← types.mapM (TokenType.analyze options)
    return {
      types := analyzed.toArray
      options
      dispatch? :=
        if options.tryAll then none
        else some (DispatchTable.ofEntries (analyzed.map AnalyzedType.leadingChars)) }

/-- The types to try, by priority, where the text goes on with `code`. -/
def candidates (tokenizer : Tokenizer) (code : Nat) : List Nat :=
  match tokenizer.dispatch? with
  | some table => table.candidates code
  | none => List.range tokenizer.types.size

end Tokenizer
end TokenPatterns
