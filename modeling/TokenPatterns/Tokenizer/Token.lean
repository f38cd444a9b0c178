import TokenPatterns.Tokenizer.Segment

/-!
# Tokens and unmatched runs

The segments of a text are sorted by what they are: the tokens of the main group, those of each
named group, and the runs of characters that no type matches. Each is in the order of the text.
-/
namespace TokenPatterns

/-- A matched piece of text. `stop` is the offset behind it, and `last?` is where its last
character stands. -/
structure Token where
  type : Nat
  image : String
  start : Nat
  stop : Nat
  start? : Option Place
  last? : Option Place
deriving DecidableEq

/-- A run of characters that no type matches. -/
structure UnmatchedRun where
  start : Nat
  start? : Option Place
  length : Nat
  first : Char
deriving DecidableEq

def UnmatchedRun.message (run : UnmatchedRun) : String :=
  "unexpected character: ->" ++ run.first.toString ++ "<- at offset: " ++ run.start.repr ++
    ", skipped " ++ run.length.repr ++ " characters."

structure TokenizedText where
  tokens : Array Token := #[]
  groups : Std.TreeMap String (Array Token) := {}
  errors : Array UnmatchedRun := #[]

namespace TokenizedText

def addToken (token : Token) (text : TokenizedText) : TokenGroup → TokenizedText
  | .main => { text with tokens := text.tokens.push token }
  | .skipped => text
  | .named name =>
    let addTo (tokens? : Option (Array Token)) := (tokens?.getD #[]).push token
    { text with groups := text.groups.alter name fun tokens? => some (addTo tokens?) }

def addError (run : UnmatchedRun) (text : TokenizedText) : TokenizedText :=
  { text with errors := text.errors.push run }

end TokenizedText

namespace PositionDetail

def start? (detail : PositionDetail) (cursor : Cursor) : Option Place :=
  if detail.showsStart then some cursor.toPlace else none

def last? (detail : PositionDetail) (cursor : Cursor) : Option Place :=
  if detail.showsEnd then some cursor.toPlace else none

@[simp] theorem start?_full (cursor : Cursor) : full.start? cursor = some cursor.toPlace := rfl

@[simp] theorem last?_full (cursor : Cursor) : full.last? cursor = some cursor.toPlace := rfl

end PositionDetail

namespace Tokenizer

def token (tokenizer : Tokenizer) (input : Array Char) (type : Nat) (start last : Cursor) :
    Token where
  type
  image := String.ofList (input.extract start.offset (last.offset + 1)).toList
  start := start.offset
  stop := last.offset + 1
  start? := tokenizer.options.positions.start? start
  last? := tokenizer.options.positions.last? last

def unmatchedRun (tokenizer : Tokenizer) (first : Char) (start : Cursor) (stop : Nat) :
    UnmatchedRun where
  start := start.offset
  start? := tokenizer.options.positions.start? start
  length := stop - start.offset
  first

def group (tokenizer : Tokenizer) (type : Nat) : TokenGroup :=
  match tokenizer.types[type]? with
  | some analyzed => analyzed.type.group
  | none => .skipped

def addSegment (tokenizer : Tokenizer) (input : Array Char) (text : TokenizedText) :
    Segment → TokenizedText
  | .found type start last =>
    text.addToken (tokenizer.token input type start last) (tokenizer.group type)
  | .unmatched start stop =>
    match input[start.offset]? with
    | some first => text.addError (tokenizer.unmatchedRun first start stop)
    | none => text

def tokenize (tokenizer : Tokenizer) (text : String) : TokenizedText :=
  let input := text.toList.toArray
  (tokenizer.segments input).foldl (tokenizer.addSegment input) {}

end Tokenizer
end TokenPatterns
