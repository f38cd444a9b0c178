import TokenPatterns.Text.Cursor
import TokenPatterns.Tokenizer.Definition

/-!
# Segments of a text

A tokenizer cuts a text into segments: matches of its types, and runs of characters at which no
type matches. At each place the first candidate with a match that is not empty wins.
-/
namespace TokenPatterns

structure TypeMatch (offset : Nat) where
  type : Nat
  stop : Nat
  offset_lt_stop : offset < stop

inductive Segment where
  /-- A match of the type with the number `type`, whose last character is at `last`. -/
  | found (type : Nat) (start last : Cursor)
  /-- Characters up to `stop` at which no type matches. -/
  | unmatched (start : Cursor) (stop : Nat)
deriving DecidableEq

namespace Tokenizer

/-- The match of a type at `offset`, if it takes up any text. -/
def matchOf? (tokenizer : Tokenizer) (input : Array Char) (offset type : Nat) :
    Option (TypeMatch offset) := do
  let analyzed ← tokenizer.types[type]?
  let stop ← analyzed.program.matchAt? tokenizer.options.mapping input offset
  if h : offset < stop then some ⟨type, stop, h⟩ else none

/-- The match at `offset` of the first type that has one. -/
def firstMatch? (tokenizer : Tokenizer) (input : Array Char) (offset : Nat) :
    Option (TypeMatch offset) := do
  let c ← input[offset]?
  (tokenizer.candidates c.toNat).findSome? (tokenizer.matchOf? input offset)

def tracksLines (tokenizer : Tokenizer) (type : Nat) : Bool :=
  tokenizer.types[type]?.any AnalyzedType.tracksLines

/-- Adds the run of unmatched characters from `start?` up to `stop`, if there is one. -/
def closeRun (start? : Option Cursor) (stop : Nat) (segments : Array Segment) : Array Segment :=
  match start? with
  | some start => segments.push (.unmatched start stop)
  | none => segments

/-- Adds the segments from `cursor` to the end of the text. The run of unmatched characters that
goes on there, if there is one, started at `run?`. -/
def segmentsFrom (tokenizer : Tokenizer) (input : Array Char) (cursor : Cursor)
    (run? : Option Cursor) (segments : Array Segment) : Array Segment :=
  if cursor.offset < input.size then
    match tokenizer.firstMatch? input cursor.offset with
    | some found =>
      let tracks := tokenizer.tracksLines found.type
      let last := cursor.advance input tracks (found.stop - cursor.offset - 1)
      segmentsFrom tokenizer input (last.next input tracks) none
        ((closeRun run? cursor.offset segments).push (.found found.type cursor last))
    | none => segmentsFrom tokenizer input (cursor.next input true) (some (run?.getD cursor)) segments
  else closeRun run? input.size segments
termination_by input.size - cursor.offset
decreasing_by
  · simp only [Cursor.offset_next, Cursor.offset_advance]
    omega
  · rw [Cursor.offset_next]
    omega

def segments (tokenizer : Tokenizer) (input : Array Char) : Array Segment :=
  tokenizer.segmentsFrom input {} none #[]

end Tokenizer
end TokenPatterns
