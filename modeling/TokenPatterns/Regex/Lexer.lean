import TokenPatterns.Regex.Escape

/-!
# Splitting a pattern into tokens

The meaning of most characters depends on whether they stand in a class, so the lexer keeps that
beside the source. It may also hold one token that was read but not taken yet. A mistake does not
stop it: the next token is read from where the mistake ended. Every token and every mistake takes
up at least one character, so reading ends.
-/
namespace TokenPatterns
namespace Regex

inductive Context where
  | outside
  /-- Just after the bracket that opens a class. -/
  | classStart
  | inClass
deriving DecidableEq

def Context.after (c : Char) : Context → Context
  | outside => if c = '[' then classStart else outside
  | _ => if c = ']' then outside else inClass

/-- The rest of a parenthesis that opens a group: `?` and a mark, or nothing. -/
def readGroupKind (survey : GroupSurvey) (pos : Nat) (source : Source) :
    Except PatternError GroupKind × Source :=
  match source.skip? '?' with
  | none => (.ok .capture, source)
  | some mark =>
    match mark.next? with
    | none => (.error (.invalidGroup pos), mark)
    | some (':', later) => (.ok .nonCapture, later)
    | some ('=', later) => (.ok (.look ⟨false, false⟩), later)
    | some ('!', later) => (.ok (.look ⟨false, true⟩), later)
    | some ('<', inner) =>
      match inner.skip? '=', inner.skip? '!' with
      | some later, _ => (.ok (.look ⟨true, false⟩), later)
      | none, some later => (.ok (.look ⟨true, true⟩), later)
      | none, none =>
        let (name, afterName) := inner.span isNameChar
        if name ≠ [] ∧ survey.uses name = 1 then
          match afterName.skip? '>' with
          | some later => (.ok .capture, later)
          | none => (.error (.invalidGroup pos), afterName)
        else (.error (.invalidGroup pos), afterName)
    | some (_, later) => (.error (.invalidGroup pos), later)

/-- The token outside of classes that begins with `c`, given the source after `c`. -/
def readOutside (survey : GroupSurvey) (pos : Nat) (c : Char) (after : Source) : Reading :=
  match c with
  | '(' =>
    let (kind, later) := readGroupKind survey pos after
    (kind.map .groupOpen, later)
  | ')' => (.ok .groupClose, after)
  | '[' => (.ok .classOpen, after)
  | '.' => (.ok .any, after)
  | '^' => (.ok .caret, after)
  | '$' => (.ok .dollar, after)
  | '|' => (.ok .pipe, after)
  | '*' => (.ok .star, after)
  | '+' => (.ok .plus, after)
  | '?' => (.ok .question, after)
  | '\x7b' =>
    match readBraces? after with
    | some ((min, max), later) => (.ok (.braces min max), later)
    | none => (.ok (.literal c), after)
  | '\\' => readEscape survey false pos after
  | c => (.ok (.literal c), after)

/-- The token in a class that begins with `c`, given the source after `c`. -/
def readInClass (survey : GroupSurvey) (atStart : Bool) (pos : Nat) (c : Char) (after : Source) :
    Reading :=
  match c with
  | ']' => (.ok .classClose, after)
  | '^' => (.ok (if atStart then .caret else .literal c), after)
  | '-' => (.ok .minus, after)
  | '\\' => readEscape survey true pos after
  | c => (.ok (.literal c), after)

def readToken (survey : GroupSurvey) (context : Context) (pos : Nat) (c : Char) (after : Source) :
    Reading :=
  match context with
  | .outside => readOutside survey pos c after
  | .classStart => readInClass survey true pos c after
  | .inClass => readInClass survey false pos c after

structure Lexer where
  survey : GroupSurvey
  source : Source
  context : Context := .outside
  /-- What was read ahead: a token or the end of the text. -/
  ahead : Option (Option PlacedToken) := none

/-- The tokens of a text up to its end or its first mistake. -/
structure Lexed where
  tokens : List PlacedToken
  mistake : Option PatternError
  /-- The position where reading stopped. -/
  finish : Nat

namespace Lexer

def ofString (text : String) : Lexer :=
  { survey := .ofText text.toList, source := .ofString text }

/-- The position of the next token. -/
def tell (lexer : Lexer) : Nat :=
  match lexer.ahead with
  | some (some placed) => placed.pos
  | _ => lexer.source.pos

/-- Reads a token from the source, whatever was read ahead. -/
def read (lexer : Lexer) : Except PatternError (Option PlacedToken) × Lexer :=
  match lexer.source.next? with
  | none => (.ok none, lexer)
  | some (c, after) =>
    let pos := lexer.source.pos
    let (token, later) := readToken lexer.survey lexer.context pos c after
    (token.map fun token => some ⟨pos, token⟩,
      { lexer with source := later, context := lexer.context.after c })

/-- The next token, which stays to be taken. -/
def peek (lexer : Lexer) : Except PatternError (Option PlacedToken) × Lexer :=
  match lexer.ahead with
  | some placed? => (.ok placed?, lexer)
  | none =>
    match lexer.read with
    | (.ok placed?, later) => (.ok placed?, { later with ahead := some placed? })
    | (.error mistake, later) => (.error mistake, later)

def next (lexer : Lexer) : Except PatternError (Option PlacedToken) × Lexer :=
  match lexer.ahead with
  | some placed? => (.ok placed?, { lexer with ahead := none })
  | none => lexer.read

/-- Takes the next token if it is the given one. -/
def consume (token : Token) (lexer : Lexer) : Except PatternError Bool × Lexer :=
  match lexer.peek with
  | (.error mistake, later) => (.error mistake, later)
  | (.ok placed?, later) =>
    if placed?.any (·.token == token) then (.ok true, { later with ahead := none })
    else (.ok false, later)

/-- Takes the next token, which must be the given one. -/
def expect (expected : Token) (lexer : Lexer) : Except PatternError PlacedToken × Lexer :=
  match lexer.next with
  | (.error mistake, later) => (.error mistake, later)
  | (.ok none, later) => (.error (.expectedToken lexer.tell expected none), later)
  | (.ok (some placed), later) =>
    if placed.token = expected then (.ok placed, later)
    else (.error (.expectedToken lexer.tell expected (some placed.token)), later)

/-- Takes the next token unless it is the given one or there is none. -/
def until? (token : Token) (lexer : Lexer) : Except PatternError (Option PlacedToken) × Lexer :=
  match lexer.peek with
  | (.error mistake, later) => (.error mistake, later)
  | (.ok placed?, later) =>
    if placed?.any (·.token != token) then later.next else (.ok none, later)

theorem leadsTo_readGroupKind {survey : GroupSurvey} {pos : Nat} {source : Source} :
    source.LeadsTo (readGroupKind survey pos source).2 := by
  unfold readGroupKind
  split
  · exact .refl _
  · next mark hmark =>
    refine (Source.skipsTo_of_skip? hmark rfl).leadsTo.trans ?_
    split
    · exact .refl _
    · next hnext => exact Source.leadsTo_of_next? hnext
    · next hnext => exact Source.leadsTo_of_next? hnext
    · next hnext => exact Source.leadsTo_of_next? hnext
    · next inner hnext =>
      refine (Source.leadsTo_of_next? hnext).trans ?_
      split
      · next hskip => exact (Source.skipsTo_of_skip? hskip rfl).leadsTo
      · next hskip => exact (Source.skipsTo_of_skip? hskip rfl).leadsTo
      · have hname := Source.skipsTo_span (fun _ => isOrdinary_of_isNameChar) inner
        dsimp only
        split
        · split
          · next hclose => exact (hname.trans (Source.skipsTo_of_skip? hclose rfl)).leadsTo
          · exact hname.leadsTo
        · exact hname.leadsTo
    · next hnext => exact Source.leadsTo_of_next? hnext

theorem leadsTo_readOutside {survey : GroupSurvey} {pos : Nat} {c : Char} {after : Source} :
    after.LeadsTo (readOutside survey pos c after).2 := by
  unfold readOutside
  split
  case h_1 => exact leadsTo_readGroupKind
  case h_11 =>
    split
    · next hbraces => exact (skipsTo_of_readBraces? hbraces).leadsTo
    · exact .refl _
  case h_12 => exact leadsTo_readEscape
  all_goals exact .refl _

theorem leadsTo_readInClass {survey : GroupSurvey} {atStart : Bool} {pos : Nat} {c : Char}
    {after : Source} : after.LeadsTo (readInClass survey atStart pos c after).2 := by
  unfold readInClass
  split
  case h_4 => exact leadsTo_readEscape
  all_goals exact .refl _

theorem leadsTo_readToken {survey : GroupSurvey} {context : Context} {pos : Nat} {c : Char}
    {after : Source} : after.LeadsTo (readToken survey context pos c after).2 := by
  cases context with
  | outside => exact leadsTo_readOutside
  | classStart => exact leadsTo_readInClass
  | inClass => exact leadsTo_readInClass

theorem length_read_lt {lexer : Lexer} (h : lexer.read.1 ≠ .ok none) :
    lexer.read.2.source.rest.length < lexer.source.rest.length := by
  unfold read at *
  split at h
  · exact absurd rfl h
  · next c after hnext =>
    have hlater : after.rest.length < lexer.source.rest.length := by
      rw [(Source.next?_eq_some hnext).1, List.length_cons]
      omega
    exact Nat.lt_of_le_of_lt leadsTo_readToken.length_le hlater

/-- How many more tokens there can be at most. -/
def remaining (lexer : Lexer) : Nat :=
  lexer.source.rest.length + if lexer.ahead.isSome then 1 else 0

theorem read_ahead (lexer : Lexer) : lexer.read.2.ahead = lexer.ahead := by
  unfold read
  split <;> rfl

theorem remaining_next_lt {lexer later : Lexer} {placed : PlacedToken}
    (h : lexer.next = (.ok (some placed), later)) : later.remaining < lexer.remaining := by
  unfold next at h
  split at h
  · next hahead =>
    cases h
    simp [remaining, hahead]
  · next hahead =>
    have hlt : later.source.rest.length < lexer.source.rest.length := by
      have hread : lexer.read.1 ≠ .ok none := by simp [h]
      have := length_read_lt hread
      rwa [h] at this
    have hlater : later.ahead = none := by
      rw [← hahead, ← read_ahead lexer, h]
    simpa [remaining, hahead, hlater] using hlt

/-- The tokens that are left, after those in `read`. -/
def rest (lexer : Lexer) (read : Array PlacedToken) : Lexed :=
  match _ : lexer.next with
  | (.error mistake, later) => ⟨read.toList, some mistake, later.tell⟩
  | (.ok none, later) => ⟨read.toList, none, later.tell⟩
  | (.ok (some placed), later) => later.rest (read.push placed)
termination_by lexer.remaining
decreasing_by exact remaining_next_lt ‹_›

end Lexer

def lex (text : String) : Lexed := (Lexer.ofString text).rest #[]

end Regex
end TokenPatterns
