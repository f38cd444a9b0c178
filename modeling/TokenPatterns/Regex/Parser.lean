import TokenPatterns.Pattern.Node
import TokenPatterns.Regex.Lexer

/-!
# From tokens to a tree

One pass over the tokens of a pattern. The groups that are still open are kept as a stack, each
with what stood before it, so that the depth of a pattern is not limited. A mistake of the lexer
counts at the place where the next token would be looked at.
-/
namespace TokenPatterns
namespace Regex

/-- The mistake of a pattern that ends before the token `expected`. -/
def Lexed.endError (lexed : Lexed) (expected : Token) : PatternError :=
  lexed.mistake.getD (.expectedToken lexed.finish expected none)

/-- Whether a token after a hyphen is the upper end of a range. -/
def Token.endsRange : Token → Bool
  | classClose => false
  | shorthand _ => false
  | _ => true

/-- Adds the members of a class up to its closing bracket, and returns the tokens after it. A
hyphen between two characters makes them the ends of a range, and stands for itself otherwise. -/
def readMembers (lexed : Lexed) (set : CharClass) :
    List PlacedToken → Except PatternError (CharClass × List PlacedToken)
  | [] => .error (lexed.endError .classClose)
  | ⟨_, .classClose⟩ :: rest => .ok (set, rest)
  | ⟨_, .shorthand letter⟩ :: rest =>
    readMembers lexed ((set.addShorthand? letter).getD set) rest
  | ⟨_, _⟩ :: ⟨_, .minus⟩ :: [] => .error (lexed.endError .classClose)
  | ⟨pos, first⟩ :: ⟨_, .minus⟩ :: ⟨lastPos, last⟩ :: rest =>
    if last.endsRange then
      match set.addRange first.char last.char with
      | .error error => .error (.rangeOutOfOrder pos error)
      | .ok set => readMembers lexed set rest
    else readMembers lexed ((set.addChar first.char).addChar '-') (⟨lastPos, last⟩ :: rest)
  | ⟨_, token⟩ :: rest => readMembers lexed (set.addChar token.char) rest

/-- The class whose opening bracket was just read, and the tokens after it. -/
def readClass (lexed : Lexed) (tokens : List PlacedToken) :
    Except PatternError (CharClass × List PlacedToken) :=
  match tokens with
  | ⟨_, .caret⟩ :: rest =>
    (readMembers lexed .empty rest).map fun (set, after) => (set.invert, after)
  | _ => readMembers lexed .empty tokens

theorem length_of_readMembers {lexed : Lexed} {set result : CharClass}
    {tokens rest : List PlacedToken} (h : readMembers lexed set tokens = .ok (result, rest)) :
    rest.length < tokens.length := by
  fun_induction readMembers lexed set tokens with
  | case1 => simp at h
  | case2 =>
    cases h
    simp
  | case3 _ _ _ _ ih => exact Nat.lt_succ_of_lt (ih h)
  | case4 => simp at h
  | case5 => simp at h
  | case6 _ _ _ _ _ _ _ _ _ _ _ _ ih =>
    have := ih h
    simp only [List.length_cons]
    omega
  | case7 _ _ _ _ _ _ _ _ _ _ ih =>
    have := ih h
    simp only [List.length_cons] at this ⊢
    omega
  | case8 _ _ _ _ _ _ _ _ ih => exact Nat.lt_succ_of_lt (ih h)

theorem length_of_readClass {lexed : Lexed} {set : CharClass} {tokens rest : List PlacedToken}
    (h : readClass lexed tokens = .ok (set, rest)) : rest.length < tokens.length := by
  unfold readClass at h
  split at h
  · next after =>
    cases hmembers : readMembers lexed .empty after with
    | error => simp [hmembers, Except.map] at h
    | ok result =>
      simp only [hmembers, Except.map, Except.ok.injEq, Prod.mk.injEq] at h
      have := length_of_readMembers hmembers
      rw [← h.2, List.length_cons]
      omega
  · exact length_of_readMembers h

/-- What has been read of a group, or of the whole pattern: its finished branches and the items of
the branch at hand, both latest first. -/
structure Draft where
  branches : List Node := []
  items : List Node := []

namespace Draft

def add (draft : Draft) (item : Node) : Draft := { draft with items := item :: draft.items }

def branch (draft : Draft) : Node :=
  match draft.items with
  | [item] => item
  | items => .concat items.reverse

def nextBranch (draft : Draft) : Draft := ⟨draft.branch :: draft.branches, []⟩

/-- All that was read. One branch stands for itself. -/
def node (draft : Draft) : Node :=
  match draft.branches with
  | [] => draft.branch
  | branches => .alternation (draft.branch :: branches).reverse

end Draft

/-- What a parenthesis opened. -/
inductive Opening where
  | group (capture : Option Nat)
  | look (kind : Look)
deriving DecidableEq

namespace Opening

def ofKind (captures : Nat) : GroupKind → Opening
  | .capture => group (some (captures + 1))
  | .nonCapture => group none
  | .look kind => look kind

def captures : Opening → Nat
  | group (some _) => 1
  | _ => 0

def node (inner : Node) : Opening → Node
  | group capture => .group capture inner
  | look kind => .look kind inner

end Opening

structure OpenGroup where
  opening : Opening
  /-- What was read before the group. -/
  before : Draft

/-- The node of a token that stands for itself outside of classes. -/
def Token.node? : Token → Option Node
  | literal c => some (.literal c)
  | escaped c => some (.literal c)
  | any => some .anyChar
  | shorthand letter => (CharClass.shorthand? letter).map .charClass
  | caret => some (.anchor .start)
  | dollar => some (.anchor .finish)
  | wordBoundary => some (.anchor .wordBoundary)
  | nonWordBoundary => some (.anchor .nonWordBoundary)
  | backreference index => some (.backreference index)
  | _ => none

def Token.quantifier? : Token → Option Quantifier
  | star => some .star
  | plus => some .plus
  | question => some .question
  | braces min max => some ⟨min, max, true⟩
  | _ => none

/-- The quantifier, made lazy by a question mark after it, and the tokens that follow. -/
def readLaziness (lexed : Lexed) (quantifier : Quantifier) :
    List PlacedToken → Except PatternError (Quantifier × List PlacedToken)
  | ⟨_, .question⟩ :: rest => .ok (quantifier.lazy, rest)
  | [] =>
    match lexed.mistake with
    | some mistake => .error mistake
    | none => .ok (quantifier, [])
  | rest => .ok (quantifier, rest)

theorem length_of_readLaziness {lexed : Lexed} {quantifier result : Quantifier}
    {tokens rest : List PlacedToken}
    (h : readLaziness lexed quantifier tokens = .ok (result, rest)) :
    rest.length ≤ tokens.length := by
  unfold readLaziness at h
  split at h
  · cases h
    simp
  · split at h
    · simp at h
    · cases h
      simp
  · cases h
    simp

/-- Applies the quantifier at `pos` to the last item. -/
def Draft.repeatLast (draft : Draft) (pos : Nat) (lexed : Lexed) (quantifier : Quantifier)
    (rest : List PlacedToken) : Except PatternError (Draft × List PlacedToken) :=
  match draft.items with
  | [] => .error (.nothingToRepeat pos)
  | item :: items =>
    if quantifier.inOrder then
      match readLaziness lexed quantifier rest with
      | .error mistake => .error mistake
      | .ok (quantifier, rest) =>
        if item.isRepeatable then
          .ok ({ draft with items := .repetition quantifier item :: items }, rest)
        else .error (.nothingToRepeat pos)
    else .error (.boundsOutOfOrder pos)

theorem length_of_repeatLast {draft result : Draft} {pos : Nat} {lexed : Lexed}
    {quantifier : Quantifier} {tokens rest : List PlacedToken}
    (h : draft.repeatLast pos lexed quantifier tokens = .ok (result, rest)) :
    rest.length ≤ tokens.length := by
  unfold Draft.repeatLast at h
  split at h
  · simp at h
  · split at h
    · split at h
      · simp at h
      · next hlazy =>
        split at h
        · cases h
          exact length_of_readLaziness hlazy
        · simp at h
    · simp at h

/-- The tree of the tokens, given what was read before them: a draft inside of open groups, the
innermost first, and the number of captures so far. -/
def parseFrom (lexed : Lexed) (draft : Draft) (groups : List OpenGroup) (captures : Nat) :
    List PlacedToken → Except PatternError Node
  | [] =>
    match lexed.mistake, groups with
    | some mistake, _ => .error mistake
    | none, [] => .ok draft.node
    | none, _ :: _ => .error (lexed.endError .groupClose)
  | ⟨pos, token⟩ :: rest =>
    match token with
    | .pipe => parseFrom lexed draft.nextBranch groups captures rest
    | .groupOpen kind =>
      let opening := Opening.ofKind captures kind
      parseFrom lexed {} (⟨opening, draft⟩ :: groups) (captures + opening.captures) rest
    | .groupClose =>
      match groups with
      | [] => .error (.unexpectedToken pos token.char)
      | group :: groups =>
        parseFrom lexed (group.before.add (group.opening.node draft.node)) groups captures rest
    | .classOpen =>
      match _ : readClass lexed rest with
      | .error mistake => .error mistake
      | .ok (set, rest) => parseFrom lexed (draft.add (.charClass set)) groups captures rest
    | token =>
      match token.quantifier? with
      | some quantifier =>
        match _ : draft.repeatLast pos lexed quantifier rest with
        | .error mistake => .error mistake
        | .ok (draft, rest) => parseFrom lexed draft groups captures rest
      | none =>
        match token.node? with
        | some node => parseFrom lexed (draft.add node) groups captures rest
        | none => .error (.unexpectedToken pos token.char)
termination_by tokens => tokens.length
decreasing_by
  · simp
  · simp
  · simp
  · have := length_of_readClass ‹_›
    simp only [List.length_cons]
    omega
  · have := length_of_repeatLast ‹_›
    simp only [List.length_cons]
    omega
  · simp

def parse (text : String) : Except PatternError Node :=
  let lexed := lex text
  parseFrom lexed {} [] 0 lexed.tokens

end Regex
end TokenPatterns
