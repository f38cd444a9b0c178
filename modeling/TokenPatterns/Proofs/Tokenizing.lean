import Mathlib.Data.List.Chain
import TokenPatterns.Tokenizer.Token

/-!
# Tokenizing loses and duplicates nothing

A text is cut into pieces, one behind the other, and what the tokenizer returns is these pieces,
sorted by what they are.
-/
namespace TokenPatterns

/-- A piece of a text: a match of a type, or a run of characters at which no type matches. -/
inductive Piece where
  | found (type start stop : Nat)
  | unmatched (start stop : Nat)
deriving DecidableEq

namespace Piece

def start : Piece → Nat
  | found _ start _ => start
  | unmatched start _ => start

def stop : Piece → Nat
  | found _ _ stop => stop
  | unmatched _ stop => stop

def isUnmatched : Piece → Bool
  | found .. => false
  | unmatched .. => true

/-- The pieces lie one behind the other, and cover what is between two offsets. -/
def Cover : (first last : Nat) → List Piece → Prop
  | first, last, [] => first = last
  | first, last, piece :: pieces => piece.start = first ∧ Cover piece.stop last pieces

end Piece

namespace Tokenizer

variable (tokenizer : Tokenizer) (input : Array Char)

def MatchesAt (offset type stop : Nat) : Prop :=
  ∃ analyzed, tokenizer.types[type]? = some analyzed ∧
    analyzed.program.matchAt? tokenizer.options.mapping input offset = some stop ∧ offset < stop

/-- A type is the first of the candidates that match at an offset. -/
def Wins (offset type stop : Nat) : Prop :=
  ∃ c before after, input[offset]? = some c ∧
    tokenizer.candidates c.toNat = before ++ type :: after ∧
    tokenizer.MatchesAt input offset type stop ∧
    ∀ other ∈ before, ∀ stop, ¬ tokenizer.MatchesAt input offset other stop

def FindsNothing (offset : Nat) : Prop :=
  ∃ c, input[offset]? = some c ∧
    ∀ type ∈ tokenizer.candidates c.toNat, ∀ stop, ¬ tokenizer.MatchesAt input offset type stop

/-- A piece is what it says it is. -/
def Fits : Piece → Prop
  | .found type start stop => tokenizer.Wins input start type stop
  | .unmatched start stop =>
    start < stop ∧ ∀ offset, start ≤ offset → offset < stop → tokenizer.FindsNothing input offset

/-- The pieces cover the text from an offset on, and no two runs of unmatched characters are beside
each other. -/
structure Splits (first : Nat) (pieces : List Piece) : Prop where
  cover : Piece.Cover first input.size pieces
  fits : ∀ piece ∈ pieces, tokenizer.Fits input piece
  separated : pieces.IsChain fun first second => ¬ (first.isUnmatched ∧ second.isUnmatched)

/-- Whether a piece is a match of a type whose tokens go to the given group. -/
def goesTo (group : TokenGroup) : Piece → Bool
  | .found type _ _ => tokenizer.group type == group
  | .unmatched .. => false

end Tokenizer

def Token.piece (token : Token) : Piece := .found token.type token.start token.stop

def UnmatchedRun.piece (run : UnmatchedRun) : Piece :=
  .unmatched run.start (run.start + run.length)

/-- A token is in the result, be it in the main group or in a named one. -/
def TokenizedText.Holds (result : TokenizedText) (token : Token) : Prop :=
  token ∈ result.tokens ∨
    ∃ (name : String) (tokens : Array Token), result.groups[name]? = some tokens ∧ token ∈ tokens

/-- The result of a tokenizer is the pieces, each where it belongs. -/
structure Tokenizer.Sorts (tokenizer : Tokenizer) (input : Array Char) (pieces : List Piece)
    (result : TokenizedText) : Prop where
  tokens : result.tokens.toList.map Token.piece = pieces.filter (tokenizer.goesTo .main)
  groups : ∀ name, result.groups[name]?.map (·.toList.map Token.piece) =
    if pieces.any (tokenizer.goesTo (.named name)) then
      some (pieces.filter (tokenizer.goesTo (.named name)))
    else none
  errors : result.errors.toList.map UnmatchedRun.piece = pieces.filter Piece.isUnmatched
  image : ∀ token, result.Holds token →
    token.image = String.ofList (input.extract token.start token.stop).toList

namespace Tokenizer

variable {tokenizer : Tokenizer} {input : Array Char} {offset : Nat}

theorem matchesAt_of_matchOf? {type : Nat} {found : TypeMatch offset}
    (h : tokenizer.matchOf? input offset type = some found) :
    found.type = type ∧ tokenizer.MatchesAt input offset type found.stop := by
  simp only [matchOf?, Option.bind_eq_bind, Option.bind_eq_some_iff] at h
  obtain ⟨analyzed, htype, stop, hstop, h⟩ := h
  split at h
  · next hlt =>
    cases h
    exact ⟨rfl, analyzed, htype, hstop, hlt⟩
  · cases h

theorem not_matchesAt_of_matchOf? {type stop : Nat}
    (h : tokenizer.matchOf? input offset type = none) :
    ¬ tokenizer.MatchesAt input offset type stop := by
  rintro ⟨analyzed, htype, hstop, hlt⟩
  simp [matchOf?, htype, hstop, hlt] at h

theorem wins_of_firstMatch? {found : TypeMatch offset}
    (h : tokenizer.firstMatch? input offset = some found) :
    tokenizer.Wins input offset found.type found.stop := by
  simp only [firstMatch?, Option.bind_eq_bind, Option.bind_eq_some_iff] at h
  obtain ⟨c, hc, h⟩ := h
  obtain ⟨before, type, after, hcandidates, hfound, hbefore⟩ := List.findSome?_eq_some_iff.mp h
  obtain ⟨rfl, hmatches⟩ := matchesAt_of_matchOf? hfound
  exact ⟨c, before, after, hc, hcandidates, hmatches,
    fun other hother stop => not_matchesAt_of_matchOf? (hbefore other hother)⟩

theorem findsNothing_of_firstMatch? (hoffset : offset < input.size)
    (h : tokenizer.firstMatch? input offset = none) : tokenizer.FindsNothing input offset := by
  have hc := Array.getElem?_eq_getElem hoffset
  refine ⟨input[offset], hc, ?_⟩
  intro type htype stop
  apply not_matchesAt_of_matchOf?
  simp only [firstMatch?, hc, Option.bind_eq_bind, Option.bind_some] at h
  exact List.findSome?_eq_none_iff.mp h type htype

theorem MatchesAt.stop_le {type stop : Nat} (h : tokenizer.MatchesAt input offset type stop) :
    stop ≤ input.size := by
  obtain ⟨analyzed, -, hstop, -⟩ := h
  exact (Program.matchAt?_le hstop).2

end Tokenizer

def Segment.piece : Segment → Piece
  | found type start last => .found type start.offset (last.offset + 1)
  | unmatched start stop => .unmatched start.offset stop

namespace Tokenizer

variable {tokenizer : Tokenizer} {input : Array Char}

theorem Splits.nil : tokenizer.Splits input input.size [] where
  cover := rfl
  fits := nofun
  separated := .nil

theorem Splits.found {type start stop : Nat} {pieces : List Piece}
    (hwins : tokenizer.Wins input start type stop) (h : tokenizer.Splits input stop pieces) :
    tokenizer.Splits input start (.found type start stop :: pieces) where
  cover := ⟨rfl, h.cover⟩
  fits := by
    intro piece hpiece
    rcases List.mem_cons.mp hpiece with rfl | hlater
    · exact hwins
    · exact h.fits piece hlater
  separated := by
    cases pieces with
    | nil => exact .singleton _
    | cons piece pieces => exact .cons_cons (fun hboth => by cases hboth.1) h.separated

theorem Splits.unmatched {start stop : Nat} {pieces : List Piece} (hlt : start < stop)
    (hrun : ∀ offset, start ≤ offset → offset < stop → tokenizer.FindsNothing input offset)
    (h : tokenizer.Splits input stop pieces)
    (hnext : ∀ piece ∈ pieces.head?, piece.isUnmatched = false) :
    tokenizer.Splits input start (.unmatched start stop :: pieces) where
  cover := ⟨rfl, h.cover⟩
  fits := by
    intro piece hpiece
    rcases List.mem_cons.mp hpiece with rfl | hlater
    · exact ⟨hlt, hrun⟩
    · exact h.fits piece hlater
  separated := by
    cases pieces with
    | nil => exact .singleton _
    | cons piece pieces =>
      refine .cons_cons ?_ h.separated
      intro hboth
      have hfound := hnext piece rfl
      rw [hfound] at hboth
      cases hboth.2

/-- The run that goes on at an offset, if there is one, has begun before it. -/
def RunsTo (tokenizer : Tokenizer) (input : Array Char) (run? : Option Cursor) (stop : Nat) :
    Prop :=
  ∀ start ∈ run?, start.offset < stop ∧
    ∀ offset, start.offset ≤ offset → offset < stop → tokenizer.FindsNothing input offset

theorem exists_splits_closeRun {run? : Option Cursor} {stop : Nat} (cursor : Cursor)
    (segments : Array Segment) {pieces : List Piece} (hrun : tokenizer.RunsTo input run? stop)
    (hstop : run? = none → cursor.offset = stop) (h : tokenizer.Splits input stop pieces)
    (hnext : ∀ piece ∈ pieces.head?, piece.isUnmatched = false) :
    ∃ run, (closeRun run? stop segments).toList.map Segment.piece =
        segments.toList.map Segment.piece ++ run ∧
      tokenizer.Splits input (run?.getD cursor).offset (run ++ pieces) := by
  cases run? with
  | none =>
    refine ⟨[], (List.append_nil _).symm, ?_⟩
    rw [Option.getD_none, hstop rfl]
    exact h
  | some start =>
    obtain ⟨hlt, hnothing⟩ := hrun start rfl
    refine ⟨[.unmatched start.offset stop], ?_, .unmatched hlt hnothing h hnext⟩
    simp [closeRun, Segment.piece]

theorem exists_splits_segmentsFrom (tokenizer : Tokenizer) (input : Array Char) (cursor : Cursor)
    (run? : Option Cursor) (segments : Array Segment) (hcursor : cursor.offset ≤ input.size)
    (hrun : tokenizer.RunsTo input run? cursor.offset) :
    ∃ pieces, (tokenizer.segmentsFrom input cursor run? segments).toList.map Segment.piece =
        segments.toList.map Segment.piece ++ pieces ∧
      tokenizer.Splits input (run?.getD cursor).offset pieces := by
  fun_induction segmentsFrom tokenizer input cursor run? segments with
  | case1 cursor run? segments hlt found hfound tracks last =>
    rename_i ih
    have hwins := wins_of_firstMatch? hfound
    have hlast : last.offset + 1 = found.stop := by
      have := found.offset_lt_stop
      simp only [last, Cursor.offset_advance]
      omega
    have hstop : found.stop ≤ input.size := by
      obtain ⟨-, -, -, -, -, hmatches, -⟩ := hwins
      exact hmatches.stop_le
    obtain ⟨pieces, hpieces, hsplits⟩ := ih (by rw [Cursor.offset_next, hlast]; exact hstop) nofun
    rw [Option.getD_none, Cursor.offset_next, hlast] at hsplits
    obtain ⟨run, hclose, hrest⟩ := exists_splits_closeRun cursor segments hrun
      (fun _ => rfl) (hsplits.found hwins) (fun piece hpiece => by cases hpiece; rfl)
    refine ⟨run ++ .found found.type cursor.offset found.stop :: pieces, ?_, hrest⟩
    rw [hpieces, Array.toList_push, List.map_append, hclose]
    simp [Segment.piece, hlast]
  | case2 cursor run? segments hlt hnothing ih =>
    have hcurrent := findsNothing_of_firstMatch? hlt hnothing
    have hgoesOn : tokenizer.RunsTo input (some (run?.getD cursor))
        (cursor.next input true).offset := by
      rintro start hstart
      cases hstart
      rw [Cursor.offset_next]
      cases run? with
      | none =>
        refine ⟨Nat.lt_succ_self _, ?_⟩
        intro offset hle hoffset
        obtain rfl : offset = cursor.offset := Nat.le_antisymm (Nat.le_of_lt_succ hoffset) hle
        exact hcurrent
      | some start =>
        obtain ⟨hbefore, hrun⟩ := hrun start rfl
        refine ⟨Nat.lt_succ_of_lt hbefore, ?_⟩
        intro offset hle hoffset
        by_cases hlast : offset = cursor.offset
        · rw [hlast]
          exact hcurrent
        · exact hrun offset hle (by omega)
    obtain ⟨pieces, hpieces, hsplits⟩ := ih (by rw [Cursor.offset_next]; exact hlt) hgoesOn
    exact ⟨pieces, hpieces, hsplits⟩
  | case3 cursor run? segments hend =>
    obtain heq : cursor.offset = input.size := Nat.le_antisymm hcursor (Nat.le_of_not_lt hend)
    rw [heq] at hrun
    obtain ⟨run, hclose, hsplits⟩ := exists_splits_closeRun cursor segments hrun (fun _ => heq)
      .nil nofun
    rw [List.append_nil] at hsplits
    exact ⟨run, hclose, hsplits⟩

theorem Sorts.empty : tokenizer.Sorts input [] {} where
  tokens := rfl
  groups := by
    intro name
    simp
  errors := rfl
  image := by
    rintro token (hmain | ⟨name, tokens, hname, -⟩)
    · simp at hmain
    · simp at hname

theorem piece_token (type : Nat) (start last : Cursor) :
    (tokenizer.token input type start last).piece =
      (Segment.found type start last).piece := rfl

theorem groups_addToken_named (text : TokenizedText) (token : Token) (name other : String) :
    (text.addToken token (.named name)).groups[other]? =
      if name = other then some ((text.groups[name]?.getD #[]).push token)
      else text.groups[other]? := by
  simp [TokenizedText.addToken, Std.TreeMap.getElem?_alter]

theorem holds_of_holds_addToken {text : TokenizedText} {token other : Token} {group : TokenGroup}
    (h : (text.addToken token group).Holds other) : text.Holds other ∨ other = token := by
  cases group with
  | main =>
    rcases h with hmain | hnamed
    · rcases Array.mem_push.mp hmain with hold | rfl
      · exact .inl (.inl hold)
      · exact .inr rfl
    · exact .inl (.inr hnamed)
  | skipped => exact .inl h
  | named name =>
    rcases h with hmain | ⟨key, tokens, hkey, hother⟩
    · exact .inl (.inl hmain)
    · rw [groups_addToken_named] at hkey
      split at hkey
      · cases hkey
        rcases Array.mem_push.mp hother with hold | rfl
        · cases hname : text.groups[name]? with
          | none => simp [hname] at hold
          | some old =>
            rw [hname] at hold
            exact .inl (.inr ⟨name, old, hname, hold⟩)
        · exact .inr rfl
      · exact .inl (.inr ⟨key, tokens, hkey, hother⟩)

/-- A named group is there as soon as one of its tokens is. -/
theorem Sorts.groups_addToken_named {pieces : List Piece} {result : TokenizedText} {type : Nat}
    {start last : Cursor} {name : String} (h : tokenizer.Sorts input pieces result)
    (hgroup : tokenizer.group type = .named name) (other : String) :
    (result.addToken (tokenizer.token input type start last) (.named name)).groups[other]?.map
        (·.toList.map Token.piece) =
      if (pieces ++ [(Segment.found type start last).piece]).any
          (tokenizer.goesTo (.named other)) then
        some ((pieces ++ [(Segment.found type start last).piece]).filter
          (tokenizer.goesTo (.named other)))
      else none := by
  have hother := h.groups other
  rw [Tokenizer.groups_addToken_named]
  by_cases heq : name = other
  · subst heq
    rw [if_pos rfl]
    cases hold : result.groups[name]? with
    | none =>
      have hnone : pieces.any (tokenizer.goesTo (.named name)) = false := by
        by_contra hany
        rw [hold, if_pos (by simpa using hany)] at hother
        cases hother
      have hempty : pieces.filter (tokenizer.goesTo (.named name)) = [] := by
        simpa using hnone
      simp [goesTo, Segment.piece, hgroup, hempty, piece_token]
    | some tokens =>
      rw [hold] at hother
      split at hother
      · simp only [Option.map_some, Option.some.injEq] at hother
        simp [goesTo, Segment.piece, hgroup, hother, piece_token]
      · cases hother
  · rw [if_neg heq]
    simpa [goesTo, Segment.piece, hgroup, heq] using hother

theorem Sorts.addToken {pieces : List Piece} {result : TokenizedText} {type : Nat}
    {start last : Cursor} (h : tokenizer.Sorts input pieces result) :
    tokenizer.Sorts input (pieces ++ [(Segment.found type start last).piece])
      (result.addToken (tokenizer.token input type start last) (tokenizer.group type)) where
  tokens := by
    cases hgroup : tokenizer.group type with
    | main => simp [TokenizedText.addToken, h.tokens, goesTo, Segment.piece, hgroup, piece_token]
    | skipped => simpa [TokenizedText.addToken, goesTo, Segment.piece, hgroup] using h.tokens
    | named name => simpa [TokenizedText.addToken, goesTo, Segment.piece, hgroup] using h.tokens
  groups := by
    intro other
    cases hgroup : tokenizer.group type with
    | main => simpa [TokenizedText.addToken, goesTo, Segment.piece, hgroup] using h.groups other
    | skipped => simpa [TokenizedText.addToken, goesTo, Segment.piece, hgroup] using h.groups other
    | named name => exact h.groups_addToken_named hgroup other
  errors := by
    cases tokenizer.group type with
    | main => simpa [TokenizedText.addToken, Segment.piece, Piece.isUnmatched] using h.errors
    | skipped => simpa [TokenizedText.addToken, Segment.piece, Piece.isUnmatched] using h.errors
    | named name => simpa [TokenizedText.addToken, Segment.piece, Piece.isUnmatched] using h.errors
  image := by
    intro token htoken
    rcases holds_of_holds_addToken htoken with hold | rfl
    · exact h.image token hold
    · rfl

theorem Sorts.addError {pieces : List Piece} {result : TokenizedText} {start : Cursor}
    {stop : Nat} {c : Char} (h : tokenizer.Sorts input pieces result)
    (hlt : start.offset < stop) :
    tokenizer.Sorts input (pieces ++ [(Segment.unmatched start stop).piece])
      (result.addError (tokenizer.unmatchedRun c start stop)) := by
  constructor
  · simpa [TokenizedText.addError, goesTo, Segment.piece] using h.tokens
  · intro name
    simpa [TokenizedText.addError, goesTo, Segment.piece] using h.groups name
  · have hstop : start.offset + (stop - start.offset) = stop := by omega
    simp [TokenizedText.addError, h.errors, Segment.piece, List.filter_cons, Piece.isUnmatched,
      UnmatchedRun.piece, unmatchedRun, hstop]
  · exact h.image

theorem Sorts.addSegment {pieces : List Piece} {result : TokenizedText} {segment : Segment}
    (h : tokenizer.Sorts input pieces result) (hfits : tokenizer.Fits input segment.piece) :
    tokenizer.Sorts input (pieces ++ [segment.piece])
      (tokenizer.addSegment input result segment) := by
  cases segment with
  | found type start last => exact h.addToken
  | unmatched start stop =>
    obtain ⟨hlt, hnothing⟩ := hfits
    obtain ⟨c, hc, -⟩ := hnothing start.offset (Nat.le_refl _) hlt
    simp only [Tokenizer.addSegment, hc]
    exact h.addError hlt

theorem Sorts.foldl {segments : List Segment} {pieces : List Piece} {result : TokenizedText}
    (h : tokenizer.Sorts input pieces result)
    (hfits : ∀ segment ∈ segments, tokenizer.Fits input segment.piece) :
    tokenizer.Sorts input (pieces ++ segments.map Segment.piece)
      (segments.foldl (tokenizer.addSegment input) result) := by
  induction segments generalizing pieces result with
  | nil => simpa using h
  | cons segment segments ih =>
    have hfirst := h.addSegment (hfits segment List.mem_cons_self)
    have hall := ih hfirst fun later hlater => hfits later (List.mem_cons_of_mem _ hlater)
    simpa using hall

/-- Every tokenizer cuts a text into pieces that lie one behind the other, and returns each of
them where it belongs. -/
theorem exists_splits_tokenize (tokenizer : Tokenizer) (text : String) :
    ∃ pieces, tokenizer.Splits text.toList.toArray 0 pieces ∧
      tokenizer.Sorts text.toList.toArray pieces (tokenizer.tokenize text) := by
  let input := text.toList.toArray
  obtain ⟨pieces, hpieces, hsplits⟩ :=
    exists_splits_segmentsFrom tokenizer input {} none #[] (Nat.zero_le _) nofun
  have hsegments : (tokenizer.segments input).toList.map Segment.piece = pieces := hpieces
  refine ⟨pieces, hsplits, ?_⟩
  rw [tokenize, ← Array.foldl_toList, ← hsegments]
  apply Sorts.empty.foldl
  intro segment hsegment
  apply hsplits.fits
  rw [← hsegments]
  exact List.mem_map_of_mem hsegment

end Tokenizer

end TokenPatterns
