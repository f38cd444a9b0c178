import TokenPatterns.Regex.Lexed

/-!
# Looking ahead

To look at the next token a lexer reads it, so it is elsewhere in the text afterwards and may be in
a class or behind it. What it holds ready makes up for that: whatever is asked of it later, it
replies as if nobody had looked. A request looks ahead, and does no more, if it peeks, or if it
takes a token on a condition that the next one does not meet.
-/
namespace TokenPatterns
namespace Regex

inductive Request where
  | tell
  | peek
  | next
  | consume (token : Token)
  | expect (token : Token)
  | until? (token : Token)
  /-- The next token by itself, as it comes up in an iteration. -/
  | item
deriving DecidableEq

inductive Reply where
  | position (pos : Nat)
  | next? (answer : Except PatternError (Option PlacedToken))
  | isTaken (answer : Except PatternError Bool)
  | placed (answer : Except PatternError PlacedToken)
  | item? (answer : Option (Except PatternError Token))

/-- Whether the reply says that no token was taken, and nothing went wrong. -/
def Request.onlyLooks : Request → Reply → Bool
  | peek, .next? (.ok _) => true
  | consume _, .isTaken (.ok false) => true
  | until? _, .next? (.ok none) => true
  | _, _ => false

namespace Lexer

/-- The next token by itself, or the mistake in its place. An iteration ends with the text. -/
def item? (lexer : Lexer) : Option (Except PatternError Token) × Lexer :=
  match lexer.next with
  | (.ok (some placed), later) => (some (.ok placed.token), later)
  | (.ok none, later) => (none, later)
  | (.error mistake, later) => (some (.error mistake), later)

def answer (lexer : Lexer) : Request → Reply × Lexer
  | .tell => (.position lexer.tell, lexer)
  | .peek => lexer.peek.map .next? id
  | .next => lexer.next.map .next? id
  | .consume token => (lexer.consume token).map .isTaken id
  | .expect token => (lexer.expect token).map .placed id
  | .until? token => (lexer.until? token).map .next? id
  | .item => lexer.item?.map .item? id

/-- The replies to requests that are made one after the other. -/
def replies : Lexer → List Request → List Reply
  | _, [] => []
  | lexer, request :: requests =>
    (lexer.answer request).1 :: replies (lexer.answer request).2 requests

def afterAll (lexer : Lexer) (requests : List Request) : Lexer :=
  requests.foldl (fun lexer request => (lexer.answer request).2) lexer

theorem length_replies (lexer : Lexer) (requests : List Request) :
    (lexer.replies requests).length = requests.length := by
  induction requests generalizing lexer with
  | nil => rfl
  | cons request requests ih => rw [replies, List.length_cons, List.length_cons, ih]

theorem replies_append (lexer : Lexer) (before after : List Request) :
    lexer.replies (before ++ after) =
      lexer.replies before ++ (lexer.afterAll before).replies after := by
  induction before generalizing lexer with
  | nil => rfl
  | cons request before ih =>
    rw [List.cons_append, replies, replies, ih, List.cons_append]
    rfl

theorem read_cases {lexer later : Lexer} {placed? : Option PlacedToken}
    (h : lexer.read = (.ok placed?, later)) :
    (∃ placed, placed? = some placed ∧ placed.pos = lexer.source.pos) ∨
      placed? = none ∧ later = lexer := by
  cases hnext : lexer.source.next? with
  | none =>
    simp only [read, hnext, Prod.mk.injEq, Except.ok.injEq] at h
    exact .inr ⟨h.1.symm, h.2.symm⟩
  | some next =>
    rw [read_of_next? hnext, Prod.mk.injEq] at h
    cases htoken : (readToken lexer.survey lexer.context lexer.source.pos next.1 next.2).1 with
    | error mistake => simp [htoken, Except.map] at h
    | ok token =>
      rw [htoken] at h
      cases h.1
      exact .inl ⟨_, rfl, rfl⟩

/-- A peek that goes well finds what is held ready, or reads it and holds it ready. -/
theorem peek_cases {lexer peeked : Lexer} {placed? : Option PlacedToken}
    (h : lexer.peek = (.ok placed?, peeked)) :
    lexer.ahead = some placed? ∧ peeked = lexer ∨
      lexer.ahead = none ∧ ∃ later, lexer.read = (.ok placed?, later) ∧ later.ahead = none ∧
        peeked = { later with ahead := some placed? } := by
  unfold peek at h
  split at h
  · next hahead =>
    cases h
    exact .inl ⟨hahead, rfl⟩
  · next hahead =>
    split at h
    · next later hread =>
      cases h
      refine .inr ⟨hahead, later, hread, ?_, rfl⟩
      rw [← hahead, ← read_ahead lexer, hread]
    · cases h

section Peeked

variable {lexer peeked : Lexer} {placed? : Option PlacedToken}

theorem ahead_of_peek (h : lexer.peek = (.ok placed?, peeked)) : peeked.ahead = some placed? := by
  obtain ⟨hahead, rfl⟩ | ⟨-, later, -, -, rfl⟩ := peek_cases h
  · exact hahead
  · rfl

theorem peek_of_peek (h : lexer.peek = (.ok placed?, peeked)) : peeked.peek = lexer.peek := by
  rw [h, peek, ahead_of_peek h]

theorem next_of_peek (h : lexer.peek = (.ok placed?, peeked)) : peeked.next = lexer.next := by
  obtain ⟨-, rfl⟩ | ⟨hahead, later, hread, hlater, rfl⟩ := peek_cases h
  · rfl
  · rw [next_of_ahead_eq_none hahead, hread, next, ← hlater]

theorem tell_of_peek (h : lexer.peek = (.ok placed?, peeked)) : peeked.tell = lexer.tell := by
  obtain ⟨-, rfl⟩ | ⟨hahead, later, hread, -, rfl⟩ := peek_cases h
  · rfl
  · obtain ⟨placed, rfl, hpos⟩ | ⟨rfl, rfl⟩ := read_cases hread
    · rw [tell, tell, hahead, ← hpos]
    · rw [tell, tell, hahead]

/-- A lexer that has looked ahead replies as before. Where it does more than tell its place, it is
also left as before. -/
theorem answer_of_peek (h : lexer.peek = (.ok placed?, peeked)) (request : Request) :
    (peeked.answer request).1 = (lexer.answer request).1 ∧
      ((peeked.answer request).2 = (lexer.answer request).2 ∨
        (peeked.answer request).2 = peeked ∧ (lexer.answer request).2 = lexer) := by
  have hpeek := peek_of_peek h
  have hnext := next_of_peek h
  have htell := tell_of_peek h
  cases request with
  | tell =>
    refine ⟨?_, .inr ⟨rfl, rfl⟩⟩
    simp only [answer, htell]
  | peek => simp only [answer, hpeek, true_or, and_self]
  | next => simp only [answer, hnext, true_or, and_self]
  | consume token => simp only [answer, consume, hpeek, true_or, and_self]
  | expect token => simp only [answer, expect, hnext, htell, true_or, and_self]
  | until? token => simp only [answer, until?, hpeek, true_or, and_self]
  | item => simp only [answer, item?, hnext, true_or, and_self]

/-- Nobody can tell later whether a lexer has looked ahead. -/
theorem replies_of_peek (h : lexer.peek = (.ok placed?, peeked)) (requests : List Request) :
    peeked.replies requests = lexer.replies requests := by
  induction requests with
  | nil => rfl
  | cons request requests ih =>
    rw [replies, replies]
    obtain ⟨hreply, hsame | ⟨hpeeked, hlexer⟩⟩ := answer_of_peek h request
    · rw [hreply, hsame]
    · rw [hreply, hpeeked, hlexer, ih]

end Peeked

/-- A request that only looks leaves the lexer as a peek does. -/
theorem exists_peek_of_onlyLooks {lexer : Lexer} {request : Request}
    (h : request.onlyLooks (lexer.answer request).1 = true) :
    ∃ placed?, lexer.peek = (.ok placed?, (lexer.answer request).2) := by
  rcases hpeek : lexer.peek with ⟨mistake | placed?, peeked⟩
  · cases request with
    | peek => simp [answer, hpeek, Request.onlyLooks] at h
    | consume token => simp [answer, consume, hpeek, Request.onlyLooks] at h
    | until? token => simp [answer, until?, hpeek, Request.onlyLooks] at h
    | _ => cases h
  · refine ⟨placed?, ?_⟩
    cases request with
    | peek => simp only [answer, hpeek, Prod.map, id]
    | consume token =>
      simp only [answer, consume, hpeek] at h ⊢
      split at h
      · cases h
      · next hother =>
        rw [if_neg hother]
        rfl
    | until? token =>
      simp only [answer, until?, hpeek] at h ⊢
      split at h
      · next hother =>
        rw [next, ahead_of_peek hpeek] at h
        cases placed? with
        | none => cases hother
        | some placed => cases h
      · next hend =>
        rw [if_neg hend]
        rfl
    | _ => cases h

/-- A request that only looks can be made at any point. Without its reply the replies are those to
the others. -/
theorem replies_insert (lexer : Lexer) (before after : List Request) {request : Request}
    (h : request.onlyLooks ((lexer.afterAll before).answer request).1 = true) :
    (lexer.replies (before ++ request :: after)).eraseIdx before.length =
      lexer.replies (before ++ after) := by
  obtain ⟨placed?, hpeek⟩ := exists_peek_of_onlyLooks h
  have hlength := length_replies lexer before
  rw [replies_append, replies_append, replies, replies_of_peek hpeek,
    List.eraseIdx_append_of_length_le (Nat.le_of_eq hlength), hlength, Nat.sub_self]
  rfl

/-- A look at what follows on the bracket of a class, where a hat is read in another way than behind
it. -/
theorem replies_insert_at_class_start :
    let lexer : Lexer := ofString "[^-a]b"
    let before : List Request := [.next]
    let after : List Request :=
      [.tell, .item, .expect .minus, .until? .classClose, .consume .classClose, .peek, .next, .item]
    let request : Request := .consume .minus
    (request.onlyLooks ((lexer.afterAll before).answer request).1 = true ∧
      (lexer.afterAll before).context = .classStart ∧
      (lexer.afterAll (before ++ [request])).context = .inClass) ∧
      (lexer.replies (before ++ request :: after)).eraseIdx before.length =
        lexer.replies (before ++ after) := by
  intro lexer before after request
  have honly : request.onlyLooks ((lexer.afterAll before).answer request).1 = true := by
    decide +kernel
  exact ⟨⟨honly, by decide +kernel, by decide +kernel⟩, replies_insert lexer before after honly⟩

end Lexer

end Regex
end TokenPatterns
