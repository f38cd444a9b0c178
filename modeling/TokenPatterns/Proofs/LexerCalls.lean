import TokenPatterns.Regex.Lexed

/-!
# Calls for the next token

A lexer that is called on and on goes through its text. Every call takes up the text from where the
one before it ended, and names the place where it began, in a token or in a mistake. It takes up one
character at least, however far a reader inside it went back. So the calls come to the end of the
text, and stay there.
-/
namespace TokenPatterns
namespace Regex

section Mistakes

variable {survey : GroupSurvey} {context : Context} {inClass atStart : Bool} {pos : Nat} {c : Char}
  {source after : Source} {mistake : PatternError}

theorem pos?_of_readNamedReference
    (h : (readNamedReference survey pos source).1 = .error mistake) : mistake.pos? = some pos := by
  unfold readNamedReference at h
  split at h
  · cases h
    rfl
  · dsimp only at h
    split at h
    · cases h
      rfl
    · split at h <;> cases h
      rfl

theorem pos?_of_readUnicode (h : (readUnicode pos after).1 = .error mistake) :
    mistake.pos? = some pos := by
  unfold readUnicode at h
  split at h
  · cases h
  · split at h <;> cases h
    rfl

theorem exists_readOctal (c : Char) (after : Source) :
    ∃ token, (readOctal c after).1 = .ok token := by
  unfold readOctal
  split <;> exact ⟨_, rfl⟩

theorem exists_readNumeric (survey : GroupSurvey) (inClass : Bool) (c : Char)
    (source after : Source) :
    ∃ token, (readNumeric survey inClass c source after).1 = .ok token := by
  unfold readNumeric
  split
  · exact exists_readOctal c after
  · split
    · exact exists_readOctal c after
    · split
      · exact ⟨_, rfl⟩
      · exact exists_readOctal c after

theorem exists_readControl (source after : Source) :
    ∃ token, (readControl source after).1 = .ok token := by
  unfold readControl
  split
  · exact ⟨_, rfl⟩
  · split <;> exact ⟨_, rfl⟩

theorem exists_readHexadecimal (after : Source) :
    ∃ token, (readHexadecimal after).1 = .ok token := by
  unfold readHexadecimal
  split <;> exact ⟨_, rfl⟩

theorem pos?_of_readEscape (h : (readEscape survey inClass pos source).1 = .error mistake) :
    mistake.pos? = some pos := by
  have hok : ∀ {reading : Reading}, (∃ token, reading.1 = .ok token) →
      reading.1 = .error mistake → mistake.pos? = some pos := by
    rintro reading ⟨token, htoken⟩ hmistake
    rw [htoken] at hmistake
    cases hmistake
  unfold readEscape at h
  split at h
  · cases h
    rfl
  · split at h
    · cases h
    · split at h
      · exact hok (exists_readNumeric ..) h
      · split at h
        · exact pos?_of_readNamedReference h
        · split at h
          · cases h
          · cases h
          · exact hok (exists_readControl ..) h
          · exact hok (exists_readHexadecimal _) h
          · exact pos?_of_readUnicode h
          · cases h

theorem pos?_of_readGroupKind (h : (readGroupKind survey pos source).1 = .error mistake) :
    mistake.pos? = some pos := by
  unfold readGroupKind at h
  split at h
  · cases h
  · split at h
    case h_1 =>
      cases h
      rfl
    case h_5 =>
      split at h
      · cases h
      · cases h
      · dsimp only at h
        split at h
        · split at h <;> cases h
          rfl
        · cases h
          rfl
    case h_6 =>
      cases h
      rfl
    all_goals cases h

theorem pos?_of_readToken (h : (readToken survey context pos c after).1 = .error mistake) :
    mistake.pos? = some pos := by
  have hclass : ∀ atStart, (readInClass survey atStart pos c after).1 = .error mistake →
      mistake.pos? = some pos := by
    intro atStart h
    unfold readInClass at h
    split at h
    case h_4 => exact pos?_of_readEscape h
    all_goals cases h
  cases context with
  | classStart => exact hclass true h
  | inClass => exact hclass false h
  | outside =>
    simp only [readToken] at h
    unfold readOutside at h
    split at h
    case h_1 =>
      cases hkind : (readGroupKind survey pos after).1 with
      | ok kind => simp [hkind, Except.map] at h
      | error inner =>
        simp only [hkind, Except.map, Except.error.injEq] at h
        exact h ▸ pos?_of_readGroupKind hkind
    case h_11 => split at h <;> cases h
    case h_12 => exact pos?_of_readEscape h
    all_goals cases h

end Mistakes

/-- The place that a call names, in its token or its mistake. At the end of the text there is
none. -/
def namedPlace? : Except PatternError (Option PlacedToken) → Option Nat
  | .ok placed? => placed?.map PlacedToken.pos
  | .error mistake => mistake.pos?

namespace Lexer

/-- The lexer after so many calls for the next token, whatever they gave. -/
def afterCalls : (count : Nat) → Lexer → Lexer
  | 0, lexer => lexer
  | count + 1, lexer => afterCalls count lexer.next.2

/-- Whether a lexer has come somewhere in a text, with nothing read ahead. -/
structure IsIn (text : List Char) (lexer : Lexer) : Prop where
  ahead_eq : lexer.ahead = none
  leadsTo : (Source.mk 0 text).LeadsTo lexer.source

variable {text : List Char} {lexer : Lexer}

theorem isIn_ofString (text : String) : (ofString text).IsIn text.toList :=
  ⟨rfl, .refl _⟩

namespace IsIn

theorem tell_eq (h : lexer.IsIn text) : lexer.tell = lexer.source.pos := by
  rw [tell, h.ahead_eq]

theorem tell_add_length (h : lexer.IsIn text) :
    lexer.tell + lexer.source.rest.length = text.length := by
  obtain ⟨word, htext, hpos⟩ := h.leadsTo
  simp only at htext hpos
  rw [h.tell_eq, htext, List.length_append, hpos, Nat.zero_add]

theorem next_of_none (h : lexer.IsIn text) (hnext : lexer.source.next? = none) :
    lexer.next = (.ok none, lexer) := by
  rw [next_of_ahead_eq_none h.ahead_eq, read, hnext]

theorem next_of_some (h : lexer.IsIn text) {c : Char} {after : Source}
    (hnext : lexer.source.next? = some (c, after)) :
    namedPlace? lexer.next.1 = some lexer.tell ∧ lexer.tell < lexer.next.2.tell ∧
      lexer.next.2.IsIn text := by
  have hlater : after.LeadsTo
      (readToken lexer.survey lexer.context lexer.source.pos c after).2 := leadsTo_readToken
  rw [next_of_ahead_eq_none h.ahead_eq, read_of_next? hnext]
  have hin : IsIn text { lexer with
      source := (readToken lexer.survey lexer.context lexer.source.pos c after).2
      context := lexer.context.after c } :=
    ⟨h.ahead_eq, h.leadsTo.trans ((Source.leadsTo_of_next? hnext).trans hlater)⟩
  refine ⟨?_, ?_, hin⟩
  · rw [h.tell_eq]
    cases htoken : (readToken lexer.survey lexer.context lexer.source.pos c after).1 with
    | ok token => rfl
    | error mistake => exact pos?_of_readToken htoken
  · obtain ⟨word, -, hpos⟩ := hlater
    have hafter := (Source.next?_eq_some hnext).2
    rw [hin.tell_eq, h.tell_eq]
    dsimp only
    omega

end IsIn

/-- So many calls take a lexer through what is left of a text. -/
structure GoesThrough (text : List Char) (lexer : Lexer) (count : Nat) : Prop where
  named : ∀ k < count,
    namedPlace? (lexer.afterCalls k).next.1 = some (lexer.afterCalls k).tell
  advances : ∀ k < count, (lexer.afterCalls k).tell < (lexer.afterCalls (k + 1)).tell
  finished : ∀ k, count ≤ k →
    (lexer.afterCalls k).next.1 = .ok none ∧ (lexer.afterCalls k).tell = text.length
  /-- Each call takes up the text as far as the next one, and together they take up all of it. -/
  covers : (List.range count).flatMap (fun k =>
    text.extract (lexer.afterCalls k).tell (lexer.afterCalls (k + 1)).tell) =
      text.drop lexer.tell

theorem GoesThrough.zero (h : lexer.IsIn text) (hnext : lexer.source.next? = none) :
    GoesThrough text lexer 0 := by
  have hstays : ∀ k, lexer.afterCalls k = lexer := by
    intro k
    induction k with
    | zero => rfl
    | succ k ih => rw [afterCalls, h.next_of_none hnext, ih]
  have htell : lexer.tell = text.length := by
    have hlength := h.tell_add_length
    rwa [Source.next?_eq_none hnext] at hlength
  refine ⟨nofun, nofun, fun k _ => ?_, ?_⟩
  · rw [hstays k, h.next_of_none hnext]
    exact ⟨rfl, htell⟩
  · rw [htell, List.drop_length]
    rfl

theorem GoesThrough.succ {count : Nat}
    (hnamed : namedPlace? lexer.next.1 = some lexer.tell) (hlt : lexer.tell < lexer.next.2.tell)
    (h : GoesThrough text lexer.next.2 count) : GoesThrough text lexer (count + 1) := by
  refine ⟨fun k hk => ?_, fun k hk => ?_, fun k hk => ?_, ?_⟩
  · cases k with
    | zero => exact hnamed
    | succ k => exact h.named k (Nat.lt_of_succ_lt_succ hk)
  · cases k with
    | zero => exact hlt
    | succ k => exact h.advances k (Nat.lt_of_succ_lt_succ hk)
  · cases k with
    | zero => cases hk
    | succ k => exact h.finished k (Nat.le_of_succ_le_succ hk)
  · have hdrop : text.drop lexer.next.2.tell =
        (text.drop lexer.tell).drop (lexer.next.2.tell - lexer.tell) := by
      rw [List.drop_drop, Nat.add_sub_cancel' (Nat.le_of_lt hlt)]
    calc (List.range (count + 1)).flatMap (fun k =>
          text.extract (lexer.afterCalls k).tell (lexer.afterCalls (k + 1)).tell)
      _ = text.extract lexer.tell lexer.next.2.tell ++ (List.range count).flatMap (fun k =>
          text.extract (lexer.next.2.afterCalls k).tell
            (lexer.next.2.afterCalls (k + 1)).tell) := by
        rw [List.range_succ_eq_map, List.flatMap_cons, List.flatMap_map]
        rfl
      _ = text.extract lexer.tell lexer.next.2.tell ++ text.drop lexer.next.2.tell := by
        rw [h.covers]
      _ = text.drop lexer.tell := by
        rw [hdrop]
        exact List.take_append_drop ..

theorem IsIn.exists_goesThrough (h : lexer.IsIn text) :
    ∃ count ≤ lexer.source.rest.length, GoesThrough text lexer count := by
  induction hleft : lexer.source.rest.length using Nat.strongRecOn generalizing lexer with
  | ind left ih =>
    cases hnext : lexer.source.next? with
    | none => exact ⟨0, Nat.zero_le _, .zero h hnext⟩
    | some next =>
      obtain ⟨hnamed, hlt, hlater⟩ := h.next_of_some hnext
      have hlength := h.tell_add_length
      have hlaterLength := hlater.tell_add_length
      obtain ⟨count, hle, hthrough⟩ := ih _ (by omega) hlater rfl
      exact ⟨count + 1, by omega, hthrough.succ hnamed hlt⟩

/-- The calls for the next token go through every text, in at most as many of them as there are
characters. Mistakes count as tokens do, and stop nothing. -/
theorem exists_calls_through_text (text : String) : ∃ count ≤ text.length,
    (ofString text).tell = 0 ∧ GoesThrough text.toList (ofString text) count := by
  obtain ⟨count, hle, hthrough⟩ := (isIn_ofString text).exists_goesThrough
  exact ⟨count, hle, rfl, hthrough⟩

end Lexer

end Regex
end TokenPatterns
