import TokenPatterns.Regex.Spelling

/-!
# The survey counts what the lexer opens

The survey of groups goes through a text without splitting it into tokens. It still keeps step with
the lexer: ordinary characters mean nothing to it, so that both agree on where classes begin and
end and which parentheses open something.
-/
namespace TokenPatterns
namespace Regex

/-- How many of the tokens open a group that captures. -/
def captureOpenings (tokens : List Token) : Nat := tokens.count (.groupOpen .capture)

def Context.isClass : Context → Bool
  | outside => false
  | _ => true

namespace GroupSurvey

/-- Counts the group that a token opens, given the text behind its first character. -/
def addToken (survey : GroupSurvey) (text : List Char) : Token → GroupSurvey
  | .groupOpen _ => survey.addOpening text
  | _ => survey

/-- Counts the groups that the tokens of a text open. -/
def addTokens (text : List Char) (survey : GroupSurvey) (tokens : List PlacedToken) : GroupSurvey :=
  tokens.foldl (fun survey placed => survey.addToken (text.drop (placed.pos + 1)) placed.token)
    survey

theorem addText_of_isOrdinary {c : Char} (h : Source.isOrdinary c = true) (survey : GroupSurvey)
    (inClass : Bool) (text : List Char) :
    survey.addText inClass (c :: text) = survey.addText inClass text := by
  simp only [Source.isOrdinary, Bool.and_eq_true, bne_iff_ne, ne_eq] at h
  obtain ⟨⟨⟨hslash, hopen⟩, hclose⟩, hparen⟩ := h
  rw [addText] <;> simp_all

theorem addText_append (word : List Char) (h : word.all Source.isOrdinary = true)
    (survey : GroupSurvey) (inClass : Bool) (text : List Char) :
    survey.addText inClass (word ++ text) = survey.addText inClass text := by
  induction word with
  | nil => rfl
  | cons c word ih =>
    simp only [List.all_cons, Bool.and_eq_true] at h
    rw [List.cons_append, addText_of_isOrdinary h.1, ih h.2]

theorem addText_of_skipsTo {source later : Source} (h : source.SkipsTo later)
    (survey : GroupSurvey) (inClass : Bool) :
    survey.addText inClass source.rest = survey.addText inClass later.rest := by
  obtain ⟨word, hrest, -, hordinary⟩ := h
  rw [hrest, addText_append word hordinary]

/-- What says which group is opened consists of ordinary characters. -/
theorem addText_of_opens {groups : GroupSurvey} {text rest : List Char} {kind : GroupKind}
    (h : Opens groups text kind rest) (survey : GroupSurvey) (inClass : Bool) :
    survey.addText inClass text = survey.addText inClass rest := by
  cases h with
  | plain => rfl
  | @named name _ _ hname =>
    have hname : name.all Source.isOrdinary = true :=
      List.all_eq_true.mpr fun c hc => isOrdinary_of_isNameChar (List.all_eq_true.mp hname c hc)
    have hordinary : ('?' :: '<' :: (name ++ ['>'])).all Source.isOrdinary = true := by
      rw [List.all_cons, List.all_cons, List.all_append, hname]
      rfl
    rw [← addText_append _ hordinary survey inClass rest]
    simp
  | nonCapture => exact addText_append ['?', ':'] rfl survey inClass rest
  | ahead => exact addText_append ['?', '='] rfl survey inClass rest
  | notAhead => exact addText_append ['?', '!'] rfl survey inClass rest
  | behind => exact addText_append ['?', '<', '='] rfl survey inClass rest
  | notBehind => exact addText_append ['?', '<', '!'] rfl survey inClass rest

section Openings

variable {groups : GroupSurvey} {text rest name : List Char} {kind : GroupKind}

theorem addOpening_plain (h : text.head? ≠ some '?') (survey : GroupSurvey) :
    survey.addOpening text = { survey with count := survey.count + 1 } := by
  cases text with
  | nil => rfl
  | cons c text =>
    have hc : c ≠ '?' := by simpa using h
    rw [addOpening] <;> simp [hc]

theorem addOpening_named (hname : name.all isNameChar = true)
    (survey : GroupSurvey) (rest : List Char) :
    survey.addOpening ('?' :: '<' :: (name ++ '>' :: rest)) =
      ⟨survey.count + 1, survey.names.push (name, survey.count + 1)⟩ := by
  rw [addOpening, takeWhile_isNameChar hname]
  · exact fun more heq => name_append_ne hname isNameChar_equal (by decide) heq
  · exact fun more heq => name_append_ne hname isNameChar_bang (by decide) heq

theorem addOpening_of_ne_capture (h : Opens groups text kind rest) (hkind : kind ≠ .capture)
    (survey : GroupSurvey) : survey.addOpening text = survey := by
  cases h with
  | plain => exact absurd rfl hkind
  | named => exact absurd rfl hkind
  | _ => rfl

theorem count_addOpening (h : Opens groups text .capture rest) (survey : GroupSurvey) :
    (survey.addOpening text).count = survey.count + 1 := by
  cases h with
  | plain hplain => rw [addOpening_plain hplain]
  | named hne hname => rw [addOpening_named hname]

theorem mem_names_addOpening (h : Opens groups text .capture rest) (survey : GroupSurvey)
    (entry : List Char × Nat) : entry ∈ (survey.addOpening text).names ↔
      entry ∈ survey.names ∨ entry.2 = survey.count + 1 ∧ entry.1.all isNameChar = true ∧
        '?' :: '<' :: (entry.1 ++ ['>']) <+: text := by
  obtain ⟨name, number⟩ := entry
  cases h with
  | plain hplain =>
    rw [addOpening_plain hplain]
    refine ⟨.inl, fun h => h.resolve_right ?_⟩
    rintro ⟨-, -, more, rfl⟩
    exact hplain rfl
  | @named spelled rest hne hall =>
    rw [addOpening_named hall, Array.mem_push]
    refine or_congr_right ⟨?_, ?_⟩
    · rintro heq
      cases heq
      exact ⟨rfl, hall, rest, by simp⟩
    · rintro ⟨hnumber, hname, more, heq⟩
      simp only [List.cons_append, List.append_assoc, List.cons.injEq, true_and] at heq
      exact Prod.ext (name_unique hname hall heq) hnumber

end Openings

section Tokens

variable {groups : GroupSurvey} {text : List Char} {pos : Nat} {token : Token}
  {tokens : List PlacedToken}

theorem count_addToken (h : OpensAsSpelled groups text (⟨pos, token⟩ :: tokens))
    (survey : GroupSurvey) : (survey.addToken (text.drop (pos + 1)) token).count =
      survey.count + if token = .groupOpen .capture then 1 else 0 := by
  cases token with
  | groupOpen kind =>
    obtain ⟨-, rest, hopens⟩ := h pos kind List.mem_cons_self
    by_cases hkind : kind = .capture
    · subst hkind
      rw [if_pos rfl]
      exact count_addOpening hopens survey
    · rw [if_neg (by simpa using hkind)]
      exact congrArg count (addOpening_of_ne_capture hopens hkind survey)
  | _ => rfl

theorem count_addTokens (h : OpensAsSpelled groups text tokens) (survey : GroupSurvey) :
    (survey.addTokens text tokens).count =
      survey.count + captureOpenings (tokens.map PlacedToken.token) := by
  induction tokens generalizing survey with
  | nil => rfl
  | cons placed tokens ih =>
    have hrest := ih h.tail (survey.addToken (text.drop (placed.pos + 1)) placed.token)
    rw [count_addToken h] at hrest
    simp only [captureOpenings, List.map_cons, List.count_cons, beq_iff_eq]
    rw [Nat.add_comm (List.count _ _), ← Nat.add_assoc]
    exact hrest

end Tokens

end GroupSurvey

section Steps

variable {groups : GroupSurvey} {context : Context} {inClass : Bool} {pos : Nat} {c : Char}
  {source after : Source} {token : Token}

/-- An escape means nothing to the survey. -/
theorem addText_readEscape (survey : GroupSurvey) (isClass : Bool)
    (h : (readEscape groups inClass pos source).1 = .ok token) :
    survey.addText isClass ('\\' :: source.rest) =
      survey.addText isClass (readEscape groups inClass pos source).2.rest := by
  cases hnext : source.next? with
  | none => simp [readEscape, hnext] at h
  | some next =>
    obtain ⟨c, after⟩ := next
    rw [(Source.next?_eq_some hnext).1, GroupSurvey.addText]
    rcases readEscape_cases hnext with hskips | ⟨hc, hskips⟩
    · exact GroupSurvey.addText_of_skipsTo hskips survey _
    · rw [← GroupSurvey.addText_of_skipsTo hskips, (Source.next?_eq_some hnext).1,
        GroupSurvey.addText_of_isOrdinary hc]

theorem addToken_of_isEscape (h : IsEscape groups inClass token) (survey : GroupSurvey)
    (text : List Char) : survey.addToken text token = survey := by
  cases h <;> rfl

/-- A character of a class that is no bracket and no backslash means nothing to the survey. -/
theorem addText_inClass (hslash : c ≠ '\\') (hclose : c ≠ ']') (survey : GroupSurvey)
    (text : List Char) : survey.addText true (c :: text) = survey.addText true text := by
  by_cases hopen : c = '['
  · rw [hopen, GroupSurvey.addText]
  · by_cases hparen : c = '('
    · rw [hparen, GroupSurvey.addText, if_pos rfl]
    · apply GroupSurvey.addText_of_isOrdinary
      simp [Source.isOrdinary, hslash, hopen, hclose, hparen]

theorem addText_outside (hslash : c ≠ '\\') (hopen : c ≠ '[') (hparen : c ≠ '(')
    (survey : GroupSurvey) (text : List Char) :
    survey.addText false (c :: text) = survey.addText false text := by
  by_cases hclose : c = ']'
  · rw [hclose, GroupSurvey.addText]
  · apply GroupSurvey.addText_of_isOrdinary
    simp [Source.isOrdinary, hslash, hopen, hclose, hparen]

theorem addText_readInClass (hgroups : groups.Numbered) (atStart : Bool) (survey : GroupSurvey)
    (h : (readInClass groups atStart pos c after).1 = .ok token) :
    survey.addText true (c :: after.rest) =
      (survey.addToken after.rest token).addText (c != ']')
        (readInClass groups atStart pos c after).2.rest := by
  revert h
  unfold readInClass
  split
  · intro h
    cases h
    rw [GroupSurvey.addText]
    rfl
  · intro h
    cases h
    rw [addText_inClass (by decide) (by decide)]
    cases atStart <;> rfl
  · intro h
    cases h
    exact addText_inClass (by decide) (by decide) survey _
  · intro h
    rw [addToken_of_isEscape (isEscape_of_readEscape hgroups h)]
    exact addText_readEscape survey _ h
  · next hclose _ _ hslash =>
    intro h
    cases h
    rw [bne_iff_ne.mpr hclose]
    exact addText_inClass hslash hclose survey _

theorem addText_readOutside (hgroups : groups.Numbered) (survey : GroupSurvey)
    (h : (readOutside groups pos c after).1 = .ok token) :
    survey.addText false (c :: after.rest) =
      (survey.addToken after.rest token).addText (c == '[')
        (readOutside groups pos c after).2.rest := by
  revert h
  unfold readOutside
  split
  case h_1 =>
    intro h
    cases hkind : (readGroupKind groups pos after).1 with
    | error mistake => simp [hkind, Except.map] at h
    | ok kind =>
      simp only [hkind, Except.map, Except.ok.injEq] at h
      rw [GroupSurvey.addText, if_neg (by decide), ← h,
        GroupSurvey.addText_of_opens (opens_of_readGroupKind hkind)]
      rfl
  case h_3 =>
    intro h
    cases h
    rw [GroupSurvey.addText]
    rfl
  case h_11 =>
    rw [addText_outside (by decide) (by decide) (by decide)]
    split
    · next hbraces =>
      intro h
      cases h
      rw [GroupSurvey.addText_of_skipsTo (skipsTo_of_readBraces? hbraces)]
      rfl
    · intro h
      cases h
      rfl
  case h_12 =>
    intro h
    rw [addText_readEscape survey _ h, addToken_of_isEscape (isEscape_of_readEscape hgroups h)]
    rfl
  case h_13 hparen _ hopen _ _ _ _ _ _ _ _ hslash =>
    intro h
    cases h
    rw [addText_outside hslash hopen hparen, beq_eq_false_iff_ne.mpr hopen]
    rfl
  all_goals
    intro h
    cases h
    rw [addText_outside (by decide) (by decide) (by decide)]
    rfl

theorem isClass_after (context : Context) :
    (context.after c).isClass = if context.isClass then c != ']' else c == '[' := by
  cases context with
  | outside => by_cases hc : c = '[' <;> simp [Context.after, Context.isClass, hc]
  | classStart => by_cases hc : c = ']' <;> simp [Context.after, Context.isClass, hc]
  | inClass => by_cases hc : c = ']' <;> simp [Context.after, Context.isClass, hc]

theorem addText_readToken (hgroups : groups.Numbered) (survey : GroupSurvey)
    (h : (readToken groups context pos c after).1 = .ok token) :
    survey.addText context.isClass (c :: after.rest) =
      (survey.addToken after.rest token).addText (context.after c).isClass
        (readToken groups context pos c after).2.rest := by
  rw [isClass_after]
  cases context with
  | outside => exact addText_readOutside hgroups survey h
  | classStart => exact addText_readInClass hgroups true survey h
  | inClass => exact addText_readInClass hgroups false survey h

end Steps

/-- If a text is read without a mistake, the survey of what is left counts the groups that are
opened there, and no others. -/
theorem Lexer.Yields.addText_eq {lexer : Lexer} {tokens : List PlacedToken}
    {mistake : Option PatternError} {text : List Char} (hgroups : lexer.survey.Numbered)
    (h : lexer.Yields tokens mistake) (hmistake : mistake = none)
    (htext : lexer.source.IsLeftOf text) (survey : GroupSurvey) :
    survey.addText lexer.context.isClass lexer.source.rest = survey.addTokens text tokens := by
  induction h generalizing survey with
  | finish hnext =>
    rw [Source.next?_eq_none hnext, GroupSurvey.addText]
    rfl
  | stop _ => cases hmistake
  | @take lexer c after token tokens mistake hnext htoken _ ih =>
    have hafter : after.rest = text.drop (lexer.source.pos + 1) := by
      rw [← (Source.next?_eq_some hnext).2]
      exact htext.later (Source.leadsTo_of_next? hnext)
    rw [survey_read] at ih
    have hrest := ih hgroups hmistake (isLeftOf_read htext) (survey.addToken after.rest token)
    rw [read_of_next? hnext] at hrest
    rw [(Source.next?_eq_some hnext).1, addText_readToken hgroups survey htoken, hrest, hafter]
    rfl

/-- The survey of a text without a mistake is the survey of its tokens, whatever the lexer was told
of the groups. -/
theorem Lexer.Yields.ofText_eq_addTokens {survey : GroupSurvey} {text : String}
    {tokens : List PlacedToken} (hsurvey : survey.Numbered)
    (h : Yields { survey, source := .ofString text } tokens none) :
    GroupSurvey.ofText text.toList = GroupSurvey.addTokens text.toList {} tokens :=
  h.addText_eq hsurvey rfl (Source.isLeftOf_ofString text) {}

theorem Lexer.Yields.count_ofText {survey : GroupSurvey} {text : String}
    {tokens : List PlacedToken} (hsurvey : survey.Numbered)
    (h : Yields { survey, source := .ofString text } tokens none) :
    (GroupSurvey.ofText text.toList).count =
      captureOpenings (tokens.map PlacedToken.token) := by
  have hopens := h.opensAsSpelled hsurvey (Source.isLeftOf_ofString text)
  rw [h.ofText_eq_addTokens hsurvey, GroupSurvey.count_addTokens hopens]
  exact Nat.zero_add _

theorem yields_lex_none {text : String} (h : (lex text).mistake = none) :
    (Lexer.ofString text).Yields (lex text).tokens none :=
  h ▸ yields_lex text

theorem ofText_eq_addTokens {text : String} (h : (lex text).mistake = none) :
    GroupSurvey.ofText text.toList =
      GroupSurvey.addTokens text.toList {} (lex text).tokens :=
  (yields_lex_none h).ofText_eq_addTokens (GroupSurvey.numbered_ofText _)

theorem count_ofText {text : String} (h : (lex text).mistake = none) :
    (GroupSurvey.ofText text.toList).count =
      captureOpenings ((lex text).tokens.map PlacedToken.token) :=
  (yields_lex_none h).count_ofText (GroupSurvey.numbered_ofText _)

end Regex
end TokenPatterns
