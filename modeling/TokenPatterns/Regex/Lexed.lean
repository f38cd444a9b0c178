import TokenPatterns.Regex.Grammar
import TokenPatterns.Regex.Lexer

/-!
# What the lexer yields

The tokens of a text in the order in which they are read. Some tokens stand in classes only and
some outside of them only, and a reference by number names a group that the survey has found.
-/
namespace TokenPatterns
namespace Regex

def Context.next : Context → Token → Context
  | outside, .classOpen => classStart
  | outside, _ => outside
  | _, .classClose => outside
  | _, _ => inClass

def Context.admits : Context → Token → Bool
  | _, .shorthand letter => Shorthand.isLetter letter
  | outside, .classClose => false
  | outside, .minus => false
  | outside, _ => true
  | classStart, .caret => true
  | _, .classClose => true
  | _, token => token.classChar?.isSome

/-- Whether each token may stand where the tokens before it leave the context. -/
def bracketed : Context → List Token → Bool
  | _, [] => true
  | context, token :: tokens => context.admits token && bracketed (context.next token) tokens

/-- Whether a token refers to no group beyond so many. -/
def Token.refersWithin (count : Nat) : Token → Bool
  | backreference index => index ≤ count
  | _ => true

namespace GroupSurvey

/-- The numbers of named groups do not exceed the count of groups. -/
def Numbered (survey : GroupSurvey) : Prop := ∀ entry ∈ survey.names, entry.2 ≤ survey.count

theorem Numbered.addOpening {survey : GroupSurvey} (h : survey.Numbered) (text : List Char) :
    (survey.addOpening text).Numbered := by
  unfold GroupSurvey.addOpening
  split
  · exact h
  · exact h
  · intro entry hentry
    rcases Array.mem_push.mp hentry with hold | rfl
    · exact Nat.le_succ_of_le (h entry hold)
    · exact Nat.le_refl _
  · exact h
  · exact fun entry hentry => Nat.le_succ_of_le (h entry hentry)

theorem Numbered.addText {survey : GroupSurvey} (h : survey.Numbered) (inClass : Bool)
    (text : List Char) : (survey.addText inClass text).Numbered := by
  fun_induction GroupSurvey.addText survey inClass text with
  | case1 => exact h
  | case2 => exact h
  | case3 _ _ _ _ ih => exact ih h
  | case4 _ _ _ ih => exact ih h
  | case5 _ _ _ ih => exact ih h
  | case6 _ _ ih => exact ih h
  | case7 _ _ _ _ ih => exact ih (h.addOpening _)
  | case8 _ _ _ _ _ _ _ _ _ ih => exact ih h

theorem numbered_ofText (text : List Char) : (ofText text).Numbered := by
  apply Numbered.addText
  simp [Numbered]

theorem indexOf?_le {survey : GroupSurvey} (h : survey.Numbered) {name : List Char} {index : Nat}
    (hindex : survey.indexOf? name = some index) : index ≤ survey.count := by
  obtain ⟨entry, hfind, rfl⟩ := Option.map_eq_some_iff.mp hindex
  exact h entry (Array.mem_of_find?_eq_some hfind)

end GroupSurvey

/-- The tokens that an escape may stand for. -/
inductive IsEscape (survey : GroupSurvey) : (inClass : Bool) → Token → Prop
  | shorthand {inClass letter} : Shorthand.isLetter letter = true →
      IsEscape survey inClass (.shorthand letter)
  | escaped {inClass} (c) : IsEscape survey inClass (.escaped c)
  | wordBoundary : IsEscape survey false .wordBoundary
  | nonWordBoundary : IsEscape survey false .nonWordBoundary
  | backreference {index} : index ≤ survey.count → IsEscape survey false (.backreference index)

section Escapes

variable {survey : GroupSurvey} {inClass : Bool} {pos : Nat} {c : Char} {source after : Source}
  {token : Token}

theorem isEscape_of_readOctal (h : (readOctal c after).1 = .ok token) :
    IsEscape survey inClass token := by
  unfold readOctal at h
  split at h <;> cases h <;> exact .escaped _

theorem isEscape_of_readNumeric (h : (readNumeric survey inClass c source after).1 = .ok token) :
    IsEscape survey inClass token := by
  unfold readNumeric at h
  split at h
  · exact isEscape_of_readOctal h
  · next hclass =>
    split at h
    · exact isEscape_of_readOctal h
    · split at h
      · next hle =>
        cases h
        have hout : inClass = false := by
          cases inClass with
          | false => rfl
          | true => simp at hclass
        rw [hout]
        exact .backreference hle
      · exact isEscape_of_readOctal h

theorem isEscape_of_readNamedReference (hsurvey : survey.Numbered)
    (h : (readNamedReference survey pos source).1 = .ok token) : IsEscape survey false token := by
  unfold readNamedReference at h
  split at h
  · cases h
  · dsimp only at h
    split at h
    · cases h
    · split at h
      · cases h
      · next index hindex =>
        cases h
        exact .backreference (GroupSurvey.indexOf?_le hsurvey hindex)

theorem isEscape_of_readControl (h : (readControl source after).1 = .ok token) :
    IsEscape survey inClass token := by
  unfold readControl at h
  split at h
  · cases h
    exact .escaped _
  · split at h <;> cases h <;> exact .escaped _

theorem isEscape_of_readHexadecimal (h : (readHexadecimal after).1 = .ok token) :
    IsEscape survey inClass token := by
  unfold readHexadecimal at h
  split at h <;> cases h <;> exact .escaped _

theorem isEscape_of_readUnicode (h : (readUnicode pos after).1 = .ok token) :
    IsEscape survey inClass token := by
  unfold readUnicode at h
  split at h
  · cases h
    exact .escaped _
  · split at h <;> cases h
    exact .escaped _

theorem isEscape_of_readEscape (hsurvey : survey.Numbered)
    (h : (readEscape survey inClass pos source).1 = .ok token) :
    IsEscape survey inClass token := by
  unfold readEscape at h
  split at h
  · cases h
  · split at h
    · next hletter =>
      cases h
      exact .shorthand hletter
    · split at h
      · exact isEscape_of_readNumeric h
      · split at h
        · next hname =>
          simp only [Bool.and_eq_true, Bool.not_eq_true'] at hname
          rw [hname.1.2]
          exact isEscape_of_readNamedReference hsurvey h
        · split at h
          · cases inClass <;> cases h
            · exact .wordBoundary
            · exact .escaped _
          · cases inClass <;> cases h
            · exact .nonWordBoundary
            · exact .escaped _
          · exact isEscape_of_readControl h
          · exact isEscape_of_readHexadecimal h
          · exact isEscape_of_readUnicode h
          · cases h
            exact .escaped _

end Escapes

section Tokens

variable {survey : GroupSurvey} {context : Context} {pos : Nat} {c : Char} {after : Source}
  {token : Token}

/-- A token may stand in the context in which it is read, and its first character tells what the
context behind it is. -/
structure Fits (survey : GroupSurvey) (context : Context) (c : Char) (token : Token) : Prop where
  admits : context.admits token = true
  after_eq : context.after c = context.next token
  refersWithin : token.refersWithin survey.count = true

theorem fits_of_isEscape_outside (h : IsEscape survey false token) :
    Fits survey .outside '\\' token := by
  cases h with
  | shorthand hletter => exact ⟨hletter, rfl, rfl⟩
  | escaped c => exact ⟨rfl, rfl, rfl⟩
  | wordBoundary => exact ⟨rfl, rfl, rfl⟩
  | nonWordBoundary => exact ⟨rfl, rfl, rfl⟩
  | backreference hle => exact ⟨rfl, rfl, decide_eq_true hle⟩

theorem fits_of_readOutside (hsurvey : survey.Numbered)
    (h : (readOutside survey pos c after).1 = .ok token) : Fits survey .outside c token := by
  unfold readOutside at h
  split at h
  case h_1 =>
    cases hkind : (readGroupKind survey pos after).1 with
    | error mistake => simp [hkind, Except.map] at h
    | ok kind =>
      simp only [hkind, Except.map, Except.ok.injEq] at h
      subst h
      exact ⟨rfl, rfl, rfl⟩
  case h_11 =>
    split at h <;> cases h <;> exact ⟨rfl, rfl, rfl⟩
  case h_12 => exact fits_of_isEscape_outside (isEscape_of_readEscape hsurvey h)
  case h_13 _ _ hopen _ _ _ _ _ _ _ _ _ =>
    cases h
    refine ⟨rfl, ?_, rfl⟩
    exact if_neg hopen
  all_goals
    cases h
    exact ⟨rfl, rfl, rfl⟩

theorem fits_of_isEscape_inClass (h : IsEscape survey true token) (context : Context)
    (hcontext : context ≠ .outside) : Fits survey context '\\' token := by
  cases context with
  | outside => exact absurd rfl hcontext
  | classStart =>
    cases h with
    | shorthand hletter => exact ⟨hletter, rfl, rfl⟩
    | escaped c => exact ⟨rfl, rfl, rfl⟩
  | inClass =>
    cases h with
    | shorthand hletter => exact ⟨hletter, rfl, rfl⟩
    | escaped c => exact ⟨rfl, rfl, rfl⟩

theorem fits_of_readToken (hsurvey : survey.Numbered)
    (h : (readToken survey context pos c after).1 = .ok token) : Fits survey context c token := by
  cases context with
  | outside => exact fits_of_readOutside hsurvey h
  | classStart =>
    simp only [readToken, readInClass] at h
    split at h
    case h_4 => exact fits_of_isEscape_inClass (isEscape_of_readEscape hsurvey h) _ nofun
    case h_5 hclose _ _ _ =>
      cases h
      exact ⟨rfl, if_neg hclose, rfl⟩
    all_goals
      cases h
      exact ⟨rfl, rfl, rfl⟩
  | inClass =>
    simp only [readToken, readInClass] at h
    split at h
    case h_4 => exact fits_of_isEscape_inClass (isEscape_of_readEscape hsurvey h) _ nofun
    case h_5 hclose _ _ _ =>
      cases h
      exact ⟨rfl, if_neg hclose, rfl⟩
    all_goals
      cases h
      exact ⟨rfl, rfl, rfl⟩

end Tokens

namespace Lexer

/-- The tokens that a lexer reads one after the other, up to the end of the text or a mistake. -/
inductive Yields : Lexer → List PlacedToken → Option PatternError → Prop
  | finish {lexer} : lexer.source.next? = none → Yields lexer [] none
  | stop {lexer mistake} : lexer.read.1 = .error mistake → Yields lexer [] (some mistake)
  | take {lexer c after token tokens mistake} : lexer.source.next? = some (c, after) →
      (readToken lexer.survey lexer.context lexer.source.pos c after).1 = .ok token →
      Yields lexer.read.2 tokens mistake →
      Yields lexer (⟨lexer.source.pos, token⟩ :: tokens) mistake

theorem next_of_ahead_eq_none {lexer : Lexer} (h : lexer.ahead = none) :
    lexer.next = lexer.read := by
  simp [next, h]

theorem survey_read (lexer : Lexer) : lexer.read.2.survey = lexer.survey := by
  unfold read
  split <;> rfl

theorem read_of_next? {lexer : Lexer} {c : Char} {after : Source}
    (h : lexer.source.next? = some (c, after)) :
    lexer.read = ((readToken lexer.survey lexer.context lexer.source.pos c after).1.map
        fun token => some ⟨lexer.source.pos, token⟩,
      { lexer with
        source := (readToken lexer.survey lexer.context lexer.source.pos c after).2
        context := lexer.context.after c }) := by
  simp only [read, h]

theorem yields_of_read {lexer : Lexer} {placed : PlacedToken} {tokens : List PlacedToken}
    {mistake : Option PatternError} (h : lexer.read.1 = .ok (some placed))
    (hlater : lexer.read.2.Yields tokens mistake) : lexer.Yields (placed :: tokens) mistake := by
  cases hnext : lexer.source.next? with
  | none => simp [read, hnext] at h
  | some next =>
    obtain ⟨c, after⟩ := next
    rw [read_of_next? hnext] at h
    cases htoken : (readToken lexer.survey lexer.context lexer.source.pos c after).1 with
    | error mistake => simp [htoken, Except.map] at h
    | ok token =>
      simp only [htoken, Except.map, Except.ok.injEq, Option.some.injEq] at h
      rw [← h]
      exact .take hnext htoken hlater

theorem next?_eq_none_of_read {lexer : Lexer} (h : lexer.read.1 = .ok none) :
    lexer.source.next? = none := by
  cases hnext : lexer.source.next? with
  | none => rfl
  | some next =>
    rw [read_of_next? hnext] at h
    cases htoken : (readToken lexer.survey lexer.context lexer.source.pos next.1 next.2).1 with
    | error mistake => simp [htoken, Except.map] at h
    | ok token => simp [htoken, Except.map] at h

/-- All tokens are collected, behind those that were read before. -/
theorem exists_yields_rest {lexer : Lexer} (h : lexer.ahead = none) (read : Array PlacedToken) :
    ∃ tokens, (lexer.rest read).tokens = read.toList ++ tokens ∧
      lexer.Yields tokens (lexer.rest read).mistake := by
  fun_induction Lexer.rest lexer read with
  | case1 lexer read mistake later hnext =>
    rw [next_of_ahead_eq_none h] at hnext
    exact ⟨[], by simp, .stop (by rw [hnext])⟩
  | case2 lexer read later hnext =>
    rw [next_of_ahead_eq_none h] at hnext
    exact ⟨[], by simp, .finish (next?_eq_none_of_read (by rw [hnext]))⟩
  | case3 lexer read placed later hnext ih =>
    rw [next_of_ahead_eq_none h] at hnext
    have hahead : later.ahead = none := by
      rw [← h, ← read_ahead lexer, hnext]
    obtain ⟨tokens, htokens, hyields⟩ := ih hahead
    refine ⟨placed :: tokens, ?_, yields_of_read (by rw [hnext]) (by rwa [hnext])⟩
    rw [htokens, Array.toList_push, List.append_assoc]
    rfl

end Lexer

theorem yields_lex (text : String) :
    (Lexer.ofString text).Yields (lex text).tokens (lex text).mistake := by
  have hahead : (Lexer.ofString text).ahead = none := rfl
  obtain ⟨tokens, htokens, hyields⟩ := Lexer.exists_yields_rest hahead #[]
  have heq : (lex text).tokens = tokens := by simpa [lex] using htokens
  rw [heq]
  exact hyields

namespace Lexer.Yields

variable {lexer : Lexer} {tokens : List PlacedToken} {mistake : Option PatternError}

theorem unique {others : List PlacedToken} {error : Option PatternError}
    (h : lexer.Yields tokens mistake) (hother : lexer.Yields others error) :
    tokens = others ∧ mistake = error := by
  induction h generalizing others with
  | finish hnext =>
    cases hother with
    | finish => exact ⟨rfl, rfl⟩
    | stop hread => simp [read, hnext] at hread
    | take hnext' => simp [hnext] at hnext'
  | stop hread =>
    cases hother with
    | finish hnext => simp [read, hnext] at hread
    | stop hread' =>
      rw [hread] at hread'
      cases hread'
      exact ⟨rfl, rfl⟩
    | take hnext htoken => simp [read_of_next? hnext, htoken, Except.map] at hread
  | take hnext htoken _ ih =>
    cases hother with
    | finish hnext' => simp [hnext] at hnext'
    | stop hread => simp [read_of_next? hnext, htoken, Except.map] at hread
    | take hnext' htoken' hlater =>
      rw [hnext] at hnext'
      cases hnext'
      rw [htoken] at htoken'
      cases htoken'
      obtain ⟨rfl, hmistake⟩ := ih hlater
      exact ⟨rfl, hmistake⟩

theorem bracketed (hsurvey : lexer.survey.Numbered) (h : lexer.Yields tokens mistake) :
    bracketed lexer.context (tokens.map PlacedToken.token) = true := by
  induction h with
  | finish _ => rfl
  | stop _ => rfl
  | @take lexer c after token tokens mistake hnext htoken _ ih =>
    have hfits := fits_of_readToken hsurvey htoken
    rw [survey_read] at ih
    have hrest := ih hsurvey
    rw [read_of_next? hnext] at hrest
    simp only [List.map_cons, Regex.bracketed, hfits.admits, Bool.true_and, ← hfits.after_eq]
    exact hrest

theorem refersWithin (hsurvey : lexer.survey.Numbered) (h : lexer.Yields tokens mistake) :
    ∀ placed ∈ tokens, placed.token.refersWithin lexer.survey.count = true := by
  induction h with
  | finish _ => simp
  | stop _ => simp
  | @take lexer c after token tokens mistake hnext htoken _ ih =>
    have hfits := fits_of_readToken hsurvey htoken
    rw [survey_read] at ih
    intro placed hplaced
    rcases List.mem_cons.mp hplaced with rfl | hlater
    · exact hfits.refersWithin
    · exact ih hsurvey placed hlater

end Lexer.Yields

/-- The tokens of a class stand in classes only, and the others outside of them. -/
theorem bracketed_lex (text : String) :
    bracketed .outside ((lex text).tokens.map PlacedToken.token) = true :=
  (yields_lex text).bracketed (GroupSurvey.numbered_ofText _)

end Regex
end TokenPatterns
