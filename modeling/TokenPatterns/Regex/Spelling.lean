import TokenPatterns.Regex.Lexed

/-!
# How groups and references are spelled

A token that opens a group, or refers to one, stands where the text says so. The relations here say
it of the text alone, without the way in which it is read.
-/
namespace TokenPatterns
namespace Regex

/-- `Opens survey text kind rest` says that the text behind a parenthesis opens a group of the kind
and goes on with `rest`. -/
inductive Opens (survey : GroupSurvey) : List Char → GroupKind → List Char → Prop
  | plain {rest} : rest.head? ≠ some '?' → Opens survey rest .capture rest
  | named {name rest} : name ≠ [] → name.all isNameChar = true → survey.uses name = 1 →
      Opens survey ('?' :: '<' :: (name ++ '>' :: rest)) .capture rest
  | nonCapture {rest} : Opens survey ('?' :: ':' :: rest) .nonCapture rest
  | ahead {rest} : Opens survey ('?' :: '=' :: rest) (.look ⟨false, false⟩) rest
  | notAhead {rest} : Opens survey ('?' :: '!' :: rest) (.look ⟨false, true⟩) rest
  | behind {rest} : Opens survey ('?' :: '<' :: '=' :: rest) (.look ⟨true, false⟩) rest
  | notBehind {rest} : Opens survey ('?' :: '<' :: '!' :: rest) (.look ⟨true, true⟩) rest

/-- `Refers survey text number` says that the text behind a backslash refers to the group. -/
inductive Refers (survey : GroupSurvey) : List Char → Nat → Prop
  | number {c rest number} : c.isDigit = true → 0 < number → number ≤ survey.count →
      Refers survey (c :: rest) number
  | name {name rest number} : name.all isNameChar = true → survey.indexOf? name = some number →
      Refers survey ('k' :: '<' :: (name ++ '>' :: rest)) number

/-- Whether the text has a parenthesis at `pos` that opens a group with the name: `(?<name>`. -/
def OpensNamed (text : List Char) (pos : Nat) (name : List Char) : Prop :=
  name.all isNameChar = true ∧ '(' :: '?' :: '<' :: (name ++ ['>']) <+: text.drop pos

/-- Whether the text has a backslash at `pos` that refers to a group with the name: `\k<name>`. -/
def RefersByName (text : List Char) (pos : Nat) (name : List Char) : Prop :=
  name.all isNameChar = true ∧ '\\' :: 'k' :: '<' :: (name ++ ['>']) <+: text.drop pos

section Names

variable {name other rest more : List Char}

theorem takeWhile_isNameChar (h : name.all isNameChar = true) (rest : List Char) :
    (name ++ '>' :: rest).takeWhile isNameChar = name := by
  have hclose : isNameChar '>' = false := by decide +kernel
  rw [List.takeWhile_append_of_pos (List.all_eq_true.mp h),
    List.takeWhile_cons_of_neg (by simp [hclose]), List.append_nil]

theorem name_unique (hname : name.all isNameChar = true) (hother : other.all isNameChar = true)
    (h : name ++ '>' :: rest = other ++ '>' :: more) : name = other := by
  rw [← takeWhile_isNameChar hname rest, h, takeWhile_isNameChar hother]

theorem span_isNameChar {source after later : Source}
    (hspan : (source.span isNameChar).2 = after) (hclose : after.skip? '>' = some later) :
    source.rest = (source.span isNameChar).1 ++ '>' :: later.rest ∧
      (source.span isNameChar).1.all isNameChar = true := by
  subst hspan
  rw [← (Source.skip?_eq_some hclose).1]
  exact ⟨List.takeWhile_append_dropWhile.symm, List.all_takeWhile⟩

theorem name_append_ne {c : Char} (hname : name.all isNameChar = true)
    (hc : isNameChar c = false) (hclose : c ≠ '>') : name ++ '>' :: rest ≠ c :: more := by
  cases name with
  | nil => exact fun h => hclose (List.cons.inj h).1.symm
  | cons d name =>
    have hd : isNameChar d = true := List.all_eq_true.mp hname d List.mem_cons_self
    rw [List.cons_append]
    rintro h
    rw [(List.cons.inj h).1, hc] at hd
    cases hd

theorem isNameChar_equal : isNameChar '=' = false := by decide +kernel

theorem isNameChar_bang : isNameChar '!' = false := by decide +kernel

/-- What is spelled as a group with a name is one, and no other has the name. -/
theorem Opens.of_spelled {survey : GroupSurvey} {kind : GroupKind}
    (h : Opens survey ('?' :: '<' :: (name ++ '>' :: more)) kind rest)
    (hname : name.all isNameChar = true) : kind = .capture ∧ name ≠ [] ∧ survey.uses name = 1 := by
  generalize htext : '?' :: '<' :: (name ++ '>' :: more) = text at h
  cases h with
  | plain hplain =>
    rw [← htext] at hplain
    exact absurd rfl hplain
  | named hne hall huses =>
    simp only [List.cons.injEq, true_and] at htext
    rw [name_unique hname hall htext]
    exact ⟨rfl, hne, huses⟩
  | behind =>
    simp only [List.cons.injEq, true_and] at htext
    exact absurd htext (name_append_ne hname isNameChar_equal (by decide))
  | notBehind =>
    simp only [List.cons.injEq, true_and] at htext
    exact absurd htext (name_append_ne hname isNameChar_bang (by decide))
  | _ => cases htext

theorem Refers.of_spelled {survey : GroupSurvey} {number : Nat}
    (h : Refers survey ('k' :: '<' :: (name ++ '>' :: more)) number)
    (hname : name.all isNameChar = true) : survey.indexOf? name = some number := by
  generalize htext : 'k' :: '<' :: (name ++ '>' :: more) = text at h
  cases h with
  | number hdigit =>
    rw [← (List.cons.inj htext).1] at hdigit
    cases hdigit
  | name hall hindex =>
    simp only [List.cons.injEq, true_and] at htext
    rwa [name_unique hname hall htext]

end Names

section Openings

variable {survey : GroupSurvey} {pos : Nat} {source : Source} {kind : GroupKind}

theorem opens_of_readGroupKind (h : (readGroupKind survey pos source).1 = .ok kind) :
    Opens survey source.rest kind (readGroupKind survey pos source).2.rest := by
  revert h
  unfold readGroupKind
  split
  · next hmark =>
    intro h
    cases h
    exact .plain (Source.skip?_eq_none hmark)
  · next mark hmark =>
    rw [(Source.skip?_eq_some hmark).1]
    split
    · nofun
    · next hnext =>
      intro h
      cases h
      rw [(Source.next?_eq_some hnext).1]
      exact .nonCapture
    · next hnext =>
      intro h
      cases h
      rw [(Source.next?_eq_some hnext).1]
      exact .ahead
    · next hnext =>
      intro h
      cases h
      rw [(Source.next?_eq_some hnext).1]
      exact .notAhead
    · next inner hnext =>
      rw [(Source.next?_eq_some hnext).1]
      split
      · next hequal =>
        intro h
        cases h
        rw [(Source.skip?_eq_some hequal).1]
        exact .behind
      · next hbang =>
        intro h
        cases h
        rw [(Source.skip?_eq_some hbang).1]
        exact .notBehind
      · dsimp only
        split
        · next hname =>
          split
          · next later hclose =>
            intro h
            cases h
            obtain ⟨hrest, hall⟩ := span_isNameChar rfl hclose
            rw [hrest]
            exact .named hname.1 hall hname.2
          · nofun
        · nofun
    · nofun

end Openings

section References

variable {survey : GroupSurvey} {inClass : Bool} {pos number : Nat} {c : Char}
  {source after : Source}

theorem refers_of_readNumeric (hnext : source.next? = some (c, after)) (hdigit : c.isDigit = true)
    (h : (readNumeric survey inClass c source after).1 = .ok (.backreference number)) :
    Refers survey source.rest number := by
  have hoctal : (readOctal c after).1 ≠ .ok (.backreference number) := by
    unfold readOctal
    split <;> nofun
  unfold readNumeric at h
  split at h
  · exact absurd h hoctal
  · next hreference =>
    split at h
    · exact absurd h hoctal
    · next hnumber =>
      split at h
      · next hle =>
        cases h
        have hzero : c ≠ '0' := by
          rintro rfl
          simp at hreference
        rw [(Source.next?_eq_some hnext).1]
        exact .number hdigit (readNumber?_pos hnext hdigit hzero hnumber) hle
      · exact absurd h hoctal

theorem refers_of_readNamedReference
    (h : (readNamedReference survey pos source).1 = .ok (.backreference number)) :
    Refers survey ('k' :: source.rest) number := by
  unfold readNamedReference at h
  split at h
  · cases h
  · next inner hopen =>
    dsimp only at h
    split at h
    · cases h
    · next later hclose =>
      split at h
      · cases h
      · next hindex =>
        cases h
        obtain ⟨hrest, hall⟩ := span_isNameChar rfl hclose
        rw [(Source.skip?_eq_some hopen).1, hrest]
        exact .name hall hindex

theorem refers_of_readEscape
    (h : (readEscape survey inClass pos source).1 = .ok (.backreference number)) :
    Refers survey source.rest number := by
  unfold readEscape at h
  split at h
  · cases h
  · next c after hnext =>
    split at h
    · cases h
    · split at h
      · next hdigit => exact refers_of_readNumeric hnext hdigit h
      · split at h
        · next hname =>
          simp only [Bool.and_eq_true, beq_iff_eq] at hname
          rw [(Source.next?_eq_some hnext).1, hname.1.1]
          exact refers_of_readNamedReference h
        · split at h
          · cases inClass <;> cases h
          · cases inClass <;> cases h
          · have hescape : IsEscape survey true (.backreference number) :=
              isEscape_of_readControl h
            cases hescape
          · have hescape : IsEscape survey true (.backreference number) :=
              isEscape_of_readHexadecimal h
            cases hescape
          · have hescape : IsEscape survey true (.backreference number) :=
              isEscape_of_readUnicode h
            cases hescape
          · cases h

end References

section Tokens

variable {survey : GroupSurvey} {context : Context} {pos number : Nat} {c : Char} {after : Source}
  {kind : GroupKind} {text : List Char}

theorem opens_of_readToken (hsurvey : survey.Numbered)
    (h : (readToken survey context pos c after).1 = .ok (.groupOpen kind)) :
    c = '(' ∧ Opens survey after.rest kind (readToken survey context pos c after).2.rest := by
  have hadmits := (fits_of_readToken hsurvey h).admits
  cases context with
  | outside =>
    revert h
    simp only [readToken]
    unfold readOutside
    split
    case h_1 =>
      intro h
      cases hkind : (readGroupKind survey pos after).1 with
      | error mistake => simp [hkind, Except.map] at h
      | ok kind =>
        simp only [hkind, Except.map, Except.ok.injEq, Token.groupOpen.injEq] at h
        rw [← h]
        exact ⟨rfl, opens_of_readGroupKind hkind⟩
    case h_11 =>
      intro h
      split at h <;> cases h
    case h_12 =>
      intro h
      cases isEscape_of_readEscape hsurvey h
    all_goals
      intro h
      cases h
  | classStart => cases hadmits
  | inClass => cases hadmits

theorem refers_of_readToken (hsurvey : survey.Numbered)
    (h : (readToken survey context pos c after).1 = .ok (.backreference number)) :
    c = '\\' ∧ Refers survey after.rest number := by
  have hadmits := (fits_of_readToken hsurvey h).admits
  cases context with
  | outside =>
    revert h
    simp only [readToken]
    unfold readOutside
    split
    case h_1 =>
      intro h
      cases hkind : (readGroupKind survey pos after).1 <;> simp [hkind, Except.map] at h
    case h_11 =>
      intro h
      split at h <;> cases h
    case h_12 => exact fun h => ⟨rfl, refers_of_readEscape h⟩
    all_goals
      intro h
      cases h
  | classStart => cases hadmits
  | inClass => cases hadmits

theorem Lexer.isLeftOf_read {lexer : Lexer} (h : lexer.source.IsLeftOf text) :
    lexer.read.2.source.IsLeftOf text := by
  unfold Lexer.read
  split
  · exact h
  · next hnext => exact h.later ((Source.leadsTo_of_next? hnext).trans leadsTo_readToken)

theorem Lexer.Yields.exists_readToken {lexer : Lexer} {tokens : List PlacedToken}
    {mistake : Option PatternError} (h : lexer.Yields tokens mistake)
    (htext : lexer.source.IsLeftOf text) : ∀ placed ∈ tokens, ∃ context c after,
      text.drop placed.pos = c :: after.rest ∧
        (readToken lexer.survey context placed.pos c after).1 = .ok placed.token := by
  induction h with
  | finish _ => simp
  | stop _ => simp
  | @take lexer c after token tokens mistake hnext htoken _ ih =>
    rw [survey_read] at ih
    intro placed hplaced
    rcases List.mem_cons.mp hplaced with rfl | hother
    · exact ⟨lexer.context, c, after, htext.symm.trans (Source.next?_eq_some hnext).1, htoken⟩
    · exact ih (isLeftOf_read htext) placed hother

end Tokens

/-- Whether the tokens that open something stand where the text says so. -/
def OpensAsSpelled (survey : GroupSurvey) (text : List Char) (tokens : List PlacedToken) : Prop :=
  ∀ pos kind, ⟨pos, .groupOpen kind⟩ ∈ tokens → text.drop pos = '(' :: text.drop (pos + 1) ∧
    ∃ rest, Opens survey (text.drop (pos + 1)) kind rest

theorem OpensAsSpelled.tail {survey : GroupSurvey} {text : List Char} {placed : PlacedToken}
    {tokens : List PlacedToken} (h : OpensAsSpelled survey text (placed :: tokens)) :
    OpensAsSpelled survey text tokens :=
  fun pos kind hmem => h pos kind (List.mem_cons_of_mem _ hmem)

theorem drop_succ {text rest : List Char} {pos : Nat} {c : Char} (h : text.drop pos = c :: rest) :
    text.drop (pos + 1) = rest := by
  rw [← List.drop_drop, h, List.drop_one, List.tail_cons]

theorem Lexer.Yields.opensAsSpelled {lexer : Lexer} {tokens : List PlacedToken}
    {mistake : Option PatternError} {text : List Char} (hsurvey : lexer.survey.Numbered)
    (h : lexer.Yields tokens mistake) (htext : lexer.source.IsLeftOf text) :
    OpensAsSpelled lexer.survey text tokens := by
  intro pos kind hmem
  obtain ⟨context, c, after, hdrop, htoken⟩ := h.exists_readToken htext _ hmem
  obtain ⟨rfl, hopens⟩ := opens_of_readToken hsurvey htoken
  rw [drop_succ hdrop]
  exact ⟨hdrop, _, hopens⟩

section Texts

variable {text : String} {pos number : Nat}

theorem opensAsSpelled_lex (text : String) :
    OpensAsSpelled (.ofText text.toList) text.toList (lex text).tokens :=
  (yields_lex text).opensAsSpelled (GroupSurvey.numbered_ofText _) (Source.isLeftOf_ofString text)

theorem refers_of_mem_lex (h : ⟨pos, .backreference number⟩ ∈ (lex text).tokens) : ∃ rest,
    text.toList.drop pos = '\\' :: rest ∧ Refers (.ofText text.toList) rest number := by
  obtain ⟨context, c, after, htext, htoken⟩ :=
    (yields_lex text).exists_readToken (Source.isLeftOf_ofString text) _ h
  obtain ⟨rfl, hrefers⟩ := refers_of_readToken (GroupSurvey.numbered_ofText _) htoken
  exact ⟨_, htext, hrefers⟩

end Texts

end Regex
end TokenPatterns
