import TokenPatterns.Proofs.Dispatching
import TokenPatterns.Proofs.Tokenizing

/-!
# Letters with more than two forms

The leading characters of a pattern are listed with one variant each, while a match takes all forms
of a letter as the same. So a table of types may leave out a type that matches at a letter with
three forms or more. It does for some types wherever a text has such a letter in a form that is not
the variant of the others, and nowhere else.
-/
namespace TokenPatterns

namespace CaseMapping

variable {c : Char}

theorem le_canonical (mapping : CaseMapping) (h : 128 ≤ c.toNat) :
    128 ≤ (mapping.canonical c).toNat := by
  unfold canonical
  split
  · split
    · next hkept => exact hkept.resolve_left (Nat.not_lt.mpr h)
    · exact h
  · exact h

theorem of_lt {P : Char → Prop} (hall : ∀ code < 128, P (Char.ofNat code)) (h : c.toNat < 128) :
    P c := by
  have hcode := hall c.toNat h
  rwa [Char.ofNat_toNat] at hcode

theorem unicode_eq_ascii (h : c.toNat < 128) :
    unicode.canonical c = ascii.canonical c ∧
      unicode.variant? c.toNat = ascii.variant? c.toNat :=
  of_lt (P := fun c => unicode.canonical c = ascii.canonical c ∧
    unicode.variant? c.toNat = ascii.variant? c.toNat) (by decide +kernel) h

theorem canonical_unicode_lt (h : c.toNat < 128) : (unicode.canonical c).toNat < 128 :=
  of_lt (P := fun c => (unicode.canonical c).toNat < 128) (by decide +kernel) h

/-- The letters of ASCII have two forms each, in Unicode, too. -/
theorem pairedAt_of_lt (mapping : CaseMapping) (h : c.toNat < 128) : mapping.PairedAt c := by
  cases mapping with
  | ascii => exact pairedAt_ascii c
  | unicode =>
    intro other hother
    have hlt : other.toNat < 128 := by
      by_contra hge
      have hcanonical := le_canonical unicode (Nat.not_lt.mp hge)
      have hlt := canonical_unicode_lt h
      rw [hother] at hcanonical
      omega
    rw [(unicode_eq_ascii h).1, (unicode_eq_ascii hlt).1] at hother
    have hpairs := pairedAt_ascii c other hother
    unfold Pairs at hpairs ⊢
    rwa [(unicode_eq_ascii hlt).2]

end CaseMapping

theorem Piece.exists_mem_of_cover {first last offset : Nat} {pieces : List Piece}
    (h : Cover first last pieces) (hle : first ≤ offset) (hlt : offset < last) :
    ∃ piece ∈ pieces, piece.start ≤ offset ∧ offset < piece.stop := by
  induction pieces generalizing first with
  | nil =>
    rw [Cover] at h
    omega
  | cons piece pieces ih =>
    obtain ⟨rfl, hrest⟩ := h
    by_cases hin : offset < piece.stop
    · exact ⟨piece, List.mem_cons_self, hle, hin⟩
    · obtain ⟨later, hlater, hoffset⟩ := ih hrest (Nat.not_lt.mp hin)
      exact ⟨later, List.mem_cons_of_mem _ hlater, hoffset⟩

namespace Tokenizer

section Pieces

variable {tokenizer : Tokenizer} {input : Array Char}

/-- Where the first candidate matches, and no match is longer than a character, that match is a
piece of the text. -/
theorem found_mem_of_matchesAt {pieces : List Piece} (hsplits : tokenizer.Splits input 0 pieces)
    (hshort : ∀ offset type stop, tokenizer.MatchesAt input offset type stop → stop = offset + 1)
    {offset first : Nat} {rest : List Nat} {c : Char} (hc : input[offset]? = some c)
    (hcandidates : tokenizer.candidates c.toNat = first :: rest)
    (hmatches : tokenizer.MatchesAt input offset first (offset + 1)) :
    .found first offset (offset + 1) ∈ pieces := by
  have hlt := (Array.getElem?_eq_some_iff.mp hc).1
  obtain ⟨piece, hpiece, hle, hstop⟩ :=
    Piece.exists_mem_of_cover hsplits.cover (Nat.zero_le offset) hlt
  have hfits := hsplits.fits piece hpiece
  cases piece with
  | found type start stop =>
    obtain ⟨other, before, after, hother, hsplit, hwins, hbefore⟩ := hfits
    obtain rfl := hshort start type stop hwins
    simp only [Piece.start, Piece.stop] at hle hstop
    obtain rfl : start = offset := by omega
    obtain rfl := Option.some.inj (hother.symm.trans hc)
    cases before with
    | nil =>
      rw [hcandidates, List.nil_append, List.cons.injEq] at hsplit
      rwa [hsplit.1]
    | cons earlier before =>
      rw [hcandidates, List.cons_append, List.cons.injEq] at hsplit
      exact absurd hmatches (hbefore first (hsplit.1 ▸ List.mem_cons_self) _)
  | unmatched start stop =>
    obtain ⟨other, hother, hnothing⟩ := hfits.2 offset hle hstop
    obtain rfl := Option.some.inj (hother.symm.trans hc)
    exact absurd hmatches (hnothing first (hcandidates ▸ List.mem_cons_self) _)

theorem exists_splits_tokens (tokenizer : Tokenizer) (text : String) :
    ∃ pieces, tokenizer.Splits text.toList.toArray 0 pieces ∧
      (tokenizer.tokenize text).tokens.toList.map Token.piece =
        pieces.filter (tokenizer.goesTo .main) := by
  obtain ⟨pieces, hpieces, hsplits⟩ :=
    exists_splits_segmentsFrom tokenizer text.toList.toArray {} none #[] (Nat.zero_le _) nofun
  have hsegments : (tokenizer.segments text.toList.toArray).toList.map Segment.piece = pieces :=
    hpieces
  have hfits : ∀ segment ∈ (tokenizer.segments text.toList.toArray).toList,
      tokenizer.Fits text.toList.toArray segment.piece := by
    intro segment hsegment
    exact hsplits.fits _ (hsegments ▸ List.mem_map_of_mem hsegment)
  have hsorts := Sorts.empty.foldl hfits
  rw [Array.foldl_toList, List.nil_append, hsegments] at hsorts
  exact ⟨pieces, hsplits, hsorts.tokens⟩

end Pieces

end Tokenizer

def TokenType.letter (c : Char) (ignoreCase : Bool) : TokenType where
  name := c.toString
  pattern := ⟨.literal c, { ignoreCase }, ⟨rfl, rfl⟩⟩

section Letter

variable {mapping : CaseMapping} {ignoreCase : Bool} {c : Char}

theorem matchAt?_letter (input : Array Char) (start : Nat) :
    (TokenType.letter c ignoreCase).pattern.program.matchAt? mapping input start =
      if input[start]?.any (mapping.agree ignoreCase c) then some (start + 1) else none := by
  have hagree : Subject.agree ⟨mapping, { ignoreCase }, input⟩ c = mapping.agree ignoreCase c := rfl
  rw [Program.matchAt?_eq]
  simp only [TokenType.letter, Pattern.program, Node.ways, Search.take, hagree]
  by_cases hstart : start ≤ input.size
  · rw [if_pos hstart]
    split <;> rfl
  · rw [if_neg hstart, Array.getElem?_eq_none (by omega)]
    rfl

def AnalyzedType.letter (mapping : CaseMapping) (c : Char) (ignoreCase : Bool) :
    AnalyzedType where
  type := .letter c ignoreCase
  program := (TokenType.letter c ignoreCase).pattern.program
  leadingChars := .listed ((TokenType.letter c ignoreCase).pattern.leadingCodes mapping none)
  tracksLines := (TokenType.letter c ignoreCase).pattern.canContain mapping lineTerminators

theorem mem_leadingCodes_letter {code : Nat} :
    code ∈ (TokenType.letter c ignoreCase).pattern.leadingCodes mapping none ↔
      mapping.Pairs ignoreCase c.toNat code := by
  have hcodes : (TokenType.letter c ignoreCase).pattern.leadingCodes mapping none =
      (CodeList.addCased mapping ignoreCase {} c.toNat).codes := rfl
  rw [hcodes, CodeList.mem_codes_addCased]
  simp

theorem isTriedAt_letter {code : Nat} :
    (AnalyzedType.letter mapping c ignoreCase).leadingChars.isTriedAt code = true ↔
      mapping.Pairs ignoreCase c.toNat code := by
  rw [← mem_leadingCodes_letter]
  simp [LeadingChars.isTriedAt, LeadingChars.names, LeadingChars.isUnlisted, LeadingChars.codes?,
    AnalyzedType.letter]

theorem analyze_letter {options : TokenizerOptions} (hlisted : options.requireListed = false) :
    (TokenType.letter c ignoreCase).analyze options =
      .ok (.letter options.mapping c ignoreCase) := by
  have hcode : c.toNat ∈
      (TokenType.letter c ignoreCase).pattern.leadingCodes options.mapping none :=
    mem_leadingCodes_letter.mpr (.inl rfl)
  have hcodes : ((TokenType.letter c ignoreCase).pattern.leadingCodes options.mapping
      none).isEmpty = false := by
    rw [Array.isEmpty_eq_false_iff]
    exact Array.ne_empty_of_mem hcode
  have hleading : LeadingChars.ofPattern options.mapping (TokenType.letter c ignoreCase).pattern
      none = (AnalyzedType.letter options.mapping c ignoreCase).leadingChars := by
    simp [LeadingChars.ofPattern, AnalyzedType.letter, hcodes]
  have hempty : (TokenType.letter c ignoreCase).pattern.program.matchAt? options.mapping #[] 0 =
      none := matchAt?_letter #[] 0
  have hdeclared : (TokenType.letter c ignoreCase).declaredCodes? = none := rfl
  simp only [TokenType.analyze, hempty, hlisted, hdeclared, hleading, Bool.false_and]
  rfl

end Letter

namespace Tokenizer

/-- The tokenizer of a letter under ignored case and a letter as it is. -/
def twoLetters (mapping : CaseMapping) (first second : Char) (tryAll : Bool) : Tokenizer :=
  let types : List AnalyzedType := [.letter mapping first true, .letter mapping second false]
  { types := types.toArray
    options := { mapping, tryAll }
    dispatch? :=
      if tryAll then none else some (.ofEntries (types.map AnalyzedType.leadingChars)) }

section TwoLetters

variable {mapping : CaseMapping} {first second c : Char} {tryAll : Bool} {input : Array Char}
  {offset type stop : Nat}

theorem ofTypes?_letters :
    ofTypes? [.letter first true, .letter second false] { mapping, tryAll } =
      .ok (twoLetters mapping first second tryAll) := by
  simp [ofTypes?, analyze_letter, twoLetters, bind, Except.bind, pure, Except.pure]

theorem stop_of_matchesAt_twoLetters
    (h : (twoLetters mapping first second tryAll).MatchesAt input offset type stop) :
    stop = offset + 1 := by
  obtain ⟨analyzed, htype, hmatch, -⟩ := h
  have hletter : ∃ letter ignoreCase, analyzed = .letter mapping letter ignoreCase := by
    have hmem := Array.mem_of_getElem? htype
    simp only [twoLetters, List.mem_toArray, List.mem_cons, List.not_mem_nil, or_false] at hmem
    rcases hmem with rfl | rfl
    · exact ⟨first, true, rfl⟩
    · exact ⟨second, false, rfl⟩
  obtain ⟨letter, ignoreCase, rfl⟩ := hletter
  simp only [AnalyzedType.letter, matchAt?_letter] at hmatch
  split at hmatch
  · exact (Option.some.inj hmatch).symm
  · cases hmatch

theorem matchesAt_first (hc : input[offset]? = some c)
    (hsame : mapping.canonical first = mapping.canonical c) :
    (twoLetters mapping first second tryAll).MatchesAt input offset 0 (offset + 1) := by
  refine ⟨.letter mapping first true, rfl, ?_, Nat.lt_succ_self offset⟩
  simp only [AnalyzedType.letter, matchAt?_letter]
  rw [hc, Option.any_some]
  exact if_pos (CaseMapping.agree_true_iff.mpr hsame)

/-- The table leaves out the first letter where it lists the second alone. -/
theorem candidates_twoLetters (hpairs : ¬ mapping.Pairs true first.toNat second.toNat) :
    (twoLetters mapping first second false).candidates second.toNat = [1] := by
  have hfirst : (AnalyzedType.letter mapping first true).leadingChars.isTriedAt second.toNat =
      false := by
    rw [Bool.eq_false_iff]
    exact fun h => hpairs (isTriedAt_letter.mp h)
  have hsecond :
      (AnalyzedType.letter mapping second false).leadingChars.isTriedAt second.toNat = true :=
    isTriedAt_letter.mpr (.inl rfl)
  simp [twoLetters, candidates, DispatchTable.candidates_ofEntries, DispatchTable.indicesWhere,
    DispatchTable.bucket?, hfirst, hsecond]

/-- A text that holds a letter in a form that is listed with the second type alone has other tokens
if the first type is tried there, too. -/
theorem tokenize_twoLetters_ne (hsame : mapping.canonical first = mapping.canonical second)
    (hpairs : ¬ mapping.Pairs true first.toNat second.toNat) {text : String}
    (hmem : second ∈ text.toList) :
    (twoLetters mapping first second false).tokenize text ≠
      (twoLetters mapping first second true).tokenize text := by
  intro hsameTokens
  obtain ⟨offset, hoffset⟩ := List.getElem?_of_mem hmem
  have hc : text.toList.toArray[offset]? = some second := by simpa using hoffset
  obtain ⟨all, hall, htokens⟩ :=
    exists_splits_tokens (twoLetters mapping first second true) text
  obtain ⟨listed, hlisted, hlistedTokens⟩ :=
    exists_splits_tokens (twoLetters mapping first second false) text
  have hcandidates : (twoLetters mapping first second true).candidates second.toNat = [0, 1] := rfl
  have hfound : Piece.found 0 offset (offset + 1) ∈ all :=
    found_mem_of_matchesAt hall (fun _ _ _ => stop_of_matchesAt_twoLetters) hc hcandidates
      (matchesAt_first hc hsame)
  have hboth : Piece.found 0 offset (offset + 1) ∈ listed := by
    have hkept := List.mem_filter.mpr ⟨hfound, (rfl :
      (twoLetters mapping first second true).goesTo .main (.found 0 offset (offset + 1)) = true)⟩
    rw [← htokens, ← hsameTokens, hlistedTokens] at hkept
    exact (List.mem_filter.mp hkept).1
  obtain ⟨other, before, after, hother, hlist, -, -⟩ := hlisted.fits _ hboth
  obtain rfl := Option.some.inj (hother.symm.trans hc)
  rw [candidates_twoLetters hpairs] at hlist
  have hzero : 0 ∈ [1] := hlist ▸ List.mem_append_right before List.mem_cons_self
  simp at hzero

end TwoLetters

/-- What comes of a list of types does not depend on whether all of them are tried everywhere,
the tokenizer apart. -/
theorem ofTypes?_tryAll (types : List TokenType) (options : TokenizerOptions) :
    (∃ error, ∀ tryAll, ofTypes? types { options with tryAll } = .error error) ∨
      ∃ analyzed : List AnalyzedType,
        (∀ entry ∈ analyzed, ∃ type ∈ types, type.analyze options = .ok entry) ∧
        ∀ tryAll, ofTypes? types { options with tryAll } =
          .ok {
            types := analyzed.toArray
            options := { options with tryAll }
            dispatch? :=
              if tryAll then none
              else some (.ofEntries (analyzed.map AnalyzedType.leadingChars)) } := by
  have hanalyze : ∀ tryAll, TokenType.analyze { options with tryAll } = TokenType.analyze options :=
    fun _ => rfl
  unfold ofTypes?
  cases hempty : types.isEmpty with
  | true => exact .inl ⟨.noTypes, fun _ => rfl⟩
  | false =>
    cases hanalyzed : types.mapM (TokenType.analyze options) with
    | error error =>
      exact .inl ⟨error, fun tryAll => by simp [hanalyze, hanalyzed, bind, Except.bind]⟩
    | ok analyzed =>
      refine .inr ⟨analyzed, mem_of_mapM_analyze hanalyzed, fun tryAll => ?_⟩
      simp [hanalyze, hanalyzed, bind, Except.bind, pure, Except.pure]

/-- The tokens of a text in which all letters are paired do not change. -/
theorem map_tokenize_tryAll_of_isPaired {types : List TokenType} {options : TokenizerOptions}
    {text : String}
    (hpaired : ∀ type ∈ types,
      Subject.IsPaired ⟨options.mapping, type.pattern.flags, text.toList.toArray⟩)
    (hdeclared : ∀ type ∈ types, type.DeclaresAll options.mapping) :
    (ofTypes? types { options with tryAll := false }).map (·.tokenize text) =
      (ofTypes? types { options with tryAll := true }).map (·.tokenize text) := by
  rcases ofTypes?_tryAll types options with ⟨error, herror⟩ | ⟨analyzed, hanalyzed, hok⟩
  · rw [herror, herror]
  · rw [hok, hok]
    apply congrArg Except.ok
    apply tokenize_eq
    · rfl
    · rfl
    intro offset
    refine firstMatch?_of_triedIn rfl fun entry hentry => ?_
    obtain ⟨type, htype, hanalyze⟩ := hanalyzed entry hentry
    exact type.triedIn_analyze (hpaired type htype) (hdeclared type htype) hanalyze

/-- Nor do the tokens of an ASCII text. -/
theorem map_tokenize_tryAll_of_ascii {types : List TokenType} (options : TokenizerOptions)
    (hdeclared : ∀ type ∈ types, type.DeclaresAll options.mapping) {text : String}
    (hascii : ∀ c ∈ text.toList, c.toNat < 128) :
    (ofTypes? types { options with tryAll := false }).map (·.tokenize text) =
      (ofTypes? types { options with tryAll := true }).map (·.tokenize text) := by
  refine map_tokenize_tryAll_of_isPaired (fun type _ _ c hc => ?_) hdeclared
  exact CaseMapping.pairedAt_of_lt options.mapping (hascii c (by simpa using hc))

/-- Picking the types by the next character never changes the tokens of a text in exactly those
texts of which each character is the variant of all others that count as the same letter. -/
theorem map_tokenize_tryAll_iff (mapping : CaseMapping) (text : String) :
    (∀ (types : List TokenType) (options : TokenizerOptions), options.mapping = mapping →
      (∀ type ∈ types, type.declaredCodes? = none) →
      (∃ type ∈ types, type.pattern.flags.ignoreCase = true) →
        (ofTypes? types { options with tryAll := false }).map (·.tokenize text) =
          (ofTypes? types { options with tryAll := true }).map (·.tokenize text)) ↔
      ∀ c ∈ text.toList, mapping.PairedAt c := by
  constructor
  · intro hsame c hc other hother
    by_contra hpairs
    have hletters := hsame [.letter other true, .letter c false] { mapping } rfl
      (by simp [TokenType.letter]) ⟨_, List.mem_cons_self, rfl⟩
    rw [ofTypes?_letters, ofTypes?_letters] at hletters
    exact tokenize_twoLetters_ne hother hpairs hc (Except.ok.inj hletters)
  · rintro hpaired types options rfl hplain -
    apply map_tokenize_tryAll_of_isPaired
    · intro type _ _ c hc
      exact hpaired c (by simpa using hc)
    · intro type htype codes hcodes
      rw [hplain type htype] at hcodes
      cases hcodes

/-- The micro sign and the small mu have one uppercase, but only that is listed beside either. -/
theorem map_tokenize_tryAll_ne_of_mu :
    let types : List TokenType := [.letter 'µ' true, .letter 'μ' false]
    (ofTypes? types { mapping := .unicode, tryAll := false }).map (·.tokenize "μ") ≠
      (ofTypes? types { mapping := .unicode, tryAll := true }).map (·.tokenize "μ") := by
  intro types
  have hsame : CaseMapping.unicode.canonical 'µ' = CaseMapping.unicode.canonical 'μ' := by
    decide +kernel
  have hvariant : CaseMapping.unicode.variant? 'µ'.toNat ≠ some 'μ'.toNat := by decide +kernel
  have hpairs : ¬ CaseMapping.unicode.Pairs true 'µ'.toNat 'μ'.toNat := by
    rintro (hcode | ⟨-, hcode⟩)
    · exact absurd hcode (by decide)
    · exact hvariant hcode
  rw [ofTypes?_letters, ofTypes?_letters]
  exact fun h => tokenize_twoLetters_ne hsame hpairs (by decide) (Except.ok.inj h)

end Tokenizer
end TokenPatterns
