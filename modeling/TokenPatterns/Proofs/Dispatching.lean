import TokenPatterns.Dispatch.Listing
import TokenPatterns.Proofs.LeadingCodes
import TokenPatterns.Tokenizer.Token

/-!
# Dispatch never changes the tokens

A tokenizer that looks at the next character tries fewer types than one that tries them all, and
both find the same tokens.
-/
namespace TokenPatterns

/-- Whether each character that a match of the type can begin with is declared, if any are. -/
def TokenType.DeclaresAll (mapping : CaseMapping) (type : TokenType) : Prop :=
  ∀ codes, type.declaredCodes? = some codes →
    ∀ (input : Array Char) (start stop : Nat) (c : Char),
      type.pattern.program.matchAt? mapping input start = some stop → start < stop →
        input[start]? = some c → c.toNat ∈ codes

/-- Whether the type is among those tried wherever it has a match that takes up text. -/
def AnalyzedType.TriedWhereMatching (mapping : CaseMapping) (analyzed : AnalyzedType) : Prop :=
  ∀ (input : Array Char) (start stop : Nat) (c : Char),
    analyzed.program.matchAt? mapping input start = some stop → start < stop →
      input[start]? = some c → analyzed.leadingChars.isTriedAt c.toNat = true

/-- Whether the type is among those tried wherever it has a match in one text that takes up text. -/
def AnalyzedType.TriedIn (mapping : CaseMapping) (input : Array Char) (analyzed : AnalyzedType) :
    Prop :=
  ∀ (start stop : Nat) (c : Char),
    analyzed.program.matchAt? mapping input start = some stop → start < stop →
      input[start]? = some c → analyzed.leadingChars.isTriedAt c.toNat = true

theorem TokenType.DeclaresAll.of_literal {mapping : CaseMapping} {type : TokenType}
    {letter : Char} (hpaired : mapping.IsPaired type.pattern.flags.ignoreCase)
    (hroot : type.pattern.root = .literal letter)
    (hcodes : ∀ codes, type.declaredCodes? = some codes → ∀ code,
      mapping.Pairs type.pattern.flags.ignoreCase letter.toNat code → code ∈ codes) :
    type.DeclaresAll mapping := by
  intro codes hdeclared input start stop c hmatch hlt hc
  obtain ⟨-, way, hway, -⟩ := Program.exists_way_of_matchAt? hmatch
  change way ∈ type.pattern.root.ways _ _ _ _ at hway
  rw [hroot, Node.ways] at hway
  obtain ⟨-, hagree, -⟩ := Search.take_stop hway
  rw [hc, Option.any_some] at hagree
  exact hcodes codes hdeclared c.toNat (CaseMapping.pairs_of_agree hpaired hagree)

theorem LeadingChars.isTriedAt_of_mem {entry : LeadingChars} {codes : Array Nat} {code : Nat}
    (hcodes : entry.codes? = some codes) (h : code ∈ codes) : entry.isTriedAt code = true := by
  simp [isTriedAt, names, hcodes, h]

theorem TokenType.analyze_eq_ok {options : TokenizerOptions} {type : TokenType}
    {analyzed : AnalyzedType} (h : type.analyze options = .ok analyzed) :
    analyzed.program = type.pattern.program ∧ analyzed.leadingChars =
      LeadingChars.ofPattern options.mapping type.pattern type.declaredCodes? ∧
      analyzed.tracksLines =
        type.lineBreaks?.getD (type.pattern.canContain options.mapping lineTerminators) := by
  simp only [analyze] at h
  split at h
  · cases h
  · split at h
    · cases h
    · cases h
      exact ⟨rfl, rfl, rfl⟩

theorem TokenType.triedIn_analyze {options : TokenizerOptions} {type : TokenType}
    {analyzed : AnalyzedType} {input : Array Char}
    (hpaired : Subject.IsPaired ⟨options.mapping, type.pattern.flags, input⟩)
    (hdeclared : type.DeclaresAll options.mapping) (h : type.analyze options = .ok analyzed) :
    analyzed.TriedIn options.mapping input := by
  obtain ⟨hprogram, hleading, -⟩ := analyze_eq_ok h
  intro start stop c hmatch hlt hc
  rw [hprogram] at hmatch
  rw [hleading]
  cases hcodes : type.declaredCodes? with
  | some codes =>
    have hmem := hdeclared codes hcodes input start stop c hmatch hlt hc
    exact LeadingChars.isTriedAt_of_mem rfl hmem
  | none =>
    unfold LeadingChars.ofPattern
    dsimp only
    by_cases hempty : (type.pattern.leadingCodes options.mapping none).isEmpty = true
    · rw [if_pos hempty]
      rfl
    · rw [if_neg hempty]
      obtain ⟨first, hfirst, hmem⟩ := Pattern.exists_mem_leadingCodes hpaired
        (Bool.not_eq_true _ ▸ hempty) hmatch hlt
      obtain rfl : first = c := Option.some.inj (hfirst.symm.trans hc)
      exact LeadingChars.isTriedAt_of_mem rfl hmem

theorem TokenType.triedWhereMatching_analyze {options : TokenizerOptions} {type : TokenType}
    {analyzed : AnalyzedType} (hpaired : options.mapping.IsPaired type.pattern.flags.ignoreCase)
    (hdeclared : type.DeclaresAll options.mapping) (h : type.analyze options = .ok analyzed) :
    analyzed.TriedWhereMatching options.mapping :=
  fun _ => type.triedIn_analyze (Subject.isPaired_of_mapping hpaired) hdeclared h

namespace Tokenizer

theorem mem_of_mapM_analyze {options : TokenizerOptions} {types : List TokenType}
    {analyzed : List AnalyzedType} (h : types.mapM (TokenType.analyze options) = .ok analyzed) :
    ∀ entry ∈ analyzed, ∃ type ∈ types, type.analyze options = .ok entry := by
  induction types generalizing analyzed with
  | nil =>
    simp only [List.mapM_nil, pure, Except.pure, Except.ok.injEq] at h
    subst h
    simp
  | cons type types ih =>
    rw [List.mapM_cons] at h
    cases hfirst : type.analyze options with
    | error error => simp [hfirst, bind, Except.bind] at h
    | ok first =>
      cases hrest : types.mapM (TokenType.analyze options) with
      | error error => simp [hfirst, hrest, bind, Except.bind] at h
      | ok rest =>
        simp only [hfirst, hrest, bind, Except.bind, pure, Except.pure, Except.ok.injEq] at h
        subst h
        intro entry hentry
        rcases List.mem_cons.mp hentry with rfl | hlater
        · exact ⟨type, List.mem_cons_self, hfirst⟩
        · obtain ⟨other, hother, hanalyze⟩ := ih hrest entry hlater
          exact ⟨other, List.mem_cons_of_mem _ hother, hanalyze⟩

theorem mem_of_ofTypes? {options : TokenizerOptions} {types : List TokenType}
    {tokenizer : Tokenizer} (h : ofTypes? types options = .ok tokenizer) :
    tokenizer.options = options ∧
      ∀ entry ∈ tokenizer.types, ∃ type ∈ types, type.analyze options = .ok entry := by
  unfold ofTypes? at h
  split at h
  · cases h
  · cases hanalyzed : types.mapM (TokenType.analyze options) with
    | error error => simp [hanalyzed, bind, Except.bind] at h
    | ok analyzed =>
      simp only [hanalyzed, bind, Except.bind, pure, Except.pure, Except.ok.injEq] at h
      subst h
      refine ⟨rfl, fun entry hentry => ?_⟩
      exact mem_of_mapM_analyze hanalyzed entry (List.mem_toArray.mp hentry)

section Congruence

variable {a b : Tokenizer}

theorem segmentsFrom_congr (htypes : a.types = b.types) {input : Array Char}
    (hfirst : ∀ offset, a.firstMatch? input offset = b.firstMatch? input offset)
    (cursor : Cursor) (run? : Option Cursor) (segments : Array Segment) :
    a.segmentsFrom input cursor run? segments = b.segmentsFrom input cursor run? segments := by
  have htracks : a.tracksLines = b.tracksLines := by
    funext type
    rw [tracksLines, tracksLines, htypes]
  fun_induction segmentsFrom a input cursor run? segments with
  | case1 cursor run? segments hlt found hfound tracks last =>
    rename_i ih
    rw [hfirst] at hfound
    conv => rhs; rw [segmentsFrom, if_pos hlt, hfound]
    simpa only [tracks, last, htracks] using ih
  | case2 cursor run? segments hlt hnothing ih =>
    rw [hfirst] at hnothing
    conv => rhs; rw [segmentsFrom, if_pos hlt, hnothing]
    exact ih
  | case3 cursor run? segments hend =>
    rw [segmentsFrom, if_neg hend]

/-- Tokenizers with the same types give the same tokens if they find the same matches. -/
theorem tokenize_eq (htypes : a.types = b.types)
    (hpositions : a.options.positions = b.options.positions) (text : String)
    (hfirst : ∀ offset, a.firstMatch? text.toList.toArray offset =
      b.firstMatch? text.toList.toArray offset) : a.tokenize text = b.tokenize text := by
  have hsegments : a.segments text.toList.toArray = b.segments text.toList.toArray :=
    segmentsFrom_congr htypes hfirst {} none #[]
  have hadd : a.addSegment text.toList.toArray = b.addSegment text.toList.toArray := by
    funext result segment
    cases segment with
    | found type start last =>
      simp only [addSegment, token, group, htypes, hpositions]
    | unmatched start stop =>
      simp only [addSegment, unmatchedRun, hpositions]
  simp only [tokenize, hsegments, hadd]

theorem tokenize_congr (htypes : a.types = b.types)
    (hpositions : a.options.positions = b.options.positions)
    (hfirst : ∀ input offset, a.firstMatch? input offset = b.firstMatch? input offset) :
    a.tokenize = b.tokenize :=
  funext fun text => tokenize_eq htypes hpositions text (hfirst _)

end Congruence

section Table

variable {tokenizer : Tokenizer} {input : Array Char} {offset : Nat}

theorem matchOf?_of_not_isTriedAt {index : Nat} {analyzed : AnalyzedType} {c : Char}
    (htype : tokenizer.types[index]? = some analyzed)
    (htried : analyzed.TriedIn tokenizer.options.mapping input) (hc : input[offset]? = some c)
    (hskipped : analyzed.leadingChars.isTriedAt c.toNat = false) :
    tokenizer.matchOf? input offset index = none := by
  simp only [matchOf?, htype, Option.bind_eq_bind, Option.bind_some]
  cases hmatch : analyzed.program.matchAt? tokenizer.options.mapping input offset with
  | none => rfl
  | some stop =>
    rw [Option.bind_some, dif_neg]
    intro hlt
    have hlisted := htried offset stop c hmatch hlt hc
    rw [hskipped] at hlisted
    cases hlisted

theorem firstMatch?_of_triedIn
    (hdispatch : tokenizer.dispatch? =
      some (.ofEntries (tokenizer.types.toList.map AnalyzedType.leadingChars)))
    (htried : ∀ analyzed ∈ tokenizer.types.toList,
      analyzed.TriedIn tokenizer.options.mapping input) :
    tokenizer.firstMatch? input offset =
      { tokenizer with dispatch? := none }.firstMatch? input offset := by
  unfold firstMatch?
  cases hc : input[offset]? with
  | none => rfl
  | some c =>
    have hsearch : ((DispatchTable.ofEntries (tokenizer.types.toList.map
        AnalyzedType.leadingChars)).candidates c.toNat).findSome?
          (tokenizer.matchOf? input offset) =
        (List.range (tokenizer.types.toList.map AnalyzedType.leadingChars).length).findSome?
          (tokenizer.matchOf? input offset) := by
      apply DispatchTable.findSome?_candidates
      intro index entry hentry hskipped
      rw [List.getElem?_map, Option.map_eq_some_iff] at hentry
      obtain ⟨analyzed, htype, rfl⟩ := hentry
      have hmem := List.mem_of_getElem? htype
      rw [Array.getElem?_toList] at htype
      exact matchOf?_of_not_isTriedAt htype (htried analyzed hmem) hc hskipped
    rw [List.length_map, Array.length_toList] at hsearch
    simp only [Option.bind_eq_bind, Option.bind_some, candidates, hdispatch]
    exact hsearch

theorem firstMatch?_without_dispatch
    (hdispatch : tokenizer.dispatch? =
      some (.ofEntries (tokenizer.types.toList.map AnalyzedType.leadingChars)))
    (htried : ∀ analyzed ∈ tokenizer.types.toList,
      analyzed.TriedWhereMatching tokenizer.options.mapping) :
    tokenizer.firstMatch? input offset =
      { tokenizer with dispatch? := none }.firstMatch? input offset :=
  firstMatch?_of_triedIn hdispatch fun analyzed hanalyzed => htried analyzed hanalyzed input

end Table

/-- Picking the types by the next character gives the tokens that trying all types gives, and no
other error, if the characters that are declared for a type are all that a match can begin with. -/
theorem map_tokenize_ofTypes?_tryAll (types : List TokenType) (options : TokenizerOptions)
    (hpaired : ∀ type ∈ types, options.mapping.IsPaired type.pattern.flags.ignoreCase)
    (hdeclared : ∀ type ∈ types, type.DeclaresAll options.mapping) :
    (ofTypes? types { options with tryAll := false }).map tokenize =
      (ofTypes? types { options with tryAll := true }).map tokenize := by
  have hanalyze : ∀ tryAll, TokenType.analyze { options with tryAll } = TokenType.analyze options :=
    fun _ => rfl
  unfold ofTypes?
  split
  · rfl
  · rw [hanalyze false, hanalyze true]
    cases hanalyzed : types.mapM (TokenType.analyze options) with
    | error error => rfl
    | ok analyzed =>
      have htried : ∀ entry ∈ analyzed, entry.TriedWhereMatching options.mapping := by
        intro entry hentry
        obtain ⟨type, htype, hentry⟩ := mem_of_mapM_analyze hanalyzed entry hentry
        exact type.triedWhereMatching_analyze (hpaired type htype) (hdeclared type htype) hentry
      simp only [bind, Except.bind, pure, Except.pure, Except.map]
      apply congrArg
      apply tokenize_congr
      · rfl
      · rfl
      · intro input offset
        exact firstMatch?_without_dispatch rfl htried

/-- A letter in both cases, declared, before one that the analysis lists. -/
theorem map_tokenize_ofTypes?_tryAll_of_two_letters :
    let letter (c : Char) : Pattern := ⟨.literal c, { ignoreCase := true }, ⟨rfl, rfl⟩⟩
    let types : List TokenType :=
      [{ name := "b", pattern := letter 'b', declaredCodes? := some #[66, 98] },
        { name := "a", pattern := letter 'a' }]
    (∀ type ∈ types, CaseMapping.ascii.IsPaired type.pattern.flags.ignoreCase) ∧
      (∀ type ∈ types, type.DeclaresAll .ascii) ∧
      (ofTypes? types { mapping := .ascii, tryAll := false }).map tokenize =
        (ofTypes? types { mapping := .ascii, tryAll := true }).map tokenize ∧
      ∃ tokenizer, ofTypes? types { mapping := .ascii, tryAll := false } = .ok tokenizer ∧
        (tokenizer.tokenize "aB").tokens =
          #[⟨1, "a", 0, 1, some ⟨1, 1⟩, some ⟨1, 1⟩⟩,
            ⟨0, "B", 1, 2, some ⟨1, 2⟩, some ⟨1, 2⟩⟩] := by
  intro letter types
  have hpaired : ∀ type ∈ types, CaseMapping.ascii.IsPaired type.pattern.flags.ignoreCase :=
    fun _ _ _ => rfl
  have hdeclared : ∀ type ∈ types, type.DeclaresAll .ascii := by
    refine List.forall_mem_cons.mpr ⟨.of_literal (fun _ => rfl) rfl ?_,
      List.forall_mem_singleton.mpr (.of_literal (fun _ => rfl) rfl nofun)⟩
    intro codes hcodes code hcode
    cases hcodes
    rcases hcode with rfl | ⟨-, hvariant⟩
    · simp
    · have hupper : CaseMapping.ascii.variant? 98 = some 66 := by decide
      simp [← Option.some.inj (hupper.symm.trans hvariant)]
  have hmap := map_tokenize_ofTypes?_tryAll types { mapping := .ascii } hpaired hdeclared
  refine ⟨hpaired, hdeclared, hmap, ?_⟩
  let analyzed : List AnalyzedType := types.map fun type =>
    ⟨type, type.pattern.program, .ofPattern .ascii type.pattern type.declaredCodes?,
      type.pattern.canContain .ascii lineTerminators⟩
  let tokenizer : Tokenizer := ⟨analyzed.toArray, { mapping := .ascii, tryAll := true }, none⟩
  have htokenizer : ofTypes? types { mapping := .ascii, tryAll := true } = .ok tokenizer := by
    have hempty : ∀ c, (letter c).program.matchAt? .ascii #[] 0 = none := by
      intro c
      rw [Program.matchAt?_eq]
      rfl
    simp [ofTypes?, types, TokenType.analyze, hempty, tokenizer, analyzed]
    rfl
  obtain ⟨hfirst, hsecond⟩ : tokenizer.firstMatch? #['a', 'B'] 0 = some ⟨1, 1, by decide⟩ ∧
      tokenizer.firstMatch? #['a', 'B'] 1 = some ⟨0, 2, by decide⟩ := by
    obtain ⟨hb, ha, hB⟩ : (letter 'b').program.matchAt? .ascii #['a', 'B'] 0 = none ∧
        (letter 'a').program.matchAt? .ascii #['a', 'B'] 0 = some 1 ∧
        (letter 'b').program.matchAt? .ascii #['a', 'B'] 1 = some 2 := by
      simp only [Program.matchAt?_eq]
      decide +kernel
    simp [firstMatch?, tokenizer, analyzed, types, candidates, List.range_succ, matchOf?, hb, ha,
      hB]
  have htracks : tokenizer.tracksLines 0 = false ∧ tokenizer.tracksLines 1 = false := by
    decide +kernel
  have hsegments : tokenizer.segments #['a', 'B'] =
      #[.found 1 ⟨⟨1, 1⟩, 0⟩ ⟨⟨1, 1⟩, 0⟩, .found 0 ⟨⟨1, 2⟩, 1⟩ ⟨⟨1, 2⟩, 1⟩] := by
    simp [segments, segmentsFrom, hfirst, hsecond, htracks, Cursor.advance, Cursor.next, closeRun]
  rw [htokenizer] at hmap
  cases hpicked : ofTypes? types { mapping := .ascii, tryAll := false } with
  | error error => rw [hpicked] at hmap; cases hmap
  | ok picked =>
    rw [hpicked] at hmap
    have htokenize : picked.tokenize = tokenizer.tokenize := Except.ok.inj hmap
    refine ⟨picked, rfl, ?_⟩
    have hinput : "aB".toList.toArray = #['a', 'B'] := by simp
    rw [htokenize, tokenize, hinput, hsegments]
    simp [addSegment, group, tokenizer, analyzed, types, TokenizedText.addToken, token]

end Tokenizer
end TokenPatterns
