import TokenPatterns.Proofs.Tokenizing
import TokenPatterns.Text.Placing

/-!
# Lines and columns are right

The cursor of a tokenizer goes over a text match by match, and over what does not match character
by character. If lines are counted in each match that holds a line terminator, all tokens and all
runs of unmatched characters have their true places.
-/
namespace TokenPatterns

namespace Segment

/-- Whether the cursors that a segment keeps are where they say. -/
def IsPlaced (input : Array Char) : Segment → Prop
  | found _ start last => start.IsPlaced input ∧ last.IsPlaced input
  | unmatched start _ => start.IsPlaced input

end Segment

namespace Tokenizer

variable (tokenizer : Tokenizer) (input : Array Char)

/-- Whether lines are counted in a segment, unless it holds no line terminator. They are counted
in all unmatched characters. -/
def CountsBreaksIn : Segment → Prop
  | .found type start last => tokenizer.tracksLines type = true ∨
      ∀ offset, start.offset ≤ offset → offset ≤ last.offset →
        ∀ c, input[offset]? = some c → isLineTerminator c = false
  | .unmatched .. => True

/-- Whether each type that matches somewhere in the text counts lines, or matches only where there
is no line terminator. -/
def CountsBreaks : Prop :=
  ∀ segment ∈ tokenizer.segments input, tokenizer.CountsBreaksIn input segment

end Tokenizer

namespace Tokenizer

section Segments

variable {tokenizer : Tokenizer} {input : Array Char} {segment : Segment} {run? : Option Cursor}
  {segments : Array Segment} {stop : Nat}

theorem mem_closeRun : segment ∈ closeRun run? stop segments ↔
    segment ∈ segments ∨ ∃ start, run? = some start ∧ segment = .unmatched start stop := by
  cases run? with
  | none => simp [closeRun]
  | some start => simp [closeRun, Array.mem_push]

theorem mem_segmentsFrom (cursor : Cursor) (h : segment ∈ segments) :
    segment ∈ tokenizer.segmentsFrom input cursor run? segments := by
  fun_induction segmentsFrom tokenizer input cursor run? segments with
  | case1 cursor run? segments hlt found hfound tracks last =>
    rename_i ih
    exact ih (Array.mem_push.mpr (.inl (mem_closeRun.mpr (.inl h))))
  | case2 cursor run? segments hlt hnothing ih => exact ih h
  | case3 cursor run? segments hend => exact mem_closeRun.mpr (.inl h)

theorem isPlaced_of_mem_closeRun (hrun : ∀ start ∈ run?, start.IsPlaced input)
    (hsegments : ∀ segment ∈ segments, segment.IsPlaced input) :
    ∀ segment ∈ closeRun run? stop segments, segment.IsPlaced input := by
  intro segment hsegment
  rcases mem_closeRun.mp hsegment with hold | ⟨start, hstart, rfl⟩
  · exact hsegments segment hold
  · exact hrun start hstart

/-- Behind a match the cursor is where it says if the match was counted as its segment asks. -/
theorem isPlaced_of_countsBreaksIn {type : Nat} {cursor last : Cursor} {count : Nat}
    (hcursor : cursor.IsPlaced input)
    (hlast : last = cursor.advance input (tokenizer.tracksLines type) count)
    (hcounts : tokenizer.CountsBreaksIn input (.found type cursor last)) :
    last.IsPlaced input ∧ (last.next input (tokenizer.tracksLines type)).IsPlaced input := by
  have hoffset : last.offset = cursor.offset + count := by rw [hlast, Cursor.offset_advance]
  have hbreaks : tokenizer.tracksLines type = true ∨ ∀ offset, cursor.offset ≤ offset →
      offset ≤ cursor.offset + count → ¬ BreaksAt input offset := by
    refine hcounts.imp_right fun hnone offset hle hlt => ?_
    exact not_breaksAt_of_isLineTerminator (hnone offset hle (hoffset ▸ hlt))
  have hplaced : last.IsPlaced input := by
    rw [hlast]
    apply hcursor.advance
    exact hbreaks.imp_right fun hnone offset hle hlt => hnone offset hle (Nat.le_of_lt hlt)
  refine ⟨hplaced, hplaced.next (hbreaks.imp_right fun hnone => ?_)⟩
  rw [hoffset]
  exact hnone _ (Nat.le_add_right _ _) (Nat.le_refl _)

theorem isPlaced_of_mem_segmentsFrom (cursor : Cursor)
    (hcounts : ∀ segment ∈ tokenizer.segmentsFrom input cursor run? segments,
      tokenizer.CountsBreaksIn input segment)
    (hcursor : cursor.IsPlaced input) (hrun : ∀ start ∈ run?, start.IsPlaced input)
    (hsegments : ∀ segment ∈ segments, segment.IsPlaced input) :
    ∀ segment ∈ tokenizer.segmentsFrom input cursor run? segments, segment.IsPlaced input := by
  fun_induction segmentsFrom tokenizer input cursor run? segments with
  | case1 cursor run? segments hlt found hfound tracks last =>
    rename_i ih
    have hmatch := hcounts (.found found.type cursor last)
      (mem_segmentsFrom _ (Array.mem_push.mpr (.inr rfl)))
    obtain ⟨hlast, hnext⟩ := isPlaced_of_countsBreaksIn hcursor rfl hmatch
    apply ih hcounts hnext (by simp)
    intro segment hsegment
    rcases Array.mem_push.mp hsegment with hold | rfl
    · exact isPlaced_of_mem_closeRun hrun hsegments segment hold
    · exact ⟨hcursor, hlast⟩
  | case2 cursor run? segments hlt hnothing ih =>
    apply ih hcounts (hcursor.next (.inl rfl)) ?_ hsegments
    rintro start hstart
    cases hstart
    cases run? with
    | none => exact hcursor
    | some start => exact hrun start rfl
  | case3 cursor run? segments hend => exact isPlaced_of_mem_closeRun hrun hsegments

end Segments

section Results

variable {tokenizer : Tokenizer} {input : Array Char} {segments : List Segment}
  {result : TokenizedText}

theorem holds_of_holds_addSegment {segment : Segment} {token : Token}
    (h : (tokenizer.addSegment input result segment).Holds token) : result.Holds token ∨
      ∃ type start last, segment = .found type start last ∧
        token = tokenizer.token input type start last := by
  cases segment with
  | found type start last =>
    exact (holds_of_holds_addToken h).imp_right fun htoken => ⟨type, start, last, rfl, htoken⟩
  | unmatched start stop =>
    left
    simp only [addSegment] at h
    split at h
    · exact h
    · exact h

theorem errors_addToken (token : Token) (group : TokenGroup) :
    (result.addToken token group).errors = result.errors := by
  cases group <;> rfl

theorem mem_errors_of_addSegment {segment : Segment} {run : UnmatchedRun}
    (h : run ∈ (tokenizer.addSegment input result segment).errors) : run ∈ result.errors ∨
      ∃ start stop first, segment = .unmatched start stop ∧
        run = tokenizer.unmatchedRun first start stop := by
  cases segment with
  | found type start last =>
    rw [addSegment, errors_addToken] at h
    exact .inl h
  | unmatched start stop =>
    simp only [addSegment] at h
    split at h
    · next first _ =>
      refine (Array.mem_push.mp h).imp_right fun hrun => ⟨start, stop, first, rfl, hrun⟩
    · exact .inl h

theorem exists_found_of_holds {token : Token}
    (h : (segments.foldl (tokenizer.addSegment input) result).Holds token) :
    result.Holds token ∨ ∃ type start last, Segment.found type start last ∈ segments ∧
      token = tokenizer.token input type start last := by
  induction segments generalizing result with
  | nil => exact .inl h
  | cons segment segments ih =>
    rcases ih h with hfirst | ⟨type, start, last, hmem, htoken⟩
    · refine (holds_of_holds_addSegment hfirst).imp_right ?_
      rintro ⟨type, start, last, rfl, htoken⟩
      exact ⟨type, start, last, List.mem_cons_self, htoken⟩
    · exact .inr ⟨type, start, last, List.mem_cons_of_mem _ hmem, htoken⟩

theorem exists_unmatched_of_mem_errors {run : UnmatchedRun}
    (h : run ∈ (segments.foldl (tokenizer.addSegment input) result).errors) :
    run ∈ result.errors ∨ ∃ start stop first, Segment.unmatched start stop ∈ segments ∧
      run = tokenizer.unmatchedRun first start stop := by
  induction segments generalizing result with
  | nil => exact .inl h
  | cons segment segments ih =>
    rcases ih h with hfirst | ⟨start, stop, first, hmem, hrun⟩
    · refine (mem_errors_of_addSegment hfirst).imp_right ?_
      rintro ⟨start, stop, first, rfl, hrun⟩
      exact ⟨start, stop, first, List.mem_cons_self, hrun⟩
    · exact .inr ⟨start, stop, first, List.mem_cons_of_mem _ hmem, hrun⟩

end Results

/-- Where all places are recorded, tokens begin and end where they say, and errors begin there. -/
theorem tokenize_places (tokenizer : Tokenizer) (text : String)
    (hfull : tokenizer.options.positions = .full)
    (hcounts : tokenizer.CountsBreaks text.toList.toArray) :
    (∀ token, (tokenizer.tokenize text).Holds token →
      token.start? = some (.ofOffset text.toList.toArray token.start) ∧
        token.last? = some (.ofOffset text.toList.toArray (token.stop - 1))) ∧
    ∀ run ∈ (tokenizer.tokenize text).errors,
      run.start? = some (.ofOffset text.toList.toArray run.start) := by
  have hplaced := isPlaced_of_mem_segmentsFrom {} hcounts (Cursor.isPlaced_start _) nofun (by simp)
  have htokenize : tokenizer.tokenize text = (tokenizer.segments text.toList.toArray).toList.foldl
      (tokenizer.addSegment text.toList.toArray) {} := by
    rw [tokenize, Array.foldl_toList]
  rw [htokenize]
  constructor
  · intro token htoken
    rcases exists_found_of_holds htoken with hnone | ⟨type, start, last, hmem, rfl⟩
    · rcases hnone with hmain | ⟨name, tokens, hname, -⟩
      · simp at hmain
      · simp at hname
    · obtain ⟨hstart, hlast⟩ := hplaced _ (Array.mem_toList_iff.mp hmem)
      simp only [token, hfull]
      exact ⟨congrArg some hstart, congrArg some hlast⟩
  · intro run hrun
    rcases exists_unmatched_of_mem_errors hrun with hnone | ⟨start, stop, first, hmem, rfl⟩
    · simp at hnone
    · have hstart := hplaced _ (Array.mem_toList_iff.mp hmem)
      simp only [unmatchedRun, hfull]
      exact congrArg some hstart

/-- Two characters that end one line in a skipped match, and one of them alone, unmatched. -/
theorem tokenize_places_of_two_breaks :
    let analyzed (pattern : Pattern) (group : TokenGroup) (tracksLines : Bool) : AnalyzedType :=
      ⟨{ name := "", pattern, group }, pattern.program, .unlisted .notEnumerable, tracksLines⟩
    let tokenizer : Tokenizer :=
      ⟨#[analyzed ⟨.literal 'a', {}, ⟨rfl, rfl⟩⟩ .main false,
        analyzed ⟨.concat [.anyChar, .literal '\n'], { dotAll := true }, ⟨rfl, rfl⟩⟩ .skipped true],
        {}, none⟩
    let text := "a\r\n\ra"
    let input := text.toList.toArray
    tokenizer.options.positions = .full ∧ tokenizer.CountsBreaks input ∧
      (∀ token, (tokenizer.tokenize text).Holds token →
        token.start? = some (.ofOffset input token.start) ∧
          token.last? = some (.ofOffset input (token.stop - 1))) ∧
      (∀ run ∈ (tokenizer.tokenize text).errors, run.start? = some (.ofOffset input run.start)) ∧
      (tokenizer.tokenize text).tokens =
        #[⟨0, "a", 0, 1, some ⟨1, 1⟩, some ⟨1, 1⟩⟩, ⟨0, "a", 4, 5, some ⟨3, 1⟩, some ⟨3, 1⟩⟩] ∧
      (tokenizer.tokenize text).errors = #[⟨3, some ⟨2, 1⟩, 1, '\r'⟩] ∧
      Place.ofOffset input 3 = ⟨2, 1⟩ ∧ Place.ofOffset input 4 = ⟨3, 1⟩ := by
  intro analyzed tokenizer text input
  obtain ⟨hfirst, hsecond, hnone, hlast⟩ :
      tokenizer.firstMatch? input 0 = some ⟨0, 1, by decide⟩ ∧
      tokenizer.firstMatch? input 1 = some ⟨1, 3, by decide⟩ ∧
      tokenizer.firstMatch? input 3 = none ∧
      tokenizer.firstMatch? input 4 = some ⟨0, 5, by decide⟩ := by
    simp [firstMatch?, tokenizer, analyzed, input, text, candidates, List.range_succ, matchOf?,
      Program.matchAt?_eq, Pattern.program, Node.ways, Node.waysAll, Search.take, Subject.agree,
      Subject.acceptsAny]
  have hbreaks : breaksLine input 0 = false ∧ breaksLine input 1 = false ∧
      breaksLine input 2 = true ∧ breaksLine input 3 = true ∧ breaksLine input 4 = false := by
    decide
  have hsize : input.size = 5 := by simp [input, text]
  have hsegments : tokenizer.segments input =
      #[.found 0 ⟨⟨1, 1⟩, 0⟩ ⟨⟨1, 1⟩, 0⟩, .found 1 ⟨⟨1, 2⟩, 1⟩ ⟨⟨1, 3⟩, 2⟩,
        .unmatched ⟨⟨2, 1⟩, 3⟩ 4, .found 0 ⟨⟨3, 1⟩, 4⟩ ⟨⟨3, 1⟩, 4⟩] := by
    simp [segments, segmentsFrom, hsize, hfirst, hsecond, hnone, hlast, hbreaks, Cursor.advance,
      Cursor.next, tracksLines, closeRun, tokenizer, analyzed]
  have hcounts : tokenizer.CountsBreaks input := by
    have hplain : ∀ place offset, input[offset]? = some 'a' →
        tokenizer.CountsBreaksIn input (.found 0 ⟨place, offset⟩ ⟨place, offset⟩) := by
      intro place offset ha
      refine .inr fun other hle hge c hc => ?_
      obtain rfl : other = offset := Nat.le_antisymm hge hle
      obtain rfl : c = 'a' := Option.some.inj (hc.symm.trans ha)
      rfl
    intro segment hsegment
    rw [hsegments] at hsegment
    simp only [List.mem_toArray, List.mem_cons, List.not_mem_nil, or_false] at hsegment
    rcases hsegment with rfl | rfl | rfl | rfl
    · exact hplain _ _ (by simp [input, text])
    · exact .inl rfl
    · trivial
    · exact hplain _ _ (by simp [input, text])
  obtain ⟨htokens, herrors⟩ := tokenize_places tokenizer text rfl hcounts
  refine ⟨rfl, hcounts, htokens, herrors, ?_, ?_, by decide, by decide⟩
  all_goals
    rw [tokenize, hsegments]
    simp [addSegment, group, tokenizer, analyzed, text, TokenizedText.addToken,
      TokenizedText.addError, token, unmatchedRun]

end Tokenizer
end TokenPatterns
