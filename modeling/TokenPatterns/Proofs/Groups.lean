import Mathlib.Data.List.Nodup
import TokenPatterns.Pattern

/-!
# Groups before and after reading

The groups of a text are looked at three times: by the survey before it is read, as tokens, and in
the tree. All three find the same groups with the same numbers and names.
-/
namespace TokenPatterns
namespace Regex

/-- How the survey of a text, its tokens and its pattern agree. The parentheses of the text are
listed with their positions and with what they open. -/
structure GroupsAgree (text : String) (pattern : Pattern) : Prop where
  survey_count : (GroupSurvey.ofText text.toList).count = pattern.captureCount
  token_count : captureOpenings ((lex text).tokens.map PlacedToken.token) = pattern.captureCount
  node_count : pattern.root.captures.length = pattern.captureCount
  captures_eq : pattern.root.captures = List.range' 1 pattern.captureCount
  /-- The groups of the tree follow each other as their parentheses do, in lookarounds, too. -/
  openings_eq : pattern.root.openings = (openings 0 (lex text).tokens).map Prod.snd
  references_within : ∀ number ∈ pattern.root.references,
    1 ≤ number ∧ number ≤ pattern.captureCount
  names_ne_nil : ∀ entry ∈ (GroupSurvey.ofText text.toList).names, entry.1 ≠ []
  names_nodup : ((GroupSurvey.ofText text.toList).names.toList.map Prod.fst).Nodup
  mem_names_iff : ∀ name number, (name, number) ∈ (GroupSurvey.ofText text.toList).names ↔
    ∃ pos, (pos, .group (some number)) ∈ openings 0 (lex text).tokens ∧
      OpensNamed text.toList pos name
  /-- A reference by name has the number of the one group that the name opens. -/
  reference_by_name : ∀ pos number name, ⟨pos, .backreference number⟩ ∈ (lex text).tokens →
    RefersByName text.toList pos name →
      ∃ place, (place, .group (some number)) ∈ openings 0 (lex text).tokens ∧
        ∀ entry ∈ openings 0 (lex text).tokens,
          OpensNamed text.toList entry.1 name ↔ entry.1 = place

section Names

variable {text : String} {name : List Char} {pos number : Nat}

theorem mem_names_ofText (hmistake : (lex text).mistake = none) (entry : List Char × Nat) :
    entry ∈ (GroupSurvey.ofText text.toList).names ↔
      ∃ pos, (pos, .group (some entry.2)) ∈ openings 0 (lex text).tokens ∧
        OpensNamed text.toList pos entry.1 := by
  rw [ofText_eq_addTokens hmistake, GroupSurvey.mem_names_addTokens (opensAsSpelled_lex text)]
  simp

/-- A parenthesis that is spelled with a name opens a capture, and no other has the name. -/
theorem capture_of_opensNamed {opening : Opening}
    (h : (pos, opening) ∈ openings 0 (lex text).tokens) (hnamed : OpensNamed text.toList pos name) :
    (∃ number, opening = .group (some number)) ∧ name ≠ [] ∧
      (GroupSurvey.ofText text.toList).uses name = 1 := by
  obtain ⟨kind, m, htoken, rfl⟩ := exists_of_mem_openings h
  obtain ⟨htext, rest, hopens⟩ := opensAsSpelled_lex text pos kind htoken
  obtain ⟨hname, more, hprefix⟩ := hnamed
  have hspelled : text.toList.drop (pos + 1) = '?' :: '<' :: (name ++ '>' :: more) := by
    rw [htext] at hprefix
    rw [← (List.cons.inj hprefix).2]
    simp
  rw [hspelled] at hopens
  obtain ⟨rfl, hne, huses⟩ := hopens.of_spelled hname
  exact ⟨⟨_, rfl⟩, hne, huses⟩

theorem names_of_opensNamed (hmistake : (lex text).mistake = none) {opening : Opening}
    (h : (pos, opening) ∈ openings 0 (lex text).tokens) (hnamed : OpensNamed text.toList pos name) :
    ∃ number, opening = .group (some number) ∧
      (name, number) ∈ (GroupSurvey.ofText text.toList).names := by
  obtain ⟨number, rfl⟩ := (capture_of_opensNamed h hnamed).1
  exact ⟨number, rfl, (mem_names_ofText hmistake _).mpr ⟨pos, h, hnamed⟩⟩

theorem uses_eq_one (hmistake : (lex text).mistake = none)
    (h : (name, number) ∈ (GroupSurvey.ofText text.toList).names) :
    name ≠ [] ∧ (GroupSurvey.ofText text.toList).uses name = 1 := by
  obtain ⟨pos, hopening, hnamed⟩ := (mem_names_ofText hmistake _).mp h
  exact (capture_of_opensNamed hopening hnamed).2

theorem nodup_names_ofText (hmistake : (lex text).mistake = none) :
    ((GroupSurvey.ofText text.toList).names.toList.map Prod.fst).Nodup := by
  rw [List.nodup_iff_count_le_one]
  intro name
  by_cases hmem : name ∈ (GroupSurvey.ofText text.toList).names.toList.map Prod.fst
  · obtain ⟨⟨_, number⟩, hentry, rfl⟩ := List.mem_map.mp hmem
    have huses := (uses_eq_one hmistake (Array.mem_toList_iff.mp hentry)).2
    rw [GroupSurvey.uses, ← Array.countP_toList] at huses
    rw [List.count, List.countP_map]
    exact Nat.le_of_eq huses
  · rw [List.count_eq_zero.mpr hmem]
    exact Nat.zero_le 1

theorem number_unique (hmistake : (lex text).mistake = none) {other : Nat}
    (h : (name, number) ∈ (GroupSurvey.ofText text.toList).names)
    (hother : (name, other) ∈ (GroupSurvey.ofText text.toList).names) : other = number := by
  have hentry := List.inj_on_of_nodup_map (nodup_names_ofText hmistake)
    (Array.mem_toList_iff.mpr hother) (Array.mem_toList_iff.mpr h) rfl
  exact (Prod.mk.inj hentry).2

theorem eq_of_reference? {token : Token} (h : token.reference? = some number) :
    token = .backreference number := by
  cases token with
  | backreference index => exact congrArg Token.backreference (Option.some.inj h)
  | _ => cases h

theorem mem_of_indexOf? {survey : GroupSurvey} (h : survey.indexOf? name = some number) :
    (name, number) ∈ survey.names := by
  obtain ⟨⟨found, _⟩, hfind, rfl⟩ := Option.map_eq_some_iff.mp h
  have hname : found = name := by simpa using Array.find?_some hfind
  rw [← hname]
  exact Array.mem_of_find?_eq_some hfind

theorem within_of_refers (hmistake : (lex text).mistake = none) {rest : List Char}
    (h : Refers (.ofText text.toList) rest number) :
    1 ≤ number ∧ number ≤ (GroupSurvey.ofText text.toList).count := by
  cases h with
  | number _ hpos hle => exact ⟨hpos, hle⟩
  | name _ hindex =>
    obtain ⟨pos, hopening, -⟩ := (mem_names_ofText hmistake _).mp (mem_of_indexOf? hindex)
    rw [count_ofText hmistake, ← Nat.zero_add (captureOpenings _)]
    exact number_of_mem_openings hopening

theorem index_of_refersByName {rest : List Char} (htext : text.toList.drop pos = '\\' :: rest)
    (h : Refers (.ofText text.toList) rest number) (hnamed : RefersByName text.toList pos name) :
    (GroupSurvey.ofText text.toList).indexOf? name = some number := by
  obtain ⟨hname, more, hprefix⟩ := hnamed
  have hspelled : rest = 'k' :: '<' :: (name ++ '>' :: more) := by
    rw [htext] at hprefix
    rw [← (List.cons.inj hprefix).2]
    simp
  rw [hspelled] at h
  exact h.of_spelled hname

/-- A reference by name has the number of the one group that opens with the name. -/
theorem exists_place_of_refersByName (hmistake : (lex text).mistake = none)
    (htoken : ⟨pos, .backreference number⟩ ∈ (lex text).tokens)
    (hnamed : RefersByName text.toList pos name) :
    ∃ place, (place, .group (some number)) ∈ openings 0 (lex text).tokens ∧
      ∀ entry ∈ openings 0 (lex text).tokens,
        OpensNamed text.toList entry.1 name ↔ entry.1 = place := by
  obtain ⟨rest, htext, hrefers⟩ := refers_of_mem_lex htoken
  have hmem := mem_of_indexOf? (index_of_refersByName htext hrefers hnamed)
  obtain ⟨place, hplace, hspelled⟩ := (mem_names_ofText hmistake _).mp hmem
  refine ⟨place, hplace, fun entry hentry => ⟨fun hother => ?_, fun heq => heq ▸ hspelled⟩⟩
  obtain ⟨other, hopening, hotherMem⟩ := names_of_opensNamed hmistake hentry hother
  obtain rfl := number_unique hmistake hmem hotherMem
  exact openings_unique hplace (hopening ▸ hentry)

theorem within_of_mem_references {root : Node} (hparse : parse text = .ok root)
    (h : number ∈ root.references) :
    1 ≤ number ∧ number ≤ (GroupSurvey.ofText text.toList).count := by
  obtain ⟨hmistake, branches, -, rfl, hnumbers⟩ := exists_numbers_of_parse hparse
  rw [references_alternationNode, hnumbers.references_eq] at h
  obtain ⟨token, htoken, hreference⟩ := List.mem_filterMap.mp h
  obtain ⟨⟨pos, _⟩, hplaced, rfl⟩ := List.mem_map.mp htoken
  obtain rfl := eq_of_reference? hreference
  obtain ⟨rest, -, hrefers⟩ := refers_of_mem_lex hplaced
  exact within_of_refers hmistake hrefers

theorem openings_of_parse {root : Node} (hparse : parse text = .ok root) :
    root.openings = (openings 0 (lex text).tokens).map Prod.snd := by
  obtain ⟨-, branches, -, rfl, hnumbers⟩ := exists_numbers_of_parse hparse
  rw [openings_alternationNode, hnumbers.openings_eq, map_snd_openings]

end Names
end Regex

namespace Pattern

open Regex

theorem parse_of_ofSource? {text : String} {flags : Flags} {pattern : Pattern}
    (h : ofSource? (.regex text) flags = .ok pattern) : parse text = .ok pattern.root := by
  unfold ofSource? at h
  dsimp only at h
  split at h
  · next hparse =>
    cases h
    exact hparse
  · cases h

theorem groupsAgree_of_ofSource? {text : String} {flags : Flags} {pattern : Pattern}
    (h : ofSource? (.regex text) flags = .ok pattern) : GroupsAgree text pattern := by
  have hparse := parse_of_ofSource? h
  have hmistake : (lex text).mistake = none := (exists_numbers_of_parse hparse).1
  have hcount : pattern.captureCount = (GroupSurvey.ofText text.toList).count := by
    rw [captureCount, pattern.isRoot.lastCapture_eq, captures_of_parse hparse, List.length_range']
  constructor
  case survey_count => exact hcount.symm
  case token_count => rw [hcount, count_ofText hmistake]
  case node_count => rw [hcount, captures_of_parse hparse, List.length_range']
  case captures_eq => rw [hcount, captures_of_parse hparse]
  case openings_eq => exact openings_of_parse hparse
  case references_within => exact fun number h => hcount ▸ within_of_mem_references hparse h
  case names_ne_nil => exact fun entry hentry => (uses_eq_one hmistake hentry).1
  case names_nodup => exact nodup_names_ofText hmistake
  case mem_names_iff => exact fun name number => mem_names_ofText hmistake (name, number)
  case reference_by_name =>
    exact fun pos number name htoken => exists_place_of_refersByName hmistake htoken

/-- A reference to a group that opens later, with parentheses that open none before it and another
group in a lookahead. -/
theorem groupsAgree_of_forward_reference :
    let text := "\\k<n>[(\\]]\\((?=(a))(?<n>b)\\1"
    ∃ pattern, ofSource? (.regex text) {} = .ok pattern ∧ pattern.captureCount = 2 ∧
      pattern.root.references = [2, 1] ∧ GroupsAgree text pattern := by
  intro text
  have hread : (ofSource? (.regex text) {}).toOption.map
      (fun pattern => (pattern.captureCount, pattern.root.references)) = some (2, [2, 1]) := by
    decide +kernel
  cases h : ofSource? (.regex text) {} with
  | error mistake => simp [h, Except.toOption] at hread
  | ok pattern =>
    simp only [h, Except.toOption, Option.map_some, Option.some.injEq, Prod.mk.injEq] at hread
    exact ⟨pattern, rfl, hread.1, hread.2, groupsAgree_of_ofSource? h⟩

end Pattern
end TokenPatterns
