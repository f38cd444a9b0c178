import TokenPatterns.Analysis.LeadingCodes
import TokenPatterns.Machine.Run
import TokenPatterns.Pattern.Subtrees

/-!
# Empty matches

A pattern is tried on the empty text before it is used, so that no token is empty. If it asks
nothing of the text around a match, this tells of all texts: whatever matches nothing somewhere
repeats only captures that are empty, takes no lap that it need not take, and so matches nothing
everywhere.
-/
namespace TokenPatterns

namespace Search

variable {lap : Nat → Captures → List Way} {quantifier : Quantifier} {size : Nat}
  {way start : Way}

theorem exists_mem_requiredLaps {Inv : Way → Prop}
    (hlap : ∀ way, Inv way → ∃ next ∈ lap way.stop way.captures, Inv next)
    (count : Nat) (hstart : Inv start) : ∃ last ∈ requiredLaps lap count start, Inv last := by
  induction count generalizing start with
  | zero => exact ⟨start, List.mem_singleton.mpr rfl, hstart⟩
  | succ count ih =>
    obtain ⟨next, hnext, hInv⟩ := hlap start hstart
    obtain ⟨last, hlast, hInvLast⟩ := ih hInv
    exact ⟨last, List.mem_flatMap.mpr ⟨next, hnext, hlast⟩, hInvLast⟩

theorem mem_laps_of_mem_requiredLaps (h : way ∈ requiredLaps lap quantifier.min start) :
    way ∈ laps lap quantifier size start :=
  List.mem_flatMap.mpr ⟨way, h, mem_optionalLaps.mpr (.inl rfl)⟩

end Search

def Captures.AreEmpty (captures : Captures) : Prop :=
  ∀ number start stop, captures number = some (start, stop) → stop = start

/-- Whether a way takes up nothing from `pos` on, and has captured nothing but empty text. -/
structure Way.IsEmptyAt (way : Way) (pos : Nat) : Prop where
  stop : way.stop = pos
  captures : way.captures.AreEmpty

section AreEmpty

variable {captures : Captures} {s : Subject} {pos : Nat}

theorem Captures.areEmpty_none : Captures.none.AreEmpty := nofun

theorem Captures.AreEmpty.keep (h : captures.AreEmpty) (number pos : Nat) :
    (captures.keep number pos pos).AreEmpty := by
  intro other start stop hother
  unfold Captures.keep at hother
  split at hother
  · obtain ⟨rfl, rfl⟩ := Prod.mk.inj (Option.some.inj hother)
    rfl
  · exact h other start stop hother

theorem Subject.repeatSpan?_of_areEmpty (h : captures.AreEmpty) (number : Nat)
    (hpos : pos ≤ s.input.size) : s.repeatSpan? (captures number) pos = some pos := by
  cases hspan : captures number with
  | none => rfl
  | some span =>
    obtain ⟨start, stop⟩ := span
    obtain rfl := h number start stop hspan
    simp [repeatSpan?, sameText, hpos]

end AreEmpty

namespace Node

section Ways

variable {s : Subject} {nesting? : Option Nat} {pos : Nat}

mutual

/-- A node that matches without taking up text may be empty. -/
theorem mayBeEmpty_of_mem_ways : ∀ (node : Node) {captures : Captures} {way : Way},
    pos ≤ s.input.size → way ∈ node.ways s nesting? pos captures → way.stop = pos →
      node.mayBeEmpty = true
  | literal _, _, way, _, h, hstop => by
    obtain ⟨-, -, rfl⟩ := Search.take_stop h
    exact absurd hstop (Nat.succ_ne_self pos)
  | charClass _, _, _, _, h, hstop => by
    obtain ⟨-, -, rfl⟩ := Search.take_stop h
    exact absurd hstop (Nat.succ_ne_self pos)
  | anyChar, _, _, _, h, hstop => by
    obtain ⟨-, -, rfl⟩ := Search.take_stop h
    exact absurd hstop (Nat.succ_ne_self pos)
  | anchor _, _, _, _, _, _ => rfl
  | look _ _, _, _, _, _, _ => rfl
  | backreference _, _, _, _, _, _ => rfl
  | group none inner, _, _, hpos, h, hstop => mayBeEmpty_of_mem_ways inner hpos h hstop
  | group (some number) inner, _, _, hpos, h, hstop => by
    rw [ways] at h
    obtain ⟨inside, hinside, rfl⟩ := List.mem_map.mp h
    exact mayBeEmpty_of_mem_ways inner hpos hinside hstop
  | concat items, _, _, hpos, h, hstop => allMayBeEmpty_of_mem_waysAll items hpos h hstop
  | alternation branches, _, _, hpos, h, hstop =>
    anyMayBeEmpty_of_mem_waysAny branches hpos h hstop
  | repetition quantifier inner, _, _, hpos, h, hstop => by
    rw [mayBeEmpty]
    cases hoptional : quantifier.isOptional with
    | true => exact Bool.or_true _
    | false =>
      have hforward : Search.Forward (inner.ways s nesting?) s.input.size :=
        fun _ _ hstart _ hnext => stop_mem_ways inner hstart hnext
      obtain ⟨first, hfirst, hfirstStop⟩ :=
        Search.exists_empty_lap hforward hpos hoptional h hstop
      rw [mayBeEmpty_of_mem_ways inner hpos hfirst hfirstStop, Bool.true_or]

theorem allMayBeEmpty_of_mem_waysAll : ∀ (items : List Node) {captures : Captures} {way : Way},
    pos ≤ s.input.size → way ∈ waysAll s items nesting? pos captures → way.stop = pos →
      allMayBeEmpty items = true
  | [], _, _, _, _, _ => rfl
  | item :: items, _, _, hpos, h, hstop => by
    obtain ⟨first, hfirst, hway⟩ := List.mem_flatMap.mp h
    obtain ⟨hle, hsize⟩ := stop_mem_ways item hpos hfirst
    obtain ⟨hback, -⟩ := stop_mem_waysAll items hsize hway
    obtain hfirstStop : first.stop = pos := by omega
    rw [hfirstStop] at hway
    rw [allMayBeEmpty, mayBeEmpty_of_mem_ways item hpos hfirst hfirstStop,
      allMayBeEmpty_of_mem_waysAll items hpos hway hstop, Bool.and_self]

theorem anyMayBeEmpty_of_mem_waysAny : ∀ (branches : List Node) {captures : Captures}
    {way : Way}, pos ≤ s.input.size → way ∈ waysAny s branches nesting? pos captures →
      way.stop = pos → anyMayBeEmpty branches = true
  | [], _, _, _, h, _ => by cases h
  | branch :: branches, _, _, hpos, h, hstop => by
    rw [anyMayBeEmpty, Bool.or_eq_true]
    rcases List.mem_append.mp h with hfirst | hothers
    · exact .inl (mayBeEmpty_of_mem_ways branch hpos hfirst hstop)
    · exact .inr (anyMayBeEmpty_of_mem_waysAny branches hpos hothers hstop)

end

mutual

/-- A node without assertions that may be empty matches nothing at every place, as long as nothing
but empty text was captured. -/
theorem exists_isEmptyAt (hpos : pos ≤ s.input.size) : ∀ (node : Node) {captures : Captures},
    (∀ part ∈ node.subtrees, part.isAssertion = false) → node.mayBeEmpty = true →
      captures.AreEmpty → ∃ way ∈ node.ways s nesting? pos captures, way.IsEmptyAt pos
  | anchor kind, _, hfree, _, _ => absurd (hfree _ (mem_subtrees_self _)) Bool.noConfusion
  | look kind inner, _, hfree, _, _ => absurd (hfree _ (mem_subtrees_self _)) Bool.noConfusion
  | backreference number, captures, _, _, hcaptures => by
    refine ⟨⟨pos, captures⟩, ?_, rfl, hcaptures⟩
    simp [ways, Subject.repeatSpan?_of_areEmpty hcaptures number hpos]
  | group none inner, _, hfree, hempty, hcaptures =>
    exists_isEmptyAt hpos inner (List.forall_mem_cons.mp hfree).2 hempty hcaptures
  | group (some number) inner, _, hfree, hempty, hcaptures => by
    obtain ⟨way, hway, hstop, hinside⟩ :=
      exists_isEmptyAt hpos inner (List.forall_mem_cons.mp hfree).2 hempty hcaptures
    refine ⟨_, List.mem_map.mpr ⟨way, hway, rfl⟩, hstop, ?_⟩
    rw [hstop]
    exact hinside.keep number pos
  | concat items, _, hfree, hempty, hcaptures =>
    exists_isEmptyAt_all hpos items (List.forall_mem_cons.mp hfree).2 hempty hcaptures
  | alternation branches, _, hfree, hempty, hcaptures =>
    exists_isEmptyAt_any hpos branches (List.forall_mem_cons.mp hfree).2 hempty hcaptures
  | repetition quantifier inner, captures, hfree, hempty, hcaptures => by
    have hstart : Way.IsEmptyAt ⟨pos, captures⟩ pos := ⟨rfl, hcaptures⟩
    have hrequired : ∃ last ∈ Search.requiredLaps (inner.ways s nesting?) quantifier.min
        ⟨pos, captures⟩, last.IsEmptyAt pos := by
      rw [mayBeEmpty, Bool.or_eq_true] at hempty
      rcases hempty with hinner | hoptional
      · refine Search.exists_mem_requiredLaps ?_ quantifier.min hstart
        intro way hway
        rw [hway.stop]
        exact exists_isEmptyAt hpos inner (List.forall_mem_cons.mp hfree).2 hinner hway.captures
      · have hmin : quantifier.min = 0 := by simpa [Quantifier.isOptional] using hoptional
        rw [hmin]
        exact ⟨_, List.mem_singleton.mpr rfl, hstart⟩
    obtain ⟨last, hlast, hlastEmpty⟩ := hrequired
    exact ⟨last, Search.mem_laps_of_mem_requiredLaps hlast, hlastEmpty⟩

theorem exists_isEmptyAt_all (hpos : pos ≤ s.input.size) : ∀ (items : List Node)
    {captures : Captures}, (∀ part ∈ subtreesAll items, part.isAssertion = false) →
      allMayBeEmpty items = true → captures.AreEmpty →
      ∃ way ∈ waysAll s items nesting? pos captures, way.IsEmptyAt pos
  | [], captures, _, _, hcaptures => ⟨⟨pos, captures⟩, List.mem_singleton.mpr rfl, rfl, hcaptures⟩
  | item :: items, _, hfree, hempty, hcaptures => by
    obtain ⟨hitem, hitems⟩ := List.forall_mem_append.mp hfree
    obtain ⟨hfirst, hrest⟩ := Bool.and_eq_true_iff.mp hempty
    obtain ⟨way, hway, hstop, hinside⟩ := exists_isEmptyAt hpos item hitem hfirst hcaptures
    obtain ⟨last, hlast, hlastEmpty⟩ := exists_isEmptyAt_all hpos items hitems hrest hinside
    refine ⟨last, List.mem_flatMap.mpr ⟨way, hway, ?_⟩, hlastEmpty⟩
    rwa [hstop]

theorem exists_isEmptyAt_any (hpos : pos ≤ s.input.size) : ∀ (branches : List Node)
    {captures : Captures}, (∀ part ∈ subtreesAll branches, part.isAssertion = false) →
      anyMayBeEmpty branches = true → captures.AreEmpty →
      ∃ way ∈ waysAny s branches nesting? pos captures, way.IsEmptyAt pos
  | branch :: branches, _, hfree, hempty, hcaptures => by
    obtain ⟨hbranch, hbranches⟩ := List.forall_mem_append.mp hfree
    rcases Bool.or_eq_true_iff.mp hempty with hfirst | hothers
    · obtain ⟨way, hway, hwayEmpty⟩ := exists_isEmptyAt hpos branch hbranch hfirst hcaptures
      exact ⟨way, List.mem_append_left _ hway, hwayEmpty⟩
    · obtain ⟨way, hway, hwayEmpty⟩ :=
        exists_isEmptyAt_any hpos branches hbranches hothers hcaptures
      exact ⟨way, List.mem_append_right _ hway, hwayEmpty⟩

end

end Ways

end Node

namespace Pattern

variable {pattern : Pattern}

theorem mayBeEmpty_of_matchAt? {mapping : CaseMapping} {input : Array Char} {start : Nat}
    (h : pattern.program.matchAt? mapping input start = some start) :
    pattern.root.mayBeEmpty = true := by
  obtain ⟨hstart, way, hway, hstop⟩ := Program.exists_way_of_matchAt? h
  exact Node.mayBeEmpty_of_mem_ways pattern.root hstart hway hstop

theorem isSome_matchAt?_empty (hfree : ∀ node ∈ pattern.root.subtrees, node.isAssertion = false)
    (mapping : CaseMapping) :
    (pattern.program.matchAt? mapping #[] 0).isSome = true ↔ pattern.root.mayBeEmpty = true := by
  constructor
  · intro h
    obtain ⟨stop, hmatch⟩ := Option.isSome_iff_exists.mp h
    have hle := (Program.matchAt?_le hmatch).2
    obtain rfl : stop = 0 := Nat.le_zero.mp hle
    exact mayBeEmpty_of_matchAt? hmatch
  · intro h
    let s : Subject := ⟨mapping, pattern.flags, #[]⟩
    have hpos : 0 ≤ s.input.size := Nat.zero_le _
    have hexists : ∃ way ∈ pattern.root.ways s (some maxNesting) 0 Captures.none,
        way.IsEmptyAt 0 :=
      Node.exists_isEmptyAt hpos pattern.root hfree h Captures.areEmpty_none
    obtain ⟨way, hway, -⟩ := hexists
    rw [Program.matchAt?_eq, if_pos hpos, Option.isSome_map, List.isSome_head?]
    exact List.ne_nil_of_mem hway

/-- What a pattern without assertions matches on the empty text tells whether it matches nothing
anywhere, and where its first characters are listed, whether it is called nullable. -/
theorem matchAt?_empty_decides (hfree : ∀ node ∈ pattern.root.subtrees, node.isAssertion = false)
    (mapping : CaseMapping) :
    (pattern.program.matchAt? mapping #[] 0 = none →
      ∀ input start, pattern.program.matchAt? mapping input start ≠ some start) ∧
    ((pattern.root.leadingCodes mapping pattern.flags.ignoreCase).enumerable = true →
      ((pattern.root.leadingCodes mapping pattern.flags.ignoreCase).nullable = true ↔
        (pattern.program.matchAt? mapping #[] 0).isSome = true)) := by
  constructor
  · intro hnone input start hmatch
    have hsome := (isSome_matchAt?_empty hfree mapping).mpr (mayBeEmpty_of_matchAt? hmatch)
    rw [hnone] at hsome
    cases hsome
  · intro henumerable
    rw [Node.nullable_leadingCodes henumerable, isSome_matchAt?_empty hfree]

/-- Laps that may take up nothing, of which there are at least two, and a reference to the last. -/
theorem matchAt?_empty_decides_of_nullable_laps :
    let pattern : Pattern :=
      ⟨.concat [.repetition ⟨2, none, false⟩
        (.group (some 1) (.repetition .star (.literal 'a'))), .literal 'b', .backreference 1],
        { ignoreCase := true }, ⟨rfl, rfl⟩⟩
    (∀ node ∈ pattern.root.subtrees, node.isAssertion = false) ∧
      pattern.program.matchAt? .unicode #[] 0 = none ∧
      (∀ input start, pattern.program.matchAt? .unicode input start ≠ some start) ∧
      (pattern.root.leadingCodes .unicode pattern.flags.ignoreCase).enumerable = true ∧
      (pattern.root.leadingCodes .unicode pattern.flags.ignoreCase).nullable = false := by
  intro pattern
  have hfree : ∀ node ∈ pattern.root.subtrees, node.isAssertion = false := by decide
  have hnone : pattern.program.matchAt? .unicode #[] 0 = none := by
    rw [Program.matchAt?_eq]
    decide +kernel
  have henumerable :
      (pattern.root.leadingCodes .unicode pattern.flags.ignoreCase).enumerable = true := rfl
  obtain ⟨hnowhere, hnullable⟩ := matchAt?_empty_decides hfree .unicode
  refine ⟨hfree, hnone, hnowhere hnone, henumerable, ?_⟩
  rw [Bool.eq_false_iff, Ne, hnullable henumerable, hnone]
  exact Bool.false_ne_true

end Pattern
end TokenPatterns
