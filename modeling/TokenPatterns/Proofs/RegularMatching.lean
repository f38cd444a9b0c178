import TokenPatterns.Machine.Run
import TokenPatterns.Pattern.Language

/-!
# Regular patterns match the words of their language

The ways of a regular tree lead to where the words of its language end, and to no other place. Of
the laps of a word those that take up nothing can be left out, as long as enough of them remain.
-/
namespace TokenPatterns
namespace Search

/-- Whether `lap` leads from a place to the ends of the words of the language that begin there. -/
def Decides (input : Array Char) (lap : Nat → Captures → List Way) (language : Language Char) :
    Prop :=
  ∀ (start stop : Nat) (captures : Captures), start ≤ input.size →
    ((∃ way ∈ lap start captures, way.stop = stop) ↔ Spans input language start stop)

namespace Decides

variable {input : Array Char} {lap next : Nat → Captures → List Way}
  {language other : Language Char}

theorem take {s : Subject} (p : Char → Bool) :
    Decides s.input (Search.take s p) (Node.oneChar p) := by
  intro start stop captures _
  rw [Spans.oneChar_iff]
  constructor
  · rintro ⟨way, hway, rfl⟩
    obtain ⟨-, hany, rfl⟩ := take_stop hway
    exact ⟨rfl, hany⟩
  · rintro ⟨rfl, hany⟩
    exact ⟨⟨start + 1, captures⟩, by simp [Search.take, hany], rfl⟩

theorem stay : Decides input (fun pos captures => [⟨pos, captures⟩]) 1 := by
  intro start stop captures hstart
  rw [Spans.one_iff, and_iff_left hstart]
  simp [eq_comm]

theorem followed (h : Decides input lap language) (hnext : Decides input next other) :
    Decides input (fun pos captures => (lap pos captures).flatMap fun way =>
      next way.stop way.captures) (language * other) := by
  intro start stop captures hstart
  rw [Spans.mul_iff]
  constructor
  · rintro ⟨way, hway, rfl⟩
    obtain ⟨first, hfirst, hway⟩ := List.mem_flatMap.mp hway
    have hspans := (h start first.stop captures hstart).mp ⟨first, hfirst, rfl⟩
    exact ⟨first.stop, hspans, (hnext _ _ _ hspans.stop_le).mp ⟨way, hway, rfl⟩⟩
  · rintro ⟨middle, hfirst, hsecond⟩
    obtain ⟨first, hmem, rfl⟩ := (h start middle captures hstart).mpr hfirst
    obtain ⟨way, hway, hstop⟩ := (hnext _ stop first.captures hfirst.stop_le).mpr hsecond
    exact ⟨way, List.mem_flatMap.mpr ⟨first, hmem, hway⟩, hstop⟩

theorem either (h : Decides input lap language) (hnext : Decides input next other) :
    Decides input (fun pos captures => lap pos captures ++ next pos captures)
      (language + other) := by
  intro start stop captures hstart
  rw [Spans.add_iff, ← h start stop captures hstart, ← hnext start stop captures hstart]
  simp only [List.mem_append, or_and_right, exists_or]

theorem requiredLaps (h : Decides input lap language) (count : Nat) :
    Decides input (fun pos captures => Search.requiredLaps lap count ⟨pos, captures⟩)
      (language ^ count) := by
  induction count with
  | zero => simpa [Search.requiredLaps] using stay
  | succ count ih =>
    rw [pow_succ']
    exact h.followed ih

/-- Laps that take up nothing do not count, so that a word of fewer laps ends at the same place. -/
theorem exists_mem_optionalLaps (h : Decides input lap language) (greedy : Bool) {count stop : Nat}
    {left? : Option Nat} {way : Way} (hcount : ∀ left ∈ left?, count ≤ left)
    (hspans : Spans input (language ^ count) way.stop stop) :
    ∃ last ∈ optionalLaps lap greedy input.size left? way, last.stop = stop := by
  induction count generalizing left? way with
  | zero =>
    rw [pow_zero, Spans.one_iff] at hspans
    exact ⟨way, mem_optionalLaps.mpr (.inl rfl), hspans.1.symm⟩
  | succ count ih =>
    rw [pow_succ', Spans.mul_iff] at hspans
    obtain ⟨middle, hfirst, hrest⟩ := hspans
    rcases Nat.eq_or_lt_of_le hfirst.le with rfl | hlt
    · exact ih (fun left hleft => Nat.le_of_succ_le (hcount left hleft)) hrest
    · obtain ⟨next, hnext, rfl⟩ :=
        (h way.stop middle way.captures (Nat.le_trans hfirst.le hfirst.stop_le)).mpr hfirst
      have hfewer : ∀ left ∈ left?.map (· - 1), count ≤ left := by
        intro left hleft
        obtain ⟨more, hmore, rfl⟩ := Option.map_eq_some_iff.mp hleft
        exact Nat.le_sub_one_of_lt (hcount more hmore)
      obtain ⟨last, hlast, hstop⟩ := ih hfewer hrest
      refine ⟨last, mem_optionalLaps.mpr
        (.inr ⟨?_, next, hnext, ⟨hlt, hfirst.stop_le⟩, hlast⟩), hstop⟩
      rintro rfl
      exact absurd (hcount 0 rfl) (Nat.not_succ_le_zero count)

theorem exists_spans_of_optionalLaps (h : Decides input lap language) {greedy : Bool}
    {left? : Option Nat} {way last : Way} (hway : way.stop ≤ input.size)
    (hlast : last ∈ optionalLaps lap greedy input.size left? way) :
    ∃ count, (∀ left ∈ left?, count ≤ left) ∧
      Spans input (language ^ count) way.stop last.stop := by
  induction hleft : input.size - way.stop using Nat.strongRecOn generalizing way left? with
  | ind left ih =>
    rcases mem_optionalLaps.mp hlast with rfl | ⟨hmore, next, hnext, ⟨hlt, hsize⟩, hlater⟩
    · exact ⟨0, fun _ _ => Nat.zero_le _, Spans.one_iff.mpr ⟨rfl, hway⟩⟩
    · obtain ⟨count, hcount, hspans⟩ := ih _ (by omega) hsize hlater rfl
      refine ⟨count + 1, ?_, ?_⟩
      · intro bound hbound
        have hle := hcount (bound - 1) (by rw [hbound]; rfl)
        have hne : bound ≠ 0 := by
          rintro rfl
          exact hmore hbound
        omega
      · rw [pow_succ', Spans.mul_iff]
        exact ⟨next.stop, (h _ _ _ hway).mp ⟨next, hnext, rfl⟩, hspans⟩

/-- A word of enough laps has the required ones in front, and optional ones behind them. -/
theorem laps (h : Decides input lap language) {quantifier : Quantifier}
    (horder : quantifier.inOrder = true) :
    Decides input (fun pos captures => Search.laps lap quantifier input.size ⟨pos, captures⟩)
      (quantifier.powers language) := by
  intro start stop captures hstart
  constructor
  · rintro ⟨last, hlast, rfl⟩
    obtain ⟨middle, hmiddle, hlast⟩ := List.mem_flatMap.mp hlast
    have hrequired :=
      (h.requiredLaps quantifier.min start _ captures hstart).mp ⟨middle, hmiddle, rfl⟩
    obtain ⟨count, hcount, hoptional⟩ := h.exists_spans_of_optionalLaps hrequired.stop_le hlast
    have hspans : Spans input (language ^ (quantifier.min + count)) start last.stop := by
      rw [pow_add, Spans.mul_iff]
      exact ⟨middle.stop, hrequired, hoptional⟩
    refine ⟨hspans.le, hspans.stop_le, quantifier.min + count, ⟨Nat.le_add_right _ _, ?_⟩,
      hspans.mem⟩
    intro bound hbound
    have hle : quantifier.min ≤ bound := by
      rw [Option.mem_def] at hbound
      simpa [Quantifier.inOrder, hbound] using horder
    have hleft := hcount (bound - quantifier.min) (Option.mem_map_of_mem _ hbound)
    omega
  · rintro ⟨hle, hsize, count, ⟨hmin, hmax⟩, hmem⟩
    have hspans : Spans input (language ^ (quantifier.min + (count - quantifier.min))) start stop :=
      ⟨hle, hsize, by rwa [Nat.add_sub_cancel' hmin]⟩
    rw [pow_add, Spans.mul_iff] at hspans
    obtain ⟨middle, hrequired, hoptional⟩ := hspans
    obtain ⟨way, hway, rfl⟩ :=
      (h.requiredLaps quantifier.min start middle captures hstart).mpr hrequired
    have hcount : ∀ left ∈ quantifier.max.map (· - quantifier.min),
        count - quantifier.min ≤ left := by
      intro left hleft
      obtain ⟨bound, hbound, rfl⟩ := Option.map_eq_some_iff.mp hleft
      exact Nat.sub_le_sub_right (hmax bound hbound) _
    obtain ⟨last, hlast, hstop⟩ := h.exists_mem_optionalLaps quantifier.greedy hcount hoptional
    exact ⟨last, List.mem_flatMap.mpr ⟨way, hway, hlast⟩, hstop⟩

end Decides
end Search

namespace Node

variable {s : Subject} {nesting? : Option Nat} {captureCount : Nat}

mutual

/-- A regular tree leads to the ends of the words that it stands for. -/
theorem decides_ways : ∀ (node : Node), node.isRegular = true →
    node.isWellFormed captureCount = true →
    Search.Decides s.input (node.ways s nesting?) (node.language s.mapping s.flags)
  | literal c, _, _ => .take (s.agree c)
  | charClass set, _, _ => .take (s.accepts set)
  | anyChar, _, _ => .take s.acceptsAny
  | group none inner, hregular, hwf => decides_ways inner hregular (isWellFormed_of_group hwf)
  | group (some number) inner, hregular, hwf => by
    have hinner : Search.Decides s.input (inner.ways s nesting?)
        (inner.language s.mapping s.flags) :=
      decides_ways inner hregular (isWellFormed_of_group hwf)
    intro start stop captures hstart
    rw [language_group, ← hinner start stop captures hstart, ways]
    simp only [List.mem_map, exists_exists_and_eq_and]
  | concat items, hregular, hwf => decides_waysAll items hregular hwf
  | alternation branches, hregular, hwf =>
    decides_waysAny branches hregular (isWellFormed_of_alternation hwf).2
  | repetition quantifier inner, hregular, hwf => by
    obtain ⟨horder, hinner⟩ := isWellFormed_of_repetition hwf
    exact (decides_ways inner hregular hinner).laps horder

theorem decides_waysAll : ∀ (items : List Node), allRegular items = true →
    allWellFormed captureCount items = true →
    Search.Decides s.input (waysAll s items nesting?) (sequenceLanguage s.mapping s.flags items)
  | [], _, _ => .stay
  | item :: items, hregular, hwf => by
    obtain ⟨hitem, hitems⟩ := allRegular_cons.mp hregular
    obtain ⟨hwfItem, hwfItems⟩ := allWellFormed_cons.mp hwf
    exact (decides_ways item hitem hwfItem).followed (decides_waysAll items hitems hwfItems)

theorem decides_waysAny : ∀ (branches : List Node), allRegular branches = true →
    allWellFormed captureCount branches = true →
    Search.Decides s.input (waysAny s branches nesting?) (unionLanguage s.mapping s.flags branches)
  | [], _, _ => by
    rintro start stop captures -
    exact ⟨nofun, fun hspans => absurd hspans.mem (Language.notMem_zero _)⟩
  | branch :: branches, hregular, hwf => by
    obtain ⟨hbranch, hbranches⟩ := allRegular_cons.mp hregular
    obtain ⟨hwfBranch, hwfBranches⟩ := allWellFormed_cons.mp hwf
    exact (decides_ways branch hbranch hwfBranch).either
      (decides_waysAny branches hbranches hwfBranches)

end

end Node

namespace Pattern

/-- A regular pattern matches at a place if a word of its language begins there, and in no other
case, and what it matches is such a word. -/
theorem matchAt?_decides_language {pattern : Pattern} (hregular : pattern.root.isRegular = true)
    (mapping : CaseMapping) (input : Array Char) {start : Nat} (hstart : start ≤ input.size) :
    ((pattern.program.matchAt? mapping input start).isSome = true ↔
      ∃ stop, Spans input (pattern.language mapping) start stop) ∧
    ∀ stop, pattern.program.matchAt? mapping input start = some stop →
      Spans input (pattern.language mapping) start stop := by
  let s : Subject := ⟨mapping, pattern.flags, input⟩
  have hdecides : Search.Decides input (pattern.root.ways s (some maxNesting))
      (pattern.language mapping) :=
    Node.decides_ways (s := s) pattern.root hregular pattern.isWellFormed_root
  have hspans : ∀ stop, pattern.program.matchAt? mapping input start = some stop →
      Spans input (pattern.language mapping) start stop := by
    intro stop hmatch
    obtain ⟨-, way, hway, hstop⟩ := Program.exists_way_of_matchAt? hmatch
    exact (hdecides start stop Captures.none hstart).mp ⟨way, hway, hstop⟩
  refine ⟨⟨?_, ?_⟩, hspans⟩
  · intro hsome
    obtain ⟨stop, hmatch⟩ := Option.isSome_iff_exists.mp hsome
    exact ⟨stop, hspans stop hmatch⟩
  · rintro ⟨stop, hword⟩
    obtain ⟨way, hway, -⟩ := (hdecides start stop Captures.none hstart).mpr hword
    rw [Program.matchAt?_eq, if_pos hstart, Option.isSome_map, List.isSome_head?]
    exact List.ne_nil_of_mem hway

/-- Laps that may take up nothing, in front of laps of which there are at least two. -/
theorem matchAt?_decides_language_of_nullable_laps :
    let pattern : Pattern :=
      ⟨.concat [.repetition .star (.group (some 1) (.repetition .question (.literal 'a'))),
        .repetition ⟨2, some 3, false⟩ (.alternation [.literal 'b', .anyChar])], {}, ⟨rfl, rfl⟩⟩
    let input := #['a', 'b', 'c']
    pattern.root.isRegular = true ∧ 0 ≤ input.size ∧
      ((pattern.program.matchAt? .ascii input 0).isSome = true ↔
        ∃ stop, Spans input (pattern.language .ascii) 0 stop) ∧
      ∀ stop, pattern.program.matchAt? .ascii input 0 = some stop →
        Spans input (pattern.language .ascii) 0 stop := by
  intro pattern input
  have hregular : pattern.root.isRegular = true := rfl
  have hstart : 0 ≤ input.size := Nat.zero_le _
  exact ⟨hregular, hstart, matchAt?_decides_language hregular .ascii input hstart⟩

end Pattern
end TokenPatterns
