import TokenPatterns.Machine.Run
import TokenPatterns.Pattern.Subtrees
import TokenPatterns.Regex.WellFormed

/-!
# Repetitions can be split

The laps of a repetition that are required come first, whatever they take up, and those that are
optional follow on each way that they lead to. So they can be written one after the other, and the
required ones also as so many copies. What is tried, and in which order, stays the same.
-/
namespace TokenPatterns
namespace Search

variable {lap : Nat → Captures → List Way} {greedy : Bool} {size : Nat}

theorem laps_exact (count : Nat) (way : Way) :
    laps lap ⟨count, some count, greedy⟩ size way = requiredLaps lap count way := by
  have hstop : optionalLaps lap greedy size (some 0) = fun way => [way] := by
    funext way
    rw [optionalLaps, if_pos rfl]
  simp only [laps, Option.map_some, Nat.sub_self, hstop]
  exact List.flatMap_singleton' _

theorem laps_optional (max? : Option Nat) (way : Way) :
    laps lap ⟨0, max?, greedy⟩ size way = optionalLaps lap greedy size max? way := by
  have hall : max?.map (· - 0) = max? := by
    cases max? <;> rfl
  simp only [laps, requiredLaps, hall]
  exact List.flatMap_singleton ..

theorem laps_split (min : Nat) (max? : Option Nat) (way : Way) :
    laps lap ⟨min, max?, greedy⟩ size way =
      (laps lap ⟨min, some min, greedy⟩ size way).flatMap
        (laps lap ⟨0, max?.map (· - min), greedy⟩ size) := by
  rw [laps_exact, funext (laps_optional (max?.map (· - min)))]
  rfl

end Search

namespace Node

/-- The node in a group, repeated. -/
def counted (node : Node) (min : Nat) (max? : Option Nat) (greedy : Bool) : Node :=
  repetition ⟨min, max?, greedy⟩ (group none node)

section Ways

variable {s : Subject} {nesting? : Option Nat} {pos : Nat} {captures : Captures}

theorem ways_concat_pair (first second : Node) :
    (concat [first, second]).ways s nesting? pos captures =
      (first.ways s nesting? pos captures).flatMap fun way =>
        second.ways s nesting? way.stop way.captures := by
  simp only [ways, waysAll, List.flatMap_singleton']

theorem ways_sequenceNode (items : List Node) :
    (Regex.sequenceNode items).ways s nesting? pos captures =
      waysAll s items nesting? pos captures := by
  unfold Regex.sequenceNode
  split
  · simp only [waysAll, List.flatMap_singleton']
  · rfl

variable (node : Node) (greedy : Bool)

theorem ways_counted (min : Nat) (max? : Option Nat) :
    (node.counted min max? greedy).ways s nesting? pos captures =
      Search.laps (fun pos captures => node.ways s nesting? pos captures) ⟨min, max?, greedy⟩
        s.input.size ⟨pos, captures⟩ := by
  rw [counted, ways]
  rfl

theorem ways_counted_split (min : Nat) (max? : Option Nat) :
    (node.counted min max? greedy).ways s nesting? pos captures =
      (concat [node.counted min (some min) greedy,
        node.counted 0 (max?.map (· - min)) greedy]).ways s nesting? pos captures := by
  simp only [ways_concat_pair, ways_counted]
  exact Search.laps_split min max? _

theorem waysAll_replicate (count : Nat) :
    waysAll s (List.replicate count node) nesting? pos captures =
      Search.requiredLaps (fun pos captures => node.ways s nesting? pos captures) count
        ⟨pos, captures⟩ := by
  induction count generalizing pos captures with
  | zero => rfl
  | succ count ih =>
    rw [List.replicate_succ, waysAll, Search.requiredLaps]
    congr 1
    funext way
    exact ih

theorem ways_counted_exact (count : Nat) :
    (node.counted count (some count) greedy).ways s nesting? pos captures =
      (Regex.sequenceNode (List.replicate count (group none node))).ways s nesting? pos
        captures := by
  rw [ways_counted, Search.laps_exact, ways_sequenceNode, waysAll_replicate]
  rfl

end Ways

mutual

theorem isWellFormed_of_no_groups {count : Nat} : ∀ (node : Node),
    node.isWellFormed count = true → node.captures = [] → node.references = [] →
    node.isWellFormed 0 = true
  | literal _, h, _, _ => h
  | charClass _, h, _, _ => h
  | anyChar, h, _, _ => h
  | anchor _, h, _, _ => h
  | look _ inner, h, hcaptures, hreferences =>
    isWellFormed_of_no_groups inner h hcaptures hreferences
  | group none inner, h, hcaptures, hreferences => by
    rw [isWellFormed, Option.all_none, Bool.true_and] at h ⊢
    exact isWellFormed_of_no_groups inner h hcaptures hreferences
  | concat items, h, hcaptures, hreferences =>
    allWellFormed_of_no_groups items h hcaptures hreferences
  | alternation branches, h, hcaptures, hreferences => by
    rw [isWellFormed, Bool.and_eq_true] at h ⊢
    exact ⟨h.1, allWellFormed_of_no_groups branches h.2 hcaptures hreferences⟩
  | repetition _ inner, h, hcaptures, hreferences => by
    rw [isWellFormed, Bool.and_eq_true] at h ⊢
    exact ⟨h.1, isWellFormed_of_no_groups inner h.2 hcaptures hreferences⟩

theorem allWellFormed_of_no_groups {count : Nat} : ∀ (nodes : List Node),
    allWellFormed count nodes = true → capturesAll nodes = [] → referencesAll nodes = [] →
    allWellFormed 0 nodes = true
  | [], _, _, _ => rfl
  | node :: nodes, h, hcaptures, hreferences => by
    obtain ⟨hnode, hnodes⟩ := allWellFormed_cons.mp h
    obtain ⟨hfirst, hothers⟩ := List.append_eq_nil_iff.mp hcaptures
    obtain ⟨hfirst', hothers'⟩ := List.append_eq_nil_iff.mp hreferences
    exact allWellFormed_cons.mpr ⟨isWellFormed_of_no_groups node hnode hfirst hfirst',
      allWellFormed_of_no_groups nodes hnodes hothers hothers'⟩

end

/-- A tree that neither captures anything nor refers to a capture. It can stand anywhere in a
pattern, any number of times. -/
structure IsClosed (node : Node) : Prop where
  captures_eq : node.captures = []
  isWellFormed : node.isWellFormed 0 = true

namespace IsClosed

variable {node : Node}

theorem isRoot (h : node.IsClosed) : node.IsRoot := by
  refine ⟨?_, ?_⟩ <;> rw [h.captures_eq]
  · rfl
  · exact h.isWellFormed

theorem group (h : node.IsClosed) : (group none node).IsClosed := by
  refine ⟨h.captures_eq, ?_⟩
  rw [Node.isWellFormed, Option.all_none, Bool.true_and]
  exact h.isWellFormed

theorem counted (h : node.IsClosed) {min : Nat} {max? : Option Nat} {greedy : Bool}
    (horder : Quantifier.inOrder ⟨min, max?, greedy⟩ = true) :
    (node.counted min max? greedy).IsClosed := by
  refine ⟨h.captures_eq, ?_⟩
  rw [Node.counted, Node.isWellFormed, horder, Bool.true_and]
  exact h.group.isWellFormed

theorem concat {items : List Node} (h : ∀ item ∈ items, item.IsClosed) :
    (concat items).IsClosed := by
  induction items with
  | nil => exact ⟨rfl, rfl⟩
  | cons item items ih =>
    obtain ⟨hitem, hitems⟩ := List.forall_mem_cons.mp h
    obtain ⟨hcaptures, hwellFormed⟩ := ih hitems
    constructor
    · exact List.append_eq_nil_iff.mpr ⟨hitem.captures_eq, hcaptures⟩
    · exact allWellFormed_cons.mpr ⟨hitem.isWellFormed, hwellFormed⟩

theorem sequenceNode {items : List Node} (h : ∀ item ∈ items, item.IsClosed) :
    (Regex.sequenceNode items).IsClosed := by
  unfold Regex.sequenceNode
  split
  · exact h _ List.mem_cons_self
  · exact concat h

end IsClosed

/-- Whether the trees are those of patterns that match alike. -/
def MatchesAs (first second : Node) : Prop :=
  ∃ (hfirst : first.IsRoot) (hsecond : second.IsRoot), ∀ (flags : Flags) (mapping : CaseMapping)
    (input : Array Char) (start : Nat),
    (Pattern.mk first flags hfirst).program.matchAt? mapping input start =
      (Pattern.mk second flags hsecond).program.matchAt? mapping input start

theorem IsClosed.matchesAs {first second : Node} (hfirst : first.IsClosed)
    (hsecond : second.IsClosed) (h : ∀ s nesting? pos captures,
      first.ways s nesting? pos captures = second.ways s nesting? pos captures) :
    first.MatchesAs second := by
  refine ⟨hfirst.isRoot, hsecond.isRoot, fun flags mapping input start => ?_⟩
  rw [Program.matchAt?_eq, Program.matchAt?_eq]
  simp only [Pattern.program, h]

end Node

/-- The laps of a repetition may be split into those that are required and those that are not, and
the required ones into copies of what is repeated. -/
theorem Pattern.counted_matchesAs_split {pattern : Pattern} {node : Node}
    (hnode : node ∈ pattern.root.subtrees) (hcaptures : node.captures = [])
    (hreferences : node.references = []) {min max : Nat} (hle : min ≤ max) (greedy : Bool) :
    (node.counted min (some max) greedy).MatchesAs
        (.concat [node.counted min (some min) greedy,
          node.counted 0 (some (max - min)) greedy]) ∧
      (node.counted min none greedy).MatchesAs
        (.concat [node.counted min (some min) greedy, node.counted 0 none greedy]) ∧
      (node.counted min (some min) greedy).MatchesAs
        (Regex.sequenceNode (List.replicate min (.group none node))) := by
  have hclosed : node.IsClosed :=
    ⟨hcaptures, node.isWellFormed_of_no_groups
      (Node.isWellFormed_of_mem_subtrees _ pattern.isRoot.isWellFormed hnode) hcaptures
      hreferences⟩
  have hbounded : (node.counted min (some max) greedy).IsClosed :=
    hclosed.counted (decide_eq_true hle)
  have hexact : (node.counted min (some min) greedy).IsClosed :=
    hclosed.counted (decide_eq_true (Nat.le_refl min))
  have hpair : ∀ max?, (Node.concat [node.counted min (some min) greedy,
      node.counted 0 max? greedy]).IsClosed := by
    intro max?
    have hoptional : (node.counted 0 max? greedy).IsClosed := by
      apply hclosed.counted
      cases max? <;> simp [Quantifier.inOrder]
    exact .concat (List.forall_mem_cons.mpr ⟨hexact, List.forall_mem_singleton.mpr hoptional⟩)
  refine ⟨?_, ?_, ?_⟩
  · exact hbounded.matchesAs (hpair _) fun _ _ _ _ =>
      node.ways_counted_split greedy min (some max)
  · exact (hclosed.counted rfl).matchesAs (hpair _) fun _ _ _ _ =>
      node.ways_counted_split greedy min none
  · have hcopies : (Regex.sequenceNode (List.replicate min (.group none node))).IsClosed :=
      .sequenceNode fun item hitem => List.eq_of_mem_replicate hitem ▸ hclosed.group
    exact hexact.matchesAs hcopies fun _ _ _ _ => node.ways_counted_exact greedy min

/-- Required laps that take up nothing, and optional ones that have to take up text. -/
theorem Pattern.counted_matchesAs_split_of_empty_branch :
    let choice : Node := .alternation [.concat [], .literal 'a']
    let pattern : Pattern :=
      ⟨.concat [.group (some 1) (.literal 'b'), .group none choice, .backreference 1], {},
        ⟨rfl, rfl⟩⟩
    let split : Node := .concat [choice.counted 2 (some 2) true, choice.counted 0 (some 3) true]
    (choice ∈ pattern.root.subtrees ∧ choice.captures = [] ∧ choice.references = [] ∧ 2 ≤ 5) ∧
      ((choice.counted 2 (some 5) true).MatchesAs split ∧
        (choice.counted 2 none true).MatchesAs
          (.concat [choice.counted 2 (some 2) true, choice.counted 0 none true]) ∧
        (choice.counted 2 (some 2) true).MatchesAs
          (Regex.sequenceNode (List.replicate 2 (.group none choice)))) ∧
      (Pattern.mk split {} ⟨rfl, rfl⟩).program.matchAt? .unicode #['a', 'a', 'a', 'a'] 0 =
        some 3 := by
  intro choice pattern split
  have hchoice : choice ∈ pattern.root.subtrees := by decide
  refine ⟨⟨hchoice, rfl, rfl, by decide⟩,
    counted_matchesAs_split hchoice rfl rfl (by decide) true, ?_⟩
  rw [Program.matchAt?_eq]
  decide +kernel

end TokenPatterns
