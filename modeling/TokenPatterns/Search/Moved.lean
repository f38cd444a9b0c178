import TokenPatterns.Pattern.Subtrees
import TokenPatterns.Search.Ways

/-!
# Searches in texts that read alike

A text may stand further on in a longer one, or there may be another in which the leaves of a
pattern see no difference. If the anchors of the pattern see none either, and no lookbehind reaches
for what is put before the text, then the same ways are found in the same order, each of them moved.
-/
namespace TokenPatterns

def Captures.moved (offset : Nat) (captures : Captures) : Captures := fun number =>
  (captures number).map fun span => (offset + span.1, offset + span.2)

def Way.moved (offset : Nat) (way : Way) : Way :=
  ⟨offset + way.stop, way.captures.moved offset⟩

section Moved

variable {offset : Nat} {captures : Captures}

theorem Captures.moved_none (offset : Nat) : Captures.none.moved offset = Captures.none := rfl

theorem Captures.keep_moved (number start stop : Nat) :
    (captures.moved offset).keep number (offset + start) (offset + stop) =
      (captures.keep number start stop).moved offset := by
  funext other
  simp only [keep, moved]
  split <;> rfl

@[simp] theorem Captures.moved_zero : captures.moved 0 = captures := by
  funext number
  simp [moved]

@[simp] theorem Way.moved_zero : Way.moved 0 = id := by
  funext way
  simp [moved]

@[simp] theorem Way.stop_moved (way : Way) : (way.moved offset).stop = offset + way.stop := rfl

@[simp] theorem Way.captures_moved (way : Way) :
    (way.moved offset).captures = way.captures.moved offset := rfl

end Moved

theorem CaseMapping.agree_comm (mapping : CaseMapping) (ignoreCase : Bool) (a b : Char) :
    mapping.agree ignoreCase a b = mapping.agree ignoreCase b a := by
  rw [agree, agree, Bool.beq_comm (a := a), Bool.beq_comm (a := mapping.canonical a)]

namespace Subject

variable {s t : Subject} {c d : Char} {offset pos : Nat}

/-- Whether the leaves of a pattern see no difference between two characters. -/
structure ReadsAlike (s : Subject) (c d : Char) : Prop where
  agree_eq : ∀ letter, s.agree letter c = s.agree letter d
  accepts_eq : ∀ set, s.accepts set c = s.accepts set d
  acceptsAny_eq : s.acceptsAny c = s.acceptsAny d

theorem ReadsAlike.refl (s : Subject) (c : Char) : s.ReadsAlike c c :=
  ⟨fun _ => rfl, fun _ => rfl, rfl⟩

theorem ReadsAlike.agree_agree {a b : Char} (hfirst : s.ReadsAlike a c)
    (hsecond : s.ReadsAlike b d) : s.agree a b = s.agree c d := by
  calc s.agree a b = s.agree a d := hsecond.agree_eq a
    _ = s.agree d a := CaseMapping.agree_comm ..
    _ = s.agree d c := hfirst.agree_eq d
    _ = s.agree c d := CaseMapping.agree_comm ..

def withInput (s : Subject) (input : Array Char) : Subject := { s with input }

/-- Whether another text reads from `offset` on as that of the subject does. -/
structure IsReadAt (s : Subject) (offset : Nat) (input : Array Char) : Prop where
  size_eq : input.size = offset + s.input.size
  rel : ∀ pos, Option.Rel s.ReadsAlike s.input[pos]? input[offset + pos]?

namespace IsReadAt

variable {input : Array Char} (h : s.IsReadAt offset input)
include h

theorem any_eq {p : Char → Bool} (hp : ∀ c d, s.ReadsAlike c d → p c = p d) (pos : Nat) :
    input[offset + pos]?.any p = s.input[pos]?.any p := by
  have hrel := h.rel pos
  generalize s.input[pos]? = c?, input[offset + pos]? = d? at hrel
  cases hrel with
  | none => rfl
  | some halike => exact (hp _ _ halike).symm

theorem sameText_eq (start pos length : Nat) :
    (s.withInput input).sameText (offset + start) (offset + pos) length =
      s.sameText start pos length := by
  induction length generalizing start pos with
  | zero => rfl
  | succ length ih =>
    have hstart := h.rel start
    have hpos := h.rel pos
    have hlater := ih (start + 1) (pos + 1)
    simp only [sameText, withInput, Nat.add_assoc] at hlater ⊢
    rw [hlater]
    generalize s.input[start]? = a?, input[offset + start]? = c? at hstart
    generalize s.input[pos]? = b?, input[offset + pos]? = d? at hpos
    cases hstart with
    | none => rfl
    | some hfirst =>
      cases hpos with
      | none => rfl
      | some hsecond =>
        simp only
        congr 1
        exact (hfirst.agree_agree hsecond).symm

theorem repeatSpan?_eq (captures : Captures) (number pos : Nat) :
    (s.withInput input).repeatSpan? (captures.moved offset number) (offset + pos) =
      (s.repeatSpan? (captures number) pos).map (offset + ·) := by
  unfold repeatSpan? Captures.moved
  cases captures number with
  | none => rfl
  | some span =>
    have hlength : offset + span.2 - (offset + span.1) = span.2 - span.1 := by omega
    have hfits : offset + (pos + (span.2 - span.1)) ≤ input.size ↔
        pos + (span.2 - span.1) ≤ s.input.size := by
      rw [h.size_eq]
      exact Nat.add_le_add_iff_left
    simp only [Option.map_some, hlength, h.sameText_eq]
    simp only [withInput, Nat.add_assoc, hfits]
    split <;> rfl

end IsReadAt

end Subject

namespace Search

variable {offset size : Nat} {way : Way}

section Laps

variable {lap other : Nat → Captures → List Way}

/-- Whether the ways of one lap are those of another one, moved. -/
def IsMovedLap (offset : Nat) (lap other : Nat → Captures → List Way) : Prop :=
  ∀ pos captures, other (offset + pos) (captures.moved offset) =
    (lap pos captures).map (Way.moved offset)

theorem requiredLaps_moved (hlap : IsMovedLap offset lap other) (count : Nat) :
    requiredLaps other count (way.moved offset) =
      (requiredLaps lap count way).map (Way.moved offset) := by
  induction count generalizing way with
  | zero => rfl
  | succ count ih =>
    rw [requiredLaps, requiredLaps, Way.stop_moved, Way.captures_moved,
      hlap way.stop way.captures, List.flatMap_map, List.map_flatMap]
    congr 1
    funext next
    exact ih

theorem optionalLaps_moved (hlap : IsMovedLap offset lap other) (greedy : Bool)
    (left? : Option Nat) :
    optionalLaps other greedy (offset + size) left? (way.moved offset) =
      (optionalLaps lap greedy size left? way).map (Way.moved offset) := by
  -- By what is left of the text, which is as much in either of them.
  induction hleft : size - way.stop using Nat.strongRecOn generalizing way left? with
  | ind left ih =>
    rw [optionalLaps, optionalLaps]
    by_cases hzero : left? = some 0
    · rw [if_pos hzero, if_pos hzero]
      rfl
    · have hfurther : ((other (way.moved offset).stop (way.moved offset).captures).flatMap
          fun next =>
            if (way.moved offset).stop < next.stop ∧ next.stop ≤ offset + size then
              optionalLaps other greedy (offset + size) (left?.map (· - 1)) next
            else []) =
          ((lap way.stop way.captures).flatMap fun next =>
            if way.stop < next.stop ∧ next.stop ≤ size then
              optionalLaps lap greedy size (left?.map (· - 1)) next
            else []).map (Way.moved offset) := by
        rw [Way.stop_moved, Way.captures_moved, hlap way.stop way.captures, List.flatMap_map,
          List.map_flatMap]
        congr 1
        funext next
        simp only [Way.stop_moved, Nat.add_lt_add_iff_left, Nat.add_le_add_iff_left]
        split
        · exact ih _ (by omega) _ rfl
        · rfl
      rw [if_neg hzero, if_neg hzero]
      dsimp only
      rw [hfurther]
      cases greedy <;> simp

theorem laps_moved (hlap : IsMovedLap offset lap other) (quantifier : Quantifier) (way : Way) :
    laps other quantifier (offset + size) (way.moved offset) =
      (laps lap quantifier size way).map (Way.moved offset) := by
  rw [laps, laps, requiredLaps_moved hlap, List.flatMap_map, List.map_flatMap]
  congr 1
  funext middle
  exact optionalLaps_moved hlap _ _

end Laps

section Look

variable {body other : Nat → List Way} {behind : Bool}

/-- A body is found where it is found in the text at hand. Behind a place this holds only if nothing
was put before that text, since the starts go on to what was. -/
theorem beside?_moved
    (hbody : ∀ start, other (offset + start) = (body start).map (Way.moved offset))
    (hbehind : behind = true → offset = 0) (pos : Nat) :
    beside? other behind (offset + pos) = (beside? body behind pos).map (Way.moved offset) := by
  cases behind with
  | true =>
    obtain rfl := hbehind rfl
    simp only [Way.moved_zero, List.map_id, Nat.zero_add] at hbody
    rw [Way.moved_zero, Option.map_id, Nat.zero_add, funext hbody]
    rfl
  | false => simp [beside?, hbody]

theorem look_moved (negated : Bool) (found? : Option Way) (pos : Nat) (captures : Captures) :
    look negated (found?.map (Way.moved offset)) (offset + pos) (captures.moved offset) =
      (look negated found? pos captures).map (Way.moved offset) := by
  cases found? <;> cases negated <;> rfl

end Look

theorem take_moved {s : Subject} {input : Array Char} (h : s.IsReadAt offset input)
    {p : Char → Bool} (hp : ∀ c d, s.ReadsAlike c d → p c = p d) (pos : Nat)
    (captures : Captures) : take (s.withInput input) p (offset + pos) (captures.moved offset) =
      (take s p pos captures).map (Way.moved offset) := by
  have hany : (s.withInput input).input[offset + pos]?.any p = s.input[pos]?.any p :=
    h.any_eq hp pos
  rw [take, take, hany]
  split <;> rfl

end Search

namespace Node

/-- Whether a node asks the same of the other text, from `offset` on, as of that of the subject. -/
def AsksAlike (s : Subject) (offset : Nat) (input : Array Char) : Node → Prop
  | anchor kind => ∀ pos, (s.withInput input).holds (offset + pos) kind = s.holds pos kind
  | look kind _ => kind.behind = true → offset = 0
  | _ => True

section Ways

variable {s : Subject} {offset : Nat} {input : Array Char}

mutual

/-- In a text that reads alike the ways of a node are those in the text at hand, moved. -/
theorem ways_moved (h : s.IsReadAt offset input) : ∀ (node : Node) {nesting? : Option Nat}
    {pos : Nat} {captures : Captures}, (∀ part ∈ node.subtrees, part.AsksAlike s offset input) →
    node.ways (s.withInput input) nesting? (offset + pos) (captures.moved offset) =
      (node.ways s nesting? pos captures).map (Way.moved offset)
  | literal c, _, _, _, _ => Search.take_moved h (fun _ _ halike => halike.agree_eq c) _ _
  | charClass set, _, _, _, _ => Search.take_moved h (fun _ _ halike => halike.accepts_eq set) _ _
  | anyChar, _, _, _, _ => Search.take_moved h (fun _ _ halike => halike.acceptsAny_eq) _ _
  | anchor kind, _, pos, _, hasks => by
    have hholds : (anchor kind).AsksAlike s offset input := hasks _ (mem_subtrees_self _)
    rw [ways, ways, hholds pos]
    split <;> rfl
  | look kind inner, nesting?, pos, captures, hasks => by
    have hbehind : (look kind inner).AsksAlike s offset input := hasks _ (mem_subtrees_self _)
    have hinner : ∀ part ∈ inner.subtrees, part.AsksAlike s offset input :=
      fun part hpart => hasks part (List.mem_cons_of_mem _ hpart)
    rw [ways, ways, ← Search.look_moved]
    congr 1
    apply Search.beside?_moved _ hbehind
    intro start
    match nesting? with
    | none => exact ways_moved h inner hinner
    | some 0 => rfl
    | some (deeper + 1) => exact ways_moved h inner hinner
  | group none inner, _, _, _, hasks =>
    ways_moved h inner fun part hpart => hasks part (List.mem_cons_of_mem _ hpart)
  | group (some number) inner, _, pos, _, hasks => by
    rw [ways, ways,
      ways_moved h inner fun part hpart => hasks part (List.mem_cons_of_mem _ hpart),
      List.map_map, List.map_map]
    apply List.map_congr_left
    intro way _
    simp only [Function.comp_apply, Way.stop_moved, Way.captures_moved, Captures.keep_moved]
    rfl
  | concat items, _, _, _, hasks =>
    waysAll_moved h items fun part hpart => hasks part (List.mem_cons_of_mem _ hpart)
  | alternation branches, _, _, _, hasks =>
    waysAny_moved h branches fun part hpart => hasks part (List.mem_cons_of_mem _ hpart)
  | repetition quantifier inner, nesting?, pos, captures, hasks => by
    have hlap : Search.IsMovedLap offset (fun pos captures => inner.ways s nesting? pos captures)
        (fun pos captures => inner.ways (s.withInput input) nesting? pos captures) :=
      fun _ _ => ways_moved h inner fun part hpart => hasks part (List.mem_cons_of_mem _ hpart)
    have hsize : (s.withInput input).input.size = offset + s.input.size := h.size_eq
    rw [ways, ways, hsize]
    exact Search.laps_moved hlap quantifier ⟨pos, captures⟩
  | backreference number, _, pos, captures, _ => by
    rw [ways, ways, h.repeatSpan?_eq]
    cases s.repeatSpan? (captures number) pos <;> rfl

theorem waysAll_moved (h : s.IsReadAt offset input) : ∀ (items : List Node)
    {nesting? : Option Nat} {pos : Nat} {captures : Captures},
    (∀ part ∈ subtreesAll items, part.AsksAlike s offset input) →
    waysAll (s.withInput input) items nesting? (offset + pos) (captures.moved offset) =
      (waysAll s items nesting? pos captures).map (Way.moved offset)
  | [], _, _, _, _ => rfl
  | item :: items, nesting?, _, _, hasks => by
    rw [subtreesAll, List.forall_mem_append] at hasks
    rw [waysAll, waysAll, ways_moved h item hasks.1, List.flatMap_map, List.map_flatMap]
    congr 1
    funext way
    exact waysAll_moved h items hasks.2

theorem waysAny_moved (h : s.IsReadAt offset input) : ∀ (branches : List Node)
    {nesting? : Option Nat} {pos : Nat} {captures : Captures},
    (∀ part ∈ subtreesAll branches, part.AsksAlike s offset input) →
    waysAny (s.withInput input) branches nesting? (offset + pos) (captures.moved offset) =
      (waysAny s branches nesting? pos captures).map (Way.moved offset)
  | [], _, _, _, _ => rfl
  | branch :: branches, _, _, _, hasks => by
    rw [subtreesAll, List.forall_mem_append] at hasks
    rw [waysAny, waysAny, ways_moved h branch hasks.1, waysAny_moved h branches hasks.2,
      List.map_append]

end

end Ways

end Node
end TokenPatterns
