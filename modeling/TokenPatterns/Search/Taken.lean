import TokenPatterns.Search.Ways

/-!
# Where the characters of a match come from

Each character of a match was accepted by a leaf of the tree, or repeats one that a group captured.
What is captured outside of lookarounds belongs to the match. So only a reference to a group in a
lookaround can bring in characters that no leaf of the match accepts.
-/
namespace TokenPatterns

/-- Whether the text from `start` up to `stop` consists of characters that satisfy `p`. -/
def ConsistsOf (input : Array Char) (p : Char → Prop) (start stop : Nat) : Prop :=
  ∀ offset, start ≤ offset → offset < stop → ∃ c, input[offset]? = some c ∧ p c

namespace ConsistsOf

variable {input : Array Char} {p : Char → Prop} {start middle stop : Nat}

theorem empty (input : Array Char) (p : Char → Prop) (pos : Nat) : ConsistsOf input p pos pos :=
  fun _ hle hlt => absurd hlt (Nat.not_lt.mpr hle)

theorem append (h : ConsistsOf input p start middle) (hmore : ConsistsOf input p middle stop) :
    ConsistsOf input p start stop := by
  intro offset hle hlt
  by_cases hfirst : offset < middle
  · exact h offset hle hfirst
  · exact hmore offset (Nat.not_lt.mp hfirst) hlt

theorem single {c : Char} (hc : input[start]? = some c) (h : p c) :
    ConsistsOf input p start (start + 1) := by
  intro offset hle hlt
  obtain rfl : offset = start := by omega
  exact ⟨c, hc, h⟩

theorem of_sameText {s : Subject} (hclosed : ∀ a b, s.agree a b = true → p a → p b) {pos : Nat} :
    ∀ {start length : Nat}, s.sameText start pos length = true →
      ConsistsOf s.input p start (start + length) → ConsistsOf s.input p pos (pos + length) := by
  intro start length
  induction length generalizing start pos with
  | zero => exact fun _ _ => empty s.input p pos
  | succ length ih =>
    intro hsame h
    obtain ⟨a, ha, hp⟩ := h start (Nat.le_refl _) (by omega)
    cases hb : s.input[pos]? with
    | none => simp [Subject.sameText, ha, hb] at hsame
    | some b =>
      simp only [Subject.sameText, ha, hb, Bool.and_eq_true] at hsame
      have hrest : ConsistsOf s.input p (start + 1) (start + 1 + length) :=
        fun offset hle hlt => h offset (by omega) (by omega)
      have hlater := ih hsame.2 hrest
      rw [Nat.add_right_comm] at hlater
      exact (single hb (hclosed a b hsame.1 hp)).append hlater

end ConsistsOf

/-- Whether all that is captured, under numbers outside of `hidden`, satisfies `p`. -/
def Captures.ConsistOf (captures : Captures) (input : Array Char) (p : Char → Prop)
    (hidden : List Nat) : Prop :=
  ∀ number start stop, number ∉ hidden → captures number = some (start, stop) →
    ConsistsOf input p start stop

theorem Captures.consistOf_none (input : Array Char) (p : Char → Prop) (hidden : List Nat) :
    Captures.none.ConsistOf input p hidden := by
  intro number start stop _ h
  cases h

/-- Whether a way from `pos` takes up only characters that satisfy `p`, and captures no others. -/
structure Way.ConsistsOf (way : Way) (input : Array Char) (p : Char → Prop) (hidden : List Nat)
    (pos : Nat) : Prop where
  text : TokenPatterns.ConsistsOf input p pos way.stop
  captured : way.captures.ConsistOf input p hidden

namespace Search

theorem exists_mem_of_beside? {body : Nat → List Way} {behind : Bool} {pos : Nat} {way : Way}
    (h : beside? body behind pos = some way) : ∃ start, way ∈ body start := by
  unfold beside? at h
  split at h
  · obtain ⟨start, -, hstart⟩ := List.exists_of_findSome?_eq_some h
    exact ⟨start, List.mem_of_find?_eq_some hstart⟩
  · exact ⟨pos, List.mem_of_head? h⟩

theorem captures_of_mem_look {negated : Bool} {found? : Option Way} {pos : Nat}
    {captures : Captures} {way : Way} (h : way ∈ look negated found? pos captures) :
    way.captures = captures ∨ ∃ inside, found? = some inside ∧ way.captures = inside.captures := by
  unfold look at h
  split at h
  · next inside =>
    rw [List.mem_singleton.mp h]
    exact .inr ⟨inside, rfl, rfl⟩
  · rw [List.mem_singleton.mp h]
    exact .inl rfl
  · cases h

end Search

namespace Node

mutual

/-- Whether a leaf outside of lookarounds accepts the character. -/
def takes (s : Subject) (c : Char) : Node → Bool
  | literal d => s.agree d c
  | charClass set => s.accepts set c
  | anyChar => s.acceptsAny c
  | group _ inner => takes s c inner
  | concat items => anyTakes s c items
  | alternation branches => anyTakes s c branches
  | repetition _ inner => takes s c inner
  | _ => false

def anyTakes (s : Subject) (c : Char) : List Node → Bool
  | [] => false
  | node :: nodes => takes s c node || anyTakes s c nodes

end

mutual

/-- The numbers that references outside of lookarounds name. -/
def outerReferences : Node → List Nat
  | group _ inner => outerReferences inner
  | concat items => outerReferencesAll items
  | alternation branches => outerReferencesAll branches
  | repetition _ inner => outerReferences inner
  | backreference number => [number]
  | _ => []

def outerReferencesAll : List Node → List Nat
  | [] => []
  | node :: nodes => outerReferences node ++ outerReferencesAll nodes

end

mutual

/-- The numbers of the captures inside of lookarounds. -/
def lookCaptures : Node → List Nat
  | look _ inner => inner.captures
  | group _ inner => lookCaptures inner
  | concat items => lookCapturesAll items
  | alternation branches => lookCapturesAll branches
  | repetition _ inner => lookCaptures inner
  | _ => []

def lookCapturesAll : List Node → List Nat
  | [] => []
  | node :: nodes => lookCaptures node ++ lookCapturesAll nodes

end

/-- Whether all that a node can bring into a match satisfies `p`: its leaves accept nothing else,
and its references repeat none of the `hidden` captures, to which those in lookarounds belong. -/
structure BringsOnly (s : Subject) (p : Char → Prop) (hidden : List Nat) (node : Node) : Prop where
  takes : ∀ c, node.takes s c = true → p c
  references : ∀ number ∈ node.outerReferences, number ∉ hidden
  captures : ∀ number ∈ node.lookCaptures, number ∈ hidden

section BringsOnly

variable {s : Subject} {p : Char → Prop} {hidden : List Nat} {nodes : List Node} {c : Char}
  {number : Nat}

theorem anyTakes_iff : anyTakes s c nodes = true ↔ ∃ node ∈ nodes, node.takes s c = true := by
  induction nodes with
  | nil => simp [anyTakes]
  | cons node nodes ih => simp [anyTakes, ih]

theorem mem_outerReferencesAll :
    number ∈ outerReferencesAll nodes ↔ ∃ node ∈ nodes, number ∈ node.outerReferences := by
  induction nodes with
  | nil => simp [outerReferencesAll]
  | cons node nodes ih => simp [outerReferencesAll, ih]

theorem mem_lookCapturesAll :
    number ∈ lookCapturesAll nodes ↔ ∃ node ∈ nodes, number ∈ node.lookCaptures := by
  induction nodes with
  | nil => simp [lookCapturesAll]
  | cons node nodes ih => simp [lookCapturesAll, ih]

theorem BringsOnly.of_mem_items (h : (concat nodes).BringsOnly s p hidden) :
    ∀ node ∈ nodes, node.BringsOnly s p hidden := by
  intro node hnode
  constructor
  · exact fun c hc => h.takes c (anyTakes_iff.mpr ⟨node, hnode, hc⟩)
  · exact fun number hnumber =>
      h.references number (mem_outerReferencesAll.mpr ⟨node, hnode, hnumber⟩)
  · exact fun number hnumber => h.captures number (mem_lookCapturesAll.mpr ⟨node, hnode, hnumber⟩)

theorem BringsOnly.of_mem_branches (h : (alternation nodes).BringsOnly s p hidden) :
    ∀ node ∈ nodes, node.BringsOnly s p hidden :=
  BringsOnly.of_mem_items ⟨h.takes, h.references, h.captures⟩

end BringsOnly

section Captures

variable {s : Subject} {number : Nat}

mutual

theorem captures_of_mem_ways : ∀ (node : Node) {nesting? : Option Nat} {pos : Nat}
    {captures : Captures} {way : Way}, number ∉ node.captures →
    way ∈ node.ways s nesting? pos captures → way.captures number = captures number
  | literal _, _, _, _, _, _, h => by rw [(Search.take_stop h).2.2]
  | charClass _, _, _, _, _, _, h => by rw [(Search.take_stop h).2.2]
  | anyChar, _, _, _, _, _, h => by rw [(Search.take_stop h).2.2]
  | anchor kind, _, _, _, _, _, h => by
    rw [ways] at h
    split at h
    · rw [List.mem_singleton.mp h]
    · cases h
  | look kind inner, nesting?, _, _, _, hnumber, h => by
    rw [ways] at h
    rcases Search.captures_of_mem_look h with hsame | ⟨inside, hinside, hsame⟩
    · rw [hsame]
    · obtain ⟨start, hstart⟩ := Search.exists_mem_of_beside? hinside
      rw [hsame]
      match nesting? with
      | none => exact captures_of_mem_ways inner hnumber hstart
      | some 0 => cases hstart
      | some (deeper + 1) => exact captures_of_mem_ways inner hnumber hstart
  | group none inner, _, _, _, _, hnumber, h => captures_of_mem_ways inner hnumber h
  | group (some other) inner, _, _, _, _, hnumber, h => by
    rw [ways] at h
    obtain ⟨inside, hinside, rfl⟩ := List.mem_map.mp h
    rw [Node.captures, Option.toList_some, List.singleton_append, List.mem_cons, not_or] at hnumber
    simp only [Captures.keep, if_neg hnumber.1]
    exact captures_of_mem_ways inner hnumber.2 hinside
  | concat items, _, _, _, _, hnumber, h => captures_of_mem_waysAll items hnumber h
  | alternation branches, _, _, _, _, hnumber, h => captures_of_mem_waysAny branches hnumber h
  | repetition quantifier inner, nesting?, pos, captures, way, hnumber, h => by
    rw [ways, Search.laps_eq_remainingLaps] at h
    refine Search.forall_remainingLaps (fun way => way.captures number = captures number) ?_ 0 rfl
      way h
    intro start hstart next hnext
    rw [captures_of_mem_ways inner hnumber hnext, hstart]
  | backreference _, _, _, _, _, _, h => by
    rw [ways, List.mem_map] at h
    obtain ⟨stop, -, rfl⟩ := h
    rfl

theorem captures_of_mem_waysAll : ∀ (items : List Node) {nesting? : Option Nat} {pos : Nat}
    {captures : Captures} {way : Way}, number ∉ capturesAll items →
    way ∈ waysAll s items nesting? pos captures → way.captures number = captures number
  | [], _, _, _, _, _, h => by
    rw [waysAll, List.mem_singleton] at h
    rw [h]
  | item :: items, _, _, _, _, hnumber, h => by
    rw [capturesAll, List.mem_append, not_or] at hnumber
    rw [waysAll, List.mem_flatMap] at h
    obtain ⟨first, hfirst, hway⟩ := h
    rw [captures_of_mem_waysAll items hnumber.2 hway, captures_of_mem_ways item hnumber.1 hfirst]

theorem captures_of_mem_waysAny : ∀ (branches : List Node) {nesting? : Option Nat} {pos : Nat}
    {captures : Captures} {way : Way}, number ∉ capturesAll branches →
    way ∈ waysAny s branches nesting? pos captures → way.captures number = captures number
  | [], _, _, _, _, _, h => by cases h
  | branch :: branches, _, _, _, _, hnumber, h => by
    rw [capturesAll, List.mem_append, not_or] at hnumber
    rw [waysAny, List.mem_append] at h
    rcases h with hfirst | hothers
    · exact captures_of_mem_ways branch hnumber.1 hfirst
    · exact captures_of_mem_waysAny branches hnumber.2 hothers

end

end Captures

section Ways

variable {s : Subject} {p : Char → Prop} {hidden : List Nat} {nesting? : Option Nat} {pos : Nat}
  {captures : Captures} {way : Way}

theorem consistsOf_of_take {q : Char → Bool} (hq : ∀ c, q c = true → p c)
    (hcaptures : captures.ConsistOf s.input p hidden) (h : way ∈ Search.take s q pos captures) :
    way.ConsistsOf s.input p hidden pos := by
  obtain ⟨-, hany, rfl⟩ := Search.take_stop h
  obtain ⟨c, hc, hqc⟩ := (Option.any_eq_true _ _).mp hany
  exact ⟨.single hc (hq c hqc), hcaptures⟩

theorem consistOf_keep {number start stop : Nat} (hcaptures : captures.ConsistOf s.input p hidden)
    (htext : ConsistsOf s.input p start stop) :
    (captures.keep number start stop).ConsistOf s.input p hidden := by
  intro other first last hother h
  unfold Captures.keep at h
  split at h
  · cases h
    exact htext
  · exact hcaptures other first last hother h

theorem consistsOf_of_repeatSpan? (hclosed : ∀ a b, s.agree a b = true → p a → p b)
    {number stop : Nat} (hnumber : number ∉ hidden)
    (hcaptures : captures.ConsistOf s.input p hidden)
    (h : s.repeatSpan? (captures number) pos = some stop) : ConsistsOf s.input p pos stop := by
  unfold Subject.repeatSpan? at h
  split at h
  · next first last hspan =>
    dsimp only at h
    split at h
    · next hlength =>
      rw [Bool.and_eq_true] at hlength
      cases h
      apply ConsistsOf.of_sameText hclosed hlength.2
      intro offset hle hlt
      exact hcaptures number first last hnumber hspan offset hle (by omega)
    · cases h
  · cases h
    exact .empty s.input p pos

mutual

/-- Each way takes up and captures what its node brings in and what was captured before. -/
theorem consistsOf_of_mem_ways (hclosed : ∀ a b, s.agree a b = true → p a → p b) :
    ∀ (node : Node) {pos : Nat} {captures : Captures} {way : Way}, node.BringsOnly s p hidden →
      captures.ConsistOf s.input p hidden → way ∈ node.ways s nesting? pos captures →
      way.ConsistsOf s.input p hidden pos
  | literal _, _, _, _, hnode, hcaptures, h => consistsOf_of_take hnode.takes hcaptures h
  | charClass _, _, _, _, hnode, hcaptures, h => consistsOf_of_take hnode.takes hcaptures h
  | anyChar, _, _, _, hnode, hcaptures, h => consistsOf_of_take hnode.takes hcaptures h
  | anchor kind, pos, _, _, _, hcaptures, h => by
    rw [ways] at h
    split at h
    · rw [List.mem_singleton.mp h]
      exact ⟨.empty _ _ pos, hcaptures⟩
    · cases h
  | look kind inner, pos, captures, way, hnode, hcaptures, h => by
    -- Of what the body does only the captures stay, and these are hidden.
    have hstop : way.stop = pos := by
      rw [ways] at h
      exact Search.look_stop h
    constructor
    · rw [hstop]
      exact .empty _ _ pos
    · intro number start stop hnumber hspan
      have hinner : number ∉ (look kind inner).captures :=
        fun hmem => hnumber (hnode.captures number hmem)
      rw [captures_of_mem_ways _ hinner h] at hspan
      exact hcaptures number start stop hnumber hspan
  | group none inner, _, _, _, hnode, hcaptures, h =>
    consistsOf_of_mem_ways hclosed inner ⟨hnode.takes, hnode.references, hnode.captures⟩ hcaptures h
  | group (some number) inner, pos, _, _, hnode, hcaptures, h => by
    rw [ways] at h
    obtain ⟨inside, hinside, rfl⟩ := List.mem_map.mp h
    have hinner := consistsOf_of_mem_ways hclosed inner
      ⟨hnode.takes, hnode.references, hnode.captures⟩ hcaptures hinside
    exact ⟨hinner.text, consistOf_keep hinner.captured hinner.text⟩
  | concat items, _, _, _, hnode, hcaptures, h =>
    consistsOf_of_mem_waysAll hclosed items hnode.of_mem_items hcaptures h
  | alternation branches, _, _, _, hnode, hcaptures, h =>
    consistsOf_of_mem_waysAny hclosed branches hnode.of_mem_branches hcaptures h
  | repetition quantifier inner, pos, captures, way, hnode, hcaptures, h => by
    have hinner : inner.BringsOnly s p hidden := ⟨hnode.takes, hnode.references, hnode.captures⟩
    rw [ways, Search.laps_eq_remainingLaps] at h
    refine Search.forall_remainingLaps (Way.ConsistsOf · s.input p hidden pos) ?_ 0 ?_ way h
    · intro start hstart next hnext
      have hlap := consistsOf_of_mem_ways hclosed inner hinner hstart.captured hnext
      exact ⟨hstart.text.append hlap.text, hlap.captured⟩
    · exact ⟨.empty _ _ pos, hcaptures⟩
  | backreference number, pos, _, _, hnode, hcaptures, h => by
    rw [ways, List.mem_map] at h
    obtain ⟨stop, hstop, rfl⟩ := h
    have hnumber := hnode.references number (List.mem_singleton.mpr rfl)
    exact ⟨consistsOf_of_repeatSpan? hclosed hnumber hcaptures (Option.mem_toList.mp hstop),
      hcaptures⟩

theorem consistsOf_of_mem_waysAll (hclosed : ∀ a b, s.agree a b = true → p a → p b) :
    ∀ (items : List Node) {pos : Nat} {captures : Captures} {way : Way},
      (∀ item ∈ items, item.BringsOnly s p hidden) → captures.ConsistOf s.input p hidden →
      way ∈ waysAll s items nesting? pos captures → way.ConsistsOf s.input p hidden pos
  | [], pos, _, _, _, hcaptures, h => by
    rw [waysAll, List.mem_singleton] at h
    rw [h]
    exact ⟨.empty _ _ pos, hcaptures⟩
  | item :: items, _, _, _, hitems, hcaptures, h => by
    rw [List.forall_mem_cons] at hitems
    rw [waysAll, List.mem_flatMap] at h
    obtain ⟨first, hfirst, hway⟩ := h
    have hitem := consistsOf_of_mem_ways hclosed item hitems.1 hcaptures hfirst
    have hrest := consistsOf_of_mem_waysAll hclosed items hitems.2 hitem.captured hway
    exact ⟨hitem.text.append hrest.text, hrest.captured⟩

theorem consistsOf_of_mem_waysAny (hclosed : ∀ a b, s.agree a b = true → p a → p b) :
    ∀ (branches : List Node) {pos : Nat} {captures : Captures} {way : Way},
      (∀ branch ∈ branches, branch.BringsOnly s p hidden) → captures.ConsistOf s.input p hidden →
      way ∈ waysAny s branches nesting? pos captures → way.ConsistsOf s.input p hidden pos
  | [], _, _, _, _, _, h => by cases h
  | branch :: branches, _, _, _, hbranches, hcaptures, h => by
    rw [List.forall_mem_cons] at hbranches
    rw [waysAny, List.mem_append] at h
    rcases h with hfirst | hothers
    · exact consistsOf_of_mem_ways hclosed branch hbranches.1 hcaptures hfirst
    · exact consistsOf_of_mem_waysAny hclosed branches hbranches.2 hcaptures hothers

end

end Ways

end Node
end TokenPatterns
