import TokenPatterns.Search.Subject

/-!
# The direct search for a match

What a tree means, without any program: all ways in which a node matches from a place of a text, in
the order in which they are tried. The first of them is the match.
-/
namespace TokenPatterns

/-- The spans of the captures that took part in a match so far. -/
abbrev Captures := Nat → Option (Nat × Nat)

namespace Captures

def none : Captures := fun _ => .none

/-- Keeps the span of a capture, in the place of an earlier one. -/
def keep (captures : Captures) (number start stop : Nat) : Captures := fun other =>
  if other = number then some (start, stop) else captures other

end Captures

/-- A way in which a part of a pattern matches: where it ends, and what is captured by then. -/
structure Way where
  stop : Nat
  captures : Captures

namespace Search

/-- So many laps, whatever they take up. -/
def requiredLaps (lap : Nat → Captures → List Way) : (count : Nat) → Way → List Way
  | 0, way => [way]
  | count + 1, way => (lap way.stop way.captures).flatMap (requiredLaps lap count)

/-- As many laps as are wanted, each of which has to take up text. There are at most `left?` of
them. Another lap is tried before leaving if the repetition is greedy, and after it otherwise. -/
def optionalLaps (lap : Nat → Captures → List Way) (greedy : Bool) (size : Nat)
    (left? : Option Nat) (way : Way) : List Way :=
  if left? = some 0 then [way]
  else
    let further := (lap way.stop way.captures).flatMap fun next =>
      if way.stop < next.stop ∧ next.stop ≤ size then
        optionalLaps lap greedy size (left?.map (· - 1)) next
      else []
    if greedy then further ++ [way] else way :: further
termination_by size - way.stop
decreasing_by omega

def laps (lap : Nat → Captures → List Way) (quantifier : Quantifier) (size : Nat) (way : Way) :
    List Way :=
  (requiredLaps lap quantifier.min way).flatMap
    (optionalLaps lap quantifier.greedy size (quantifier.max.map (· - quantifier.min)))

/-- The way in which a body matches beside `pos`, if there is one. Behind a place the starts of the
body are tried from there down to the start of the text. -/
def beside? (body : Nat → List Way) (behind : Bool) (pos : Nat) : Option Way :=
  if behind then
    (List.range (pos + 1)).reverse.findSome? fun start => (body start).find? (·.stop == pos)
  else (body pos).head?

/-- What comes of a lookaround. It takes up no text. The captures of a positive one stay, and those
of a negative one are undone. -/
def look (negated : Bool) (found? : Option Way) (pos : Nat) (captures : Captures) : List Way :=
  match found?, negated with
  | some way, false => [⟨pos, way.captures⟩]
  | none, true => [⟨pos, captures⟩]
  | _, _ => []

def take (s : Subject) (p : Char → Bool) (pos : Nat) (captures : Captures) : List Way :=
  if s.input[pos]?.any p then [⟨pos + 1, captures⟩] else []

end Search

namespace Node

mutual

/-- The ways in which a node matches from `pos` on. Lookarounds may nest as deep as `nesting?` says,
and as deep as they like without it. The body of one that is nested too deep does not match. -/
def ways (s : Subject) : Node → (nesting? : Option Nat) → (pos : Nat) → Captures → List Way
  | literal c, _, pos, captures => Search.take s (s.agree c) pos captures
  | charClass set, _, pos, captures => Search.take s (s.accepts set) pos captures
  | anyChar, _, pos, captures => Search.take s s.acceptsAny pos captures
  | anchor kind, _, pos, captures => if s.holds pos kind then [⟨pos, captures⟩] else []
  | look kind inner, nesting?, pos, captures =>
    let body := fun start =>
      match nesting? with
      | some 0 => []
      | some (deeper + 1) => inner.ways s (some deeper) start captures
      | none => inner.ways s none start captures
    Search.look kind.negated (Search.beside? body kind.behind pos) pos captures
  | group none inner, nesting?, pos, captures => inner.ways s nesting? pos captures
  | group (some number) inner, nesting?, pos, captures =>
    (inner.ways s nesting? pos captures).map fun way =>
      ⟨way.stop, way.captures.keep number pos way.stop⟩
  | concat items, nesting?, pos, captures => waysAll s items nesting? pos captures
  | alternation branches, nesting?, pos, captures => waysAny s branches nesting? pos captures
  | repetition quantifier inner, nesting?, pos, captures =>
    Search.laps (fun pos captures => inner.ways s nesting? pos captures) quantifier s.input.size
      ⟨pos, captures⟩
  | backreference number, _, pos, captures =>
    (s.repeatSpan? (captures number) pos).toList.map (⟨·, captures⟩)

/-- The ways in which the items match one after the other. -/
def waysAll (s : Subject) :
    List Node → (nesting? : Option Nat) → (pos : Nat) → Captures → List Way
  | [], _, pos, captures => [⟨pos, captures⟩]
  | item :: items, nesting?, pos, captures =>
    (item.ways s nesting? pos captures).flatMap fun way =>
      waysAll s items nesting? way.stop way.captures

/-- The ways in which one of the branches matches, the earlier branches first. -/
def waysAny (s : Subject) :
    List Node → (nesting? : Option Nat) → (pos : Nat) → Captures → List Way
  | [], _, _, _ => []
  | branch :: branches, nesting?, pos, captures =>
    branch.ways s nesting? pos captures ++ waysAny s branches nesting? pos captures

end

end Node

namespace Search

section Laps

variable {lap : Nat → Captures → List Way} {start : Way}

theorem mem_optionalLaps {greedy : Bool} {size : Nat} {left? : Option Nat} {way : Way} :
    way ∈ optionalLaps lap greedy size left? start ↔ way = start ∨ left? ≠ some 0 ∧
      ∃ next ∈ lap start.stop start.captures, (start.stop < next.stop ∧ next.stop ≤ size) ∧
        way ∈ optionalLaps lap greedy size (left?.map (· - 1)) next := by
  have hfurther : ∀ next, (way ∈ if start.stop < next.stop ∧ next.stop ≤ size then
        optionalLaps lap greedy size (left?.map (· - 1)) next else []) ↔
      (start.stop < next.stop ∧ next.stop ≤ size) ∧
        way ∈ optionalLaps lap greedy size (left?.map (· - 1)) next := by
    intro next
    by_cases hstop : start.stop < next.stop ∧ next.stop ≤ size
    · rw [if_pos hstop, and_iff_right hstop]
    · rw [if_neg hstop]
      exact ⟨nofun, fun h => absurd h.1 hstop⟩
  rw [optionalLaps]
  by_cases hzero : left? = some 0
  · simp [hzero]
  · cases greedy <;> simp [hzero, List.mem_flatMap, hfurther, or_comm]

theorem forall_optionalLaps {Inv : Way → Prop}
    (hlap : ∀ way, Inv way → ∀ next ∈ lap way.stop way.captures, Inv next)
    (greedy : Bool) (size : Nat) (left? : Option Nat) (hstart : Inv start) :
    ∀ way ∈ optionalLaps lap greedy size left? start, Inv way := by
  intro way hway
  induction hleft : size - start.stop using Nat.strongRecOn generalizing start left? with
  | ind left ih =>
    rcases mem_optionalLaps.mp hway with rfl | ⟨-, next, hnext, hstop, hway⟩
    · exact hstart
    · exact ih _ (by omega) _ (hlap start hstart next hnext) hway rfl

theorem forall_requiredLaps {Inv : Way → Prop}
    (hlap : ∀ way, Inv way → ∀ next ∈ lap way.stop way.captures, Inv next)
    (count : Nat) (hstart : Inv start) : ∀ way ∈ requiredLaps lap count start, Inv way := by
  intro way hway
  induction count generalizing start with
  | zero =>
    rw [requiredLaps, List.mem_singleton] at hway
    exact hway ▸ hstart
  | succ count ih =>
    rw [requiredLaps, List.mem_flatMap] at hway
    obtain ⟨next, hnext, hway⟩ := hway
    exact ih (hlap start hstart next hnext) hway

variable {quantifier : Quantifier} {size : Nat}

variable (lap quantifier size) in
/-- The laps that follow on so many. -/
def remainingLaps (count : Nat) (way : Way) : List Way :=
  (requiredLaps lap (quantifier.min - count) way).flatMap
    (optionalLaps lap quantifier.greedy size (quantifier.max.map (· - max quantifier.min count)))

theorem forall_remainingLaps (Inv : Way → Prop)
    (hlap : ∀ way, Inv way → ∀ next ∈ lap way.stop way.captures, Inv next)
    (count : Nat) (hstart : Inv start) :
    ∀ way ∈ remainingLaps lap quantifier size count start, Inv way := by
  intro way hway
  obtain ⟨middle, hmiddle, hway⟩ := List.mem_flatMap.mp hway
  have hInv := forall_requiredLaps hlap _ hstart middle hmiddle
  exact forall_optionalLaps hlap _ _ _ hInv way hway

/-- Whether laps that begin in the text lead forward and stay in it. -/
def Forward (lap : Nat → Captures → List Way) (size : Nat) : Prop :=
  ∀ (pos : Nat) (captures : Captures), pos ≤ size →
    ∀ way ∈ lap pos captures, pos ≤ way.stop ∧ way.stop ≤ size

theorem stop_mem_remainingLaps (hforward : Forward lap size) (count : Nat)
    (hstart : start.stop ≤ size) {way : Way}
    (h : way ∈ remainingLaps lap quantifier size count start) :
    start.stop ≤ way.stop ∧ way.stop ≤ size := by
  have hlap : ∀ way : Way, start.stop ≤ way.stop ∧ way.stop ≤ size →
      ∀ next ∈ lap way.stop way.captures, start.stop ≤ next.stop ∧ next.stop ≤ size := by
    intro way hway next hnext
    obtain ⟨hle, hsize⟩ := hforward way.stop way.captures hway.2 next hnext
    exact ⟨Nat.le_trans hway.1 hle, hsize⟩
  exact forall_remainingLaps _ hlap count ⟨Nat.le_refl _, hstart⟩ way h

theorem laps_eq_remainingLaps : laps lap quantifier size start =
    remainingLaps lap quantifier size 0 start := by
  rw [laps, remainingLaps, Nat.sub_zero, Nat.max_zero]

theorem remainingLaps_of_lt {count : Nat} (h : count < quantifier.min) :
    remainingLaps lap quantifier size count start =
      (lap start.stop start.captures).flatMap
        (remainingLaps lap quantifier size (count + 1)) := by
  have hmin : quantifier.min - count = quantifier.min - (count + 1) + 1 := by omega
  have hmax : max quantifier.min count = max quantifier.min (count + 1) := by omega
  unfold remainingLaps
  rw [hmin, requiredLaps, List.flatMap_assoc, hmax]

/-- If all laps together take up nothing, the first of those that are required does not either. -/
theorem exists_empty_lap (hforward : Forward lap size) (hstart : start.stop ≤ size)
    (hrequired : quantifier.isOptional = false) {way : Way}
    (h : way ∈ laps lap quantifier size start) (hstop : way.stop = start.stop) :
    ∃ next ∈ lap start.stop start.captures, next.stop = start.stop := by
  rw [laps_eq_remainingLaps, remainingLaps_of_lt (Quantifier.min_pos hrequired),
    List.mem_flatMap] at h
  obtain ⟨first, hfirst, hway⟩ := h
  obtain ⟨hle, hsize⟩ := hforward start.stop start.captures hstart first hfirst
  obtain ⟨hback, -⟩ := stop_mem_remainingLaps hforward 1 hsize hway
  exact ⟨first, hfirst, by omega⟩

theorem remainingLaps_of_le {count : Nat} (h : quantifier.min ≤ count) :
    remainingLaps lap quantifier size count start =
      optionalLaps lap quantifier.greedy size (quantifier.max.map (· - count)) start := by
  rw [remainingLaps, Nat.sub_eq_zero_of_le h, requiredLaps, Nat.max_eq_right h]
  simp

theorem remainingLaps_of_allowsMore {count : Nat} (h : quantifier.min ≤ count)
    (hmore : quantifier.allowsMore count = true) :
    remainingLaps lap quantifier size count start =
      let further := (lap start.stop start.captures).flatMap fun next =>
        if start.stop < next.stop ∧ next.stop ≤ size then
          remainingLaps lap quantifier size (count + 1) next
        else []
      if quantifier.greedy then further ++ [start] else start :: further := by
  have hleft : quantifier.max.map (· - count) ≠ some 0 := by
    cases hmax : quantifier.max with
    | none => simp
    | some bound =>
      simp only [Quantifier.allowsMore, hmax, Option.all_some, decide_eq_true_eq] at hmore
      simp only [Option.map_some, ne_eq, Option.some.injEq]
      omega
  have hnext : (quantifier.max.map (· - count)).map (· - 1) =
      quantifier.max.map (· - (count + 1)) := by
    cases quantifier.max <;> rfl
  rw [remainingLaps_of_le h, optionalLaps, if_neg hleft, hnext]
  simp only [remainingLaps_of_le (Nat.le_succ_of_le h)]

theorem remainingLaps_of_not_allowsMore {count : Nat} (h : quantifier.min ≤ count)
    (hmore : quantifier.allowsMore count = false) :
    remainingLaps lap quantifier size count start = [start] := by
  have hleft : quantifier.max.map (· - count) = some 0 := by
    cases hmax : quantifier.max with
    | none => simp [Quantifier.allowsMore, hmax] at hmore
    | some bound =>
      simp only [Quantifier.allowsMore, hmax, Option.all_some, decide_eq_false_iff_not] at hmore
      simp only [Option.map_some, Option.some.injEq]
      omega
  rw [remainingLaps_of_le h, optionalLaps, if_pos hleft]

end Laps

/-- The first way that can be continued, with what it leads to. -/
def first (ways : List Way) (next : Nat → Captures → Option Way) : Option Way :=
  ways.findSome? fun way => next way.stop way.captures

section First

variable {ways more : List Way} {next : Nat → Captures → Option Way}

@[simp] theorem first_nil : first [] next = none := rfl

@[simp] theorem first_cons (way : Way) :
    first (way :: ways) next = (next way.stop way.captures).or (first ways next) := by
  rw [first, List.findSome?_cons]
  cases next way.stop way.captures <;> rfl

@[simp] theorem first_append :
    first (ways ++ more) next = (first ways next).or (first more next) :=
  List.findSome?_append

@[simp] theorem first_flatMap (f : Way → List Way) :
    first (ways.flatMap f) next = first ways fun stop captures => first (f ⟨stop, captures⟩) next := by
  induction ways with
  | nil => rfl
  | cons way ways ih => simp [ih]

@[simp] theorem first_map (f : Way → Way) : first (ways.map f) next =
    first ways fun stop captures => next (f ⟨stop, captures⟩).stop (f ⟨stop, captures⟩).captures := by
  simp [first, List.findSome?_map, Function.comp_def]

theorem first_congr {other : Nat → Captures → Option Way}
    (h : ∀ way ∈ ways, next way.stop way.captures = other way.stop way.captures) :
    first ways next = first ways other := by
  induction ways with
  | nil => rfl
  | cons way ways ih =>
    rw [first_cons, first_cons, h way List.mem_cons_self,
      ih fun later hlater => h later (List.mem_cons_of_mem _ hlater)]

variable {lap : Nat → Captures → List Way} {quantifier : Quantifier} {size count pos : Nat}
  {captures : Captures}

/-- What the laps that are still to come lead to behind a lap from `pos`. A lap that is not required
and takes up no text leads nowhere. -/
def afterLap (lap : Nat → Captures → List Way) (quantifier : Quantifier) (size count pos : Nat)
    (next : Nat → Captures → Option Way) (later : Nat) (captures : Captures) : Option Way :=
  if quantifier.min ≤ count ∧ later = pos then none
  else first (remainingLaps lap quantifier size (count + 1) ⟨later, captures⟩) next

theorem first_remainingLaps_of_lt (h : count < quantifier.min) :
    first (remainingLaps lap quantifier size count ⟨pos, captures⟩) next =
      first (lap pos captures) (afterLap lap quantifier size count pos next) := by
  rw [remainingLaps_of_lt h, first_flatMap]
  apply first_congr
  intro way _
  rw [afterLap, if_neg fun hstuck => Nat.not_le_of_lt h hstuck.1]

theorem first_remainingLaps_of_not_allowsMore (h : quantifier.min ≤ count)
    (hmore : quantifier.allowsMore count = false) :
    first (remainingLaps lap quantifier size count ⟨pos, captures⟩) next = next pos captures := by
  rw [remainingLaps_of_not_allowsMore h hmore, first_cons, first_nil, Option.or_none]

theorem first_remainingLaps_of_allowsMore (h : quantifier.min ≤ count)
    (hmore : quantifier.allowsMore count = true)
    (hforward : ∀ way ∈ lap pos captures, pos ≤ way.stop ∧ way.stop ≤ size) :
    first (remainingLaps lap quantifier size count ⟨pos, captures⟩) next =
      let further := first (lap pos captures) (afterLap lap quantifier size count pos next)
      if quantifier.greedy then further.or (next pos captures)
      else (next pos captures).or further := by
  have hfurther : first ((lap pos captures).flatMap fun way =>
      if pos < way.stop ∧ way.stop ≤ size then
        remainingLaps lap quantifier size (count + 1) way
      else []) next =
        first (lap pos captures) (afterLap lap quantifier size count pos next) := by
    rw [first_flatMap]
    apply first_congr
    intro way hway
    obtain ⟨hle, hsize⟩ := hforward way hway
    by_cases hstuck : way.stop = pos
    · simp [afterLap, h, hstuck]
    · have hlt : pos < way.stop := by omega
      simp [afterLap, hstuck, hsize, hlt]
  rw [remainingLaps_of_allowsMore h hmore]
  cases quantifier.greedy with
  | true => simp [hfurther]
  | false => simp [hfurther]

end First

theorem take_stop {s : Subject} {p : Char → Bool} {pos : Nat} {captures : Captures} {way : Way}
    (h : way ∈ take s p pos captures) :
    pos < s.input.size ∧ s.input[pos]?.any p = true ∧ way = ⟨pos + 1, captures⟩ := by
  unfold take at h
  split at h
  · next hany =>
    obtain ⟨c, hc, -⟩ := (Option.any_eq_true _ _).mp hany
    exact ⟨(Array.getElem?_eq_some_iff.mp hc).1, hany, List.mem_singleton.mp h⟩
  · cases h

theorem look_stop {negated : Bool} {found? : Option Way} {pos : Nat} {captures : Captures}
    {way : Way} (h : way ∈ look negated found? pos captures) : way.stop = pos := by
  unfold look at h
  split at h
  · rw [List.mem_singleton.mp h]
  · rw [List.mem_singleton.mp h]
  · cases h

end Search

namespace Node

/-- The ways of the body of a lookaround, if it may nest as deep as `allowance` says. -/
def waysWithin (s : Subject) (node : Node) (allowance pos : Nat) (captures : Captures) : List Way :=
  match allowance with
  | 0 => []
  | deeper + 1 => node.ways s (some deeper) pos captures

theorem ways_look {s : Subject} {kind : Look} {inner : Node} {nesting pos : Nat}
    {captures : Captures} : (look kind inner).ways s (some nesting) pos captures =
      Search.look kind.negated
        (Search.beside? (inner.waysWithin s nesting · captures) kind.behind pos) pos captures := by
  cases nesting <;> rfl

mutual

/-- Ways lead forward, and stay in the text. -/
theorem stop_mem_ways {s : Subject} {nesting? : Option Nat} : ∀ (node : Node) {pos : Nat}
    {captures : Captures} {way : Way}, pos ≤ s.input.size →
    way ∈ node.ways s nesting? pos captures → pos ≤ way.stop ∧ way.stop ≤ s.input.size
  | literal _, _, _, _, _, h => by
    obtain ⟨hlt, -, rfl⟩ := Search.take_stop h
    exact ⟨Nat.le_succ _, hlt⟩
  | charClass _, _, _, _, _, h => by
    obtain ⟨hlt, -, rfl⟩ := Search.take_stop h
    exact ⟨Nat.le_succ _, hlt⟩
  | anyChar, _, _, _, _, h => by
    obtain ⟨hlt, -, rfl⟩ := Search.take_stop h
    exact ⟨Nat.le_succ _, hlt⟩
  | anchor kind, pos, _, way, hpos, h => by
    rw [ways] at h
    split at h
    · rw [List.mem_singleton.mp h]
      exact ⟨Nat.le_refl _, hpos⟩
    · cases h
  | look kind inner, pos, _, way, hpos, h => by
    rw [ways] at h
    rw [Search.look_stop h]
    exact ⟨Nat.le_refl _, hpos⟩
  | group none inner, _, _, _, hpos, h => stop_mem_ways inner hpos h
  | group (some number) inner, _, _, _, hpos, h => by
    rw [ways] at h
    obtain ⟨inside, hinside, rfl⟩ := List.mem_map.mp h
    have hstop := stop_mem_ways inner hpos hinside
    exact hstop
  | concat items, _, _, _, hpos, h => stop_mem_waysAll items hpos h
  | alternation branches, _, _, _, hpos, h => stop_mem_waysAny branches hpos h
  | repetition quantifier inner, pos, captures, way, hpos, h => by
    rw [ways, Search.laps_eq_remainingLaps] at h
    have hforward : Search.Forward (inner.ways s nesting?) s.input.size :=
      fun _ _ hstart _ hnext => stop_mem_ways inner hstart hnext
    exact Search.stop_mem_remainingLaps hforward 0 hpos h
  | backreference number, pos, _, way, hpos, h => by
    rw [ways, List.mem_map] at h
    obtain ⟨stop, hstop, rfl⟩ := h
    exact Subject.repeatSpan?_le hpos (Option.mem_toList.mp hstop)

theorem stop_mem_waysAll {s : Subject} {nesting? : Option Nat} : ∀ (items : List Node) {pos : Nat}
    {captures : Captures} {way : Way}, pos ≤ s.input.size →
    way ∈ waysAll s items nesting? pos captures → pos ≤ way.stop ∧ way.stop ≤ s.input.size
  | [], pos, _, way, hpos, h => by
    rw [waysAll, List.mem_singleton] at h
    rw [h]
    exact ⟨Nat.le_refl _, hpos⟩
  | item :: items, pos, _, way, hpos, h => by
    rw [waysAll, List.mem_flatMap] at h
    obtain ⟨first, hfirst, hway⟩ := h
    obtain ⟨hle, hsize⟩ := stop_mem_ways item hpos hfirst
    obtain ⟨hle', hsize'⟩ := stop_mem_waysAll items hsize hway
    exact ⟨Nat.le_trans hle hle', hsize'⟩

theorem stop_mem_waysAny {s : Subject} {nesting? : Option Nat} : ∀ (branches : List Node)
    {pos : Nat} {captures : Captures} {way : Way}, pos ≤ s.input.size →
    way ∈ waysAny s branches nesting? pos captures → pos ≤ way.stop ∧ way.stop ≤ s.input.size
  | [], _, _, _, _, h => by cases h
  | branch :: branches, _, _, _, hpos, h => by
    rw [waysAny] at h
    rcases List.mem_append.mp h with hfirst | hothers
    · exact stop_mem_ways branch hpos hfirst
    · exact stop_mem_waysAny branches hpos hothers

end

mutual

/-- A tree whose lookarounds nest as deep as is allowed means the same without a bound. -/
theorem ways_of_lookDepth_le {s : Subject} : ∀ (node : Node) {nesting : Nat},
    node.lookDepth ≤ nesting → node.ways s (some nesting) = node.ways s none
  | literal _, _, _ => rfl
  | charClass _, _, _ => rfl
  | anyChar, _, _ => rfl
  | anchor _, _, _ => rfl
  | backreference _, _, _ => rfl
  | look kind inner, nesting, h => by
    cases nesting with
    | zero => exact absurd h (Nat.not_succ_le_zero _)
    | succ nesting =>
      funext pos captures
      simp only [ways, ways_of_lookDepth_le inner (Nat.le_of_succ_le_succ h)]
  | group none inner, _, h => by
    funext pos captures
    simp only [ways]
    rw [ways_of_lookDepth_le inner h]
  | group (some number) inner, _, h => by
    funext pos captures
    simp only [ways]
    rw [ways_of_lookDepth_le inner h]
  | concat items, _, h => by
    funext pos captures
    simp only [ways]
    rw [waysAll_of_lookDepth_le items h]
  | alternation branches, _, h => by
    funext pos captures
    simp only [ways]
    rw [waysAny_of_lookDepth_le branches h]
  | repetition quantifier inner, _, h => by
    funext pos captures
    simp only [ways]
    rw [ways_of_lookDepth_le inner h]

theorem waysAll_of_lookDepth_le {s : Subject} : ∀ (items : List Node) {nesting : Nat},
    lookDepthAll items ≤ nesting → waysAll s items (some nesting) = waysAll s items none
  | [], _, _ => rfl
  | item :: items, _, h => by
    funext pos captures
    simp only [waysAll]
    rw [ways_of_lookDepth_le item (Nat.le_trans (Nat.le_max_left _ _) h),
      waysAll_of_lookDepth_le items (Nat.le_trans (Nat.le_max_right _ _) h)]

theorem waysAny_of_lookDepth_le {s : Subject} : ∀ (branches : List Node) {nesting : Nat},
    lookDepthAll branches ≤ nesting → waysAny s branches (some nesting) = waysAny s branches none
  | [], _, _ => rfl
  | branch :: branches, _, h => by
    funext pos captures
    simp only [waysAny]
    rw [ways_of_lookDepth_le branch (Nat.le_trans (Nat.le_max_left _ _) h),
      waysAny_of_lookDepth_le branches (Nat.le_trans (Nat.le_max_right _ _) h)]

end

end Node

/-- Where the first match that begins at `start` ends: the first way in which the whole tree
matches from there. -/
def Pattern.search? (pattern : Pattern) (mapping : CaseMapping) (input : Array Char)
    (start : Nat) : Option Nat :=
  if start ≤ input.size then
    (pattern.root.ways ⟨mapping, pattern.flags, input⟩ none start Captures.none).head?.map Way.stop
  else none

end TokenPatterns
