import TokenPatterns.Regex.Source

/-!
# Numbers in patterns

Runs of digits are read as the numbers they denote, whatever their length. The bounds of a
quantifier and code points in braces are capped after each digit, which comes to the same as once at
the end.
-/
namespace TokenPatterns
namespace Regex

/-- The value of a digit in a base up to 16. -/
def digit? (base : Nat) (c : Char) : Option Nat :=
  (if c.isDigit then some (c.toNat - '0'.toNat)
    else if 'a' ≤ c ∧ c ≤ 'f' then some (c.toNat - 'a'.toNat + 10)
    else if 'A' ≤ c ∧ c ≤ 'F' then some (c.toNat - 'A'.toNat + 10)
    else none).filter (· < base)

def isDigit (base : Nat) (c : Char) : Bool := (digit? base c).isSome

def ofDigits (base : Nat) (digits : List Char) : Nat :=
  digits.foldl (fun value c => base * value + (digit? base c).getD 0) 0

/-- The longest run of digits, of which there must be one. -/
def readNumber? (base : Nat) (source : Source) : Option (Nat × Source) :=
  match source.span (isDigit base) with
  | ([], _) => none
  | (digits, source) => some (ofDigits base digits, source)

/-- The largest count that a quantifier can ask for. -/
def maxCount : Nat := 0xFFFFFFFF

/-- The number that digits denote, capped after each of them. -/
def cappedOfDigits (base limit : Nat) (digits : List Char) : Nat :=
  digits.foldl (fun value c => min (min (base * value) limit + (digit? base c).getD 0) limit) 0

/-- The longest run of digits as a number that is capped. -/
def readCapped? (base limit : Nat) (source : Source) : Option (Nat × Source) :=
  match source.span (isDigit base) with
  | ([], _) => none
  | (digits, source) => some (cappedOfDigits base limit digits, source)

def nextDigit? (base : Nat) (source : Source) : Option (Nat × Source) :=
  match source.next? with
  | none => none
  | some (c, later) => (digit? base c).map (·, later)

/-- Exactly `count` digits after those that denote `value`. -/
def readDigits? (base value : Nat) : (count : Nat) → Source → Option (Nat × Source)
  | 0, source => some (value, source)
  | count + 1, source =>
    match nextDigit? base source with
    | none => none
    | some (digit, later) => readDigits? base (base * value + digit) count later

/-- At most `count` digits after those that denote `value`, as long as the number that they
denote together does not exceed `limit`. -/
def readDigitsUpTo (base limit value : Nat) : (count : Nat) → Source → Nat × Source
  | 0, source => (value, source)
  | count + 1, source =>
    match nextDigit? base source with
    | none => (value, source)
    | some (digit, later) =>
      if base * value + digit ≤ limit then
        readDigitsUpTo base limit (base * value + digit) count later
      else (value, source)

theorem le_foldl_digits (base value : Nat) (digits : List Char) (hbase : 0 < base) :
    value ≤ digits.foldl (fun value c => base * value + (digit? base c).getD 0) value := by
  induction digits generalizing value with
  | nil => exact Nat.le_refl _
  | cons c digits ih =>
    refine Nat.le_trans ?_ (ih _)
    exact Nat.le_trans (Nat.le_mul_of_pos_left value hbase) (Nat.le_add_right _ _)

theorem toNat_bounds_of_isDigit {c : Char} (h : c.isDigit = true) : 48 ≤ c.toNat ∧ c.toNat ≤ 57 := by
  simp only [Char.isDigit, Bool.and_eq_true, decide_eq_true_eq, ge_iff_le,
    UInt32.le_iff_toNat_le] at h
  exact h

theorem digit?_of_isDigit {base : Nat} {c : Char} (h : c.isDigit = true)
    (hlt : c.toNat - 48 < base) : digit? base c = some (c.toNat - 48) := by
  simp only [digit?, h, if_pos]
  exact Option.filter_eq_some_iff.mpr ⟨rfl, decide_eq_true hlt⟩

theorem digit?_pos {c : Char} (hdigit : c.isDigit = true) (hzero : c ≠ '0') :
    0 < (digit? 10 c).getD 0 := by
  have hne : c.toNat ≠ 48 := fun h => hzero (Char.toNat_inj.mp h)
  have hbounds := toNat_bounds_of_isDigit hdigit
  rw [digit?_of_isDigit hdigit (by omega), Option.getD_some]
  omega

theorem readNumber?_pos {number : Nat} {c : Char} {source after later : Source}
    (hnext : source.next? = some (c, after)) (hdigit : c.isDigit = true) (hzero : c ≠ '0')
    (h : readNumber? 10 source = some (number, later)) : 0 < number := by
  have hpos := digit?_pos hdigit hzero
  have hc : isDigit 10 c = true := by
    rw [isDigit]
    cases hvalue : digit? 10 c with
    | none => simp [hvalue] at hpos
    | some digit => rfl
  have hdigits : (source.span (isDigit 10)).1 = c :: after.rest.takeWhile (isDigit 10) := by
    rw [Source.span, (Source.next?_eq_some hnext).1, List.takeWhile_cons_of_pos hc]
  unfold readNumber? at h
  split at h
  · cases h
  · next digits later' _ hspan =>
    simp only [Option.some.injEq, Prod.mk.injEq] at h
    rw [hspan] at hdigits
    dsimp only at hdigits
    rw [← h.1, hdigits, ofDigits, List.foldl_cons]
    refine Nat.lt_of_lt_of_le ?_ (le_foldl_digits 10 _ _ (by decide))
    omega

theorem isOrdinary_of_isDigit {base : Nat} {c : Char} (h : isDigit base c = true) :
    Source.isOrdinary c = true :=
  Source.isOrdinary_of h rfl rfl rfl rfl

theorem skipsTo_of_nextDigit? {base digit : Nat} {source later : Source}
    (h : nextDigit? base source = some (digit, later)) : source.SkipsTo later := by
  unfold nextDigit? at h
  split at h
  · simp at h
  · next c after hnext =>
    obtain ⟨_, hdigit, hpair⟩ := Option.map_eq_some_iff.mp h
    cases hpair
    exact Source.skipsTo_of_next? hnext (isOrdinary_of_isDigit (by rw [isDigit, hdigit]; rfl))

theorem skipsTo_of_readNumber? {base value : Nat} {source later : Source}
    (h : readNumber? base source = some (value, later)) : source.SkipsTo later := by
  unfold readNumber? at h
  split at h
  · simp at h
  · next digits after hspan hdigits =>
    simp only [Option.some.injEq, Prod.mk.injEq] at h
    have := Source.skipsTo_span (fun _ => @isOrdinary_of_isDigit base _) source
    rw [hdigits] at this
    exact h.2 ▸ this

theorem min_mul_min {base limit : Nat} (h : 0 < base) (value : Nat) :
    min (base * min value limit) limit = min (base * value) limit := by
  rw [← Nat.mul_min_mul_left, Nat.min_assoc,
    Nat.min_eq_right (Nat.le_mul_of_pos_left limit h)]

/-- A number that is capped after each digit is capped at the end. -/
theorem cappedOfDigits_eq_min {base : Nat} (h : 0 < base) (limit : Nat) (digits : List Char) :
    cappedOfDigits base limit digits = min (ofDigits base digits) limit := by
  have hfold : ∀ value, digits.foldl
      (fun value c => min (min (base * value) limit + (digit? base c).getD 0) limit)
        (min value limit) =
      min (digits.foldl (fun value c => base * value + (digit? base c).getD 0) value) limit := by
    induction digits with
    | nil => exact fun _ => rfl
    | cons c digits ih =>
      intro value
      have hstep : min (min (base * min value limit) limit + (digit? base c).getD 0) limit =
          min (base * value + (digit? base c).getD 0) limit := by
        rw [min_mul_min h]
        omega
      rw [List.foldl_cons, List.foldl_cons, hstep, ih]
  have hall := hfold 0
  rwa [Nat.zero_min] at hall

theorem readCapped?_eq {base : Nat} (h : 0 < base) (limit : Nat) (source : Source) :
    readCapped? base limit source =
      (readNumber? base source).map fun read => (min read.1 limit, read.2) := by
  unfold readCapped? readNumber?
  split
  · rfl
  · rw [cappedOfDigits_eq_min h]
    rfl

theorem skipsTo_of_readCapped? {base limit value : Nat} {source later : Source}
    (h : readCapped? base limit source = some (value, later)) : source.SkipsTo later := by
  unfold readCapped? at h
  split at h
  · cases h
  · next digits after hspan hdigits =>
    simp only [Option.some.injEq, Prod.mk.injEq] at h
    have hskips := Source.skipsTo_span (fun _ => @isOrdinary_of_isDigit base _) source
    rw [hdigits] at hskips
    exact h.2 ▸ hskips

theorem skipsTo_of_readDigits? {base count value number : Nat} {source later : Source}
    (h : readDigits? base value count source = some (number, later)) : source.SkipsTo later := by
  fun_induction readDigits? base value count source with
  | case1 =>
    cases h
    exact .refl _
  | case2 => simp at h
  | case3 value count source digit after hnext ih =>
    exact (skipsTo_of_nextDigit? hnext).trans (ih h)

theorem skipsTo_readDigitsUpTo (base limit value count : Nat) (source : Source) :
    source.SkipsTo (readDigitsUpTo base limit value count source).2 := by
  fun_induction readDigitsUpTo base limit value count source with
  | case1 => exact .refl _
  | case2 => exact .refl _
  | case3 value count source digit later hnext hle ih =>
    exact (skipsTo_of_nextDigit? hnext).trans ih
  | case4 => exact .refl _

/-- The rest of a quantifier in braces: `n}`, `n,}` or `n,m}`. -/
def readBraces? (source : Source) : Option ((Nat × Option Nat) × Source) := do
  let (min, source) ← readCapped? 10 maxCount source
  match source.skip? ',' with
  | none => (source.skip? '}').map ((min, some min), ·)
  | some source =>
    match readCapped? 10 maxCount source with
    | none => (source.skip? '}').map ((min, none), ·)
    | some (max, source) => (source.skip? '}').map ((min, some max), ·)

theorem skipsTo_of_readBraces? {source later : Source} {bounds : Nat × Option Nat}
    (h : readBraces? source = some (bounds, later)) : source.SkipsTo later := by
  simp only [readBraces?, Option.bind_eq_bind, Option.bind_eq_some_iff] at h
  obtain ⟨⟨min, afterMin⟩, hmin, h⟩ := h
  refine (skipsTo_of_readCapped? hmin).trans ?_
  split at h
  · obtain ⟨_, hskip, hpair⟩ := Option.map_eq_some_iff.mp h
    cases hpair
    exact Source.skipsTo_of_skip? hskip rfl
  · next afterComma hcomma =>
    refine (Source.skipsTo_of_skip? hcomma rfl).trans ?_
    split at h
    · obtain ⟨_, hskip, hpair⟩ := Option.map_eq_some_iff.mp h
      cases hpair
      exact Source.skipsTo_of_skip? hskip rfl
    · next max afterMax hmax =>
      obtain ⟨_, hskip, hpair⟩ := Option.map_eq_some_iff.mp h
      cases hpair
      exact (skipsTo_of_readCapped? hmax).trans (Source.skipsTo_of_skip? hskip rfl)

end Regex
end TokenPatterns
