import TokenPatterns.Regex.Numeral

/-!
# Numbers that are written out

The digits of a number denote it, whatever the base, and a run of digits ends where the text goes
on with another character.
-/
namespace TokenPatterns
namespace Regex

section Digits

variable {base : Nat}

theorem digit?_digitChar (hbase : base ≤ 16) {digit : Nat} (h : digit < base) :
    digit? base digit.digitChar = some digit := by
  have hall : ∀ base ≤ 16, ∀ digit < base, digit? base digit.digitChar = some digit := by
    decide +kernel
  exact hall base hbase digit h

theorem digit?_lt {digit : Nat} {c : Char} (h : digit? base c = some digit) : digit < base :=
  of_decide_eq_true (Option.filter_eq_some_iff.mp h).2

theorem isDigit_of_le {larger : Nat} {c : Char} (hle : base ≤ larger) (h : isDigit base c = true) :
    isDigit larger c = true := by
  obtain ⟨digit, hdigit⟩ := Option.isSome_iff_exists.mp h
  have hvalue := (Option.filter_eq_some_iff.mp hdigit).1
  have hlt := Nat.lt_of_lt_of_le (digit?_lt hdigit) hle
  have hlarger : digit? larger c = some digit :=
    Option.filter_eq_some_iff.mpr ⟨hvalue, decide_eq_true hlt⟩
  rw [isDigit, hlarger, Option.isSome_some]

theorem isDigit_ten (c : Char) : isDigit 10 c = c.isDigit := by
  cases h : c.isDigit with
  | true =>
    have hbounds := toNat_bounds_of_isDigit h
    rw [isDigit, digit?_of_isDigit h (by omega), Option.isSome_some]
  | false =>
    rw [isDigit, digit?, h]
    simp only [Bool.false_eq_true, if_false]
    split
    · simp
    · split <;> simp

theorem ofDigits_append_singleton (digits : List Char) (c : Char) :
    ofDigits base (digits ++ [c]) = base * ofDigits base digits + (digit? base c).getD 0 := by
  rw [ofDigits, List.foldl_append]
  rfl

theorem ofDigits_toDigits (hone : 1 < base) (hbase : base ≤ 16) (number : Nat) :
    ofDigits base (Nat.toDigits base number) = number := by
  induction number using Nat.strongRecOn with
  | ind number ih =>
    by_cases hlt : number < base
    · rw [Nat.toDigits_of_lt_base hlt]
      simp [ofDigits, digit?_digitChar hbase hlt]
    · have hle := Nat.not_lt.mp hlt
      have hsmaller : number / base < number := Nat.div_lt_self (by omega) hone
      have hdigit : number % base < base := Nat.mod_lt number (by omega)
      rw [Nat.toDigits_of_base_le hone hle, ofDigits_append_singleton, ih _ hsmaller,
        digit?_digitChar hbase hdigit, Option.getD_some]
      exact Nat.div_add_mod number base

theorem exists_digitChar_of_mem_toDigits (hone : 1 < base) {number : Nat} {c : Char}
    (hc : c ∈ Nat.toDigits base number) : ∃ digit < base, c = digit.digitChar := by
  induction number using Nat.strongRecOn with
  | ind number ih =>
    by_cases hlt : number < base
    · rw [Nat.toDigits_of_lt_base hlt, List.mem_singleton] at hc
      exact ⟨number, hlt, hc⟩
    · rw [Nat.toDigits_of_base_le hone (Nat.not_lt.mp hlt), List.mem_append,
        List.mem_singleton] at hc
      rcases hc with hearlier | hlast
      · exact ih _ (Nat.div_lt_self (by omega) hone) hearlier
      · exact ⟨number % base, Nat.mod_lt number (by omega), hlast⟩

theorem isDigit_of_mem_toDigits (hone : 1 < base) (hbase : base ≤ 16) (number : Nat) :
    ∀ c ∈ Nat.toDigits base number, isDigit base c = true := by
  intro c hc
  obtain ⟨digit, hdigit, rfl⟩ := exists_digitChar_of_mem_toDigits hone hc
  rw [isDigit, digit?_digitChar hbase hdigit, Option.isSome_some]

theorem head?_toDigits_ne (hone : 1 < base) (hbase : base ≤ 16) {number : Nat}
    (hpos : 0 < number) : (Nat.toDigits base number).head? ≠ some '0' := by
  induction number using Nat.strongRecOn with
  | ind number ih =>
    by_cases hlt : number < base
    · rw [Nat.toDigits_of_lt_base hlt]
      have hall : ∀ digit < 16, 0 < digit → [digit.digitChar].head? ≠ some '0' := by decide
      exact hall number (by omega) hpos
    · have hle := Nat.not_lt.mp hlt
      have hearlier := ih _ (Nat.div_lt_self (by omega) hone)
        (Nat.div_pos hle (by omega))
      rw [Nat.toDigits_of_base_le hone hle]
      cases hdigits : Nat.toDigits base (number / base) with
      | nil => exact absurd hdigits Nat.toDigits_ne_nil
      | cons c digits =>
        rw [hdigits] at hearlier
        exact hearlier

theorem not_isDigit_head? {c : Char} (h : isDigit base c = false) (text : List Char) :
    ∀ d ∈ (c :: text).head?, isDigit base d = false := by
  rintro d hd
  obtain rfl := Option.some.inj hd
  exact h

theorem takeWhile_isDigit_eq_nil {text : List Char}
    (h : ∀ c ∈ text.head?, isDigit base c = false) : text.takeWhile (isDigit base) = [] := by
  cases text with
  | nil => rfl
  | cons c text => exact List.takeWhile_cons_of_neg (by simp [h c rfl])

theorem readNumber?_of_not_isDigit {text : List Char}
    (h : ∀ c ∈ text.head?, isDigit base c = false) (pos : Nat) :
    readNumber? base ⟨pos, text⟩ = none := by
  simp [readNumber?, Source.span, takeWhile_isDigit_eq_nil h]

/-- Whether the characters are digits in the base, and at least one. -/
def AreDigits (base : Nat) (digits : List Char) : Prop :=
  digits ≠ [] ∧ ∀ c ∈ digits, isDigit base c = true

instance (base : Nat) (digits : List Char) : Decidable (AreDigits base digits) :=
  decidable_of_decidable_of_iff (and_congr_right fun _ => List.all_eq_true)

theorem areDigits_toDigits (hone : 1 < base) (hbase : base ≤ 16) (number : Nat) :
    AreDigits base (Nat.toDigits base number) :=
  ⟨Nat.toDigits_ne_nil, isDigit_of_mem_toDigits hone hbase number⟩

theorem readNumber?_append {digits rest : List Char} (h : AreDigits base digits)
    (hrest : ∀ c ∈ rest.head?, isDigit base c = false) (pos : Nat) :
    readNumber? base ⟨pos, digits ++ rest⟩ =
      some (ofDigits base digits, ⟨pos + digits.length, rest⟩) := by
  have hdrop : rest.dropWhile (isDigit base) = rest := by
    cases rest with
    | nil => rfl
    | cons c rest => exact List.dropWhile_cons_of_neg (by simp [hrest c rfl])
  have hspan : Source.span (isDigit base) ⟨pos, digits ++ rest⟩ =
      (digits, ⟨pos + digits.length, rest⟩) := by
    simp only [Source.span, List.takeWhile_append_of_pos h.2, List.dropWhile_append_of_pos h.2,
      takeWhile_isDigit_eq_nil hrest, hdrop, List.append_nil]
  unfold readNumber?
  rw [hspan]
  split
  · next hnone => exact absurd (congrArg Prod.fst hnone) h.1
  · next hsome =>
    cases hsome
    rfl

theorem readNumber?_toDigits (hone : 1 < base) (hbase : base ≤ 16) {rest : List Char}
    (hrest : ∀ c ∈ rest.head?, isDigit base c = false) (number pos : Nat) :
    readNumber? base ⟨pos, Nat.toDigits base number ++ rest⟩ =
      some (number, ⟨pos + (Nat.toDigits base number).length, rest⟩) := by
  rw [readNumber?_append (areDigits_toDigits hone hbase number) hrest,
    ofDigits_toDigits hone hbase]

end Digits

section Runs

variable {base limit value number count digit : Nat} {c : Char} {source later : Source}
  {text run : List Char}

/-- The number that digits denote behind those of `value`. -/
def ofDigitsAfter (base value : Nat) (digits : List Char) : Nat :=
  digits.foldl (fun value c => base * value + (digit? base c).getD 0) value

theorem ofDigits_cons (c : Char) (digits : List Char) :
    ofDigits base (c :: digits) = ofDigitsAfter base ((digit? base c).getD 0) digits := by
  rw [ofDigits, List.foldl_cons, Nat.mul_zero, Nat.zero_add]
  rfl

theorem ofDigitsAfter_cons (h : digit? base c = some digit) (digits : List Char) :
    ofDigitsAfter base value (c :: digits) = ofDigitsAfter base (base * value + digit) digits := by
  rw [ofDigitsAfter, List.foldl_cons, h]
  rfl

theorem isDigit_of_digit? (h : digit? base c = some digit) : isDigit base c = true := by
  rw [isDigit, h, Option.isSome_some]

theorem exists_digit?_of_isDigit (h : isDigit base c = true) :
    ∃ digit, digit? base c = some digit :=
  Option.isSome_iff_exists.mp h

theorem nextDigit?_eq_some_iff : nextDigit? base source = some (digit, later) ↔
    ∃ c, source.rest = c :: later.rest ∧ later.pos = source.pos + 1 ∧
      digit? base c = some digit := by
  obtain ⟨pos, _ | ⟨c, rest⟩⟩ := source
  · simp [nextDigit?, Source.next?]
  · obtain ⟨laterPos, laterRest⟩ := later
    simp only [nextDigit?, Source.next?, Option.map_eq_some_iff, Prod.mk.injEq, Source.mk.injEq,
      List.cons.injEq]
    constructor
    · rintro ⟨_, hdigit, rfl, rfl, rfl⟩
      exact ⟨c, ⟨rfl, rfl⟩, rfl, hdigit⟩
    · rintro ⟨_, ⟨rfl, rfl⟩, rfl, hdigit⟩
      exact ⟨digit, hdigit, rfl, rfl, rfl⟩

theorem not_isDigit_of_nextDigit? (h : nextDigit? base source = none) :
    ∀ c ∈ source.rest.head?, isDigit base c = false := by
  intro c hc
  obtain ⟨rest, hrest⟩ := List.head?_eq_some_iff.mp hc
  cases hdigit : isDigit base c with
  | false => rfl
  | true =>
    obtain ⟨digit, hvalue⟩ := exists_digit?_of_isDigit hdigit
    have hsome : nextDigit? base source = some (digit, ⟨source.pos + 1, rest⟩) :=
      nextDigit?_eq_some_iff.mpr ⟨c, hrest, rfl, hvalue⟩
    rw [h] at hsome
    cases hsome

/-- A fixed number of digits is read if so many are next. -/
theorem readDigits?_eq_some_iff : readDigits? base value count source = some (number, later) ↔
    ∃ digits : List Char, digits.length = count ∧ (∀ c ∈ digits, isDigit base c = true) ∧
      source.rest = digits ++ later.rest ∧ later.pos = source.pos + count ∧
      ofDigitsAfter base value digits = number := by
  induction count generalizing value source with
  | zero =>
    rw [readDigits?, Option.some.injEq, Prod.mk.injEq]
    constructor
    · rintro ⟨rfl, rfl⟩
      exact ⟨[], rfl, nofun, rfl, rfl, rfl⟩
    · rintro ⟨digits, hlength, -, hrest, hpos, rfl⟩
      obtain rfl := List.eq_nil_of_length_eq_zero hlength
      obtain ⟨pos, rest⟩ := source
      obtain ⟨laterPos, laterRest⟩ := later
      cases hpos
      cases hrest
      exact ⟨rfl, rfl⟩
  | succ count ih =>
    rw [readDigits?]
    constructor
    · intro h
      split at h
      · cases h
      · next digit after hnext =>
        obtain ⟨c, hrest, hpos, hdigit⟩ := nextDigit?_eq_some_iff.mp hnext
        obtain ⟨digits, hlength, hdigits, hafter, hlater, hnumber⟩ := ih.mp h
        refine ⟨c :: digits, congrArg Nat.succ hlength,
          List.forall_mem_cons.mpr ⟨isDigit_of_digit? hdigit, hdigits⟩, ?_, ?_, ?_⟩
        · rw [hrest, hafter, List.cons_append]
        · omega
        · rw [ofDigitsAfter_cons hdigit, hnumber]
    · rintro ⟨digits, hlength, hdigits, hrest, hpos, hnumber⟩
      obtain ⟨c, digits, rfl⟩ := List.exists_cons_of_length_eq_add_one hlength
      obtain ⟨hc, hdigits⟩ := List.forall_mem_cons.mp hdigits
      obtain ⟨digit, hdigit⟩ := exists_digit?_of_isDigit hc
      have hnext : nextDigit? base source =
          some (digit, ⟨source.pos + 1, digits ++ later.rest⟩) :=
        nextDigit?_eq_some_iff.mpr ⟨c, hrest, rfl, hdigit⟩
      rw [ofDigitsAfter_cons hdigit] at hnumber
      simp only [hnext]
      exact ih.mpr ⟨digits, Nat.succ.inj hlength, hdigits, rfl, by dsimp only; omega, hnumber⟩

/-- The digits that are read, one at least, denote the number. -/
theorem readDigits?_succ_eq_some_iff :
    readDigits? base 0 (count + 1) source = some (number, later) ↔
      ∃ digits, AreDigits base digits ∧ digits.length = count + 1 ∧
        source.rest = digits ++ later.rest ∧ later.pos = source.pos + digits.length ∧
        ofDigits base digits = number := by
  rw [readDigits?_eq_some_iff]
  constructor
  · rintro ⟨digits, hlength, hdigits, hrest, hpos, rfl⟩
    have hne : digits ≠ [] := List.ne_nil_of_length_eq_add_one hlength
    exact ⟨digits, ⟨hne, hdigits⟩, hlength, hrest, by rw [hpos, hlength], rfl⟩
  · rintro ⟨digits, hdigits, hlength, hrest, hpos, rfl⟩
    exact ⟨digits, hlength, hdigits.2, hrest, by rw [hpos, hlength], rfl⟩

/-- Whether these are digits that may be read behind those of `value`. -/
structure IsRun (base limit value count : Nat) (run : List Char) : Prop where
  length_le : run.length ≤ count
  isDigit : ∀ c ∈ run, isDigit base c = true
  le_limit : ofDigitsAfter base value run ≤ limit

theorem isRun_cons (h : digit? base c = some digit) :
    IsRun base limit value (count + 1) (c :: run) ↔
      IsRun base limit (base * value + digit) count run := by
  constructor
  · rintro ⟨hlength, hdigits, hlimit⟩
    rw [ofDigitsAfter_cons h] at hlimit
    exact ⟨Nat.le_of_succ_le_succ hlength, (List.forall_mem_cons.mp hdigits).2, hlimit⟩
  · rintro ⟨hlength, hdigits, hlimit⟩
    rw [← ofDigitsAfter_cons h] at hlimit
    exact ⟨Nat.succ_le_succ hlength,
      List.forall_mem_cons.mpr ⟨isDigit_of_digit? h, hdigits⟩, hlimit⟩

theorem readDigitsUpTo_longest (hbase : 0 < base) (hvalue : value ≤ limit) (count : Nat)
    (source : Source) : ∃ run later, source.rest = run ++ later ∧
      readDigitsUpTo base limit value count source =
        (ofDigitsAfter base value run, ⟨source.pos + run.length, later⟩) ∧
      IsRun base limit value count run ∧
      ∀ longer, IsRun base limit value count longer → longer <+: source.rest →
        longer.length ≤ run.length := by
  have hnone : ∀ count, IsRun base limit value count [] := fun _ => ⟨Nat.zero_le _, nofun, hvalue⟩
  fun_induction readDigitsUpTo base limit value count source with
  | case1 value source =>
    exact ⟨[], source.rest, rfl, rfl, hnone 0, fun longer hrun _ => hrun.length_le⟩
  | case2 value count source hnext =>
    refine ⟨[], source.rest, rfl, rfl, hnone _, fun longer hrun hprefix => ?_⟩
    cases longer with
    | nil => exact Nat.le_refl _
    | cons c longer =>
      obtain ⟨rest, hrest⟩ := hprefix
      have hout := not_isDigit_of_nextDigit? hnext c (by rw [← hrest]; rfl)
      rw [hrun.isDigit c List.mem_cons_self] at hout
      cases hout
  | case3 value count source digit after hnext hle ih =>
    obtain ⟨c, hrest, hpos, hdigit⟩ := nextDigit?_eq_some_iff.mp hnext
    obtain ⟨run, later, hafter, hread, hrun, hlongest⟩ :=
      ih hle fun _ => ⟨Nat.zero_le _, nofun, hle⟩
    refine ⟨c :: run, later, by rw [hrest, hafter, List.cons_append], ?_,
      (isRun_cons hdigit).mpr hrun, fun longer hlonger hprefix => ?_⟩
    · rw [hread, ofDigitsAfter_cons hdigit, hpos, List.length_cons, Nat.add_assoc, Nat.add_comm 1]
    · cases longer with
      | nil => exact Nat.zero_le _
      | cons d longer =>
        rw [hrest] at hprefix
        obtain ⟨rfl, hmore⟩ := List.cons_prefix_cons.mp hprefix
        exact Nat.succ_le_succ (hlongest longer ((isRun_cons hdigit).mp hlonger) hmore)
  | case4 value count source digit after hnext hgt =>
    obtain ⟨c, hrest, -, hdigit⟩ := nextDigit?_eq_some_iff.mp hnext
    refine ⟨[], source.rest, rfl, rfl, hnone _, fun longer hrun hprefix => ?_⟩
    cases longer with
    | nil => exact Nat.le_refl _
    | cons d longer =>
      rw [hrest] at hprefix
      obtain ⟨rfl, -⟩ := List.cons_prefix_cons.mp hprefix
      have hlimit := ((isRun_cons hdigit).mp hrun).le_limit
      exact absurd (Nat.le_trans (le_foldl_digits base _ longer hbase) hlimit) hgt

/-- Digits that are read are all that are next. -/
theorem readNumber?_eq_some {pos : Nat} (h : readNumber? base ⟨pos, text⟩ = some (number, later)) :
    ∃ digits, text = digits ++ later.rest ∧ AreDigits base digits ∧
      (∀ c ∈ later.rest.head?, isDigit base c = false) ∧ ofDigits base digits = number ∧
      later.pos = pos + digits.length := by
  unfold readNumber? at h
  split at h
  · cases h
  · next digits after hne hspan =>
    simp only [Option.some.injEq, Prod.mk.injEq] at h
    obtain ⟨rfl, rfl⟩ := h
    simp only [Source.span, Prod.mk.injEq] at hspan
    obtain ⟨rfl, rfl⟩ := hspan
    have hall : (text.takeWhile (isDigit base)).all (isDigit base) = true := List.all_takeWhile
    refine ⟨text.takeWhile (isDigit base), List.takeWhile_append_dropWhile.symm, ⟨?_, ?_⟩, ?_, rfl,
      rfl⟩
    · exact fun hnil => hne hnil
    · exact List.all_eq_true.mp hall
    · intro c hc
      have hnot := List.head?_dropWhile_not (isDigit base) text
      rwa [hc] at hnot

end Runs

section Capped

variable {base limit : Nat}

/-- Below the cap it makes no difference. -/
theorem cappedOfDigits_eq_iff {number : Nat} (h : 0 < base) (hlt : number < limit)
    (digits : List Char) : cappedOfDigits base limit digits = number ↔
      ofDigits base digits = number := by
  rw [cappedOfDigits_eq_min h]
  omega

theorem readCapped?_append (h : 0 < base) {digits rest : List Char} (hdigits : AreDigits base digits)
    (hrest : ∀ c ∈ rest.head?, isDigit base c = false) (limit pos : Nat) :
    readCapped? base limit ⟨pos, digits ++ rest⟩ =
      some (min (ofDigits base digits) limit, ⟨pos + digits.length, rest⟩) := by
  rw [readCapped?_eq h, readNumber?_append hdigits hrest, Option.map_some]

theorem readCapped?_eq_some (h : 0 < base) {number pos : Nat} {text : List Char} {later : Source}
    (hread : readCapped? base limit ⟨pos, text⟩ = some (number, later)) :
    ∃ digits, text = digits ++ later.rest ∧ AreDigits base digits ∧
      min (ofDigits base digits) limit = number ∧ later.pos = pos + digits.length := by
  rw [readCapped?_eq h] at hread
  obtain ⟨⟨value, rest⟩, hnumber, hpair⟩ := Option.map_eq_some_iff.mp hread
  obtain ⟨rfl, rfl⟩ := Prod.mk.inj hpair
  obtain ⟨digits, htext, hdigits, -, rfl, hpos⟩ := readNumber?_eq_some hnumber
  exact ⟨digits, htext, hdigits, rfl, hpos⟩

end Capped

section Braces

/-- The bounds of a quantifier are the numbers that are written, capped at the largest count. -/
theorem readBraces?_append {least most rest : List Char} (hleast : AreDigits 10 least)
    (hmost : AreDigits 10 most) (pos : Nat) :
    readBraces? ⟨pos, least ++ ',' :: (most ++ '\x7d' :: rest)⟩ =
      some ((min (ofDigits 10 least) maxCount, some (min (ofDigits 10 most) maxCount)),
        ⟨pos + least.length + 1 + most.length + 1, rest⟩) := by
  have hcomma : isDigit 10 ',' = false := by decide
  have hclose : isDigit 10 '\x7d' = false := by decide
  have hten : 0 < 10 := by decide
  have hmin := readCapped?_append hten hleast (not_isDigit_head? hcomma (most ++ '\x7d' :: rest))
    maxCount pos
  have hmax := readCapped?_append hten hmost (not_isDigit_head? hclose rest) maxCount
    (pos + least.length + 1)
  simp [readBraces?, hmin, hmax, Source.skip?]

end Braces

end Regex
end TokenPatterns
