import TokenPatterns.CharClass.Order
import TokenPatterns.Proofs.LexerCalls
import TokenPatterns.Regex.GroupCount
import TokenPatterns.Regex.Words

/-!
# Escapes with numbers

What a backslash means in front of `u`, `x` or a digit, told from the text behind it: a character by
its code, a reference to a group, an octal escape, or the letter or digit itself. The lexer reads
just the escape, whatever its digits and whatever follows them, and goes on behind it.
-/
namespace TokenPatterns
namespace Regex

/-- Whether the word spells out a code behind the letter of its escape. -/
inductive SpellsCode : Char → List Char → Nat → Prop
  | braced {digits} : AreDigits 16 digits →
      SpellsCode 'u' ('\x7b' :: (digits ++ ['\x7d'])) (ofDigits 16 digits)
  | four {digits} : AreDigits 16 digits → digits.length = 4 →
      SpellsCode 'u' digits (ofDigits 16 digits)
  | two {digits} : AreDigits 16 digits → digits.length = 2 →
      SpellsCode 'x' digits (ofDigits 16 digits)

/-- Whether the digits can be those of an octal escape. -/
structure IsOctalRun (run : List Char) : Prop where
  areDigits : AreDigits 8 run
  length_le : run.length ≤ 3
  le_limit : ofDigits 8 run ≤ 0o377

/-- Whether an octal escape cannot go on any longer. -/
def IsLongestOctalRun (run rest : List Char) : Prop :=
  IsOctalRun run ∧ ∀ longer, IsOctalRun longer → longer <+: run ++ rest → longer.length ≤ run.length

/-- Whether all digits in front of the rest name one of so many groups. -/
structure NamesGroup (count : Nat) (digits rest : List Char) : Prop where
  areDigits : AreDigits 10 digits
  not_zero : digits.head? ≠ some '0'
  all_read : ∀ c ∈ rest.head?, isDigit 10 c = false
  le_count : ofDigits 10 digits ≤ count

/-- Whether the digits at the front of a text are no reference. -/
def RefersToNone (count : Nat) (inClass : Bool) (text : List Char) : Prop :=
  inClass = true ∨ ∀ digits rest, digits ++ rest = text → ¬ NamesGroup count digits rest

/-- What the word behind a backslash stands for in front of the rest, with so many groups in the
pattern. A mistake names the place of the backslash. -/
inductive IsNumericEscape (count : Nat) (inClass : Bool) (pos : Nat) :
    List Char → List Char → Except PatternError Token → Prop
  | character {letter word code c rest} : SpellsCode letter word code → c.toNat = code →
      IsNumericEscape count inClass pos (letter :: word) rest (.ok (.escaped c))
  | noCharacter {word code rest} : SpellsCode 'u' word code → (∀ c : Char, c.toNat ≠ code) →
      IsNumericEscape count inClass pos ('u' :: word) rest (.error (.invalidEscape pos))
  | letter {letter rest} : letter = 'u' ∨ letter = 'x' →
      (∀ word code, SpellsCode letter word code → ¬ word <+: rest) →
      IsNumericEscape count inClass pos [letter] rest (.ok (.escaped letter))
  | reference {digits rest} : inClass = false → NamesGroup count digits rest →
      IsNumericEscape count inClass pos digits rest (.ok (.backreference (ofDigits 10 digits)))
  | octal {run c rest} : RefersToNone count inClass (run ++ rest) → IsLongestOctalRun run rest →
      c.toNat = ofDigits 8 run → IsNumericEscape count inClass pos run rest (.ok (.escaped c))
  | digit {c rest} : c = '8' ∨ c = '9' → RefersToNone count inClass (c :: rest) →
      IsNumericEscape count inClass pos [c] rest (.ok (.escaped c))

section CodePoints

variable {letter : Char} {read? : Source → Option (Nat × Source)} {word : List Char} {code : Nat}

/-- Whether a code is read, capped, just where one is spelled out. -/
def ReadsCodes (letter : Char) (read? : Source → Option (Nat × Source)) : Prop :=
  ∀ start text number later, read? ⟨start, text⟩ = some (number, later) ↔
    ∃ word code, SpellsCode letter word code ∧ number = min code maxCount ∧
      text = word ++ later.rest ∧ later.pos = start + word.length

theorem ReadsCodes.eq_some (h : ReadsCodes letter read?) (hspells : SpellsCode letter word code)
    (start : Nat) (rest : List Char) :
    read? ⟨start, word ++ rest⟩ = some (min code maxCount, ⟨start + word.length, rest⟩) :=
  (h _ _ _ _).mpr ⟨word, code, hspells, rfl, rfl, rfl⟩

theorem ReadsCodes.eq_none_iff (h : ReadsCodes letter read?) {start : Nat} {text : List Char} :
    read? ⟨start, text⟩ = none ↔ ∀ word code, SpellsCode letter word code → ¬ word <+: text := by
  constructor
  · rintro hnone word code hspells ⟨rest, rfl⟩
    rw [h.eq_some hspells] at hnone
    cases hnone
  · intro hnone
    cases hread : read? ⟨start, text⟩ with
    | none => rfl
    | some read =>
      obtain ⟨word, code, hspells, -, htext, -⟩ := (h _ _ _ _).mp hread
      exact absurd ⟨_, htext.symm⟩ (hnone word code hspells)

theorem ofDigitsAfter_lt {base : Nat} {digits : List Char}
    (h : ∀ c ∈ digits, isDigit base c = true) (value : Nat) :
    ofDigitsAfter base value digits < (value + 1) * base ^ digits.length := by
  induction digits generalizing value with
  | nil => simp [ofDigitsAfter]
  | cons c digits ih =>
    obtain ⟨hc, hdigits⟩ := List.forall_mem_cons.mp h
    obtain ⟨digit, hdigit⟩ := exists_digit?_of_isDigit hc
    have hlt := digit?_lt hdigit
    have hstep : base * value + digit + 1 ≤ (value + 1) * base := by
      rw [Nat.add_mul, Nat.mul_comm value]
      omega
    calc ofDigitsAfter base value (c :: digits)
      _ = ofDigitsAfter base (base * value + digit) digits := ofDigitsAfter_cons hdigit digits
      _ < (base * value + digit + 1) * base ^ digits.length := ih hdigits _
      _ ≤ (value + 1) * base * base ^ digits.length := Nat.mul_le_mul_right _ hstep
      _ = (value + 1) * base ^ (digits.length + 1) := by
        rw [Nat.mul_assoc, Nat.pow_succ, Nat.mul_comm base]

theorem ofDigits_lt {count : Nat} {digits : List Char} (h : AreDigits 16 digits)
    (hlength : digits.length = count) : ofDigits 16 digits < 16 ^ count := by
  have hlt := ofDigitsAfter_lt h.2 0
  rw [hlength, Nat.zero_add, Nat.one_mul] at hlt
  exact hlt

theorem exists_spellsCode_of_readCodePoint? {start number : Nat} {text : List Char}
    {later : Source} (h : readCodePoint? ⟨start, text⟩ = some (number, later)) :
    ∃ word code, SpellsCode 'u' word code ∧ number = min code maxCount ∧
      text = word ++ later.rest ∧ later.pos = start + word.length := by
  unfold readCodePoint? at h
  split at h
  · obtain ⟨digits, hdigits, hlength, htext, hpos, rfl⟩ := readDigits?_succ_eq_some_iff.mp h
    have hle : ofDigits 16 digits ≤ maxCount :=
      Nat.le_trans (Nat.le_of_lt (ofDigits_lt hdigits hlength)) (by decide)
    exact ⟨digits, _, .four hdigits hlength, (Nat.min_eq_left hle).symm, htext, hpos⟩
  · next inner hopen =>
    obtain ⟨htext, hinner⟩ := Source.skip?_eq_some hopen
    dsimp only at htext hinner
    split at h
    · cases h
    · next capped afterDigits hcapped =>
      obtain ⟨digits, hrest, hdigits, rfl, hafter⟩ := readCapped?_eq_some (Nat.succ_pos 15) hcapped
      obtain ⟨_, hclose, hpair⟩ := Option.map_eq_some_iff.mp h
      cases hpair
      obtain ⟨hmore, hpos⟩ := Source.skip?_eq_some hclose
      refine ⟨_, _, .braced hdigits, rfl, ?_, ?_⟩
      · simp [htext, hrest, hmore]
      · simp only [List.length_cons, List.length_append, List.length_nil]
        omega

theorem readCodePoint?_of_spellsCode (h : SpellsCode 'u' word code) (start : Nat)
    (rest : List Char) : readCodePoint? ⟨start, word ++ rest⟩ =
      some (min code maxCount, ⟨start + word.length, rest⟩) := by
  cases h with
  | @braced digits hdigits =>
    have hclose : isDigit 16 '\x7d' = false := by decide
    have hnumber := readCapped?_append (Nat.succ_pos 15) hdigits (not_isDigit_head? hclose rest)
      maxCount (start + 1)
    simp [readCodePoint?, Source.skip?, hnumber]
    omega
  | four hdigits hlength =>
    have hopen : Source.skip? '\x7b' ⟨start, word ++ rest⟩ = none := by
      obtain ⟨c, digits, rfl⟩ := List.exists_cons_of_ne_nil hdigits.1
      have hc := hdigits.2 c List.mem_cons_self
      have hne : c ≠ '\x7b' := by
        rintro rfl
        cases hc
      exact if_neg hne
    have hle : ofDigits 16 word ≤ maxCount :=
      Nat.le_trans (Nat.le_of_lt (ofDigits_lt hdigits hlength)) (by decide)
    rw [readCodePoint?, hopen, Nat.min_eq_left hle]
    exact readDigits?_succ_eq_some_iff.mpr ⟨word, hdigits, hlength, rfl, rfl, rfl⟩

theorem readsCodes_readCodePoint? : ReadsCodes 'u' readCodePoint? := by
  intro start text number later
  constructor
  · exact exists_spellsCode_of_readCodePoint?
  · rintro ⟨word, code, hspells, rfl, rfl, hpos⟩
    rw [readCodePoint?_of_spellsCode hspells, ← hpos]

theorem code_lt_of_spellsCode (h : SpellsCode 'x' word code) : code < 256 := by
  cases h with
  | two hdigits hlength => exact ofDigits_lt hdigits hlength

theorem min_of_spellsCode (h : SpellsCode 'x' word code) : min code maxCount = code :=
  Nat.min_eq_left (Nat.le_trans (Nat.le_of_lt (code_lt_of_spellsCode h)) (by decide))

theorem readsCodes_readDigits? : ReadsCodes 'x' (readDigits? 16 0 2) := by
  intro start text number later
  rw [readDigits?_succ_eq_some_iff]
  constructor
  · rintro ⟨digits, hdigits, hlength, htext, hpos, rfl⟩
    have hspells : SpellsCode 'x' digits (ofDigits 16 digits) := .two hdigits hlength
    exact ⟨digits, _, hspells, (min_of_spellsCode hspells).symm, htext, hpos⟩
  · rintro ⟨word, code, hspells, rfl, htext, hpos⟩
    rw [min_of_spellsCode hspells]
    cases hspells with
    | two hdigits hlength => exact ⟨word, hdigits, hlength, htext, hpos, rfl⟩

theorem letter_of_spellsCode (h : SpellsCode letter word code) : letter = 'u' ∨ letter = 'x' := by
  cases h with
  | braced => exact .inl rfl
  | four => exact .inl rfl
  | two => exact .inr rfl

theorem scalar?_min_maxCount (code : Nat) :
    Unicode.scalar? (min code maxCount) = Unicode.scalar? code :=
  Unicode.scalar?_min (by decide) code

theorem toNat_ofNat_of_lt (h : code < 256) : (Char.ofNat code).toNat = code := by
  have hvalid : code.isValidChar := .inl (by omega)
  rw [Char.ofNat, dif_pos hvalid]
  rfl

end CodePoints

section Octal

variable {run rest : List Char} {c d : Char} {start : Nat}

theorem isOctalRun_cons {digit : Nat} (h : digit? 8 c = some digit) :
    IsOctalRun (c :: run) ↔ IsRun 8 0o377 digit 2 run := by
  have hcons : IsRun 8 0o377 0 3 (c :: run) ↔ IsRun 8 0o377 digit 2 run := by
    rw [isRun_cons h, Nat.mul_zero, Nat.zero_add]
  rw [← hcons]
  exact ⟨fun hrun => ⟨hrun.length_le, hrun.areDigits.2, hrun.le_limit⟩,
    fun hrun => ⟨⟨List.cons_ne_nil c run, hrun.isDigit⟩, hrun.length_le, hrun.le_limit⟩⟩

theorem IsLongestOctalRun.unique {other otherRest : List Char} (h : IsLongestOctalRun run rest)
    (hother : IsLongestOctalRun other otherRest) (htext : run ++ rest = other ++ otherRest) :
    run = other ∧ rest = otherRest := by
  have hle := hother.2 run h.1 ⟨rest, htext⟩
  have hge := h.2 other hother.1 ⟨otherRest, htext.symm⟩
  exact List.append_inj htext (Nat.le_antisymm hle hge)

/-- At a digit of an octal escape the longest one is read. -/
theorem exists_readOctal_longest (hc : isDigit 8 c = true) (start : Nat) (text : List Char) :
    ∃ run rest, text = run ++ rest ∧ IsLongestOctalRun (c :: run) rest ∧
      readOctal c ⟨start + 1, text⟩ =
        (.ok (.escaped (Char.ofNat (ofDigits 8 (c :: run)))),
          ⟨start + (c :: run).length, rest⟩) := by
  obtain ⟨digit, hdigit⟩ := exists_digit?_of_isDigit hc
  have hle : digit ≤ 0o377 := Nat.le_trans (Nat.le_of_lt (digit?_lt hdigit)) (by decide)
  obtain ⟨run, rest, htext, hread, hrun, hlongest⟩ :=
    readDigitsUpTo_longest (Nat.succ_pos 7) hle 2 ⟨start + 1, text⟩
  dsimp only at htext hread hlongest
  have hthis : IsOctalRun (c :: run) := (isOctalRun_cons hdigit).mpr hrun
  refine ⟨run, rest, htext, ⟨hthis, fun longer hlonger hprefix => ?_⟩, ?_⟩
  · -- Any other run has the same first digit, and behind that it is no longer than what is read.
    obtain ⟨first, longer, rfl⟩ := List.exists_cons_of_ne_nil hlonger.areDigits.1
    rw [List.cons_append] at hprefix
    obtain ⟨rfl, hmore⟩ := List.cons_prefix_cons.mp hprefix
    rw [← htext] at hmore
    exact Nat.succ_le_succ (hlongest longer ((isOctalRun_cons hdigit).mp hlonger) hmore)
  · have hvalue : ofDigits 8 (c :: run) = ofDigitsAfter 8 digit run := by
      rw [ofDigits_cons, hdigit, Option.getD_some]
    rw [hvalue, List.length_cons, Nat.add_comm run.length, ← Nat.add_assoc]
    simp only [readOctal, hdigit, hread]

theorem readOctal_of_isLongestOctalRun (h : IsLongestOctalRun (c :: run) rest)
    (hd : d.toNat = ofDigits 8 (c :: run)) :
    readOctal c ⟨start + 1, run ++ rest⟩ =
      (.ok (.escaped d), ⟨start + (c :: run).length, rest⟩) := by
  have hc := h.1.areDigits.2 c List.mem_cons_self
  obtain ⟨other, otherRest, htext, hother, hread⟩ := exists_readOctal_longest hc start (run ++ rest)
  obtain ⟨hrun, rfl⟩ := h.unique hother (congrArg (c :: ·) htext)
  obtain rfl := (List.cons.inj hrun).2
  rw [hread, ← hd, Char.ofNat_toNat]

theorem eq_eight_or_nine (hten : isDigit 10 c = true) (height : isDigit 8 c = false) :
    c = '8' ∨ c = '9' := by
  rw [isDigit_ten] at hten
  have hbounds := toNat_bounds_of_isDigit hten
  have hge : ¬ c.toNat - 48 < 8 := by
    intro hlt
    rw [isDigit, digit?_of_isDigit hten hlt] at height
    cases height
  have hcode : c.toNat = 56 ∨ c.toNat = 57 := by omega
  exact hcode.imp (fun h => Char.toNat_inj.mp h) (fun h => Char.toNat_inj.mp h)

end Octal

section Numeric

variable {survey : GroupSurvey} {inClass : Bool} {digits rest : List Char} {c : Char}

theorem readNumeric_of_namesGroup (h : NamesGroup survey.count (c :: digits) rest) (start : Nat) :
    readNumeric survey false c ⟨start, c :: (digits ++ rest)⟩ ⟨start + 1, digits ++ rest⟩ =
      (.ok (.backreference (ofDigits 10 (c :: digits))),
        ⟨start + (c :: digits).length, rest⟩) := by
  have hzero : (c == '0') = false := beq_eq_false_iff_ne.mpr fun h0 => h.not_zero (congrArg some h0)
  have hnumber := readNumber?_append h.areDigits h.all_read start
  rw [List.cons_append] at hnumber
  simp only [readNumeric, hzero, Bool.or_self, Bool.false_eq_true, if_false, hnumber]
  rw [if_pos h.le_count]

theorem readNumeric_of_refersToNone (h : RefersToNone survey.count inClass (c :: rest))
    (start : Nat) :
    readNumeric survey inClass c ⟨start, c :: rest⟩ ⟨start + 1, rest⟩ =
      readOctal c ⟨start + 1, rest⟩ := by
  unfold readNumeric
  split
  · rfl
  · next hfirst =>
    rw [Bool.or_eq_true, not_or, beq_iff_eq] at hfirst
    split
    · rfl
    · next index later hnumber =>
      -- The reader takes all digits, so that they would be a reference if they named a group.
      refine if_neg fun hle => ?_
      obtain ⟨digits, htext, hdigits, hrest, rfl, -⟩ := readNumber?_eq_some hnumber
      have hhead : digits.head? = some c := by
        obtain ⟨first, digits, rfl⟩ := List.exists_cons_of_ne_nil hdigits.1
        rw [List.cons_append] at htext
        exact congrArg some (List.cons.inj htext).1.symm
      have hnames : NamesGroup survey.count digits later.rest :=
        ⟨hdigits, by rw [hhead]; exact fun h0 => hfirst.2 (Option.some.inj h0), hrest, hle⟩
      rcases h with hin | hnone
      · exact hfirst.1 hin
      · exact hnone digits later.rest htext.symm hnames

/-- With fewer groups than the cap it makes no difference to cap the number of a reference. -/
theorem readNumeric_eq_capped (h : survey.count < maxCount) (inClass : Bool) (c : Char)
    (source after : Source) : readNumeric survey inClass c source after =
      if inClass || c == '0' then readOctal c after
      else
        match readCapped? 10 maxCount source with
        | none => readOctal c after
        | some (index, later) =>
          if index ≤ survey.count then (.ok (.backreference index), later)
          else readOctal c after := by
  rw [readNumeric, readCapped?_eq (Nat.succ_pos 9)]
  cases readNumber? 10 source with
  | none => rfl
  | some read =>
    have hle : min read.1 maxCount ≤ survey.count ↔ read.1 ≤ survey.count := by omega
    simp only [Option.map_some, hle]
    split
    · rfl
    · split
      · next hindex => rw [Nat.min_eq_left (Nat.le_trans hindex (Nat.le_of_lt h))]
      · rfl

end Numeric

section Dispatch

variable {survey : GroupSurvey} {inClass : Bool} {word rest : List Char} {c : Char} {pos : Nat}
  {outcome : Except PatternError Token}

theorem not_isLetter_of_isDigit (h : c.isDigit = true) : Shorthand.isLetter c = false := by
  cases hranges : Shorthand.ranges? c with
  | none => rw [Shorthand.isLetter, hranges, Option.isSome_none]
  | some ranges =>
    rcases Shorthand.letter_cases hranges with
      ⟨rfl | rfl, -⟩ | ⟨rfl | rfl, -⟩ | ⟨rfl | rfl, -⟩ <;> cases h

theorem readEscape_digit (h : isDigit 10 c = true) (survey : GroupSurvey) (inClass : Bool)
    (pos start : Nat) (text : List Char) :
    readEscape survey inClass pos ⟨start, c :: text⟩ =
      readNumeric survey inClass c ⟨start, c :: text⟩ ⟨start + 1, text⟩ := by
  rw [isDigit_ten] at h
  simp [readEscape, Source.next?, not_isLetter_of_isDigit h, h]

theorem readEscape_unicode (survey : GroupSurvey) (inClass : Bool) (pos start : Nat)
    (text : List Char) :
    readEscape survey inClass pos ⟨start, 'u' :: text⟩ = readUnicode pos ⟨start + 1, text⟩ := by
  have hletter : Shorthand.isLetter 'u' = false := by decide
  have hdigit : Char.isDigit 'u' = false := by decide
  simp [readEscape, Source.next?, hletter, hdigit]

theorem readEscape_hexadecimal (survey : GroupSurvey) (inClass : Bool) (pos start : Nat)
    (text : List Char) :
    readEscape survey inClass pos ⟨start, 'x' :: text⟩ = readHexadecimal ⟨start + 1, text⟩ := by
  have hletter : Shorthand.isLetter 'x' = false := by decide
  have hdigit : Char.isDigit 'x' = false := by decide
  simp [readEscape, Source.next?, hletter, hdigit]

/-- An escape with a number is read as what it stands for, and the rest is left. -/
theorem readEscape_of_isNumericEscape
    (h : IsNumericEscape survey.count inClass pos word rest outcome) (start : Nat) :
    readEscape survey inClass pos ⟨start, word ++ rest⟩ =
      (outcome, ⟨start + word.length, rest⟩) := by
  have hpos : ∀ length, start + 1 + length = start + (length + 1) := by omega
  cases h with
  | @character letter word code d _ hspells hcode =>
    rw [List.cons_append, List.length_cons, ← hpos]
    rcases letter_of_spellsCode hspells with rfl | rfl
    · have hscalar := Unicode.scalar?_eq_some_iff.mpr hcode
      rw [readEscape_unicode]
      simp only [readUnicode, readsCodes_readCodePoint?.eq_some hspells, scalar?_min_maxCount,
        hscalar]
    · rw [readEscape_hexadecimal]
      simp only [readHexadecimal, readsCodes_readDigits?.eq_some hspells]
      rw [min_of_spellsCode hspells, ← hcode, Char.ofNat_toNat]
  | @noCharacter word code _ hspells hnone =>
    have hscalar : Unicode.scalar? code = none :=
      Option.eq_none_iff_forall_ne_some.mpr fun d hd => hnone d (Unicode.scalar?_eq_some_iff.mp hd)
    rw [List.cons_append, List.length_cons, ← hpos, readEscape_unicode]
    simp only [readUnicode, readsCodes_readCodePoint?.eq_some hspells, scalar?_min_maxCount,
      hscalar]
  | @letter letter _ hletter hnone =>
    rw [List.singleton_append, List.length_singleton]
    rcases hletter with rfl | rfl
    · rw [readEscape_unicode]
      simp only [readUnicode, readsCodes_readCodePoint?.eq_none_iff.mpr hnone]
    · rw [readEscape_hexadecimal]
      simp only [readHexadecimal, readsCodes_readDigits?.eq_none_iff.mpr hnone]
  | reference hin hnames =>
    obtain ⟨first, digits, rfl⟩ := List.exists_cons_of_ne_nil hnames.areDigits.1
    have hfirst := hnames.areDigits.2 first List.mem_cons_self
    rw [List.cons_append, readEscape_digit hfirst, hin, readNumeric_of_namesGroup hnames]
  | @octal run d _ hnone hlongest hcode =>
    obtain ⟨first, run, rfl⟩ := List.exists_cons_of_ne_nil hlongest.1.areDigits.1
    have hfirst := hlongest.1.areDigits.2 first List.mem_cons_self
    rw [List.cons_append] at hnone ⊢
    rw [readEscape_digit (isDigit_of_le (by decide) hfirst), readNumeric_of_refersToNone hnone,
      readOctal_of_isLongestOctalRun hlongest hcode]
  | @digit d _ hd hnone =>
    have hdigit : isDigit 10 d = true ∧ digit? 8 d = none := by
      rcases hd with rfl | rfl <;> decide
    rw [List.singleton_append, readEscape_digit hdigit.1, readNumeric_of_refersToNone hnone]
    simp only [readOctal, hdigit.2, List.length_singleton]

theorem exists_isNumericEscape_unicode (count : Nat) (inClass : Bool) (pos : Nat)
    (text : List Char) : ∃ word rest outcome,
      word ++ rest = 'u' :: text ∧ IsNumericEscape count inClass pos word rest outcome := by
  cases hread : readCodePoint? ⟨0, text⟩ with
  | none =>
    have hnone := readsCodes_readCodePoint?.eq_none_iff.mp hread
    exact ⟨['u'], text, _, rfl, .letter (.inl rfl) hnone⟩
  | some read =>
    obtain ⟨word, code, hspells, -, htext, -⟩ := (readsCodes_readCodePoint? _ _ _ _).mp hread
    refine ⟨'u' :: word, read.2.rest, ?_⟩
    rw [htext]
    cases hscalar : Unicode.scalar? code with
    | none =>
      refine ⟨_, rfl, .noCharacter hspells fun c hc => ?_⟩
      rw [Unicode.scalar?_eq_some_iff.mpr hc] at hscalar
      cases hscalar
    | some c => exact ⟨_, rfl, .character hspells (Unicode.scalar?_eq_some_iff.mp hscalar)⟩

theorem exists_isNumericEscape_hexadecimal (count : Nat) (inClass : Bool) (pos : Nat)
    (text : List Char) : ∃ word rest outcome,
      word ++ rest = 'x' :: text ∧ IsNumericEscape count inClass pos word rest outcome := by
  cases hread : readDigits? 16 0 2 ⟨0, text⟩ with
  | none =>
    have hnone := readsCodes_readDigits?.eq_none_iff.mp hread
    exact ⟨['x'], text, _, rfl, .letter (.inr rfl) hnone⟩
  | some read =>
    obtain ⟨word, code, hspells, -, htext, -⟩ := (readsCodes_readDigits? _ _ _ _).mp hread
    have hcode := toNat_ofNat_of_lt (code_lt_of_spellsCode hspells)
    exact ⟨'x' :: word, read.2.rest, _, by rw [htext, List.cons_append], .character hspells hcode⟩

theorem exists_isNumericEscape_digit (hdigit : isDigit 10 c = true) (count : Nat) (inClass : Bool)
    (pos : Nat) (text : List Char) : ∃ word rest outcome,
      word ++ rest = c :: text ∧ IsNumericEscape count inClass pos word rest outcome := by
  -- All digits count for a reference, but no more than three of them for an octal escape.
  by_cases hnames : inClass = false ∧
    ∃ digits rest, digits ++ rest = c :: text ∧ NamesGroup count digits rest
  · obtain ⟨hin, digits, rest, htext, hnames⟩ := hnames
    exact ⟨digits, rest, _, htext, .reference hin hnames⟩
  · have hnone : RefersToNone count inClass (c :: text) := by
      cases inClass with
      | true => exact .inl rfl
      | false => exact .inr fun digits rest htext h => hnames ⟨rfl, digits, rest, htext, h⟩
    cases height : isDigit 8 c with
    | false => exact ⟨[c], text, _, rfl, .digit (eq_eight_or_nine hdigit height) hnone⟩
    | true =>
      obtain ⟨run, rest, rfl, hlongest, -⟩ := exists_readOctal_longest height 0 text
      have hlt : ofDigits 8 (c :: run) < 256 := Nat.lt_succ_of_le hlongest.1.le_limit
      exact ⟨c :: run, rest, _, rfl, .octal hnone hlongest (toNat_ofNat_of_lt hlt)⟩

/-- Behind a backslash `u`, `x` and every digit begin an escape with a number. -/
theorem exists_isNumericEscape (count : Nat) (inClass : Bool) (pos : Nat) (text : List Char)
    (h : c = 'u' ∨ c = 'x' ∨ isDigit 10 c = true) : ∃ word rest outcome,
      word ++ rest = c :: text ∧ IsNumericEscape count inClass pos word rest outcome := by
  rcases h with rfl | rfl | hdigit
  · exact exists_isNumericEscape_unicode count inClass pos text
  · exact exists_isNumericEscape_hexadecimal count inClass pos text
  · exact exists_isNumericEscape_digit hdigit count inClass pos text

end Dispatch

namespace GroupSurvey

theorem count_addOpening_le (survey : GroupSurvey) (text : List Char) :
    (survey.addOpening text).count ≤ survey.count + 1 := by
  unfold addOpening
  split
  · exact Nat.le_succ _
  · exact Nat.le_succ _
  · exact Nat.le_refl _
  · exact Nat.le_succ _
  · exact Nat.le_refl _

theorem count_ofText_le_length (text : List Char) : (ofText text).count ≤ text.length := by
  have hadd : ∀ (survey : GroupSurvey) (inClass : Bool),
      (survey.addText inClass text).count ≤ survey.count + text.length := by
    intro survey inClass
    fun_induction addText survey inClass text <;> simp only [List.length_cons, List.length_nil]
    case case7 survey inClass text hout ih =>
      have hopening := count_addOpening_le survey text
      omega
    all_goals omega
  have hall := hadd {} false
  rwa [Nat.zero_add] at hall

end GroupSurvey

namespace Lexer

variable {text : String} {lexer : Lexer}

/-- Wherever a lexer has come to, it reads an escape with a number as what it stands for and goes on
right behind it, and in front of `u`, `x` and every digit a backslash begins such an escape. The
numbers may be capped after each digit: those of groups and of characters lie below the cap. -/
theorem next_numericEscape (hlength : text.length < maxCount) (hin : lexer.IsIn text.toList)
    (hsurvey : lexer.survey = .ofText text.toList) :
    (∀ word rest outcome, lexer.source.rest = '\\' :: (word ++ rest) →
      IsNumericEscape (GroupSurvey.ofText text.toList).count lexer.context.isClass lexer.tell word
        rest outcome →
      lexer.next = (outcome.map fun token => some ⟨lexer.tell, token⟩,
        { lexer with
          source := ⟨lexer.tell + 1 + word.length, rest⟩
          context := lexer.context.after '\\' })) ∧
    (∀ c after, lexer.source.rest = '\\' :: c :: after → c = 'u' ∨ c = 'x' ∨ c.isDigit = true →
      ∃ word rest outcome, word ++ rest = c :: after ∧
        IsNumericEscape (GroupSurvey.ofText text.toList).count lexer.context.isClass lexer.tell word
          rest outcome) ∧
    ∀ digits, (∀ index ≤ (GroupSurvey.ofText text.toList).count,
        cappedOfDigits 10 maxCount digits = index ↔ ofDigits 10 digits = index) ∧
      ∀ c : Char, cappedOfDigits 16 maxCount digits = c.toNat ↔ ofDigits 16 digits = c.toNat := by
  refine ⟨fun word rest outcome hrest hescape => ?_, fun c after _ hc => ?_, fun digits => ⟨?_, ?_⟩⟩
  · rw [← hsurvey] at hescape
    rw [next_of_ahead_eq_none hin.ahead_eq, read_of_next? (Source.next?_of_rest_eq hrest),
      readToken_backslash, ← hin.tell_eq, readEscape_of_isNumericEscape hescape]
  · rw [← isDigit_ten] at hc
    exact exists_isNumericEscape _ _ _ after hc
  · intro index hindex
    have hcount := GroupSurvey.count_ofText_le_length text.toList
    rw [String.length_toList] at hcount
    exact cappedOfDigits_eq_iff (Nat.succ_pos 9) (by omega) digits
  · intro c
    have hle : c.toNat ≤ Unicode.maxCode := Unicode.toNat_le_maxCode c
    exact cappedOfDigits_eq_iff (Nat.succ_pos 15) (Nat.lt_of_le_of_lt hle (by decide)) digits

/-- Two digits are a reference where the last of twelve groups is still to open. -/
theorem next_numericEscape_of_later_group :
    let text := "()()()()()()()()()()(\\12)()"
    let lexer : Lexer :=
      { survey := .ofText text.toList, source := ⟨21, "\\12)()".toList⟩ }
    text.length < maxCount ∧ lexer.IsIn text.toList ∧ lexer.survey = .ofText text.toList ∧
      lexer.next = (.ok (some ⟨21, .backreference 12⟩),
        { lexer with source := ⟨24, [')', '(', ')']⟩ }) := by
  intro text lexer
  have hlength : text.length < maxCount := by decide +kernel
  have hin : lexer.IsIn text.toList := ⟨rfl, "()()()()()()()()()()(".toList, by decide +kernel, rfl⟩
  have hclose : isDigit 10 ')' = false := by decide
  have hnames : NamesGroup (GroupSurvey.ofText text.toList).count ['1', '2'] [')', '(', ')'] :=
    ⟨by decide +kernel, by decide, not_isDigit_head? hclose _, by decide +kernel⟩
  have hrest : lexer.source.rest = '\\' :: (['1', '2'] ++ [')', '(', ')']) := by decide +kernel
  have hnext := (next_numericEscape hlength hin rfl).1 _ _ _ hrest (.reference rfl hnames)
  exact ⟨hlength, hin, rfl, hnext⟩

end Lexer

end Regex
end TokenPatterns
