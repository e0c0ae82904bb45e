import DataTier.Time.Duration
import Mathlib.Data.List.Basic
import Mathlib.Data.List.TakeWhile

/-! Which texts are durations, and of what length. The form of a duration is said as a whole
(`Written`); a text is read from its end, and a duration is found just where the text has that
form (`parse?_eq_some_iff_written`). -/

namespace DataTier

/-! ## Trimming -/

namespace Text

variable {s before after : List Char}

/-- A text that neither starts nor ends with a blank is found among blanks. -/
theorem trim_among (hb : ∀ c ∈ before, isBlank c = true) (ha : ∀ c ∈ after, isBlank c = true)
    (nonempty : s ≠ []) (starts : ∀ c ∈ s.head?, isBlank c = false)
    (ends : ∀ c ∈ s.getLast?, isBlank c = false) : trim (before ++ s ++ after) = s := by
  have start : trimStart (before ++ s ++ after) = s ++ after := by
    rw [trimStart, List.append_assoc, List.dropWhile_append_of_pos hb]
    refine dropWhile_eq_self fun c hc => starts c ?_
    rwa [List.head?_append_of_ne_nil s nonempty] at hc
  have trailing : ∀ c ∈ after.reverse, isBlank c = true := fun c hc =>
    ha c (List.mem_reverse.mp hc)
  rw [trim, start, trimEnd, trimStart, List.reverse_append, List.dropWhile_append_of_pos trailing,
    dropWhile_eq_self (by simpa using ends), List.reverse_reverse]

theorem exists_trimEnd (s : List Char) :
    ∃ after, (∀ c ∈ after, isBlank c = true) ∧ s = trimEnd s ++ after := by
  refine ⟨(s.reverse.takeWhile isBlank).reverse,
    fun c hc => List.mem_takeWhile_imp (List.mem_reverse.mp hc), ?_⟩
  rw [trimEnd, ← List.reverse_append, trimStart, List.takeWhile_append_dropWhile,
    List.reverse_reverse]

/-- What trimming takes off is blank. -/
theorem exists_trim (s : List Char) : ∃ before after, (∀ c ∈ before, isBlank c = true) ∧
    (∀ c ∈ after, isBlank c = true) ∧ s = before ++ trim s ++ after := by
  obtain ⟨after, blank, whole⟩ := exists_trimEnd (trimStart s)
  refine ⟨s.takeWhile isBlank, after, fun c hc => List.mem_takeWhile_imp hc, blank, ?_⟩
  rw [List.append_assoc, trim, ← whole, trimStart, List.takeWhile_append_dropWhile]

theorem head_trim (s : List Char) : ∀ c ∈ (trim s).head?, isBlank c = false := by
  intro c hc
  obtain ⟨after, -, whole⟩ := exists_trimEnd (trimStart s)
  have head : (trimStart s).head? = some c := by
    rw [whole, List.head?_append]
    exact congrArg (Option.or · after.head?) hc
  have kept := List.head?_dropWhile_not isBlank s
  rw [← trimStart, head] at kept
  exact kept

end Text

namespace Time.Duration

open Text (isBlank trim trim_among)

variable {s count unit : List Char} {n : Nat} {scale : Scale} {d : Duration}

/-! ## Forms -/

/-- How a unit is written, and how long so many of it are. -/
inductive Counts (n : Nat) : List Char → Duration → Prop
  | milliseconds : Counts n ['m', 's'] (ofMilliseconds n)
  | seconds : Counts n ['s'] (ofSeconds n)
  | minutes (small : 60 * n < Nat.pow 2 64) : Counts n ['m'] (ofSeconds (60 * n))
  | bare : Counts n [] (ofSeconds n)

/-- Decimal digits after an optional plus sign, and the number they stand for. -/
inductive Numeral : Nat → List Char → Prop
  | intro {sign digits : List Char} (plus : sign = [] ∨ sign = ['+']) (nonempty : digits ≠ [])
    (decimal : ∀ c ∈ digits, c.isDigit = true)
    (small : Nat.ofDigitChars 10 digits 0 < Nat.pow 2 64) :
    Numeral (Nat.ofDigitChars 10 digits 0) (sign ++ digits)

/-- A number and a unit, with blanks around the two and between them. -/
inductive Written (d : Duration) : List Char → Prop
  | intro {before numeral gap unit after : List Char} {n : Nat}
    (leading : ∀ c ∈ before, isBlank c = true) (number : Numeral n numeral)
    (between : ∀ c ∈ gap, isBlank c = true) (counts : Counts n unit d)
    (trailing : ∀ c ∈ after, isBlank c = true) :
    Written d (before ++ (numeral ++ gap ++ unit) ++ after)

/-! ## Numbers -/

theorem isBlank_of_isDigit {c : Char} (h : c.isDigit = true) : isBlank c = false := by
  have range : 48 ≤ c.toNat ∧ c.toNat ≤ 57 := by
    simpa [Char.isDigit, UInt32.le_iff_toNat_le] using h
  refine Bool.eq_false_iff.mpr fun blank => ?_
  simp only [isBlank, Bool.or_eq_true, Bool.and_eq_true, decide_eq_true_eq, beq_iff_eq] at blank
  omega

theorem Numeral.ne_nil (h : Numeral n s) : s ≠ [] := by
  cases h with
  | intro plus nonempty decimal small => exact List.append_ne_nil_of_right_ne_nil _ nonempty

theorem Numeral.head (h : Numeral n s) : ∀ c ∈ s.head?, isBlank c = false := by
  cases h with
  | intro plus nonempty decimal small =>
    intro c hc
    rcases plus with rfl | rfl
    · exact isBlank_of_isDigit (decimal c (List.mem_of_mem_head? hc))
    · cases hc
      decide

theorem Numeral.last (h : Numeral n s) : ∀ c ∈ s.getLast?, c.isDigit = true := by
  cases h with
  | intro plus nonempty decimal small =>
    intro c hc
    rw [List.getLast?_append_of_ne_nil _ nonempty] at hc
    exact decimal c (List.mem_of_mem_getLast? hc)

theorem digits?_eq_some_iff : digits? s = some n ↔
    s ≠ [] ∧ (∀ c ∈ s, c.isDigit = true) ∧ Nat.ofDigitChars 10 s 0 = n := by
  unfold digits?
  split
  · rename_i bad
    refine ⟨fun refused => (by cases refused), fun ⟨nonempty, decimal, _⟩ => ?_⟩
    simp [nonempty, List.all_eq_true.mpr decimal] at bad
  · rename_i good
    rw [Bool.not_eq_true, Bool.or_eq_false_iff, Bool.not_eq_false', List.all_eq_true,
      List.isEmpty_eq_false_iff] at good
    rw [Option.some.injEq]
    exact ⟨fun value => ⟨good.1, good.2, value⟩, fun h => h.2.2⟩

theorem digits?_small_iff : ((digits? s).bind fun m => if m < countBound then some m else none) =
    some n ↔ (s ≠ [] ∧ (∀ c ∈ s, c.isDigit = true) ∧ Nat.ofDigitChars 10 s 0 = n) ∧
      n < Nat.pow 2 64 := by
  rw [Option.bind_eq_some_iff, ← digits?_eq_some_iff]
  constructor
  · rintro ⟨m, read, bound⟩
    split at bound
    · rename_i small
      cases bound
      exact ⟨read, small⟩
    · cases bound
  · rintro ⟨read, small⟩
    exact ⟨n, read, if_pos small⟩

theorem numeral_signed : Numeral n ('+' :: s) ↔
    (s ≠ [] ∧ (∀ c ∈ s, c.isDigit = true) ∧ Nat.ofDigitChars 10 s 0 = n) ∧ n < Nat.pow 2 64 := by
  constructor
  · generalize whole : '+' :: s = t
    rintro (⟨rfl | rfl, nonempty, decimal, small⟩)
    · rw [List.nil_append] at whole
      have sign := decimal '+' (whole ▸ List.mem_cons_self)
      cases sign
    · cases whole
      exact ⟨⟨nonempty, decimal, rfl⟩, small⟩
  · rintro ⟨⟨nonempty, decimal, rfl⟩, small⟩
    exact .intro (.inr rfl) nonempty decimal small

theorem numeral_unsigned (unsigned : ∀ r, s ≠ '+' :: r) : Numeral n s ↔
    (s ≠ [] ∧ (∀ c ∈ s, c.isDigit = true) ∧ Nat.ofDigitChars 10 s 0 = n) ∧ n < Nat.pow 2 64 := by
  constructor
  · rintro (⟨rfl | rfl, nonempty, decimal, small⟩)
    · exact ⟨⟨nonempty, decimal, rfl⟩, small⟩
    · exact absurd rfl (unsigned _)
  · rintro ⟨⟨nonempty, decimal, rfl⟩, small⟩
    exact .intro (.inl rfl) nonempty decimal small

theorem count?_eq_some_iff : count? s = some n ↔ Numeral n s := by
  unfold count?
  rw [Option.bind_eq_bind, digits?_small_iff]
  split
  · exact numeral_signed.symm
  · rename_i unsigned
    exact (numeral_unsigned unsigned).symm

/-! ## Units -/

/-- How each unit is written. -/
inductive Spelled : List Char → Scale → Prop
  | milliseconds : Spelled ['m', 's'] .millisecond
  | seconds : Spelled ['s'] .second
  | minutes : Spelled ['m'] .minute
  | bare : Spelled [] .second

theorem Spelled.duration?_eq_some_iff (h : Spelled unit scale) :
    scale.duration? n = some d ↔ Counts n unit d := by
  cases h with
  | milliseconds | seconds | bare =>
    refine ⟨fun found => ?_, fun counts => ?_⟩
    · cases found
      constructor
    · cases counts
      rfl
  | minutes =>
    rw [Scale.duration?, Nat.mul_comm]
    constructor
    · intro found
      split at found
      · rename_i small
        cases found
        exact .minutes small
      · cases found
    · rintro ⟨⟩
      rename_i small
      exact if_pos small

theorem Counts.spelled (h : Counts n unit d) : ∃ scale, Spelled unit scale := by
  cases h with
  | milliseconds => exact ⟨_, .milliseconds⟩
  | seconds => exact ⟨_, .seconds⟩
  | minutes => exact ⟨_, .minutes⟩
  | bare => exact ⟨_, .bare⟩

theorem Counts.last (h : Counts n unit d) : ∀ c ∈ unit.getLast?, isBlank c = false := by
  cases h with
  | milliseconds | seconds | minutes =>
    intro c hc
    cases hc
    decide
  | bare =>
    intro c hc
    cases hc

theorem exists_unit (s : List Char) :
    ∃ unit, s = (splitScale s).1 ++ unit ∧ Spelled unit (splitScale s).2 := by
  unfold splitScale
  split
  · rename_i r reversed
    exact ⟨_, by simpa using congrArg List.reverse reversed, .milliseconds⟩
  · rename_i r _ reversed
    exact ⟨_, by simpa using congrArg List.reverse reversed, .seconds⟩
  · rename_i r reversed
    exact ⟨_, by simpa using congrArg List.reverse reversed, .minutes⟩
  · exact ⟨[], (List.append_nil s).symm, .bare⟩

/-- A unit is taken off a text that does not end with one itself. -/
theorem splitScale_append (h : Spelled unit scale)
    (last : ∀ c ∈ count.getLast?, c ≠ 'm' ∧ c ≠ 's') :
    splitScale (count ++ unit) = (count, scale) := by
  rw [← List.head?_reverse] at last
  have back := List.reverse_reverse count
  unfold splitScale
  rw [List.reverse_append]
  generalize count.reverse = r at last back
  subst back
  cases h with
  | milliseconds => rfl
  | minutes => rfl
  | seconds =>
    cases r with
    | nil => rfl
    | cons c r =>
      have other := (last c rfl).1
      simp [other]
  | bare =>
    cases r with
    | nil => rfl
    | cons c r =>
      obtain ⟨other, another⟩ := last c rfl
      simp [other, another]

/-! ## Durations -/

theorem parseChars?_eq_some_iff : parseChars? s = some d ↔
    ∃ n, count? (trim (splitScale (trim s)).1) = some n ∧
      (splitScale (trim s)).2.duration? n = some d := by
  rw [parseChars?]
  exact Option.bind_eq_some_iff

theorem written_of_parseChars? (found : parseChars? s = some d) : Written d s := by
  obtain ⟨n, counted, lasts⟩ := parseChars?_eq_some_iff.mp found
  obtain ⟨before, after, leading, trailing, whole⟩ := Text.exists_trim s
  obtain ⟨unit, parted, spelled⟩ := exists_unit (trim s)
  have number := count?_eq_some_iff.mp counted
  obtain ⟨front, gap, blank, between, count⟩ := Text.exists_trim (splitScale (trim s)).1
  -- the count starts where the trimmed text does
  have front_nil : front = [] := by
    cases front with
    | nil => rfl
    | cons c front =>
      have starts := Text.head_trim s c (by rw [parted, count]; rfl)
      rw [blank c List.mem_cons_self] at starts
      cases starts
  rw [whole, parted, count, front_nil, List.nil_append]
  exact .intro leading number between (spelled.duration?_eq_some_iff.mp lasts) trailing

/-- A numeral is found in front of blanks and a unit. -/
theorem splitScale_numeral {numeral gap : List Char} (number : Numeral n numeral)
    (between : ∀ c ∈ gap, isBlank c = true) (spelled : Spelled unit scale) :
    splitScale (numeral ++ gap ++ unit) = (numeral ++ gap, scale) := by
  refine splitScale_append spelled fun c hc => ?_
  have other {p : Char → Bool} (h : p c = true) (hm : p 'm' = false) (hs : p 's' = false) :
      c ≠ 'm' ∧ c ≠ 's' :=
    ⟨fun e => Bool.false_ne_true (hm.symm.trans (e ▸ h)),
      fun e => Bool.false_ne_true (hs.symm.trans (e ▸ h))⟩
  rw [List.getLast?_append] at hc
  rcases Option.or_eq_some_iff.mp hc with blank | ⟨-, last⟩
  · exact other (between c (List.mem_of_mem_getLast? blank)) rfl rfl
  · exact other (number.last c last) rfl rfl

theorem Numeral.trim_among {before numeral after : List Char} (number : Numeral n numeral)
    (leading : ∀ c ∈ before, isBlank c = true) (trailing : ∀ c ∈ after, isBlank c = true) :
    trim (before ++ numeral ++ after) = numeral :=
  Text.trim_among leading trailing number.ne_nil number.head fun c hc =>
    isBlank_of_isDigit (number.last c hc)

/-- Without a unit, what stands behind the numeral is trimmed off. -/
theorem Written.trimmed (h : Written d s) : ∃ n numeral gap unit, Numeral n numeral ∧
    (∀ c ∈ gap, isBlank c = true) ∧ Counts n unit d ∧ trim s = numeral ++ gap ++ unit := by
  cases h with
  | intro leading number between counts trailing =>
    rename_i before numeral gap unit after n
    by_cases bare : unit = []
    · refine ⟨n, numeral, [], unit, number, by simp, counts, ?_⟩
      have behind : ∀ c ∈ gap ++ after, isBlank c = true := fun c hc =>
        (List.mem_append.mp hc).elim (between c) (trailing c)
      simpa [bare] using number.trim_among leading behind
    · refine ⟨n, numeral, gap, unit, number, between, counts, ?_⟩
      refine trim_among leading trailing (List.append_ne_nil_of_right_ne_nil _ bare) ?_ ?_
      · rw [List.append_assoc, List.head?_append_of_ne_nil _ number.ne_nil]
        exact number.head
      · rw [List.getLast?_append_of_ne_nil _ bare]
        exact counts.last

theorem parseChars?_of_written (h : Written d s) : parseChars? s = some d := by
  obtain ⟨n, numeral, gap, unit, number, between, counts, trimmed⟩ := h.trimmed
  obtain ⟨scale, spelled⟩ := counts.spelled
  have counted : trim ([] ++ numeral ++ gap) = numeral :=
    number.trim_among (fun _ hc => by cases hc) between
  rw [List.nil_append] at counted
  rw [parseChars?_eq_some_iff, trimmed, splitScale_numeral number between spelled]
  refine ⟨n, ?_, spelled.duration?_eq_some_iff.mpr counts⟩
  rw [counted]
  exact count?_eq_some_iff.mpr number

/-- A text is read as a duration just where it has the form of that duration, and not at all where
it has the form of none. -/
theorem parse?_eq_some_iff_written (s : String) (d : Duration) :
    parse? s = some d ↔ Written d s.toList :=
  ⟨written_of_parseChars?, parseChars?_of_written⟩

/-- The letters of a unit stand together. -/
example : parse? " +007 ms " = some (ofMilliseconds 7) ∧ parse? "7 m s" = none := by decide

end Time.Duration
end DataTier
