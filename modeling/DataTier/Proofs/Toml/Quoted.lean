import DataTier.Text.Blank
import DataTier.Toml.Quoted

/-! What is written between quotes is read back, in each of the four forms. A reader takes a text
item by item (`Runs`); the writer escapes what an item cannot hold (`Escaped`), and of the quotes
at the end of a text of several lines those that are not its own close it (`Closes`). -/

namespace DataTier.Toml

/-! ## Items -/

/-- The reader takes these items one after another, and then no more. -/
inductive Runs {α : Type} (item : List Char → Option (α × List Char)) :
    List Char → List α → List Char → Prop
  | stop {s : List Char} (h : item s = none) : Runs item s [] s
  | more {s rest end' : List Char} {a : α} {as : List α} (h : item s = some (a, rest))
      (shorter : rest.length < s.length) (later : Runs item rest as end') :
      Runs item s (a :: as) end'

theorem Runs.many {α : Type} {item : List Char → Option (α × List Char)} {s rest : List Char}
    {as : List α} (h : Runs item s as rest) {n : Nat} (hn : s.length ≤ n) :
    many item n s = (as, rest) := by
  induction h generalizing n with
  | stop h =>
    cases n with
    | zero => rfl
    | succ n => simp only [Toml.many, h]
  | more h shorter later ih =>
    cases n with
    | zero => exact absurd (Nat.lt_of_lt_of_le shorter hn) (Nat.not_lt_zero _)
    | succ n => simp only [Toml.many, h, ih (Nat.le_of_lt_succ (Nat.lt_of_lt_of_le shorter hn))]

/-- Where a run of characters ends that something else follows. -/
theorem takeWhile_append {p : Char → Bool} {s r : List Char} (hs : ∀ c ∈ s, p c = true)
    (hr : ∀ c ∈ r.head?, p c = false) : (s ++ r).takeWhile p = s := by
  have none : r.takeWhile p = [] := by
    cases r with
    | nil => rfl
    | cons c r => simp [hr c rfl]
  rw [List.takeWhile_append_of_pos hs, none, List.append_nil]

theorem dropWhile_append {p : Char → Bool} {s r : List Char} (hs : ∀ c ∈ s, p c = true)
    (hr : ∀ c ∈ r.head?, p c = false) : (s ++ r).dropWhile p = r := by
  rw [List.dropWhile_append_of_pos hs, Text.dropWhile_eq_self hr]

namespace Quoted

/-! ## Codes -/

theorem hexValue?_hexDigit (n : Nat) : Text.hexValue? (hexDigit n) = some (n % 16) := by
  have all : ∀ k : Fin 16, Text.hexValue? (hexDigit k) = some k.val := by decide
  have same := all ⟨n % 16, Nat.mod_lt n (by decide)⟩
  rw [hexDigit, Nat.mod_mod] at same
  exact same

theorem code?_hexDigits {c : Char} (h : c.toNat < 65536) (r : List Char) :
    code? 4 (hexDigit (c.toNat / 4096) :: hexDigit (c.toNat / 256) :: hexDigit (c.toNat / 16) ::
      hexDigit c.toNat :: r) = some (c, r) := by
  have value : 16 * (16 * (16 * (c.toNat / 4096 % 16) + c.toNat / 256 % 16) +
      c.toNat / 16 % 16) + c.toNat % 16 = c.toNat := by omega
  have valid : c.toNat.isValidChar := c.valid
  simp [code?, hexValue?_hexDigit, value, valid]

/-! ## Escapes -/

/-- How a text may hold a character other than a double quote: by an escape, which is not taken
for a line that goes on, or by itself. -/
inductive Escaped (lines : Bool) (c : Char) : List Char → Prop
  | escape {e : List Char} (code : ∀ r, escape? (e ++ r) = some (c, r))
      (same : ∀ r, continuation? (e ++ r) = none) : Escaped lines c ('\\' :: e)
  | lineEnd (several : lines = true) (newline : c = '\n') : Escaped lines c ['\n']
  | plain (basic : isBasic c = true) : Escaped lines c [c]

theorem lt_of_isControl {c : Char} (h : isControl c = true) : c.toNat < 65536 := by
  simp only [isControl, Bool.or_eq_true, decide_eq_true_eq, beq_iff_eq] at h
  omega

theorem escapeOf_escaped {c : Char} (lines : Bool) (h : c ≠ '"') :
    Escaped lines c (escapeOf lines c) := by
  unfold escapeOf
  repeat' split
  · subst c
    exact .escape (fun _ => rfl) fun _ => rfl
  · subst c
    exact .escape (fun _ => rfl) fun _ => rfl
  · exact .lineEnd ‹_› ‹_›
  · subst c
    exact .escape (fun _ => rfl) fun _ => rfl
  · subst c
    exact .escape (fun _ => rfl) fun _ => rfl
  · subst c
    exact .escape (fun _ => rfl) fun _ => rfl
  · subst c
    exact .escape (fun _ => rfl) fun _ => rfl
  · rename_i control
    exact .escape (code?_hexDigits (lt_of_isControl control)) fun _ => rfl
  · rename_i backslash plain
    refine .plain ?_
    simp [isBasic, isPlain, plain, h, backslash]

/-- No escape ends with what follows it. -/
theorem Escaped.head {lines : Bool} {c : Char} {e : List Char} (h : Escaped lines c e) :
    ∃ d t, e = d :: t ∧ d ≠ '"' ∧ (d = '\n' → c = '\n') ∧ d ≠ '\r' := by
  cases h with
  | escape code same => exact ⟨_, _, rfl, by decide, fun h => absurd h (by decide), by decide⟩
  | lineEnd several newline => exact ⟨_, _, rfl, by decide, fun _ => newline, by decide⟩
  | plain basic =>
    refine ⟨_, _, rfl, ?_, id, ?_⟩ <;> rintro rfl <;> exact absurd basic (by decide)

/-! ## One line -/

theorem basicItem?_escaped {c : Char} {e : List Char} (h : Escaped false c e) (r : List Char) :
    basicItem? (e ++ r) = some (c, r) := by
  cases h with
  | escape code same => exact code r
  | lineEnd several newline => cases several
  | plain basic =>
    rw [List.singleton_append, basicItem?, if_pos basic]
    rintro rfl
    exact absurd basic (by decide)

theorem escapeAll_runs (s r : List Char) :
    Runs basicItem? (escapeAll false 0 0 s ++ '"' :: r) s ('"' :: r) := by
  induction s with
  | nil => exact .stop rfl
  | cons c s ih =>
    by_cases quote : c = '"'
    · subst c
      have spelled : escapeAll false 0 0 ('"' :: s) = '\\' :: '"' :: escapeAll false 0 0 s := rfl
      rw [spelled]
      exact .more rfl (Nat.lt_succ_of_lt (Nat.lt_succ_self _)) ih
    · have escaped := escapeOf_escaped false quote
      simp only [escapeAll, if_neg quote, List.append_assoc]
      refine .more (basicItem?_escaped escaped _) ?_ ih
      obtain ⟨d, t, starts, -⟩ := escaped.head
      simp only [starts, List.length_append, List.length_cons]
      omega

theorem basic?_escapeAll (s r : List Char) :
    basic? (escapeAll false 0 0 s ++ '"' :: r) = some (s, r) := by
  rw [basic?, (escapeAll_runs s r).many (Nat.le_refl _)]
  rfl

theorem literal_runs {s : List Char} (h : ∀ c ∈ s, isLiteral c = true) (r : List Char) :
    Runs literalItem? (s ++ '\'' :: r) s ('\'' :: r) := by
  induction s with
  | nil => exact .stop rfl
  | cons c s ih =>
    have literal := h c List.mem_cons_self
    have item : literalItem? (c :: (s ++ '\'' :: r)) = some (c, s ++ '\'' :: r) := by
      simp [literalItem?, literal]
    exact .more item (by simp) (ih fun d hd => h d (List.mem_cons_of_mem _ hd))

theorem literal?_append {s : List Char} (h : ∀ c ∈ s, isLiteral c = true) (r : List Char) :
    literal? (s ++ '\'' :: r) = some (s, r) := by
  rw [literal?, (literal_runs h r).many (Nat.le_refl _)]
  rfl

/-! ## Several lines -/

/-- The reader takes a text up to the quotes that close it, and gives back what is after them. -/
def Closes (item : List Char → Option (List Char × List Char)) (quote : Char)
    (s text rest : List Char) : Prop :=
  ∃ pieces last, Runs item s pieces last ∧ closeMulti? quote pieces.flatten last = some (text, rest)

variable {item : List Char → Option (List Char × List Char)} {quote : Char}
  {s t text rest : List Char}

theorem closeMulti?_append (quote : Char) (piece text s : List Char) :
    closeMulti? quote (piece ++ text) s =
      (closeMulti? quote text s).map fun e => (piece ++ e.1, e.2) := by
  simp only [closeMulti?]
  split
  · rfl
  · simp

theorem Closes.more {piece : List Char} (h : Closes item quote t text rest)
    (taken : item s = some (piece, t)) (shorter : t.length < s.length) :
    Closes item quote s (piece ++ text) rest := by
  obtain ⟨pieces, last, runs, close⟩ := h
  refine ⟨piece :: pieces, last, .more taken shorter runs, ?_⟩
  rw [List.flatten_cons, closeMulti?_append, close]
  rfl

theorem takeWhile_quotes (k : Nat) (h : ∀ c ∈ rest.head?, c ≠ quote) :
    (List.replicate k quote ++ rest).takeWhile (· == quote) = List.replicate k quote :=
  takeWhile_append (fun _ hc => beq_iff_eq.mpr (List.eq_of_mem_replicate hc))
    fun c hc => beq_eq_false_iff_ne.mpr (h c hc)

theorem dropWhile_quotes (k : Nat) (h : ∀ c ∈ rest.head?, c ≠ quote) :
    (List.replicate k quote ++ rest).dropWhile (· == quote) = rest :=
  dropWhile_append (fun _ hc => beq_iff_eq.mpr (List.eq_of_mem_replicate hc))
    fun c hc => beq_eq_false_iff_ne.mpr (h c hc)

/-- What the readers of both forms do at a quote. -/
def TakesQuotes (item : List Char → Option (List Char × List Char)) (quote : Char) : Prop :=
  ∀ r, item (quote :: r) = innerQuotes? quote (quote :: r)

/-- One or two quotes that something else follows belong to the text. -/
theorem Closes.quotes (hq : TakesQuotes item quote) (h : Closes item quote s text rest) {k : Nat}
    (hk : k ≤ 2) (some : s ≠ []) (other : ∀ c ∈ s.head?, c ≠ quote) :
    Closes item quote (List.replicate k quote ++ s) (List.replicate k quote ++ text) rest := by
  cases k with
  | zero => exact h
  | succ k =>
    refine h.more ?_ (by simp)
    rw [List.replicate_succ, List.cons_append, hq, ← List.cons_append, ← List.replicate_succ,
      innerQuotes?, takeWhile_quotes _ other, dropWhile_quotes _ other]
    exact if_pos ⟨by simp, by simpa using hk, some⟩

/-- Before the closing quotes one or two may stand that belong to the text. -/
theorem closes_end (hq : TakesQuotes item quote) {k : Nat} (hk : k ≤ 2)
    (other : ∀ c ∈ rest.head?, c ≠ quote) :
    Closes item quote (List.replicate k quote ++ (List.replicate 3 quote ++ rest))
      (List.replicate k quote) rest := by
  rw [← List.append_assoc, List.replicate_append_replicate]
  have run : ((List.replicate (k + 3) quote ++ rest).takeWhile (· == quote)).length = k + 3 := by
    rw [takeWhile_quotes _ other, List.length_replicate]
  refine ⟨[], _, .stop ?_, ?_⟩
  · rw [List.replicate_succ, List.cons_append, hq, ← List.cons_append, ← List.replicate_succ,
      innerQuotes?]
    simp only [run]
    exact if_neg fun h => absurd h.2.1 (by omega)
  · simp only [closeMulti?, run]
    rw [if_neg (by omega), Nat.add_sub_cancel, Nat.min_eq_left hk]
    simp

theorem multi?_of_closes (h : Closes item quote s text rest) (start : afterNewline? t = some s ∨
    t = s ∧ afterNewline? t = none) : multi? item quote t = some (text, rest) := by
  obtain ⟨pieces, last, runs, close⟩ := h
  have skip : (afterNewline? t).getD t = s := by
    rcases start with same | ⟨rfl, none⟩
    · rw [same, Option.getD_some]
    · rw [none, Option.getD_none]
  simp only [multi?, skip, runs.many (Nat.le_refl _)]
  exact close

theorem multiBasicItem?_quotes : TakesQuotes multiBasicItem? '"' := by
  intro r
  simp [multiBasicItem?, isBasic, lineEnd?, afterNewline?]

theorem multiBasicItem?_escaped {c : Char} {e : List Char} (h : Escaped true c e) (r : List Char) :
    multiBasicItem? (e ++ r) = some ([c], r) := by
  cases h with
  | escape code same =>
    simp only [List.cons_append, multiBasicItem?, same, code]
    rfl
  | lineEnd several newline =>
    subst c
    rfl
  | plain basic =>
    rw [List.singleton_append, multiBasicItem?, if_pos basic]
    rintro rfl
    exact absurd basic (by decide)

theorem escapeAll_closes {k : Nat} (hk : k ≤ 2) (s : List Char)
    (other : ∀ c ∈ rest.head?, c ≠ '"') :
    Closes multiBasicItem? '"' (List.replicate k '"' ++
      (escapeAll true 2 (2 - k) s ++ (List.replicate 3 '"' ++ rest)))
      (List.replicate k '"' ++ s) rest := by
  induction s generalizing k with
  | nil =>
    rw [List.append_nil]
    exact closes_end multiBasicItem?_quotes hk other
  | cons c s ih =>
    have later := ih (Nat.zero_le 2)
    rw [List.replicate_zero, List.nil_append, List.nil_append] at later
    by_cases quote : c = '"'
    · subst c
      by_cases more : k < 2
      · -- one more quote that stands for itself
        have spare : escapeAll true 2 (2 - k) ('"' :: s) = '"' :: escapeAll true 2 (2 - (k + 1)) s := by
          rw [show 2 - k = 2 - (k + 1) + 1 by omega]
          rfl
        have next := ih (Nat.succ_le_of_lt more)
        rw [List.replicate_succ', List.append_assoc, List.append_assoc] at next
        rw [spare]
        exact next
      · obtain rfl : k = 2 := by omega
        have escaped : Closes multiBasicItem? '"'
            ('\\' :: '"' :: (escapeAll true 2 2 s ++ (List.replicate 3 '"' ++ rest)))
            ('"' :: s) rest :=
          later.more (multiBasicItem?_escaped (.escape (e := ['"']) (fun _ => rfl) fun _ => rfl) _)
            (Nat.lt_succ_of_lt (Nat.lt_succ_self _))
        exact escaped.quotes multiBasicItem?_quotes (Nat.le_refl 2) (by simp) (by simp)
    · have escaped := escapeOf_escaped true quote
      obtain ⟨d, t, starts, apart, -⟩ := escaped.head
      have next := later.more (multiBasicItem?_escaped escaped _)
        (by simp only [starts, List.length_append, List.length_cons]; omega)
      simp only [escapeAll, if_neg quote, List.append_assoc]
      refine next.quotes multiBasicItem?_quotes hk ?_ ?_ <;> rw [starts]
      · exact List.cons_ne_nil _ _
      · rintro e ⟨⟩
        exact apart

theorem multiLiteralItem?_quotes : TakesQuotes multiLiteralItem? '\'' := by
  intro r
  simp [multiLiteralItem?, isLiteral, lineEnd?, afterNewline?]

theorem multiLiteralItem?_plain {c : Char} (plain : isPlain c = true ∨ c = '\n') (ne : c ≠ '\'')
    (r : List Char) : multiLiteralItem? (c :: r) = some ([c], r) := by
  rcases plain with plain | rfl
  · rw [multiLiteralItem?, if_pos (by simp [isLiteral, plain, ne])]
  · rfl

theorem le_longestRun (quote : Char) (k : Nat) (s : List Char) : k ≤ longestRun quote k s := by
  induction s generalizing k with
  | nil => exact Nat.le_refl k
  | cons c s ih =>
    rw [longestRun]
    split
    · exact Nat.le_of_succ_le (ih (k + 1))
    · exact Nat.le_max_left _ _

theorem literal_closes {k : Nat} (hs : ∀ c ∈ s, isPlain c = true ∨ c = '\n')
    (few : longestRun '\'' k s ≤ 2) (other : ∀ c ∈ rest.head?, c ≠ '\'') :
    Closes multiLiteralItem? '\''
      (List.replicate k '\'' ++ (s ++ (List.replicate 3 '\'' ++ rest)))
      (List.replicate k '\'' ++ s) rest := by
  induction s generalizing k with
  | nil =>
    rw [List.append_nil]
    exact closes_end multiLiteralItem?_quotes few other
  | cons c s ih =>
    have ih {k : Nat} := @ih k fun d hd => hs d (List.mem_cons_of_mem _ hd)
    have before := Nat.le_trans (le_longestRun '\'' k (c :: s)) few
    rw [longestRun] at few
    by_cases quote : c = '\''
    · subst c
      rw [if_pos rfl] at few
      have next := ih few
      rw [List.replicate_succ', List.append_assoc, List.append_assoc] at next
      exact next
    · rw [if_neg quote] at few
      have later := ih (Nat.le_trans (Nat.le_max_right _ _) few)
      rw [List.replicate_zero, List.nil_append, List.nil_append] at later
      have taken := multiLiteralItem?_plain (hs c List.mem_cons_self) quote
        (s ++ (List.replicate 3 '\'' ++ rest))
      refine (later.more taken (by simp)).quotes multiLiteralItem?_quotes before
        (List.cons_ne_nil _ _) ?_
      rintro e ⟨⟩
      exact quote

/-! ## All forms -/

theorem afterNewline?_eq_none (h : ∀ c ∈ s.head?, c ≠ '\n' ∧ c ≠ '\r') : afterNewline? s = none := by
  unfold afterNewline?
  split
  · exact absurd rfl (h _ rfl).1
  · exact absurd rfl (h _ rfl).2
  · rfl

/-- Three quotes after the first line end, if the text has several lines. -/
theorem multi?_tripled {inner : List Char}
    (h : Closes item quote (inner ++ (List.replicate 3 quote ++ rest)) s rest)
    (start : '\n' ∉ s → ∀ c ∈ (inner ++ (List.replicate 3 quote ++ rest)).head?, c ≠ '\n' ∧ c ≠ '\r') :
    multi? item quote ((if s.contains '\n' then ['\n'] else []) ++
      (inner ++ (List.replicate 3 quote ++ rest))) = some (s, rest) := by
  refine multi?_of_closes h ?_
  by_cases lines : '\n' ∈ s
  · left
    simp [lines, afterNewline?]
  · right
    simp only [List.contains_eq_mem, lines, decide_false, Bool.false_eq_true, if_false,
      List.nil_append, true_and]
    exact afterNewline?_eq_none (start lines)

theorem text?_basic (h : ∀ r, s ≠ '"' :: '"' :: r) : text? ('"' :: s) = basic? s := by
  rw [text?]
  exact h

theorem text?_literal (h : ∀ r, s ≠ '\'' :: '\'' :: r) : text? ('\'' :: s) = literal? s := by
  rw [text?]
  exact h

theorem longestRun_pos {k : Nat} (h : quote ∈ s) : 0 < longestRun quote k s := by
  induction s generalizing k with
  | nil => cases h
  | cons c s ih =>
    rw [longestRun]
    split
    · exact Nat.lt_of_lt_of_le (Nat.succ_pos k) (le_longestRun quote (k + 1) s)
    · rename_i ne
      have later := (List.mem_cons.mp h).resolve_left (Ne.symm ne)
      exact Nat.lt_of_lt_of_le (ih later) (Nat.le_max_right _ _)

/-- What a text must be like for a form to hold it. -/
def Form.Fits (s : List Char) : Form → Prop
  | .basic | .multiBasic => True
  | .literal => ∀ c ∈ s, isLiteral c = true
  | .multiLiteral => (∀ c ∈ s, isPlain c = true ∨ c = '\n') ∧ longestRun '\'' 0 s ≤ 2

theorem isPlain_of_needsCode {c : Char} (h : needsCode c = false) : isPlain c = true ∨ c = '\n' := by
  simp only [needsCode, isPlain] at h ⊢
  grind

theorem Form.of_fits (s : List Char) : (Form.of s).Fits s := by
  have plain (h : s.any needsCode = false) : ∀ c ∈ s, isPlain c = true ∨ c = '\n' :=
    fun c hc => isPlain_of_needsCode (by simpa using List.any_eq_false.mp h c hc)
  unfold Form.of
  dsimp only
  split
  · trivial
  · split
    · rename_i literal
      simp only [Bool.and_eq_true, Bool.not_eq_true', beq_iff_eq] at literal
      obtain ⟨⟨coded, singles⟩, lines⟩ := literal
      intro c hc
      have noQuote : c ≠ '\'' := by
        rintro rfl
        exact absurd singles (Nat.ne_of_gt (longestRun_pos hc))
      have noLine : c ≠ '\n' := by
        rintro rfl
        simp [hc] at lines
      have here := (plain coded c hc).resolve_right noLine
      simp [isLiteral, here, noQuote]
    · split
      · trivial
      · split
        · rename_i literal
          simp only [Bool.and_eq_true, Bool.not_eq_true', decide_eq_true_eq] at literal
          exact ⟨plain literal.1, literal.2⟩
        · split <;> trivial

/-- After its first quote a text of one line has no two more, which would open several lines. -/
theorem escapeAll_ne_doubled (other : ∀ c ∈ rest.head?, c ≠ '"') (s r : List Char) :
    escapeAll false 0 0 s ++ '"' :: rest ≠ '"' :: '"' :: r := by
  intro same
  cases s with
  | nil => exact other '"' (by rw [(List.cons.inj same).2]; rfl) rfl
  | cons c s =>
    by_cases quote : c = '"'
    · subst c
      cases same
    · obtain ⟨d, t, starts, apart, -⟩ := (escapeOf_escaped false quote).head
      simp only [escapeAll, if_neg quote, starts] at same
      exact apart (List.cons.inj same).1

theorem literal_ne_doubled (h : ∀ c ∈ s, isLiteral c = true) (other : ∀ c ∈ rest.head?, c ≠ '\'')
    (r : List Char) : s ++ '\'' :: rest ≠ '\'' :: '\'' :: r := by
  intro same
  cases s with
  | nil => exact other '\'' (by rw [(List.cons.inj same).2]; rfl) rfl
  | cons c s =>
    obtain rfl := (List.cons.inj same).1
    exact absurd (h '\'' List.mem_cons_self) (by decide)

/-- A text without lines is not taken to start with a line end. -/
theorem escapeAll_starts (lines : '\n' ∉ s) : ∀ c ∈ (escapeAll true 2 2 s ++
    (List.replicate 3 '"' ++ rest)).head?, c ≠ '\n' ∧ c ≠ '\r' := by
  cases s with
  | nil =>
    rintro c ⟨⟩
    decide
  | cons c s =>
    by_cases quote : c = '"'
    · subst c
      rintro c ⟨⟩
      decide
    · obtain ⟨d, t, starts, -, newline, noReturn⟩ := (escapeOf_escaped true quote).head
      simp only [escapeAll, if_neg quote, starts]
      rintro e ⟨⟩
      refine ⟨fun same => lines ?_, noReturn⟩
      rw [newline same]
      exact List.mem_cons_self

theorem literal_starts (h : ∀ c ∈ s, isPlain c = true ∨ c = '\n') (lines : '\n' ∉ s) :
    ∀ c ∈ (s ++ (List.replicate 3 '\'' ++ rest)).head?, c ≠ '\n' ∧ c ≠ '\r' := by
  cases s with
  | nil =>
    rintro c ⟨⟩
    decide
  | cons c s =>
    rintro c ⟨⟩
    have noLine : c ≠ '\n' := fun same => lines (same ▸ List.mem_cons_self)
    refine ⟨noLine, ?_⟩
    rintro rfl
    exact absurd ((h '\r' List.mem_cons_self).resolve_right noLine) (by decide)

theorem Form.text?_write {f : Form} (h : f.Fits s) (hr : ∀ c ∈ rest.head?, c ≠ '"' ∧ c ≠ '\'') :
    text? (f.write s ++ rest) = some (s, rest) := by
  have noDouble : ∀ c ∈ rest.head?, c ≠ '"' := fun c hc => (hr c hc).1
  have noSingle : ∀ c ∈ rest.head?, c ≠ '\'' := fun c hc => (hr c hc).2
  cases f with
  | basic =>
    have written : Form.write s .basic ++ rest = '"' :: (escapeAll false 0 0 s ++ '"' :: rest) := by
      simp [Form.write]
    rw [written, text?_basic (escapeAll_ne_doubled noDouble s)]
    exact basic?_escapeAll s rest
  | literal =>
    have written : Form.write s .literal ++ rest = '\'' :: (s ++ '\'' :: rest) := by
      simp [Form.write]
    rw [written, text?_literal (literal_ne_doubled h noSingle)]
    exact literal?_append h rest
  | multiBasic =>
    have written : Form.write s .multiBasic ++ rest = '"' :: '"' :: '"' ::
        ((if s.contains '\n' then ['\n'] else []) ++
          (escapeAll true 2 2 s ++ (List.replicate 3 '"' ++ rest))) := by
      simp [Form.write, tripled, List.replicate]
    rw [written]
    exact multi?_tripled (escapeAll_closes (Nat.zero_le 2) s noDouble) escapeAll_starts
  | multiLiteral =>
    have written : Form.write s .multiLiteral ++ rest = '\'' :: '\'' :: '\'' ::
        ((if s.contains '\n' then ['\n'] else []) ++ (s ++ (List.replicate 3 '\'' ++ rest))) := by
      simp [Form.write, tripled, List.replicate]
    rw [written]
    exact multi?_tripled (literal_closes (k := 0) h.1 h.2 noSingle) (literal_starts h.1)

/-- Text that is written is read, if no quote follows it. -/
theorem text?_write (s : List Char) (hr : ∀ c ∈ rest.head?, c ≠ '"' ∧ c ≠ '\'') :
    text? (write s ++ rest) = some (s, rest) := Form.text?_write (Form.of_fits s) hr

end Quoted
end DataTier.Toml
