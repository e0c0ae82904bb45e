import DataTier.Proofs.Toml.Quoted
import DataTier.Toml.Reader
import DataTier.Toml.Writer

/-! What is written is read back: keys and paths of keys, values, statements, and documents, which
are statements line by line. A reader is shown to take exactly what was written, whatever may
follow it there. -/

namespace DataTier.Toml

variable {s r : List Char}

theorem skipSpace_of_head (h : ∀ c ∈ s.head?, isSpace c = false) : skipSpace s = s :=
  Text.dropWhile_eq_self h

/-! ## Keys -/

namespace Key

theorem isPlain_of_needsCode {c : Char} (h : needsCode c = false) : isPlain c = true := by
  simp only [needsCode, isPlain] at h ⊢
  grind

theorem form_fits (s : List Char) :
    form s = .basic ∨ form s = .literal ∧ ∀ c ∈ s, isLiteral c = true := by
  unfold form
  dsimp only
  split
  · exact .inl rfl
  · split
    · rename_i literal
      simp only [Bool.and_eq_true, Bool.not_eq_true'] at literal
      refine .inr ⟨rfl, fun c hc => ?_⟩
      have plain : needsCode c = false := by simpa using List.any_eq_false.mp literal.1 c hc
      have noQuote : c ≠ '\'' := by
        rintro rfl
        simp [hc] at literal
      simp [isLiteral, isPlain_of_needsCode plain, noQuote]
    · exact .inl rfl

theorem read?_bare (h : s ≠ []) (bare : ∀ c ∈ s, isBare c = true)
    (hr : ∀ c ∈ r.head?, isBare c = false) : read? (s ++ r) = some (s, r) := by
  have taken : bare? (s ++ r) = some (s, r) := by
    rw [bare?, takeWhile_append bare hr, dropWhile_append bare hr]
    exact if_neg (by simpa using h)
  cases s with
  | nil => exact absurd rfl h
  | cons c s =>
    have first := bare c List.mem_cons_self
    unfold read?
    split
    · rename_i same
      cases same
      exact absurd first (by decide)
    · rename_i same
      cases same
      exact absurd first (by decide)
    · exact taken

/-- What a key that is written starts with. -/
def Opens (c : Char) : Prop := c = '"' ∨ c = '\'' ∨ isBare c = true

theorem write_cases (s : List Char) :
    s ≠ [] ∧ (∀ c ∈ s, isBare c = true) ∧ write s = s ∨
    write s = '"' :: (Quoted.escapeAll false 0 0 s ++ ['"']) ∨
    (∀ c ∈ s, isLiteral c = true) ∧ write s = '\'' :: (s ++ ['\'']) := by
  unfold write
  split
  · rename_i bare
    simp only [Bool.and_eq_true, Bool.not_eq_true', List.isEmpty_eq_false_iff] at bare
    exact .inl ⟨bare.1, List.all_eq_true.mp bare.2, rfl⟩
  · rcases form_fits s with basic | ⟨literal, fits⟩
    · exact .inr (.inl (by rw [basic]; rfl))
    · exact .inr (.inr ⟨fits, by rw [literal]; rfl⟩)

theorem write_opens (s : List Char) : ∃ c t, write s = c :: t ∧ Opens c := by
  rcases write_cases s with ⟨some, bare, written⟩ | written | ⟨-, written⟩
  · obtain ⟨c, t, rfl⟩ := List.exists_cons_of_ne_nil some
    exact ⟨c, t, written, .inr (.inr (bare c List.mem_cons_self))⟩
  · exact ⟨_, _, written, .inl rfl⟩
  · exact ⟨_, _, written, .inr (.inl rfl)⟩

theorem read?_write (s : List Char) (hr : ∀ c ∈ r.head?, isBare c = false) :
    read? (write s ++ r) = some (s, r) := by
  rcases write_cases s with ⟨some, bare, written⟩ | written | ⟨literal, written⟩ <;> rw [written]
  · exact read?_bare some bare hr
  · rw [List.cons_append, List.append_assoc]
    exact Quoted.basic?_escapeAll s r
  · rw [List.cons_append, List.append_assoc]
    exact Quoted.literal?_append literal r

theorem Opens.not_space {c : Char} (h : Opens c) : isSpace c = false := by
  rcases h with rfl | rfl | bare
  · rfl
  · rfl
  · cases space : isSpace c with
    | false => rfl
    | true =>
      simp only [isSpace, Bool.or_eq_true, beq_iff_eq] at space
      rcases space with rfl | rfl <;> exact absurd bare (by decide)

theorem writePath_cons (k k' : String) (path : List String) :
    writePath (k :: k' :: path) = write k.toList ++ '.' :: writePath (k' :: path) := by
  simp [writePath, List.intercalate_cons_cons]

theorem skipSpace_write (s r : List Char) : skipSpace (write s ++ r) = write s ++ r := by
  obtain ⟨c, t, starts, opens⟩ := write_opens s
  refine skipSpace_of_head ?_
  rw [starts]
  rintro d ⟨⟩
  exact opens.not_space

/-- A path is read up to what is no key, without the space before that. -/
theorem pathIn?_writePath {path : List String} (some : path ≠ []) {n : Nat} (hn : path.length ≤ n)
    (hr : ∀ c ∈ r.head?, isBare c = false) (noDot : ∀ t, skipSpace r ≠ '.' :: t) :
    pathIn? n (writePath path ++ r) = .some (path, skipSpace r) := by
  induction path generalizing n with
  | nil => exact absurd rfl some
  | cons k path ih =>
    obtain ⟨n, rfl⟩ : ∃ m, n = m + 1 := ⟨n - 1, by simp at hn; omega⟩
    cases path with
    | nil =>
      have one : writePath [k] = write k.toList := by simp [writePath]
      simp only [one, pathIn?, skipSpace_write, read?_write k.toList hr, Option.bind_eq_bind,
        Option.bind_some, String.ofList_toList]
    | cons k' path =>
      have later := ih (List.cons_ne_nil _ _) (Nat.le_of_succ_le_succ hn)
      have dot : ∀ c ∈ ('.' :: (writePath (k' :: path) ++ r)).head?, isBare c = false := by
        rintro c ⟨⟩
        rfl
      rw [writePath_cons, List.append_assoc, List.cons_append]
      simp only [pathIn?, skipSpace_write, read?_write k.toList dot, Option.bind_eq_bind,
        Option.bind_some, String.ofList_toList]
      rw [skipSpace_of_head (by rintro c ⟨⟩; rfl)]
      simp only [later]
      rfl

theorem path?_writePath (path : List String) (some : path ≠ []) (short : path.length < pathBound)
    (hr : ∀ c ∈ r.head?, isBare c = false) (noDot : ∀ t, skipSpace r ≠ '.' :: t) :
    path? (writePath path ++ r) = .some (path, skipSpace r) :=
  pathIn?_writePath some (Nat.le_sub_one_of_lt short) hr noDot

end Key

/-! ## Values -/

theorem isDigit_of_mem_toDigits {n : Nat} {c : Char} (h : c ∈ Nat.toDigits 10 n) :
    c.isDigit = true := Nat.isDigit_of_mem_toDigits (by decide) (by decide) h

theorem ne_of_isDigit {c d : Char} (h : c.isDigit = true) (hd : d.isDigit = false) : c ≠ d := by
  rintro rfl
  exact absurd (hd.symm.trans h) (by decide)

theorem toDigits_cons (n : Nat) : ∃ c t, Nat.toDigits 10 n = c :: t ∧ c.isDigit = true := by
  obtain ⟨c, t, starts⟩ := List.exists_cons_of_ne_nil (Nat.toDigits_ne_nil (n := n) (b := 10))
  exact ⟨c, t, starts, isDigit_of_mem_toDigits (starts ▸ List.mem_cons_self)⟩

/-- Only zero is written with a zero first. -/
theorem head_toDigits {n : Nat} (h : 0 < n) : (Nat.toDigits 10 n).head? ≠ some '0' := by
  induction n using Nat.strongRecOn with
  | ind n ih =>
    rw [Nat.toDigits_eq_if (by decide)]
    split
    · rename_i small
      have all : ∀ k : Fin 10, 0 < k.val → Nat.digitChar k ≠ '0' := by decide
      simpa using all ⟨n, small⟩ h
    · have smaller := ih (n / 10) (by omega) (by omega)
      obtain ⟨c, t, starts, -⟩ := toDigits_cons (n / 10)
      rw [starts] at smaller ⊢
      exact smaller

namespace Moment

/-- After a field of digits in a line of their own no sign comes. -/
theorem expect?_of_field? {width low high n : Nat} (mark : Char) {ds rest : List Char}
    (digits : ∀ c ∈ ds, c.isDigit = true) (sign : mark.isDigit = false) (ne : mark ≠ '\n')
    (h : field? width low high (ds ++ '\n' :: r) = some (n, rest)) : expect? mark rest = none := by
  simp only [field?] at h
  split at h
  · rename_i fits
    obtain ⟨-, all, -⟩ := fits
    cases h
    have short : width ≤ ds.length := by
      apply Nat.le_of_not_lt
      intro long
      have newline : '\n' ∈ (ds ++ '\n' :: r).take width := by
        rw [List.take_append, List.mem_append]
        obtain ⟨k, hk⟩ : ∃ k, width - ds.length = k + 1 := ⟨width - ds.length - 1, by omega⟩
        rw [hk, List.take_succ_cons]
        exact .inr List.mem_cons_self
      exact absurd (List.all_eq_true.mp all '\n' newline) (by decide)
    rw [List.drop_append_of_le_length short]
    cases later : ds.drop width with
    | nil => exact if_neg (Ne.symm ne)
    | cons c t =>
      have digit := digits c (List.mem_of_mem_drop (later ▸ List.mem_cons_self))
      exact if_neg (ne_of_isDigit digit sign)
  · cases h

theorem read?_digits {ds : List Char} (digits : ∀ c ∈ ds, c.isDigit = true) :
    read? (ds ++ '\n' :: r) = none := by
  have noDate : date? (ds ++ '\n' :: r) = none := by
    cases h : field? 4 0 9999 (ds ++ '\n' :: r) with
    | none => simp [date?, h]
    | some e => simp [date?, h, expect?_of_field? '-' digits rfl (by decide) h]
  have noTime : time? (ds ++ '\n' :: r) = none := by
    cases h : field? 2 0 23 (ds ++ '\n' :: r) with
    | none => simp [time?, h]
    | some e => simp [time?, h, expect?_of_field? ':' digits rfl (by decide) h]
  simp only [read?, noDate, noTime]

end Moment

namespace Number

theorem moreDigits_append {ds : List Char} (digits : ∀ c ∈ ds, c.isDigit = true) :
    moreDigits Char.isDigit (ds ++ '\n' :: r) = (ds, '\n' :: r) := by
  induction ds with
  | nil => rfl
  | cons c ds ih =>
    have digit := digits c List.mem_cons_self
    have rest := ih fun d hd => digits d (List.mem_cons_of_mem _ hd)
    rw [List.cons_append, moreDigits]
    · simp only [digit, rest, if_true]
    · intro _ _ same
      exact absurd same (ne_of_isDigit digit rfl)

theorem digits?_append {ds : List Char} (some : ds ≠ []) (digits : ∀ c ∈ ds, c.isDigit = true) :
    digits? Char.isDigit (ds ++ '\n' :: r) = .some (ds, '\n' :: r) := by
  cases ds with
  | nil => exact absurd rfl some
  | cons c ds =>
    have rest := moreDigits_append (r := r) fun d hd => digits d (List.mem_cons_of_mem _ hd)
    simp only [List.cons_append, digits?, digits c List.mem_cons_self, rest, if_true]

theorem decimalDigits?_toDigits (n : Nat) :
    decimalDigits? (Nat.toDigits 10 n ++ '\n' :: r) = some (Nat.toDigits 10 n, '\n' :: r) := by
  by_cases zero : n = 0
  · subst n
    rfl
  · have first := head_toDigits (Nat.pos_of_ne_zero zero)
    have all := digits?_append (r := r) (Nat.toDigits_ne_nil (n := n) (b := 10))
      fun c hc => isDigit_of_mem_toDigits hc
    unfold decimalDigits?
    split
    · rename_i starts
      obtain ⟨c, t, digits, -⟩ := toDigits_cons n
      rw [digits] at starts first
      exact absurd (congrArg some (List.cons.inj starts).1) first
    · exact all

theorem hexValue?_of_isDigit {c : Char} (h : c.isDigit = true) :
    Text.hexValue? c = some (c.toNat - 48) :=
  if_pos (by simpa [Char.isDigit, Char.le_def] using h)

theorem valueOf_toDigits (n : Nat) : valueOf 10 (Nat.toDigits 10 n) = n := by
  have digits : ∀ c ∈ Nat.toDigits 10 n, c.isDigit = true := fun _ => isDigit_of_mem_toDigits
  have same (ds : List Char) (h : ∀ c ∈ ds, c.isDigit = true) (k : Nat) :
      ds.foldl (fun n c => 10 * n + (Text.hexValue? c).getD 0) k = Nat.ofDigitChars 10 ds k := by
    induction ds generalizing k with
    | nil => rfl
    | cons c ds ih =>
      rw [List.foldl_cons, Nat.ofDigitChars_cons, hexValue?_of_isDigit (h c List.mem_cons_self),
        ih fun d hd => h d (List.mem_cons_of_mem _ hd)]
      rfl
  rw [valueOf, same _ digits, Nat.ofDigitChars_ten_toDigits]

theorem sign_toDigits (n : Nat) :
    sign (Nat.toDigits 10 n ++ '\n' :: r) = (false, Nat.toDigits 10 n ++ '\n' :: r) := by
  obtain ⟨c, t, starts, digit⟩ := toDigits_cons n
  rw [starts]
  unfold sign
  split
  · rename_i same
    exact absurd (List.cons.inj same).1 (ne_of_isDigit digit rfl)
  · rename_i same
    exact absurd (List.cons.inj same).1 (ne_of_isDigit digit rfl)
  · rfl

theorem whole?_toDigits {n : Nat} (h : n < Nat.pow 2 63) :
    whole? (Nat.toDigits 10 n ++ '\n' :: r) = some ((n : Int), '\n' :: r) := by
  by_cases zero : n = 0
  · subst n
    rfl
  · have first := head_toDigits (Nat.pos_of_ne_zero zero)
    have noZero : ∀ t, Nat.toDigits 10 n ++ '\n' :: r ≠ '0' :: t := by
      intro t same
      obtain ⟨c, u, digits, -⟩ := toDigits_cons n
      rw [digits] at same first
      exact first (congrArg some (List.cons.inj same).1)
    rw [whole?]
    · simp [sign_toDigits, decimalDigits?_toDigits, valueOf_toDigits, signed?, h]
    · exact fun _ => noZero _
    · exact fun _ => noZero _
    · exact fun _ => noZero _

theorem binary?_toDigits (n : Nat) : binary? (Nat.toDigits 10 n ++ '\n' :: r) = none := by
  have noFraction : fraction? ('\n' :: r) = none := rfl
  have notSpecial : special? false (Nat.toDigits 10 n ++ '\n' :: r) = none := by
    obtain ⟨c, t, starts, digit⟩ := toDigits_cons n
    rw [starts]
    unfold special?
    split
    · rename_i same
      exact absurd (List.cons.inj same).1 (ne_of_isDigit digit rfl)
    · rename_i same
      exact absurd (List.cons.inj same).1 (ne_of_isDigit digit rfl)
    · rfl
  simp only [binary?, sign_toDigits, decimalDigits?_toDigits, Option.bind_eq_bind, Option.bind_some,
    noFraction, Option.bind_none, Option.none_or, notSpecial]

end Number

theorem Quoted.write_opens (s : List Char) : ∃ c t, write s = c :: t ∧ (c = '"' ∨ c = '\'') := by
  unfold write
  cases Form.of s with
  | basic | multiBasic => exact ⟨_, _, rfl, .inl rfl⟩
  | literal | multiLiteral => exact ⟨_, _, rfl, .inr rfl⟩

/-- The values that are written: texts, truth values, and whole numbers in their range. -/
inductive Value.Written : Value → Prop
  | text (s : String) : Written (.text s)
  | bool (b : Bool) : Written (.bool b)
  | whole {n : Nat} (h : n < Nat.pow 2 63) : Written (.whole n)

namespace Value.Written

variable {v : Value}

theorem scalar?_write (h : v.Written) : scalar? (v.write ++ '\n' :: r) = some (v, '\n' :: r) := by
  cases h with
  | text s =>
    have taken : Quoted.text? (Quoted.write s.toList ++ '\n' :: r) = some (s.toList, '\n' :: r) :=
      Quoted.text?_write s.toList (by rintro c ⟨⟩; decide)
    obtain ⟨c, t, starts, quote⟩ := Quoted.write_opens s.toList
    have quoted : (c == '"' || c == '\'') = true := by
      rcases quote with rfl | rfl <;> rfl
    rw [starts] at taken
    rw [Value.write, starts, List.cons_append, scalar?, if_pos quoted, ← List.cons_append, taken,
      Option.map_some]
    simp only [String.ofList_toList]
  | bool b => cases b <;> rfl
  | @whole n h =>
    have written : (Value.whole n).write = Nat.toDigits 10 n := Nat.toList_repr
    obtain ⟨c, t, starts, digit⟩ := toDigits_cons n
    have noQuote : (c == '"' || c == '\'') = false := by
      rw [beq_eq_false_iff_ne.mpr (ne_of_isDigit digit rfl),
        beq_eq_false_iff_ne.mpr (ne_of_isDigit digit rfl), Bool.or_false]
    have noLetter : (c == 't' || c == 'f') = false := by
      rw [beq_eq_false_iff_ne.mpr (ne_of_isDigit digit rfl),
        beq_eq_false_iff_ne.mpr (ne_of_isDigit digit rfl), Bool.or_false]
    have number : number? (Nat.toDigits 10 n ++ '\n' :: r) = some (.whole n, '\n' :: r) := by
      have noMoment := Moment.read?_digits (r := r) fun _ => isDigit_of_mem_toDigits (n := n)
      simp only [number?, noMoment, Number.binary?_toDigits, Number.whole?_toDigits h,
        Option.map_none, Option.none_or, Option.map_some]
    rw [written, starts] at *
    rw [List.cons_append, scalar?, noQuote, noLetter]
    exact number

/-- No value that is written starts like one in brackets, nor with space. -/
theorem write_opens (h : v.Written) :
    ∃ c t, v.write = c :: t ∧ c ≠ '[' ∧ c ≠ '\x7b' ∧ isSpace c = false := by
  cases h with
  | text s =>
    obtain ⟨c, t, starts, quote⟩ := Quoted.write_opens s.toList
    refine ⟨c, t, starts, ?_⟩
    rcases quote with rfl | rfl <;> decide
  | bool b => cases b <;> exact ⟨_, _, rfl, by decide⟩
  | @whole n h =>
    obtain ⟨c, t, starts, digit⟩ := toDigits_cons n
    refine ⟨c, t, Nat.toList_repr.trans starts, ne_of_isDigit digit rfl, ne_of_isDigit digit rfl, ?_⟩
    rw [isSpace, beq_eq_false_iff_ne.mpr (ne_of_isDigit digit rfl),
      beq_eq_false_iff_ne.mpr (ne_of_isDigit digit rfl), Bool.or_false]

theorem value?_write (h : v.Written) (depth : Nat) :
    value? depth (v.write ++ '\n' :: r) = some (v, '\n' :: r) := by
  have scalar := h.scalar?_write (r := r)
  cases depth with
  | zero => exact scalar
  | succ depth =>
    obtain ⟨c, t, starts, noBracket, noBrace, -⟩ := h.write_opens
    rw [starts] at scalar ⊢
    unfold value?
    split
    · rename_i same
      exact absurd (List.cons.inj same).1 noBracket
    · rename_i same
      exact absurd (List.cons.inj same).1 noBrace
    · exact scalar

end Value.Written

/-! ## Statements -/

/-- The statements that are written: their paths are short enough, and no heading is repeated. -/
inductive Statement.Written : Statement → Prop
  | assignment {a : Assignment} (short : a.path.length + 1 < Key.pathBound)
      (value : a.value.Written) : Written (.assignment a)
  | heading {h : Heading} (short : h.path.length + 1 < Key.pathBound)
      (once : h.repeated = false) : Written (.heading h)

theorem Assignment.assignment?_write {a : Assignment} (short : a.path.length + 1 < Key.pathBound)
    (value : a.value.Written) (depth : Nat) :
    assignment? (value? depth) (a.write ++ r) = some (a, '\n' :: r) := by
  have written : a.write ++ r = Key.writePath (a.path ++ [a.key]) ++
      ' ' :: '=' :: ' ' :: (a.value.write ++ '\n' :: r) := by
    simp [Assignment.write]
  have path := Key.path?_writePath (a.path ++ [a.key])
    (r := ' ' :: '=' :: ' ' :: (a.value.write ++ '\n' :: r)) (by simp) (by simpa using short)
    (by rintro c ⟨⟩; rfl) (by rintro t ⟨⟩)
  have equals : skipSpace (' ' :: '=' :: ' ' :: (a.value.write ++ '\n' :: r)) =
      '=' :: ' ' :: (a.value.write ++ '\n' :: r) := rfl
  have behind : skipSpace (' ' :: (a.value.write ++ '\n' :: r)) = a.value.write ++ '\n' :: r := by
    obtain ⟨c, t, starts, -, -, noSpace⟩ := value.write_opens
    have rest : skipSpace (a.value.write ++ '\n' :: r) = a.value.write ++ '\n' :: r := by
      refine skipSpace_of_head ?_
      rw [starts]
      rintro d ⟨⟩
      exact noSpace
    exact rest
  rw [written, assignment?, path, equals]
  simp [behind, value.value?_write]

theorem afterLine?_newline (r : List Char) : afterLine? ('\n' :: r) = some r := rfl

theorem Heading.heading?_write {h : Heading} (short : h.path.length + 1 < Key.pathBound)
    (once : h.repeated = false) :
    heading? false (Key.writePath (h.path ++ [h.key]) ++ ']' :: '\n' :: r) = some (.heading h, r) := by
  have path := Key.path?_writePath (h.path ++ [h.key]) (r := ']' :: '\n' :: r) (by simp)
    (by simpa using short) (by rintro c ⟨⟩; rfl) (by rintro t ⟨⟩)
  have bracket : skipSpace (']' :: '\n' :: r) = ']' :: '\n' :: r := rfl
  obtain ⟨repeated, _, _⟩ := h
  obtain rfl : repeated = false := once
  rw [heading?, path, bracket]
  simp [afterLine?_newline]

namespace Statement.Written

variable {st : Statement} {sts : List Statement}

theorem writePath_opens (path : List String) (key : String) :
    ∃ c t, Key.writePath (path ++ [key]) = c :: t ∧ Key.Opens c := by
  cases path with
  | nil =>
    obtain ⟨c, t, starts, opens⟩ := Key.write_opens key.toList
    exact ⟨c, t, by simp [Key.writePath, starts], opens⟩
  | cons k path =>
    obtain ⟨c, t, starts, opens⟩ := Key.write_opens k.toList
    obtain ⟨k', later, rest⟩ := List.exists_cons_of_ne_nil (l := path ++ [key]) (by simp)
    refine ⟨c, t ++ '.' :: Key.writePath (k' :: later), ?_, opens⟩
    rw [List.cons_append, rest, Key.writePath_cons, starts]
    rfl

theorem ne_of_opens {c d : Char} (h : Key.Opens c) (quote : d ≠ '"' ∧ d ≠ '\'')
    (bare : isBare d = false) : c ≠ d := by
  rintro rfl
  rcases h with same | same | here
  · exact quote.1 same
  · exact quote.2 same
  · exact absurd (bare.symm.trans here) (by decide)

/-- A statement does not start like a comment, an empty line or a mark, nor with space. -/
theorem write_opens (st : Statement) : ∃ c t, st.write = c :: t ∧ isSpace c = false ∧
    (c == '#' || c == '\n' || c == '\r') = false ∧ c ≠ '\ufeff' := by
  cases st with
  | assignment a =>
    obtain ⟨c, t, starts, opens⟩ := writePath_opens a.path a.key
    have apart {d : Char} (quote : d ≠ '"' ∧ d ≠ '\'') (bare : isBare d = false) : c ≠ d :=
      ne_of_opens opens quote bare
    refine ⟨c, t ++ " = ".toList ++ a.value.write ++ ['\n'], ?_, opens.not_space, ?_,
      apart (by decide) (by decide)⟩
    · simp [Statement.write, Assignment.write, starts]
    · simp [apart (d := '#') (by decide) rfl, apart (d := '\n') (by decide) rfl,
        apart (d := '\r') (by decide) rfl]
  | heading h => exact ⟨_, _, rfl, by decide, by decide, by decide⟩

theorem statement?_write (h : st.Written) : statement? (st.write ++ r) = some (st, r) := by
  cases h with
  | @assignment a short value =>
    obtain ⟨c, t, starts, opens⟩ := writePath_opens a.path a.key
    have noBracket : c ≠ '[' := ne_of_opens opens (by decide) rfl
    have taken := Assignment.assignment?_write (r := r) short value depthBound
    have starts : a.write ++ r = c :: (t ++ " = ".toList ++ a.value.write ++ ['\n'] ++ r) := by
      simp [Assignment.write, starts]
    rw [Statement.write]
    rw [starts] at taken ⊢
    generalize t ++ " = ".toList ++ a.value.write ++ ['\n'] ++ r = rest at taken
    unfold statement?
    split
    · rename_i same
      exact absurd (List.cons.inj same).1 noBracket
    · rename_i same
      exact absurd (List.cons.inj same).1 noBracket
    · simp [taken, afterLine?_newline]
  | @heading h short once =>
    obtain ⟨c, t, starts, opens⟩ := writePath_opens h.path h.key
    have noBracket : c ≠ '[' := ne_of_opens opens (by decide) rfl
    have taken := Heading.heading?_write (r := r) short once
    have written : (Statement.heading h).write ++ r =
        '[' :: (Key.writePath (h.path ++ [h.key]) ++ ']' :: '\n' :: r) := by
      simp [Statement.write, Heading.write]
    rw [written]
    rw [starts] at taken ⊢
    unfold statement?
    split
    · rename_i same
      exact absurd (List.cons.inj (List.cons.inj same).2).1 noBracket
    · rename_i same
      cases same
      exact taken
    · rename_i other
      exact absurd rfl (other _)

theorem statementsIn?_statement (h : st.Written) {n : Nat} :
    statementsIn? (n + 1) (st.write ++ r) = (statementsIn? n r).map (st :: ·) := by
  obtain ⟨c, t, starts, noSpace, plain, -⟩ := write_opens st
  have taken := h.statement?_write (r := r)
  rw [starts] at taken ⊢
  have same : skipSpace (c :: t ++ r) = c :: (t ++ r) :=
    skipSpace_of_head (by rintro d ⟨⟩; exact noSpace)
  rw [statementsIn?, same]
  simp only [plain]
  rw [List.cons_append] at taken
  simp only [taken, Bool.false_eq_true, if_false, Option.bind_eq_bind, Option.bind_some]
  cases statementsIn? n r <;> rfl

theorem statementsIn?_newline (n : Nat) (r : List Char) :
    statementsIn? (n + 1) ('\n' :: r) = statementsIn? n r := rfl

theorem statementsIn?_writeLater (h : ∀ st ∈ sts, st.Written) {n : Nat}
    (hn : (writeLater sts).length < n) : statementsIn? n (writeLater sts) = some sts := by
  induction sts generalizing n with
  | nil =>
    obtain ⟨n, rfl⟩ : ∃ m, n = m + 1 := ⟨n - 1, by omega⟩
    rfl
  | cons st sts ih =>
    obtain ⟨n, rfl⟩ : ∃ m, n = m + 1 := ⟨n - 1, by omega⟩
    obtain ⟨c, t, starts, -⟩ := write_opens st
    have first := h st List.mem_cons_self
    have rest {m : Nat} := @ih (fun st' hst => h st' (List.mem_cons_of_mem _ hst)) m
    rw [writeLater, List.append_assoc] at hn ⊢
    simp only [List.length_append, starts, List.length_cons] at hn
    cases heading : st.isHeading with
    | false =>
      rw [heading] at hn
      simp only [Bool.false_eq_true, if_false, List.length_nil] at hn ⊢
      rw [List.nil_append, first.statementsIn?_statement, rest (by omega)]
      rfl
    | true =>
      rw [heading] at hn
      simp only [if_true, List.length_singleton] at hn ⊢
      obtain ⟨n, rfl⟩ : ∃ m, n = m + 1 := ⟨n - 1, by omega⟩
      rw [List.singleton_append, statementsIn?_newline, first.statementsIn?_statement,
        rest (by omega)]
      rfl

/-- A document that is written is read back. -/
theorem statements?_write (h : ∀ st ∈ sts, st.Written) : statements? (Toml.write sts) = some sts := by
  cases sts with
  | nil => rfl
  | cons st sts =>
    obtain ⟨c, t, starts, -, -, noMark⟩ := write_opens st
    have first := h st List.mem_cons_self
    have rest := statementsIn?_writeLater (fun st' hst => h st' (List.mem_cons_of_mem _ hst))
      (n := (Toml.write (st :: sts)).length) (by
        rw [Toml.write, starts, List.length_append, List.length_cons]
        omega)
    have unmarked : statements? (Toml.write (st :: sts)) =
        statementsIn? ((Toml.write (st :: sts)).length + 1) (st.write ++ writeLater sts) := by
      unfold statements?
      split
      · rename_i same
        rw [Toml.write, starts] at same
        exact absurd (List.cons.inj same).1 noMark
      · rfl
    rw [unmarked, first.statementsIn?_statement, rest]
    rfl

end Statement.Written
end DataTier.Toml
