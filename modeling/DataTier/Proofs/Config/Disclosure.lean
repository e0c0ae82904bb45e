import DataTier.Command.Plan
import DataTier.Proofs.Digest.Framing

/-! What a check gives away of the password. In either format the leading digits of the fingerprint
stand in one place of what is shown, and around them is the same for every password; so checks of
two passwords look alike exactly where those digits do. -/

namespace DataTier

/-! ## Texts with a place for something -/

namespace Text

variable {α : Type} {part f : α → String}

/-- The text has the part in one place, and around it is always the same. -/
def Shows (part f : α → String) : Prop := ∃ before after, ∀ a, f a = before ++ part a ++ after

namespace Shows

theorem itself (part : α → String) : Shows part part := ⟨"", "", by simp⟩

theorem after (s : String) (h : Shows part f) : Shows part fun a => s ++ f a := by
  obtain ⟨before, rest, same⟩ := h
  exact ⟨s ++ before, rest, fun a => by simp only [same, String.append_assoc]⟩

theorem before (h : Shows part f) (s : String) : Shows part fun a => f a ++ s := by
  obtain ⟨first, rest, same⟩ := h
  exact ⟨first, rest ++ s, fun a => by simp only [same, String.append_assoc]⟩

theorem among (h : Shows part f) (separator : String) (xs ys : List String) :
    Shows part fun a => separator.intercalate (xs ++ f a :: ys) := by
  induction xs with
  | nil =>
    cases ys with
    | nil => simpa only [List.nil_append, String.intercalate_singleton] using h
    | cons y ys =>
      simpa only [List.nil_append, String.intercalate_cons_cons, String.append_assoc] using
        h.before (separator ++ separator.intercalate (y :: ys))
  | cons x xs ih =>
    have more (a : α) : xs ++ f a :: ys ≠ [] := by simp
    simpa only [List.cons_append, String.intercalate_cons_of_ne_nil (more _)] using
      ih.after (x ++ separator)

/-- All that can be told from such a text of what it is about is the part. -/
theorem eq_iff (h : Shows part f) (a b : α) : f a = f b ↔ part a = part b := by
  obtain ⟨first, rest, same⟩ := h
  rw [same, same, String.append_left_inj, String.append_right_inj]

end Shows
end Text

open Text (Shows)

/-! ## Data values -/

namespace Json

variable {α : Type} {part : α → String} {v : α → Json}

theorem quote_eq {s : String} (h : ∀ c ∈ s.toList, escape c = String.singleton c) :
    quote s = "\"" ++ s ++ "\"" := by
  have written (cs : List Char) (plain : ∀ c ∈ cs, escape c = String.singleton c) (acc : String) :
      cs.foldl (fun acc c => acc ++ escape c) acc = acc ++ String.ofList cs := by
    induction cs generalizing acc with
    | nil => simp
    | cons c cs ih =>
      rw [List.foldl_cons, plain c List.mem_cons_self,
        ih (fun d hd => plain d (List.mem_cons_of_mem c hd)), String.append_assoc]
      simp
  rw [quote, String.foldl_eq_foldl_toList, written _ h, String.ofList_toList]

/-- Text without anything to escape is shown as it is. -/
theorem text_shows (depth : Nat) (plain : ∀ a, ∀ c ∈ (part a).toList, escape c = String.singleton c) :
    Shows part fun a => indented depth (.text (part a)) := by
  have quoted (a : α) : indented depth (.text (part a)) = "\"" ++ part a ++ "\"" :=
    quote_eq (plain a)
  simpa only [quoted] using ((Shows.itself part).after "\"").before "\""

theorem indentedMembers_append (depth : Nat) (ms ns : List (String × Json)) :
    indentedMembers depth (ms ++ ns) = indentedMembers depth ms ++ indentedMembers depth ns := by
  induction ms with
  | nil => rfl
  | cons m ms ih => rw [List.cons_append, indentedMembers, ih, indentedMembers, List.cons_append]

theorem enclose_shows {f : α → String} (h : Shows part f) (opening closing : String) (depth : Nat)
    (xs ys : List String) : Shows part fun a => enclose opening closing depth (xs ++ f a :: ys) := by
  have some (a : α) : (xs ++ f a :: ys).isEmpty = false := by simp
  simpa only [enclose, some, Bool.false_eq_true, if_false] using
    (((h.among ("," ++ margin (depth + 1)) xs ys).after (opening ++ margin (depth + 1))).before
      (margin depth)).before closing

/-- What a member shows, the object shows. -/
theorem member_shows {depth : Nat} (h : Shows part fun a => indented (depth + 1) (v a))
    (ms ns : List (String × Json)) (name : String) :
    Shows part fun a => indented depth (.object (ms ++ (name, v a) :: ns)) := by
  simpa only [indented, indentedMembers_append, indentedMembers] using
    enclose_shows (h.after (quote name ++ ": ")) "\x7b" "\x7d" depth (indentedMembers depth ms)
      (indentedMembers depth ns)

end Json

/-! ## Fingerprints -/

namespace Source

/-- The digits of a fingerprint need no escape in a data value. -/
theorem Fingerprint.escape_short {url : String} {c : Credentials} {d : Char}
    (h : d ∈ (Fingerprint.of url c).short.toList) : Json.escape d = String.singleton d := by
  have digit : ∀ n < 16, Json.escape (Text.hexDigit n) = String.singleton (Text.hexDigit n) := by
    decide
  rw [short, String.toList_ofList] at h
  have inside := List.mem_of_mem_take h
  rw [of, Digest.Sha256.hexDigest, Text.hexOfBytes, String.toList_ofList, List.mem_flatMap] at inside
  obtain ⟨byte, -, of_byte⟩ := inside
  have small := byte.toNat_lt
  rw [Text.hexOfByte, List.mem_cons, List.mem_singleton] at of_byte
  rcases of_byte with rfl | rfl
  · exact digit _ (by omega)
  · exact digit _ (by omega)

theorem Fingerprint.length_short (url : String) (c : Credentials) :
    (Fingerprint.of url c).short.length = 12 := by
  rw [short, String.length_ofList, List.length_take, of, String.length_toList,
    Digest.Sha256.length_hexDigest]
  rfl

def DataSource.withPassword (p : String) (s : DataSource) : DataSource :=
  { s with credentials := { s.credentials with password := some p } }

end Source

/-! ## Checked configurations -/

namespace Resolved

def withPassword (p : String) (r : Resolved) : Resolved :=
  { r with source := r.source.withPassword p }

/-- The leading digits of the fingerprint under a password. -/
def digits (r : Resolved) (p : String) : String := (r.withPassword p).source.fingerprint.short

theorem data_shows (r : Resolved) : Shows r.digits fun p => (r.withPassword p).data.pretty := by
  have source (p : String) : sourceData (r.withPassword p).source =
      .object ([] ++ ("fingerprint", .text (r.digits p)) ::
        [("password_set", .bool true), ("url", .text r.source.url),
          ("username", .option .text r.source.credentials.username)]) := by
    simp only [sourceData, Json.ofMembers, List.foldl, Json.insert, String.reduceLT, String.reduceEq,
      if_true, if_false, List.nil_append]
    rfl
  have members (p : String) : (r.withPassword p).data =
      .object ([("cache", cacheData r.cache)] ++
        ("datasource", sourceData (r.withPassword p).source) :: [("pool", poolData r.pool)]) := by
    simp only [data, Json.ofMembers, List.foldl, Json.insert, String.reduceLT, String.reduceEq,
      if_true, if_false, List.singleton_append]
    rfl
  have plain (p : String) : ∀ c ∈ (r.digits p).toList, Json.escape c = String.singleton c :=
    fun c hc => Source.Fingerprint.escape_short hc
  have shown := Json.member_shows (Json.text_shows 2 plain) []
    [("password_set", .bool true), ("url", .text r.source.url),
      ("username", .option .text r.source.credentials.username)] "fingerprint"
  simp only [← source] at shown
  simpa only [Json.pretty, members] using Json.member_shows shown
    [("cache", cacheData r.cache)] [("pool", poolData r.pool)] "datasource"

theorem render_shows (r : Resolved) : Shows r.digits fun p => (r.withPassword p).render := by
  let later := [poolLine r.pool] ++ (if r.pool.pingEnabled then [pingLine r.pool] else []) ++
    [cacheLine r.cache]
  have lines (p : String) : (r.withPassword p).render =
      "✓ " ++ r.source.url ++ " (" ++ r.digits p ++ (")\n" ++ String.join (later.map (· ++ "\n"))) := by
    have split : (r.withPassword p).lines =
        ("✓ " ++ r.source.url ++ " (" ++ r.digits p ++ ")") :: later := rfl
    rw [render, split, List.map_cons, String.join_cons]
    simp only [String.append_assoc]
    rfl
  simpa only [lines] using ((Shows.itself r.digits).after ("✓ " ++ r.source.url ++ " (")).before
    (")\n" ++ String.join (later.map (· ++ "\n")))

end Resolved

/-! ## Checks -/

namespace Config

open Command

def withPassword (p : String) (c : Config) : Config :=
  { c with source := { c.source with password := some p } }

theorem resolve_eq_ok_iff {c : Config} {r : Resolved} : c.resolve = .ok r ↔
    Pool.Settings.ofSection? c.pool = .ok r.pool ∧
      Cache.Settings.ofSection? Resolved.cacheId c.cache = .ok r.cache ∧
      r.pool.maxActive ≠ 0 ∧ r.source = c.source.dataSource := by
  obtain ⟨source, pool, cache⟩ := r
  unfold resolve
  cases Pool.Settings.ofSection? c.pool with
  | error e => simp [bind, Except.bind]
  | ok pool' =>
    cases Cache.Settings.ofSection? Resolved.cacheId c.cache with
    | error e => simp [bind, Except.bind]
    | ok cache' =>
      by_cases unusable : pool'.maxActive = 0
      · simp only [bind, Except.bind, unusable, if_true, reduceCtorEq, false_iff]
        rintro ⟨same, -, usable, -⟩
        exact usable (Except.ok.inj same ▸ unusable)
      · simp only [bind, Except.bind, unusable, if_false, pure, Except.pure, Except.ok.injEq,
          Resolved.mk.injEq]
        constructor
        · rintro ⟨rfl, rfl, rfl⟩
          exact ⟨rfl, rfl, unusable, rfl⟩
        · rintro ⟨rfl, rfl, -, rfl⟩
          exact ⟨rfl, rfl, rfl⟩

/-- Whether a configuration is accepted is no matter of the password. -/
theorem resolve_withPassword {c : Config} {r : Resolved} (resolves : c.resolve = .ok r)
    (p : String) : (c.withPassword p).resolve = .ok (r.withPassword p) := by
  obtain ⟨pool, cache, usable, source⟩ := resolve_eq_ok_iff.mp resolves
  exact resolve_eq_ok_iff.mpr
    ⟨pool, cache, usable, congrArg (Source.DataSource.withPassword p) source⟩

theorem showResolved_shows (format : String) (r : Resolved) :
    Shows r.digits fun p => showResolved format (r.withPassword p) := by
  unfold showResolved
  split
  · exact r.data_shows.before "\n"
  · exact r.render_shows

theorem checkFile_eq {c : Config} {r : Resolved} (resolves : c.resolve = .ok r) {p : String}
    {file : Except FileFailure ByteArray} (reads : ofFile file = .ok (c.withPassword p))
    (format : String) : checkFile format file = .ok (showResolved format (r.withPassword p)) := by
  simp only [checkFile, reads, bind, Except.bind, resolve_withPassword resolves p]
  rfl

/-! ### Two passwords for one endpoint -/

def endpoint : Config := { source := { url := "postgres://db/app", username := some "app" } }

def endpointFile (password : String) : Except FileFailure ByteArray :=
  .ok ("[datasource]\nurl = \"postgres://db/app\"\nusername = \"app\"\npassword = \"" ++
    password ++ "\"\n").toUTF8

theorem eq_ok_of_toOption {α : Type} {x : Except Error α} {a : α} (h : x.toOption = some a) :
    x = .ok a := by
  cases x with
  | error e => cases h
  | ok b => exact congrArg Except.ok (Option.some.inj h)

theorem ofFile_of_parse {s : String} {c : Config} (reads : (parse s).toOption = some c) :
    ofFile (.ok s.toUTF8) = .ok c := by
  rw [ofFile_toUTF8, eq_ok_of_toOption reads]

theorem endpointFile_secret :
    ofFile (endpointFile "secret") = .ok (endpoint.withPassword "secret") :=
  ofFile_of_parse (by decide +kernel)

theorem endpointFile_hunter2 :
    ofFile (endpointFile "hunter2") = .ok (endpoint.withPassword "hunter2") :=
  ofFile_of_parse (by decide +kernel)

theorem resolve_endpoint :
    endpoint.resolve = .ok ⟨endpoint.source.dataSource, {}, { id := Resolved.cacheId }⟩ := rfl

/-- A check of a configuration that is accepted shows, in either format, the twelve leading digits
of the fingerprint in one place, and around them what does not depend on the password. So checks
under two passwords show the same exactly if those digits of the fingerprints are the same. -/
theorem check_shows_digits (format : String) (c : Config) (r : Resolved)
    (resolves : c.resolve = .ok r) :
    let digits (p : String) : String :=
      (Source.Fingerprint.of c.source.url ⟨c.source.username, some p⟩).short
    (∃ before after, ∀ p file, ofFile file = .ok (c.withPassword p) →
      checkFile format file = .ok (before ++ digits p ++ after)) ∧
    (∀ p, (digits p).length = 12) ∧
    ∀ p q file file', ofFile file = .ok (c.withPassword p) → ofFile file' = .ok (c.withPassword q) →
      (checkFile format file = checkFile format file' ↔ digits p = digits q) := by
  intro digits
  have same : r.digits = digits := by
    funext p
    rw [Resolved.digits, Resolved.withPassword, (resolve_eq_ok_iff.mp resolves).2.2.2]
    rfl
  have shows := showResolved_shows format r
  rw [same] at shows
  refine ⟨?_, fun p => ?_, fun p q file file' reads reads' => ?_⟩
  · obtain ⟨before, after, shown⟩ := shows
    refine ⟨before, after, fun p file reads => ?_⟩
    exact (checkFile_eq resolves reads format).trans (congrArg Except.ok (shown p))
  · exact Source.Fingerprint.length_short ..
  · rw [checkFile_eq resolves reads, checkFile_eq resolves reads', Except.ok.injEq]
    exact shows.eq_iff p q

theorem check_shows_digits_endpoint :
    endpoint.resolve = .ok ⟨endpoint.source.dataSource, {}, { id := Resolved.cacheId }⟩ ∧
      ∃ before after,
        checkFile jsonFormat (endpointFile "secret") = .ok (before ++ "0f7e6495e02b" ++ after) ∧
        checkFile jsonFormat (endpointFile "hunter2") = .ok (before ++ "815ff3ea9b0b" ++ after) := by
  obtain ⟨⟨before, after, shown⟩, -, -⟩ :=
    check_shows_digits jsonFormat endpoint _ resolve_endpoint
  have secret := shown "secret" _ endpointFile_secret
  have hunter2 := shown "hunter2" _ endpointFile_hunter2
  have digits : (Source.Fingerprint.of endpoint.source.url ⟨endpoint.source.username,
    some "secret"⟩).short = "0f7e6495e02b" := by decide +kernel
  have digits' : (Source.Fingerprint.of endpoint.source.url ⟨endpoint.source.username,
    some "hunter2"⟩).short = "815ff3ea9b0b" := by decide +kernel
  dsimp only at secret hunter2
  rw [digits] at secret
  rw [digits'] at hunter2
  exact ⟨resolve_endpoint, before, after, secret, hunter2⟩

/-- The digits of the fingerprint tell the two passwords apart, in either format. -/
theorem check_tells_passwords_apart :
    ofFile (endpointFile "secret") = .ok (endpoint.withPassword "secret") ∧
      ofFile (endpointFile "hunter2") = .ok (endpoint.withPassword "hunter2") ∧
      (∃ r r', (endpoint.withPassword "secret").resolve = .ok r ∧
        (endpoint.withPassword "hunter2").resolve = .ok r') ∧
      ∀ format, checkFile format (endpointFile "secret") ≠ checkFile format (endpointFile "hunter2") := by
  refine ⟨endpointFile_secret, endpointFile_hunter2, ⟨_, _, rfl, rfl⟩, fun format same => ?_⟩
  rw [checkFile_eq resolve_endpoint endpointFile_secret,
    checkFile_eq resolve_endpoint endpointFile_hunter2, Except.ok.injEq] at same
  have digits := ((showResolved_shows format _).eq_iff "secret" "hunter2").mp same
  exact absurd digits (by decide +kernel)

end Config
end DataTier
