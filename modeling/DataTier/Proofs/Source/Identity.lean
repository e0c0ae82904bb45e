import DataTier.Proofs.Digest.Framing
import DataTier.Source.DataSource

/-! Which identity a fingerprint stands for. A text has never as many bytes as the length field of
an absent part says, so the stream that is hashed tells what is absent from what is empty, and where
each of the three parts ends; two fingerprints are equal for different identities only if SHA-256
has one digest for two different streams. -/

namespace DataTier.Source.Fingerprint

open Digest

/-! ## Streams -/

/-- A part that is there is shorter than what says that it is not. -/
def FitsField (part : Option (List UInt8)) : Prop := ∀ bytes ∈ part, bytes.length < absentLength

def lengthField : Option (List UInt8) → Nat
  | none => absentLength
  | some bytes => bytes.length

theorem framePart_eq (part : Option (List UInt8)) :
    framePart part = bigEndian 8 (lengthField part) ++ part.getD [] := by
  cases part with
  | none => exact (List.append_nil _).symm
  | some bytes => rfl

theorem FitsField.lengthField_lt {part : Option (List UInt8)} (h : FitsField part) :
    lengthField part < fieldBound 8 := by
  have absent : absentLength < fieldBound 8 := by decide
  cases part with
  | none => exact absent
  | some bytes => exact Nat.lt_trans (h bytes rfl) absent

theorem framing : Framing framePart FitsField where
  nonempty part empty := by
    have length := congrArg List.length empty
    simp [framePart_eq] at length
  ends {a b r s} ha hb same := by
    rw [framePart_eq, framePart_eq, List.append_assoc, List.append_assoc] at same
    obtain ⟨fields, rest⟩ := List.append_inj same (by simp)
    have lengths := bigEndian_inj ha.lengthField_lt hb.lengthField_lt fields
    cases a with
    | none =>
      cases b with
      | none => exact ⟨rfl, rest⟩
      | some y => exact absurd lengths (Nat.ne_of_gt (hb y rfl))
    | some x =>
      cases b with
      | none => exact absurd lengths (Nat.ne_of_lt (ha x rfl))
      | some y =>
        obtain ⟨bytes, behind⟩ := List.append_inj rest lengths
        exact ⟨congrArg some bytes, behind⟩

theorem parts_injective {u v : String} {c e : Credentials} (same : parts u c = parts v e) :
    u = v ∧ c.username = e.username ∧ c.password = e.password := by
  have bytes : Function.Injective textBytes := fun _ _ => textBytes_injective
  simp only [parts, List.cons.injEq, Option.some.injEq, and_true] at same
  exact ⟨bytes same.1, Option.map_injective bytes same.2.1, Option.map_injective bytes same.2.2⟩

/-- No text in memory has more bytes. -/
def longestText : Nat := Nat.pow 2 63 - 1

theorem longestText_lt : longestText < absentLength := by decide

/-- An endpoint and credentials whose texts are no longer than a text can be. -/
structure Fits (url : String) (c : Credentials) : Prop where
  url : url.utf8ByteSize ≤ longestText
  username : ∀ name ∈ c.username, name.utf8ByteSize ≤ longestText
  password : ∀ secret ∈ c.password, secret.utf8ByteSize ≤ longestText

theorem fitsField_textBytes {text : Option String}
    (h : ∀ t ∈ text, t.utf8ByteSize ≤ longestText) : FitsField (text.map textBytes) := by
  rintro bytes hb
  obtain ⟨t, ht, rfl⟩ := Option.map_eq_some_iff.mp hb
  rw [length_textBytes]
  exact Nat.lt_of_le_of_lt (h t ht) longestText_lt

theorem Fits.parts {url : String} {c : Credentials} (h : Fits url c) :
    ∀ part ∈ parts url c, FitsField part := by
  have endpoint : FitsField (some (textBytes url)) := by
    rintro _ ⟨⟩
    rw [length_textBytes]
    exact Nat.lt_of_le_of_lt h.url longestText_lt
  simp only [Fingerprint.parts, List.forall_mem_cons]
  exact ⟨endpoint, fitsField_textBytes h.username, fitsField_textBytes h.password,
    fun _ hp => by cases hp⟩

theorem stream_injective {u v : String} {c e : Credentials} (hu : Fits u c) (hv : Fits v e)
    (same : stream u c = stream v e) :
    u = v ∧ c.username = e.username ∧ c.password = e.password :=
  parts_injective (framing.flatMap_inj hu.parts hv.parts same)

/-! ## Fingerprints -/

/-- The hashed streams of two identities are equal just where endpoint, name and password all
agree, one that is absent and one that is empty being different; and so are the fingerprints of
data sources under credentials, unless the two streams are a collision. -/
theorem fingerprints_tell_identities_apart (s t : DataSource) (c e : Credentials)
    (hs : Fits s.url c) (ht : Fits t.url e) :
    (stream s.url c = stream t.url e ↔
      s.url = t.url ∧ c.username = e.username ∧ c.password = e.password) ∧
      ((Sha256.hash (stream s.url c) = Sha256.hash (stream t.url e) →
          stream s.url c = stream t.url e) →
        (s.fingerprintFor c = t.fingerprintFor e ↔
          s.url = t.url ∧ c.username = e.username ∧ c.password = e.password)) := by
  have streams : stream s.url c = stream t.url e ↔
      s.url = t.url ∧ c.username = e.username ∧ c.password = e.password := by
    refine ⟨stream_injective hs ht, ?_⟩
    rintro ⟨url, name, password⟩
    rw [stream, stream, parts, parts, url, name, password]
  refine ⟨streams, fun apart => ?_⟩
  rw [← streams]
  refine ⟨fun same => apart (Sha256.hexDigest_eq_iff.mp (Fingerprint.mk.inj same)),
    fun same => ?_⟩
  rw [DataSource.fingerprintFor, DataSource.fingerprintFor, of, of, same]

/-- The bytes that an empty password adds are those of a password that is absent. -/
theorem fingerprints_tell_identities_apart_unset :
    let s : DataSource := { url := "u" }
    let c : Credentials := { username := some "app" }
    let e : Credentials := .named "app" ""
    Fits s.url c ∧ Fits s.url e ∧
      (Sha256.hash (stream s.url c) = Sha256.hash (stream s.url e) →
        stream s.url c = stream s.url e) ∧
      s.fingerprintFor c ≠ s.fingerprintFor e := by
  intro s c e
  have hc : Fits s.url c := ⟨by decide +kernel, by decide +kernel, by decide +kernel⟩
  have he : Fits s.url e := ⟨by decide +kernel, by decide +kernel, by decide +kernel⟩
  have apart : Sha256.hash (stream s.url c) = Sha256.hash (stream s.url e) →
      stream s.url c = stream s.url e := by
    decide +kernel
  refine ⟨hc, he, apart, fun same => ?_⟩
  have agree := ((fingerprints_tell_identities_apart s s c e hc he).2 apart).mp same
  exact absurd agree.2.2 (by decide)

end DataTier.Source.Fingerprint
