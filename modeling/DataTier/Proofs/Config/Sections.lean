import DataTier.Cache.Settings
import DataTier.Pool.Settings
import DataTier.Proofs.Time.Grammar
import Mathlib.Algebra.GroupWithZero.Nat

/-! What becomes of the durations that sections give as text. Each is a whole number of
milliseconds, but seconds and minutes go up to where their milliseconds take ten bits more than
their count. -/

namespace DataTier

/-! ## Durations that can be written -/

namespace Time.Duration

variable {n : Nat} {d : Duration} {s unit : List Char}

/-- As many whole milliseconds as can be written, in whatever unit. -/
def Millis (d : Duration) : Prop :=
  d = ofMilliseconds d.wholeMilliseconds ∧ d.wholeMilliseconds ≤ (2 ^ 64 - 1) * 1000

theorem wholeMilliseconds_ofMilliseconds (n : Nat) : (ofMilliseconds n).wholeMilliseconds = n :=
  Nat.mul_div_cancel n (by decide)

theorem millis_ofMilliseconds (few : n ≤ (2 ^ 64 - 1) * 1000) : (ofMilliseconds n).Millis := by
  rw [Millis, wholeMilliseconds_ofMilliseconds]
  exact ⟨rfl, few⟩

theorem millis_ofSeconds (few : n ≤ 2 ^ 64 - 1) : (ofSeconds n).Millis := by
  have same : ofSeconds n = ofMilliseconds (n * 1000) := by
    rw [ofSeconds, ofMilliseconds, Nat.mul_assoc]
  rw [same]
  exact millis_ofMilliseconds (Nat.mul_le_mul_right 1000 few)

theorem Numeral.lt (h : Numeral n s) : n < Nat.pow 2 64 := by
  cases h with
  | intro plus nonempty decimal small => exact small

theorem Counts.millis (counts : Counts n unit d) (small : n < Nat.pow 2 64) : d.Millis := by
  have few : n ≤ 2 ^ 64 - 1 := Nat.le_sub_one_of_lt small
  cases counts with
  | milliseconds => exact millis_ofMilliseconds (by omega)
  | seconds | bare => exact millis_ofSeconds few
  | minutes fits => exact millis_ofSeconds (Nat.le_sub_one_of_lt fits)

theorem Written.millis (written : Written d s) : d.Millis := by
  cases written with
  | intro leading number between counts trailing => exact counts.millis number.lt

end Time.Duration

open Time (Duration)

/-! ## Sections -/

namespace Config

variable {α β : Type} {t : Duration}

theorem bind_eq_ok {x : Except Error α} {f : α → Except Error β} {b : β} :
    (x >>= f) = .ok b ↔ ∃ a, x = .ok a ∧ f a = .ok b := by
  cases x with
  | error e => simp [bind, Except.bind]
  | ok a => simp [bind, Except.bind]

/-- A duration that is accepted is the one written, if any is. -/
theorem duration_written {field : String} {text : Option String} {d : Option Duration}
    (accepted : duration? field text = .ok d) :
    d = some t ↔ ∃ raw, text = some raw ∧ Duration.parse? raw = some t := by
  unfold duration? at accepted
  split at accepted
  · cases accepted
    simp
  · split at accepted <;> rename_i read
    · cases accepted
      simp [read]
    · cases accepted

theorem millis_of_duration {field : String} {text : Option String} {d : Option Duration}
    (accepted : duration? field text = .ok d) {usual : Duration} (millis : usual.Millis) :
    (d.getD usual).Millis := by
  cases d with
  | none => exact millis
  | some t =>
    obtain ⟨raw, -, read⟩ := (duration_written accepted).mp rfl
    exact (Duration.written_of_parseChars? read).millis

end Config

theorem Pool.Settings.millis_of_ofSection? {section? : Option Config.PoolSection}
    {s : Pool.Settings} (accepted : Pool.Settings.ofSection? section? = .ok s) :
    s.maxCheckoutTime.Millis ∧ s.timeToWait.Millis ∧ s.pingConnectionsNotUsedFor.Millis := by
  have twenty : (Duration.ofSeconds 20).Millis := Duration.millis_ofSeconds (by decide)
  have zero : Duration.zero.Millis := Duration.millis_ofMilliseconds (Nat.zero_le _)
  cases section? with
  | none =>
    cases accepted
    exact ⟨twenty, twenty, zero⟩
  | some given =>
    obtain ⟨checkout, hc, accepted⟩ := Config.bind_eq_ok.mp accepted
    obtain ⟨wait, hw, accepted⟩ := Config.bind_eq_ok.mp accepted
    obtain ⟨unused, hu, accepted⟩ := Config.bind_eq_ok.mp accepted
    cases accepted
    exact ⟨Config.millis_of_duration hc twenty, Config.millis_of_duration hw twenty,
      Config.millis_of_duration hu zero⟩

namespace Cache.Settings

variable {id : String} {given : Config.CacheSection} {s : Settings} {t : Duration}

theorem blocking_written (accepted : ofSection id given = .ok s) :
    s.id = id ∧ s.blocking = given.blocking.getD true := by
  obtain ⟨wait, _, accepted⟩ := Config.bind_eq_ok.mp accepted
  cases accepted
  exact ⟨rfl, rfl⟩

/-- The timeout in use is the one written, unless that has no length. -/
theorem timeout_written (accepted : ofSection id given = .ok s) : s.blockingTimeout = some t ↔
    ∃ raw, given.blockingTimeout = some raw ∧ Duration.parse? raw = some t ∧ t.isZero = false := by
  obtain ⟨wait, hw, accepted⟩ := Config.bind_eq_ok.mp accepted
  cases accepted
  show wait.bind Duration.positive? = some t ↔ _
  rw [Option.bind_eq_some_iff]
  constructor
  · rintro ⟨u, found, positive⟩
    rw [Duration.positive?] at positive
    split at positive <;> rename_i length
    · cases positive
    · cases positive
      obtain ⟨raw, text, read⟩ := (Config.duration_written hw).mp found
      exact ⟨raw, text, read, Bool.eq_false_iff.mpr length⟩
  · rintro ⟨raw, text, read, length⟩
    refine ⟨t, (Config.duration_written hw).mpr ⟨raw, text, read⟩, ?_⟩
    rw [Duration.positive?, length]
    rfl

theorem millis_of_ofSection? {section? : Option Config.CacheSection}
    (accepted : ofSection? id section? = .ok s) : ∀ t, s.blockingTimeout = some t → t.Millis := by
  intro t wait
  cases section? with
  | none =>
    cases accepted
    cases wait
  | some given =>
    obtain ⟨raw, -, read, -⟩ := (timeout_written accepted).mp wait
    exact (Duration.written_of_parseChars? read).millis

end Cache.Settings
end DataTier
