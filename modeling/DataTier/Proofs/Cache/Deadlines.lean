import DataTier.Proofs.Cache.Looking
import DataTier.Proofs.Config.Sections

/-! When the waits at the gates end. A reader works out the end of its wait before it looks at the
gate, and fails if the clock has no such reading. The timeout is that of the section for as long as
the chain is there (`Party.timeout_of_play`), so whether a reader fails is a matter of the section
and of the time when it comes (`reader_fails_iff`). -/

namespace DataTier

namespace Time.Instant

theorem secondsBound_eq : secondsBound = 2 ^ 63 := rfl

end Time.Instant

namespace Cache

open Blocking (Visit)
open Time (Duration Instant)

/-! ## Timeouts -/

namespace Blocking

variable {σ : Type}

theorem perform_timeout (d : Clocked σ) (now : Instant) (c : Call) (s : Blocking σ) :
    ((store d now).perform c s).2.gates.timeout = s.gates.timeout := by
  cases c with
  | size | contains | clear => rfl
  | get k => exact alone_timeout (d now) now (.read (d now).id now k s.gates.timeout) s
  | put k e => exact alone_timeout (d now) now (.write k e) s
  | remove k => exact alone_timeout (d now) now (.giveUp k) s

/-- A reader that cannot name the end of its wait fails, any other one enters. -/
theorem Visit.read_at (id : String) (now : Instant) (k : Key) (timeout : Option Duration) :
    (∃ t, timeout = some t ∧ now.after? t = none ∧
      Visit.read id now k timeout = ⟨k, .finished (.error (.deadline k id t)), some t, none⟩) ∨
    (∀ t, timeout = some t → now.after? t = some (now.plus t)) ∧
      Visit.read id now k timeout = ⟨k, .entering, timeout, timeout.map now.plus⟩ := by
  cases timeout with
  | none => exact .inr ⟨nofun, rfl⟩
  | some t =>
    rw [Visit.read]
    cases ends : now.after? t with
    | none => exact .inl ⟨t, rfl, ends, rfl⟩
    | some deadline =>
      obtain ⟨rfl, -⟩ := (Instant.after?_eq_some_iff now deadline t).mp ends
      refine .inr ⟨?_, rfl⟩
      rintro _ ⟨⟩
      exact ends

end Blocking

/-! ## Parties -/

namespace Party

variable {ι : Type} [DecidableEq ι] {s below : Shape} {w : Party ι s} {P : s.State → Prop}

theorem chain_begin (i : ι) (v : Visit) (w : Party ι s) : (w.begin i v).chain = w.chain := by
  unfold begin
  split <;> rfl

/-- What the operations and the steps of visits keep, a party keeps. -/
theorem act_keeps (turn : ∀ now o st, P st → P (s.turn now st o).2)
    (step : ∀ now v st v' st', s.step now v st = some (v', st') → P st → P st')
    (e : Event ι) (start : P w.chain) : P (w.act e).2.chain := by
  cases e with
  | does now o => exact turn now o w.chain start
  | read | write | giveUp =>
    simp only [act, chain_begin]
    exact start
  | step i now =>
    simp only [act]
    split
    · exact start
    · split
      · exact start
      · rename_i v _ _ v' st' moved
        exact step now v w.chain v' st' moved start
  | collect i =>
    simp only [act]
    split <;> exact start

theorem play_keeps (turn : ∀ now o st, P st → P (s.turn now st o).2)
    (step : ∀ now v st v' st', s.step now v st = some (v', st') → P st → P st')
    (es : List (Event ι)) (start : P w.chain) : P (w.play es).2.chain := by
  induction es generalizing w with
  | nil => exact start
  | cons e es ih => exact ih (act_keeps turn step e start)

/-- Nothing that is done at gates changes their timeout. -/
theorem timeout_of_play (timeout : Option Duration) (below : Shape)
    (es : List (Event ι)) :
    let st : Blocking below.State := ((start (.blocking timeout below)).play es).2.chain
    st.gates.timeout = timeout.bind Duration.positive? := by
  refine play_keeps (s := .blocking timeout below) (w := start (.blocking timeout below))
    (P := fun st : Blocking below.State => st.gates.timeout = timeout.bind Duration.positive?)
    ?_ ?_ es rfl
  · intro now o st same
    cases o with
    | call c => exact (Blocking.perform_timeout below.store now c st).trans same
    | reclaimUnretained => exact same
  · intro now v st v' st' moved same
    exact (Blocking.Visit.step_cases moved).timeout.trans same

end Party

/-! ## Built chains -/

namespace Settings

variable {ι : Type} [DecidableEq ι] {id : String} {given : Config.CacheSection}
  {settings : Settings} {now : Instant}

/-- The section asks for gates with a timeout that ends after all that the clock can show. -/
def Outlasts (given : Config.CacheSection) (now : Instant) : Prop :=
  given.blocking ≠ some false ∧ ∃ raw t, given.blockingTimeout = some raw ∧
    Duration.parse? raw = some t ∧ 2 ^ 63 * 1000000000 ≤ now.nanoseconds + t.nanoseconds

theorem outlasts_iff (accepted : ofSection id given = .ok settings)
    (shown : now.inRange = true) : Outlasts given now ↔
      settings.blocking = true ∧ ∃ t, settings.blockingTimeout = some t ∧ now.after? t = none := by
  have gates : settings.blocking = true ↔ given.blocking ≠ some false := by
    rw [(blocking_written accepted).2]
    rcases given.blocking with _ | _ | _ <;> simp
  rw [gates, Outlasts]
  refine and_congr_right fun _ => ?_
  simp only [timeout_written accepted, Instant.after?_eq_none_iff, Instant.secondsBound_eq]
  constructor
  · rintro ⟨raw, t, text, read, late⟩
    refine ⟨t, ⟨raw, text, read, ?_⟩, late⟩
    -- without any length, the wait would end now
    rw [Duration.isZero, beq_eq_false_iff_ne]
    have early := Instant.inRange_iff.mp shown
    rw [Instant.secondsBound_eq] at early
    omega
  · rintro ⟨t, ⟨raw, text, read, -⟩, late⟩
    exact ⟨raw, t, text, read, late⟩

theorem timeout_positive (accepted : ofSection id given = .ok settings) :
    settings.blockingTimeout.bind Duration.positive? = settings.blockingTimeout := by
  cases wait : settings.blockingTimeout with
  | none => rfl
  | some t =>
    obtain ⟨raw, -, -, length⟩ := (timeout_written accepted).mp wait
    rw [Option.bind_some, Duration.positive?, length]
    rfl

/-- Every reader starts out with the timeout that the chain was built with. -/
theorem visitor_eq (accepted : ofSection id given = .ok settings) (es : List (Party.Event ι))
    (k : Key) (now : Instant) :
    settings.shape.visitor now k ((Party.start settings.shape).play es).2.chain =
      .read id now k (if settings.blocking then settings.blockingTimeout else none) := by
  rw [← (blocking_written accepted).1]
  cases hb : settings.blocking with
  | false =>
    rw [shape_of_soft hb]
    rfl
  | true =>
    have same := Party.timeout_of_play settings.blockingTimeout
      (.soft settings.limits (.memory settings.id settings.maxEntries)) es
    rw [timeout_positive accepted] at same
    rw [shape_of_gated hb, if_pos rfl]
    exact congrArg (Visit.read settings.id now k) same

/-- There is a timeout that is accepted and fails every reader, whenever it comes. -/
theorem accepted_timeout_fails_readers :
    let given : Config.CacheSection := { blockingTimeout := some "18446744073709551615s" }
    let wait : Duration := .ofSeconds 18446744073709551615
    let settings : Settings := { id := "users", blockingTimeout := some wait }
    ofSection "users" given = .ok settings ∧ ∀ now,
      (settings.shape.visitor now ⟨"a"⟩ settings.shape.initial).answer? =
        some (.error (.deadline ⟨"a"⟩ "users" wait)) := by
  intro given wait settings
  have read : Duration.parse? "18446744073709551615s" = some wait := by decide +kernel
  have accepted : ofSection "users" given = .ok settings := by
    simp only [ofSection, Config.duration?, given, read]
    rfl
  refine ⟨accepted, ?_⟩
  intro now
  have late : now.after? wait = none := by
    rw [Instant.after?_eq_none_iff, Instant.secondsBound_eq]
    show 2 ^ 63 * 1000000000 ≤ now.nanoseconds + 18446744073709551615 * 1000000000
    omega
  have first : settings.shape.visitor now ⟨"a"⟩ settings.shape.initial =
      .read "users" now ⟨"a"⟩ (some wait) := visitor_eq (ι := Unit) accepted [] ⟨"a"⟩ now
  rcases Blocking.Visit.read_at "users" now ⟨"a"⟩ (some wait) with
    ⟨t, same, -, fails⟩ | ⟨early, -⟩
  · rw [first, fails, Option.some.inj same]
    rfl
  · cases late.symm.trans (early wait rfl)

/-- Any callers may have done anything on a chain that an accepted section builds. A caller that
begins to read then fails at once exactly if the section asks for gates with a timeout that ends
after all that the clock can show, whatever the key is and whether its gate is open or not. All
others enter, with the end of their wait, if it has one, on the clock. -/
theorem reader_fails_iff (id : String) (given : Config.CacheSection) (settings : Settings)
    (accepted : ofSection id given = .ok settings) (es : List (Party.Event ι)) (k : Key)
    (now : Instant) (shown : now.inRange = true) :
    let w := ((Party.start settings.shape).play es).2
    ∀ i, w.visit i = none → ∃ v, (w.act (.read i k now)).2.visit i = some v ∧
      ((∃ t, v.answer? = some (.error (.deadline k id t))) ↔ Outlasts given now) ∧
      (¬Outlasts given now → v.phase = .entering ∧
        v.deadline = (if settings.blocking then settings.blockingTimeout.map now.plus else none) ∧
        ∀ u, v.deadline = some u → u.inRange = true) := by
  intro w i idle
  have begun : (w.act (.read i k now)).2.visit i =
      some (.read id now k (if settings.blocking then settings.blockingTimeout else none)) := by
    rw [← visitor_eq accepted es k now]
    simp only [Party.act, Party.begin, idle, Function.update_self]
    rfl
  refine ⟨_, begun, ?_⟩
  rw [outlasts_iff accepted shown]
  cases settings.blocking with
  | false =>
    refine ⟨by simp [Visit.read, Visit.answer?], fun _ => ⟨rfl, rfl, ?_⟩⟩
    intro u ends
    cases ends
  | true =>
    rw [if_pos rfl]
    rcases Blocking.Visit.read_at id now k settings.blockingTimeout with
      ⟨t, wait, late, fails⟩ | ⟨early, enters⟩
    · rw [fails]
      have outlasts : true = true ∧
          ∃ t, settings.blockingTimeout = some t ∧ now.after? t = none := ⟨rfl, t, wait, late⟩
      exact ⟨iff_of_true ⟨t, rfl⟩ outlasts, fun within => absurd outlasts within⟩
    · rw [enters]
      refine ⟨iff_of_false ?_ ?_, fun _ => ⟨rfl, rfl, ?_⟩⟩
      · rintro ⟨t, fails⟩
        cases fails
      · rintro ⟨-, t, wait, late⟩
        cases late.symm.trans (early t wait)
      · intro u ends
        obtain ⟨t, wait, rfl⟩ := Option.map_eq_some_iff.mp ends
        exact ((Instant.after?_eq_some_iff now _ t).mp (early t wait)).2

theorem reader_fails_iff_in_time :
    let given : Config.CacheSection := { blockingTimeout := some "2s" }
    let settings : Settings := { id := "users", blockingTimeout := some (.ofSeconds 2) }
    let w := ((Party.start settings.shape).play
      [.read false ⟨"a"⟩ .start, .step false .start]).2
    ofSection "users" given = .ok settings ∧ Instant.start.inRange = true ∧
      w.visit true = none ∧ ∃ v, (w.act (.read true ⟨"a"⟩ .start)).2.visit true = some v ∧
        v.phase = .entering ∧ v.deadline = some ⟨2000000000⟩ := by
  intro given settings w
  have accepted : ofSection "users" given = .ok settings := by rfl
  have shown : Instant.start.inRange = true := by decide
  have idle : w.visit true = none := by rfl
  have within : ¬Outlasts given Instant.start := by
    rintro ⟨-, raw, t, text, read, late⟩
    cases text
    cases read.symm.trans (show Duration.parse? "2s" = some (.ofSeconds 2) by decide)
    exact absurd late (by decide)
  obtain ⟨v, begun, -, enters⟩ := reader_fails_iff "users" given settings accepted
    [.read false ⟨"a"⟩ .start, .step false .start] ⟨"a"⟩ Instant.start shown true idle
  obtain ⟨entering, ends, -⟩ := enters within
  exact ⟨accepted, shown, idle, v, begun, entering, ends⟩

end Settings
end Cache
end DataTier
