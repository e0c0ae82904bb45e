import DataTier.Proofs.Config.Disclosure
import DataTier.Proofs.Config.Sections

/-! The durations that a check reports as data. Milliseconds are reported modulo `2 ^ 64`, so what
is reported is right for every duration below that many, and too little for all others that may be
in use (`check_reports_milliseconds`). -/

namespace DataTier

/-! ## Members -/

namespace Json

variable {ms acc : List (String × Json)} {name n : String} {v : Json}

theorem lookup_cons_eq (n name : String) (v : Json) (ms : List (String × Json)) :
    ((n, v) :: ms).lookup name = if name = n then some v else ms.lookup name := by
  by_cases found : name = n
  · rw [found, List.lookup_cons_self, if_pos rfl]
  · rw [List.lookup_cons, beq_eq_false_iff_ne.mpr found, if_neg found]

theorem lookup_insert (n name : String) (v : Json) (ms : List (String × Json)) :
    (insert n v ms).lookup name = if name = n then some v else ms.lookup name := by
  induction ms with
  | nil => exact lookup_cons_eq n name v []
  | cons m ms ih =>
    obtain ⟨n', v'⟩ := m
    rw [insert]
    split
    · exact lookup_cons_eq n name v _
    · split
      · rename_i same
        subst same
        rw [lookup_cons_eq, lookup_cons_eq]
        split <;> rfl
      · rename_i other
        rw [lookup_cons_eq, lookup_cons_eq, ih]
        by_cases found : name = n'
        · rw [if_pos found, if_neg (found ▸ Ne.symm other), if_pos found]
        · rw [if_neg found, if_neg found]

theorem lookup_foldl_of_not_mem (absent : name ∉ ms.map Prod.fst) :
    (ms.foldl (fun acc m => insert m.1 m.2 acc) acc).lookup name = acc.lookup name := by
  induction ms generalizing acc with
  | nil => rfl
  | cons m ms ih =>
    obtain ⟨other, rest⟩ := not_or.mp (mt List.mem_cons.mpr absent)
    rw [List.foldl_cons, ih rest, lookup_insert, if_neg other]

/-- An object has its members, wherever their names put them. -/
theorem member_ofMembers (once : (ms.map Prod.fst).Nodup) (mem : (name, v) ∈ ms) :
    (ofMembers ms).member name = v := by
  have found (acc : List (String × Json)) :
      (ms.foldl (fun acc m => insert m.1 m.2 acc) acc).lookup name = some v := by
    induction ms generalizing acc with
    | nil => cases mem
    | cons m ms ih =>
      obtain ⟨first, rest⟩ := List.nodup_cons.mp once
      rcases List.mem_cons.mp mem with rfl | mem
      · rw [List.foldl_cons, lookup_foldl_of_not_mem first, lookup_insert, if_pos rfl]
      · exact ih rest mem _
  rw [ofMembers, member, found, Option.getD_some]

theorem nat_inj {a b : Nat} : nat a = nat b ↔ a = b := by
  rw [nat, nat, Json.number.injEq, Number.whole.injEq]
  exact Int.ofNat_inj

end Json

open Time (Duration)

/-! ## What is reported -/

namespace Resolved

variable {r : Resolved}

/-- A duration in use, with the table and the member of it that tell it. -/
structure Timing where
  table : String
  name : String
  duration : Duration

def timings (r : Resolved) : List Timing :=
  [⟨"pool", "max_checkout_time_ms", r.pool.maxCheckoutTime⟩,
    ⟨"pool", "time_to_wait_ms", r.pool.timeToWait⟩,
    ⟨"pool", "ping_connections_not_used_for_ms", r.pool.pingConnectionsNotUsedFor⟩] ++
  r.cache.blockingTimeout.toList.map fun t => ⟨"cache", "blocking_timeout_ms", t⟩

theorem forall_timings {P : Timing → Prop} : (∀ t ∈ r.timings, P t) ↔
    P ⟨"pool", "max_checkout_time_ms", r.pool.maxCheckoutTime⟩ ∧
    P ⟨"pool", "time_to_wait_ms", r.pool.timeToWait⟩ ∧
    P ⟨"pool", "ping_connections_not_used_for_ms", r.pool.pingConnectionsNotUsedFor⟩ ∧
    ∀ t, r.cache.blockingTimeout = some t → P ⟨"cache", "blocking_timeout_ms", t⟩ := by
  simp [timings]

theorem member_pool (r : Resolved) : r.data.member "pool" = poolData r.pool :=
  Json.member_ofMembers (by simp) (by simp)

theorem member_cache (r : Resolved) : r.data.member "cache" = cacheData r.cache :=
  Json.member_ofMembers (by simp) (by simp)

theorem timing_shown (r : Resolved) : ∀ t ∈ r.timings,
    (r.data.member t.table).member t.name = .nat (reportedMilliseconds t.duration) := by
  rw [forall_timings]
  dsimp only
  rw [member_pool, member_cache]
  refine ⟨?_, ?_, ?_, ?_⟩
  · exact Json.member_ofMembers (by simp) (by simp)
  · exact Json.member_ofMembers (by simp) (by simp)
  · exact Json.member_ofMembers (by simp) (by simp)
  · intro t wait
    refine Json.member_ofMembers (by simp) ?_
    simp [wait, Json.option]

theorem timing_millis {c : Config} (resolved : c.resolve = .ok r) :
    ∀ t ∈ r.timings, t.duration.Millis := by
  obtain ⟨pool, cache, -, -⟩ := Config.resolve_eq_ok_iff.mp resolved
  obtain ⟨checkout, wait, unused⟩ := Pool.Settings.millis_of_ofSection? pool
  rw [forall_timings]
  exact ⟨checkout, wait, unused, Cache.Settings.millis_of_ofSection? cache⟩

end Resolved

/-! ## Checks -/

namespace Config

open Command

theorem checkFile_of_parse {s : String} {c : Config} {r : Resolved} (parsed : parse s = .ok c)
    (resolved : c.resolve = .ok r) :
    checkFile jsonFormat (.ok s.toUTF8) = .ok (r.data.pretty ++ "\n") := by
  simp only [checkFile, ofFile_toUTF8, parsed, bind, Except.bind, resolved]
  rfl

/-! ### Waits of so many seconds -/

def waitText (seconds : String) : String :=
  "[datasource]\nurl = \"postgres://db/app\"\n[pool]\ntime_to_wait = \"" ++ seconds ++ "s\"\n"

def waiting (seconds : String) : Config where
  source := { url := "postgres://db/app" }
  pool := some { timeToWait := some (seconds ++ "s") }

def waitingFor (seconds : Nat) : Resolved where
  source := { url := "postgres://db/app" }
  pool := { timeToWait := .ofSeconds seconds }
  cache := { id := Resolved.cacheId }

/-- A wait of a few seconds more than can be told in milliseconds. -/
theorem long_wait_reported_short :
    let r := waitingFor 18446744073709552
    parse (waitText "18446744073709552") = .ok (waiting "18446744073709552") ∧
      (waiting "18446744073709552").resolve = .ok r ∧
      checkFile jsonFormat (.ok (waitText "18446744073709552").toUTF8) =
        .ok (r.data.pretty ++ "\n") ∧
      r.pool.timeToWait.wholeMilliseconds = 18446744073709552000 ∧
      (r.data.member "pool").member "time_to_wait_ms" = .nat 384 := by
  intro r
  have parsed : parse (waitText "18446744073709552") = .ok (waiting "18446744073709552") :=
    eq_ok_of_toOption (by decide +kernel)
  have resolved : (waiting "18446744073709552").resolve = .ok r :=
    eq_ok_of_toOption (by decide +kernel)
  refine ⟨parsed, resolved, checkFile_of_parse parsed resolved, by decide, ?_⟩
  have shown := r.timing_shown ⟨"pool", "time_to_wait_ms", .ofSeconds 18446744073709552⟩
    (by simp [r, Resolved.timings, waitingFor])
  exact shown.trans (congrArg Json.nat (by decide))

/-- A check of a text that is accepted reports each duration that the pool or the cache is going to
use, and no timeout where the cache has none. All these durations are whole numbers of
milliseconds. The number reported is the duration in milliseconds modulo `2 ^ 64`, which is the
duration in milliseconds just if that is below `2 ^ 64`; it may be up to a thousand times that. -/
theorem check_reports_milliseconds (s : String) (c : Config) (r : Resolved)
    (parsed : parse s = .ok c) (resolved : c.resolve = .ok r) :
    checkFile jsonFormat (.ok s.toUTF8) = .ok (r.data.pretty ++ "\n") ∧
    (∀ t ∈ r.timings,
      let shown := (r.data.member t.table).member t.name
      let n := t.duration.wholeMilliseconds
      t.duration = .ofMilliseconds n ∧ n ≤ (2 ^ 64 - 1) * 1000 ∧
        shown = .nat (n % 2 ^ 64) ∧ (shown = .nat n ↔ n < 2 ^ 64)) ∧
    (r.cache.blockingTimeout = none →
      (r.data.member "cache").member "blocking_timeout_ms" = .null) := by
  refine ⟨checkFile_of_parse parsed resolved, ?_, ?_⟩
  · intro t ht shown n
    obtain ⟨whole, few⟩ := Resolved.timing_millis resolved t ht
    have reported : shown = .nat (n % 2 ^ 64) := r.timing_shown t ht
    refine ⟨whole, few, reported, ?_⟩
    rw [reported, Json.nat_inj]
    omega
  · intro endless
    rw [Resolved.member_cache]
    refine Json.member_ofMembers (by simp) ?_
    simp [endless, Json.option]

theorem check_reports_milliseconds_short :
    parse (waitText "20") = .ok (waiting "20") ∧ (waiting "20").resolve = .ok (waitingFor 20) ∧
      (((waitingFor 20).data.member "pool").member "time_to_wait_ms") = .nat 20000 := by
  have parsed : parse (waitText "20") = .ok (waiting "20") := eq_ok_of_toOption (by decide +kernel)
  have resolved : (waiting "20").resolve = .ok (waitingFor 20) :=
    eq_ok_of_toOption (by decide +kernel)
  have reported := (check_reports_milliseconds _ _ _ parsed resolved).2.1
    ⟨"pool", "time_to_wait_ms", .ofSeconds 20⟩ (by simp [Resolved.timings, waitingFor])
  exact ⟨parsed, resolved, reported.2.2.2.mpr (by decide)⟩

end Config
end DataTier
