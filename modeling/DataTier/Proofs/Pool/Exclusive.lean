import DataTier.Proofs.Pool.Moves

/-! Exclusive use of connections. After any run of requests a handle is valid exactly while
its checkout is active, so that each connection has one valid handle at most, and a handle
that has become invalid reaches neither the driver nor the books again. -/

namespace DataTier.Pool

variable {κ δ : Type} {D : Driver δ} {now : Time.Instant} {c d : Checkout} {p : Pool δ}

theorem Custody.eq_of_connection (h : Custody p) (hc : c ∈ p.state.active)
    (hd : d ∈ p.state.active) (e : c.connection = d.connection) : c = d :=
  List.inj_on_of_nodup_map (List.nodup_append.mp h.distinct).2.1 hc hd e

/-- An invalid checkout that is given back is counted, and that is all. -/
theorem Custody.release_of_invalid (h : Custody p) (hc : p.state.isValid c = false)
    (D : Driver δ) (now : Time.Instant) :
    release D now c p = { p with state := p.state.countBad } := by
  have back := release_returns D now c p
  generalize release D now c p = p' at back
  cases back with
  | stale => rw [h.checkIn_of_invalid hc]
  | bad valid | kept valid | closed valid =>
    rw [hc] at valid
    cases valid

namespace Service

variable [DecidableEq κ]

theorem Orderly.isValid_of_run {s : Service κ δ} {handles : List Checkout}
    (h : Orderly s handles) (hc : c ∈ handles) (hv : s.pool.state.isValid c = false)
    (rs : List (Request κ)) : (s.run D rs).pool.state.isValid c = false := by
  have known := h.known c hc
  have later := run_later D s rs
  have inactive : c ∉ s.pool.state.active := fun hm => by
    rw [(h.custody.isValid_iff known).mpr hm] at hv
    cases hv
  have iff := (h.run D rs).custody.isValid_iff (known.later later)
  exact Bool.eq_false_iff.mpr fun hv => known.ended later inactive (iff.mp hv)

theorem use_of_invalid {s : Service κ δ} {caller : κ} (held : s.held.get? caller = some c)
    (hc : s.pool.state.isValid c = false) (op : Operation) :
    s.serve D (.use caller op) = (.failed (.invalidConnection c.physicalId), s.tick) := by
  have held : s.tick.held.get? caller = some c := held
  have hc : s.tick.pool.state.isValid c = false := hc
  simp only [serve, use, held, hc, Bool.false_eq_true, if_false]

theorem release_of_held {s : Service κ δ} {caller : κ} (held : s.held.get? caller = some c) :
    (s.serve D (.release caller)).1 = .done ∧
      (s.serve D (.release caller)).2.pool = Pool.release D s.tick.now c s.pool := by
  have held : s.tick.held.get? caller = some c := held
  simp only [serve, release, held, true_and]
  rfl

/-- Of all handles that were ever handed out, those are valid whose checkouts are active; no
connection occurs twice, so no two valid handles share one; whatever is invalid stays so, and
then its use fails without a call and its return is counted and does nothing else. -/
theorem exclusive_use (D : Driver δ) (source : Source.DataSource) (settings : Settings)
    (driver : δ) (rs : List (Request κ)) :
    let start : Service κ δ := start source settings driver
    let s := start.run D rs
    let handles := start.handles D rs
    (handles.map (·.ticket)).Nodup ∧
    (∀ c ∈ handles, s.pool.state.isValid c = true ↔ c ∈ s.pool.state.active) ∧
    (s.pool.state.idle.map (·.connection) ++ s.pool.state.active.map (·.connection)).Nodup ∧
    (∀ c ∈ handles, ∀ d ∈ handles, s.pool.state.isValid c = true →
      s.pool.state.isValid d = true → c.connection = d.connection → c = d) ∧
    (∀ c ∈ handles, s.pool.state.isValid c = false →
      ∀ later, (s.run D later).pool.state.isValid c = false) ∧
    (∀ caller c, s.held.get? caller = some c →
      c ∈ handles ∧ (∀ other, s.held.get? other = some c → other = caller) ∧
      (s.pool.state.isValid c = false →
        (∀ op, s.serve D (.use caller op) =
          (.failed (.invalidConnection c.physicalId), s.tick)) ∧
        (s.serve D (.release caller)).1 = .done ∧
        (s.serve D (.release caller)).2.pool = { s.pool with state := s.pool.state.countBad })) := by
  intro start s handles
  have h : Orderly s handles := (start_orderly source settings driver).run D rs
  have iff : ∀ c ∈ handles, s.pool.state.isValid c = true ↔ c ∈ s.pool.state.active :=
    fun c hc => h.custody.isValid_iff (h.known c hc)
  refine ⟨h.distinct, iff, h.custody.distinct, ?_, ?_, ?_⟩
  · intro c hc d hd vc vd e
    exact h.custody.eq_of_connection ((iff c hc).mp vc) ((iff d hd).mp vd) e
  · intro c hc hv later
    exact h.isValid_of_run hc hv later
  · intro caller c held
    refine ⟨h.held caller c held, fun other ho => h.sole other caller c ho held, fun hv => ?_⟩
    obtain ⟨done, pool⟩ := release_of_held (D := D) held
    exact ⟨use_of_invalid held hv, done, pool.trans (h.custody.release_of_invalid hv D _)⟩

/-- The second caller takes the only connection from the first, whose handle is of no use
from then on. -/
theorem exclusive_use_overdue :
    let D := Driver.refusing []
    let s := (start { url := "db" } { maxActive := 1, maxCheckoutTime := .zero } 0 :
      Service Nat Nat).run D [.acquire 0 none, .acquire 1 none]
    ∃ c, s.held.get? 0 = some c ∧ s.pool.state.isValid c = false ∧
      s.serve D (.use 0 .rollback) = (.failed (.invalidConnection 1), s.tick) := by
  intro D s
  have all := exclusive_use D { url := "db" } { maxActive := 1, maxCheckoutTime := .zero } 0
    [.acquire 0 none, .acquire 1 none]
  have handle := all.2.2.2.2.2 0 _ rfl
  exact ⟨_, rfl, by decide, (handle.2.2 (by decide)).1 .rollback⟩

end Service
end DataTier.Pool
