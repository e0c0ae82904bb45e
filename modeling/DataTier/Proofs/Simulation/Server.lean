import DataTier.Proofs.Pool.Addresses
import DataTier.Proofs.Pool.Leaks
import DataTier.Simulation.Server

/-! The connections of the simulated server. It keeps count of what it is asked for (`Faithful`)
and fails nothing that a pool asks of an open connection, so a pool that is shut down has closed
each connection that it has opened, once. -/

namespace DataTier.Simulation.Server

open Pool (Call ConnectionId Line Operation)

variable {l l' : Line Server} {P : Call → Prop}

/-- The server has counted what the log says, and has failed to set no mode and to tell of no
connection whether it is closed. -/
structure Faithful (l : Line Server) : Prop where
  opened : l.driver.opened = l.opened
  closed : ∀ n, n ∈ l.driver.closedConnections ↔ l.CloseAsked n
  once : l.driver.closedConnections.Nodup
  said : ∀ n, l.SaidClosed n → l.CloseAsked n
  fails : ∀ n, ¬l.Failed n

theorem closedConnections_perform (s : Server) (c : ConnectionId) (op : Operation) :
    (s.perform c op).2.closedConnections =
      if op = .close ∧ c ∉ s.closedConnections then c :: s.closedConnections
      else s.closedConnections := by
  cases op with
  | close =>
    by_cases closed : c ∈ s.closedConnections <;> simp [perform, closed]
  | execute statement =>
    by_cases closed : c ∈ s.closedConnections <;> simp [perform, closed]
  | isClosed | autoCommit | setAutoCommit | rollback => rfl

theorem opened_perform (s : Server) (c : ConnectionId) (op : Operation) :
    (s.perform c op).2.opened = s.opened := by
  cases op with
  | close | execute => by_cases closed : c ∈ s.closedConnections <;> simp [perform, closed]
  | isClosed | autoCommit | setAutoCommit | rollback => rfl

theorem not_failed_ask (h : ∀ n, ¬l.Failed n) (call : Call) (n : ConnectionId) :
    ¬(l.ask driver call).2.Failed n := by
  rintro ⟨reason, ⟨enabled, mode⟩ | asked⟩
  · rcases List.mem_cons.mp mode with new | old
    · obtain ⟨rfl, answer⟩ := Prod.mk.inj new
      cases answer
    · exact h n ⟨reason, .inl ⟨enabled, old⟩⟩
  · rcases List.mem_cons.mp asked with new | old
    · obtain ⟨rfl, answer⟩ := Prod.mk.inj new
      cases answer
    · exact h n ⟨reason, .inr old⟩

theorem Faithful.ask_on (h : Faithful l) (c : ConnectionId) (op : Operation) :
    Faithful (l.ask driver (.on c op)).2 := by
  have closeAsked (n : ConnectionId) : (l.ask driver (.on c op)).2.CloseAsked n ↔
      (n = c ∧ op = .close) ∨ l.CloseAsked n := by
    simp [Line.CloseAsked, eq_comm]
  have closed : (l.ask driver (.on c op)).2.driver.closedConnections =
      if op = .close ∧ c ∉ l.driver.closedConnections then c :: l.driver.closedConnections
      else l.driver.closedConnections := closedConnections_perform l.driver c op
  refine ⟨(opened_perform l.driver c op).trans h.opened, fun n => ?_, ?_, fun n said => ?_,
    not_failed_ask h.fails _⟩
  · rw [closeAsked, closed, ← h.closed]
    split
    · rename_i closes
      simp [closes.1]
    · rename_i stays
      refine ⟨.inr, fun asked => asked.elim (fun closes => ?_) id⟩
      exact closes.1 ▸ Decidable.not_not.mp fun fresh => stays ⟨closes.2, fresh⟩
  · rw [closed]
    split
    · rename_i closes
      exact List.nodup_cons.mpr ⟨closes.2, h.once⟩
    · exact h.once
  · refine (closeAsked n).mpr (.inr ?_)
    rcases List.mem_cons.mp said with new | old
    · obtain ⟨call, answer⟩ := Prod.mk.inj new
      cases call
      exact (h.closed c).mp (of_decide_eq_true (Except.ok.inj answer).symm)
    · exact h.said n old

theorem Faithful.ask (h : Faithful l) (call : Call) : Faithful (l.ask driver call).2 := by
  cases call with
  | on c op => exact h.ask_on c op
  | «open» source credentials =>
    have asked (n : ConnectionId) : (l.ask driver (.open source credentials)).2.CloseAsked n ↔
        l.CloseAsked n := by
      simp [Line.CloseAsked]
    refine ⟨congrArg (· + 1) h.opened, fun n => (h.closed n).trans (asked n).symm, h.once,
      fun n said => ?_, not_failed_ask h.fails _⟩
    rcases List.mem_cons.mp said with new | old
    · cases new
    · exact (asked n).mpr (h.said n old)

theorem Faithful.asks (h : Faithful l) (asks : Line.Asks driver P l l') : Faithful l' := by
  induction asks with
  | refl => exact h
  | ask before hc ih => exact ih.ask _

/-- After any run of requests to a pool that ends shut down, the server has closed as many
connections as it has opened. -/
theorem opened_eq_closed {κ : Type} [DecidableEq κ] (source : Source.DataSource)
    (settings : Pool.Settings) (rs : List (Pool.Request κ)) :
    let s := (Pool.Service.start source settings {} : Pool.Service κ Server).run driver rs
    s.pool.state.closed = true → s.pool.line.driver.opened = s.pool.line.driver.closed := by
  intro s shut
  have orderly := Pool.Service.start_orderly (κ := κ) source settings ({} : Server)
  have addresses := Pool.Service.run_addresses orderly driver rs
  have faithful : Faithful s.pool.line :=
    Faithful.asks ⟨rfl, by simp [Line.CloseAsked, Pool.Service.start], List.nodup_nil,
      by simp [Line.SaidClosed, Pool.Service.start], by simp [Line.Failed, Pool.Service.start]⟩
      addresses.asks
  have numbered : s.pool.line.opened = s.pool.line.openings.length :=
    (Pool.Service.run_accounts orderly driver rs).grows.numbered rfl
  obtain ⟨-, lost, all⟩ := Pool.Service.run_leaked driver source settings ({} : Server) rs
  have closed (n : ConnectionId) :
      n ∈ s.pool.line.driver.closedConnections ↔ 0 < n ∧ n ≤ s.pool.line.opened := by
    rw [faithful.closed]
    refine ⟨fun asked => ?_, fun inside => ?_⟩
    · obtain ⟨e, he, call⟩ := List.mem_map.mp asked
      rcases addresses.asks.mem_log he with old | within
      · cases old
      · exact within n .close call
    · have kept := all shut n inside.1 (numbered ▸ inside.2) fun gone =>
        faithful.fails n (lost n gone).2.2
      exact kept.elim id (faithful.said n)
  have perm : s.pool.line.driver.closedConnections.Perm (List.range' 1 s.pool.line.opened) := by
    refine (List.perm_ext_iff_of_nodup faithful.once (List.nodup_range' ..)).mpr fun n => ?_
    rw [closed, List.mem_range'_1, Nat.lt_one_add_iff]
    exact Iff.rfl
  rw [faithful.opened, Server.closed, perm.length_eq, List.length_range']

end DataTier.Simulation.Server
