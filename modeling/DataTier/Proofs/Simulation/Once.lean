import DataTier.Proofs.Simulation.Flights
import DataTier.Proofs.Simulation.Server
import DataTier.Proofs.Simulation.Staff

/-! The report of a simulation that got through. Where the chain has gates and room for all rows,
each row was asked for once, whatever the schedule was; and the pool has served each lookup, has
nobody left to serve, and closes in the end what it has opened. -/

namespace DataTier.Simulation

open Cache (Key Shape)

variable {options : Options}

/-- The worker will not move again. -/
def Phase.IsOver : Phase → Prop
  | .finished | .failed _ => True
  | .starting | .asking | .reading _ | .missed _ | .ending .. | .returning _ => False

/-- The simulation is at its end. -/
def World.AtEnd {s : Shape} (w : World s) : Prop := ∀ x ∈ w.workers, x.phase.IsOver

/-- All workers are through with their rows. -/
def World.Through {s : Shape} (w : World s) : Prop := ∀ x ∈ w.workers, x.phase = .finished

instance (p : Phase) : Decidable (p = .finished) :=
  match p with
  | .finished => .isTrue rfl
  | .starting | .asking | .reading _ | .missed _ | .ending .. | .returning _ | .failed _ =>
    .isFalse nofun

instance {s : Shape} (w : World s) : Decidable w.Through :=
  inferInstanceAs (Decidable (∀ x ∈ w.workers, x.phase = .finished))

theorem Tally.loads_add (b : Bool) (t u : Tally) : (t.add u).loads b = t.loads b + u.loads b := by
  cases b <;> rfl

theorem Tally.total_add (t u : Tally) : (t.add u).total = t.total + u.total := by
  simp only [Tally.total, Tally.misses, Tally.add]
  omega

theorem Tally.Counts.total {t : Tally} {ids : List Nat} (h : t.Counts ids) :
    t.total = ids.length := by
  have parts : ids.length = ids.countP rowExists + ids.countP fun id => !rowExists id := by
    simpa using List.length_eq_countP_add_countP (l := ids) rowExists
  rw [parts, ← h.existing, ← h.absent]
  simp only [Tally.total, Tally.misses, Tally.existing, Tally.absent]
  omega

/-- What is reported of a simulation in which each row was asked for once. -/
structure Report.OncePerRow (options : Options) (report : Report) : Prop where
  total : report.tally.total = options.workers * options.iterations
  loaded : report.tally.queried + report.tally.queriedAbsent = options.rowSet.card
  existing : report.tally.queried = (options.rowSet.filter (rowExists · = true)).card
  size : report.cacheSize = options.rowSet.card
  requests : report.status.statistics.requests = options.workers * options.iterations
  active : report.status.statistics.active = 0
  closed : report.opened = report.closed

namespace World

variable {s : Shape} {w : World s}

theorem Through.not_failing (through : w.Through) : ¬w.Failing := by
  rintro ⟨x, mem, fails⟩
  rw [through x mem] at fails
  exact fails

theorem Through.atEnd (through : w.Through) : w.AtEnd := fun x mem => by
  rw [through x mem]
  trivial

theorem not_failed_of_tally {xs : List Worker} {t : Tally} (told : tally xs = .ok t) :
    ∀ x ∈ xs, ∀ e, x.phase ≠ .failed e := by
  induction xs generalizing t with
  | nil => exact fun x mem => nomatch mem
  | cons y ys ih =>
    rw [tally] at told
    split at told
    · cases told
    · rename_i well
      cases rest : tally ys with
      | error e =>
        rw [rest] at told
        cases told
      | ok u => exact List.forall_mem_cons.mpr ⟨well, ih rest⟩

/-- In the end a report is given only if all workers got through. -/
theorem AtEnd.through {report : Report} (atEnd : w.AtEnd) (told : w.report = .ok report) :
    w.Through := fun x mem => by
  have ended := atEnd x mem
  cases phase : x.phase with
  | finished => rfl
  | failed e =>
    cases sum : tally w.workers with
    | error e =>
      simp only [World.report, sum] at told
      cases told
    | ok t => exact (not_failed_of_tally sum x mem e phase).elim
  | starting | asking | reading | missed | ending | returning =>
    rw [phase] at ended
    exact ended.elim

theorem tally_of_finished (xs : List Worker) (through : ∀ x ∈ xs, x.phase = .finished) :
    ∃ t, tally xs = .ok t ∧ t.total = (xs.map (·.tally.total)).sum ∧
      ∀ b, t.loads b = (xs.map (Worker.loads b)).sum := by
  induction xs with
  | nil => exact ⟨{}, rfl, rfl, fun b => by cases b <;> rfl⟩
  | cons x xs ih =>
    obtain ⟨finished, rest⟩ := List.forall_mem_cons.mp through
    obtain ⟨t, told, total, loads⟩ := ih rest
    refine ⟨x.tally.add t, ?_, ?_, fun b => ?_⟩
    · rw [tally, finished]
      simp only [told]
      rfl
    · rw [Tally.total_add, total, List.map_cons, List.sum_cons]
    · rw [Tally.loads_add, loads, List.map_cons, List.sum_cons, Worker.loads, finished]
      rfl

/-! ## What workers that are through have come to -/

variable {timeout : Option Time.Duration} {below : Shape} {stores : Finset Nat → below.State → Prop}
  {held : Finset Nat} {g : World (.blocking timeout below)}

theorem Flights.iteration (h : g.Flights stores options held) (through : g.Through) {x : Worker}
    (mem : x ∈ g.workers) : x.iteration = options.iterations := by
  obtain ⟨i, at_i⟩ := List.mem_iff_getElem?.mp mem
  have time := (h.fits i x at_i).time
  rw [through x mem] at time
  exact time

theorem Flights.sum_iterations (h : g.Flights stores options held) (through : g.Through)
    {f : Worker → Nat} (each : ∀ x ∈ g.workers, f x = x.iteration) :
    (g.workers.map f).sum = options.workers * options.iterations := by
  have all : g.workers.map f = List.replicate options.workers options.iterations := by
    rw [← h.crew, ← List.map_const', List.map_congr_left]
    exact fun x mem => (each x mem).trans (h.iteration through mem)
  rw [all, List.sum_replicate_nat]

/-- All rows have been written. -/
theorem Flights.held_eq (h : g.Flights stores options held) (through : g.Through) :
    held = options.rowSet := by
  refine h.inside.antisymm fun id mem => ?_
  obtain ⟨i, hi, j, hj, rfl⟩ := Options.mem_rowSet.mp mem
  obtain ⟨x, at_i⟩ : ∃ x, g.workers[i]? = some x :=
    ⟨_, List.getElem?_eq_getElem (h.crew.symm ▸ hi)⟩
  exact (h.fits i x at_i).past j (h.iteration through (List.mem_of_getElem? at_i) ▸ hj)

theorem Staffed.active {source : Source.DataSource} {settings : Pool.Settings}
    (h : w.Staffed source settings) (through : w.Through) : w.desk.pool.state.active = [] := by
  refine List.eq_nil_iff_forall_not_mem.mpr fun c active => ?_
  obtain ⟨i, has⟩ := h.manned c active
  obtain ⟨x, at_i, sits⟩ := h.seated i c has
  rw [through x (List.mem_of_getElem? at_i)] at sits
  exact sits

theorem Staffed.opened_eq_closed {source : Source.DataSource} {settings : Pool.Settings}
    (h : w.Staffed source settings) :
    let server := (w.desk.serve Server.driver .shutdown).2.pool.line.driver
    server.opened = server.closed := by
  obtain ⟨rs, history⟩ := h.history_serve .shutdown
  intro server
  have closed : (w.desk.serve Server.driver .shutdown).2.pool.state.closed = true := by
    simp [Pool.Service.serve, Pool.Service.overhaul, Pool.shutdown, Pool.closeAll,
      Pool.State.foldl_invalidate, Pool.Service.tick]
  rw [history] at closed
  show (w.desk.serve Server.driver .shutdown).2.pool.line.driver.opened =
    (w.desk.serve Server.driver .shutdown).2.pool.line.driver.closed
  rw [history]
  exact Server.opened_eq_closed source settings rs closed

/-! ## The report -/

theorem report_eq {t : Tally} {n : Nat} (told : tally w.workers = .ok t)
    (size : ((s.store w.now).size w.chain).1 = .ok n) :
    let server := (w.desk.serve Server.driver .shutdown).2.pool.line.driver
    w.report = .ok {
      status := w.desk.pool.state.status
      tally := t
      cacheSize := n
      opened := server.opened
      closed := server.closed
      statements := server.statements
      elapsed := w.now.since .start } := by
  simp only [World.report, told, size]
  rfl

theorem report_of_through {source : Source.DataSource} {settings : Pool.Settings}
    (sound : g.Sound options) (flights : g.Flights stores options held)
    (staffed : g.Staffed source settings)
    (roomy : ∀ now, (below.store now).Roomy options.rowSet rowKey truth stores)
    (through : g.Through) :
    ∃ report, g.report = .ok report ∧ report.OncePerRow options := by
  obtain ⟨t, told, total, loads⟩ := tally_of_finished g.workers through
  obtain rfl := flights.held_eq through
  have size : (((Shape.blocking timeout below).store g.now).size g.chain).1 =
      .ok options.rowSet.card :=
    (roomy g.now).size (Finset.Subset.refl _) flights.stored
  have counts (b : Bool) : t.loads b = (options.rowSet.filter (rowExists · = b)).card :=
    (loads b).trans (flights.counts b)
  refine ⟨_, report_eq told size, ?_, ?_, counts true, rfl, ?_, ?_, staffed.opened_eq_closed⟩
  · refine total.trans (flights.sum_iterations through fun x mem => ?_)
    obtain ⟨i, at_i⟩ := List.mem_iff_getElem?.mp mem
    rw [(sound.workers i x at_i).tally.total, visited, List.length_map, List.length_range]
  · have split := Finset.card_filter_add_card_filter_not (s := options.rowSet) (rowExists · = true)
    simp only [Bool.not_eq_true] at split
    rw [← split, ← counts true, ← counts false]
    rfl
  · refine staffed.requests.trans (flights.sum_iterations through fun x mem => ?_)
    rw [Worker.granted, through x mem]
    rfl
  · exact congrArg List.length (staffed.active through)

/-- The chain below the gates. -/
def ungated (c : Cache.Settings) : Shape := .soft c.limits (.memory c.id c.maxEntries)

/-- It holds these rows, and no others. -/
def HoldsRows (c : Cache.Settings) : Finset Nat → (ungated c).State → Prop :=
  Cache.Soft.Stores rowKey truth

theorem ungated_roomy (c : Cache.Settings) (apart : DigestsDiffer (max options.rows 1))
    (bound : ∀ n, Cache.Memory.bound? c.maxEntries = some n → options.rowSet.card ≤ n)
    (budget : ∀ n, c.memoryBudget = some n → ∑ id ∈ options.rowSet, (truth id).weight ≤ n) :
    ∀ now, ((ungated c).store now).Roomy options.rowSet rowKey truth (HoldsRows c) :=
  fun _ => Cache.Soft.roomy c.limits c.id c.maxEntries (Options.injOn_rowKey apart) bound budget

/-- Where the chain has gates, and room for the entries of all rows that are looked up: if a
simulation ends with a report, then that says that each of the rows was asked for once. There is
one if all workers get through; the gates may have any timeout, but who waits too long fails. -/
theorem rows_queried_once (r : Resolved) (options : Options) (events : List Event)
    (apart : DigestsDiffer (max options.rows 1)) (gated : r.cache.blocking = true)
    (bound : ∀ n, Cache.Memory.bound? r.cache.maxEntries = some n → options.rowSet.card ≤ n)
    (budget : ∀ n, r.cache.memoryBudget = some n → ∑ id ∈ options.rowSet, (truth id).weight ≤ n) :
    let w := (start r.cache.shape r.source r.pool options).run events
    (w.AtEnd → ∀ report, w.report = .ok report → report.OncePerRow options) ∧
      (w.Through → ∃ report, w.report = .ok report) := by
  have shape : r.cache.shape = .blocking r.cache.blockingTimeout (ungated r.cache) :=
    Cache.Settings.shape_of_gated gated
  generalize r.cache.shape = s at shape
  subst shape
  intro w
  have roomy := ungated_roomy r.cache apart bound budget
  have sound : w.Sound options := run_sound apart events (start_sound _ r.source r.pool options)
  have once (through : w.Through) :
      ∃ report, w.report = .ok report ∧ report.OncePerRow options := by
    have staffed : w.Staffed r.source r.pool :=
      (run_staffed events (start_staffed _ r.source r.pool options)).resolve_left
        through.not_failing
    obtain ⟨held, flights⟩ : ∃ held, w.Flights (HoldsRows r.cache) options held :=
      (run_flights apart roomy events (start_flights (Cache.Soft.start_stores rowKey truth)
        r.source r.pool options)).resolve_left through.not_failing
    exact report_of_through sound flights staffed roomy through
  refine ⟨fun atEnd report told => ?_, fun through => (once through).imp fun _ h => h.1⟩
  obtain ⟨report', told', right⟩ := once (AtEnd.through atEnd told)
  obtain rfl := Except.ok.inj (told.symm.trans told')
  exact right

/-! ### Three workers, and one row -/

def trio : Resolved where
  source := { url := "sim" }
  pool := {}
  cache := {
    id := Resolved.cacheId
    blockingTimeout := some (.ofSeconds 1)
    maxEntries := some 1
    memoryBudget := none }

def trioOptions : Options := { workers := 3, iterations := 1, rows := 1 }

/-- Worker 1 has missed the row when the others come to it. They wait until it has been written,
and worker 2 is the first to find it. -/
def trioRun : World trio.cache.shape :=
  (start trio.cache.shape trio.source trio.pool trioOptions).run <|
    steps 1 4 ++ steps 0 3 ++ steps 2 3 ++ [.elapse (.ofMilliseconds 5)] ++ steps 1 6 ++
      steps 2 8 ++ steps 0 8 ++ steps 1 1

theorem rows_queried_once_trio :
    DigestsDiffer (max trioOptions.rows 1) ∧ trioOptions.rowSet = {0} ∧ trioRun.Through ∧
      ∃ report, trioRun.report = .ok report ∧ report.OncePerRow trioOptions := by
  have apart : DigestsDiffer (max trioOptions.rows 1) := by
    unfold DigestsDiffer
    decide +kernel
  have through : trioRun.Through := by decide +kernel
  have bound : ∀ n, Cache.Memory.bound? trio.cache.maxEntries = some n →
      trioOptions.rowSet.card ≤ n := fun n limit => by
    obtain rfl := Option.some.inj limit
    decide
  obtain ⟨once, some⟩ := rows_queried_once trio trioOptions _ apart rfl bound nofun
  obtain ⟨report, told⟩ := some through
  exact ⟨apart, by decide, through, report, told, once through.atEnd report told⟩

end World
end DataTier.Simulation
