import DataTier.Proofs.Cache.Flight
import DataTier.Proofs.Simulation.Lookups
import DataTier.Proofs.Simulation.Moves

/-! One flight per row. At gates over a store with room for all rows, a worker that has closed a
row's gate is the only one to read the row, to miss it or to write it (`Flights`), and a row that
has been written is never missed again. So rows are written once each, and the queries that
workers count are the rows that are held. -/

namespace DataTier.Simulation

open Cache (Answer Entry Key Shape Store)
open Cache.Blocking (Gates Visit)

/-! ## Rows -/

/-- The rows that are looked up. -/
def Options.rowSet (o : Options) : Finset Nat :=
  (Finset.range o.workers ×ˢ Finset.range o.iterations).image fun p => visitedRow p.1 p.2 o.rows

/-- The row that a worker is busy with, or comes to next. -/
def Options.rowAt (o : Options) (i : Nat) (x : Worker) : Nat := visitedRow i x.iteration o.rows

variable {options : Options} {held held' : Finset Nat} {id j i : Nat}

theorem Options.mem_rowSet : id ∈ options.rowSet ↔
    ∃ i < options.workers, ∃ j < options.iterations, visitedRow i j options.rows = id := by
  simp [Options.rowSet, and_assoc]

theorem Options.lt_of_mem_rowSet (h : id ∈ options.rowSet) : id < max options.rows 1 := by
  obtain ⟨i, -, j, -, rfl⟩ := Options.mem_rowSet.mp h
  exact visitedRow_lt i j options.rows

theorem Options.injOn_rowKey (apart : DigestsDiffer (max options.rows 1)) :
    Set.InjOn rowKey options.rowSet := fun _ ha _ hb same =>
  apart.rowKey (lt_of_mem_rowSet ha) (lt_of_mem_rowSet hb) same

/-- How many rows a lookup has loaded, of those that exist or of those that do not. -/
def Outcome.loads (existing : Bool) : Outcome → Nat
  | .queried => if existing then 1 else 0
  | .queriedAbsent => if existing then 0 else 1
  | .cached | .cachedAbsent => 0

def Tally.loads (existing : Bool) (t : Tally) : Nat :=
  if existing then t.queried else t.queriedAbsent

theorem Tally.loads_record (b : Bool) (t : Tally) (o : Outcome) :
    (t.record o).loads b = t.loads b + o.loads b := by
  cases b <;> cases o <;> rfl

theorem loads_query (b : Bool) (id : Nat) :
    (query id).1.loads b = if rowExists id = b then 1 else 0 := by
  unfold query
  cases rowExists id <;> cases b <;> rfl

theorem loads_ofHit (b : Bool) (e : Entry) : (ofHit e).loads b = 0 := by
  unfold ofHit
  split <;> rfl

theorem card_filter_insert (b : Bool) (fresh : id ∉ held) :
    ((insert id held).filter (rowExists · = b)).card =
      (held.filter (rowExists · = b)).card + (query id).1.loads b := by
  rw [Finset.filter_insert, loads_query]
  split
  · rw [Finset.card_insert_of_notMem fun mem => fresh (Finset.mem_of_mem_filter id mem)]
  · rfl

/-! ## Workers -/

/-- The worker has closed the gate of its row, and the table has it still. -/
def Phase.Guards : Phase → Prop
  | .reading v => v.Guards
  | .missed _ => True
  | .ending (v :: _) _ => v.phase.Inside
  | .starting | .asking | .ending [] _ | .returning _ | .finished | .failed _ => False

/-- What is known of a worker that is busy with a row, where `held` are the rows written so far. -/
def Phase.Fits (held : Finset Nat) (id : Nat) : Phase → Prop
  | .reading v => v.key = rowKey id ∧ v.phase.Reads held truth id
  | .missed u => id ∉ held ∧ u = { missed := [rowKey id] }
  | .ending [v] r => v.key = rowKey id ∧ v.phase.Writes held truth id ∧ r = .ok (query id).1
  | .ending [] r | .returning r => id ∈ held ∧ ∃ o, r = .ok o
  | .starting | .asking | .finished => True
  | .ending (_ :: _ :: _) _ | .failed _ => False

/-- A worker with a row before it has not made all its iterations. -/
def Phase.InTime (iteration iterations : Nat) : Phase → Prop
  | .starting => iteration ≤ iterations
  | .finished => iteration = iterations
  | _ => iteration < iterations

/-- What a lookup has loaded; a row that is still to be written does not count. -/
def Phase.loads (b : Bool) : Phase → Nat
  | .ending [] (.ok o) | .returning (.ok o) => o.loads b
  | .ending (v :: _) (.ok o) => if v.phase.isWriting then 0 else o.loads b
  | _ => 0

def Worker.loads (b : Bool) (x : Worker) : Nat := x.tally.loads b + x.phase.loads b

/-- The other rows may be written meanwhile, and so may this one if nobody is inside. -/
theorem Phase.Fits.written {p : Phase} (h : p.Fits held id) (apart : p.Guards → id ≠ j) :
    p.Fits (insert j held) id := by
  have more (old : id ∈ held) : id ∈ insert j held := Finset.mem_insert_of_mem old
  cases p with
  | reading v => exact ⟨h.1, Cache.Blocking.Visit.reads_insert h.2 apart⟩
  | missed u =>
    exact ⟨fun mem => (Finset.mem_insert.mp mem).elim (apart trivial) h.1, h.2⟩
  | ending visits r =>
    match visits with
    | [] => exact ⟨more h.1, h.2⟩
    | [v] => exact ⟨h.1, Cache.Blocking.Visit.writes_insert h.2.1 apart, h.2.2⟩
    | _ :: _ :: _ => exact h
  | returning r => exact ⟨more h.1, h.2⟩
  | starting | asking | finished => trivial
  | failed e => exact h

structure Worker.Fits (options : Options) (held : Finset Nat) (i : Nat) (x : Worker) : Prop where
  phase : x.phase.Fits held (options.rowAt i x)
  past : ∀ j < x.iteration, visitedRow i j options.rows ∈ held
  time : x.phase.InTime x.iteration options.iterations

/-! ## Worlds -/

namespace World

variable {timeout : Option Time.Duration} {below : Shape} {stores : Finset Nat → below.State → Prop}
  {w u : World (.blocking timeout below)} {x x' : Worker}

/-- The chain, with its gates. -/
def gated (w : World (.blocking timeout below)) : Cache.Blocking below.State := w.chain

structure Flights (stores : Finset Nat → below.State → Prop) (options : Options)
    (held : Finset Nat) (w : World (.blocking timeout below)) : Prop where
  same : w.options = options
  crew : w.workers.length = options.workers
  stored : stores held w.gated.below
  inside : held ⊆ options.rowSet
  fits : ∀ i (x : Worker), w.workers[i]? = some x → x.Fits options held i
  locked : ∀ i (x : Worker), w.workers[i]? = some x → x.phase.Guards →
    w.gated.gates.isLocked (rowKey (options.rowAt i x)) = true
  sole : ∀ i j (x y : Worker), w.workers[i]? = some x → w.workers[j]? = some y → x.phase.Guards →
    y.phase.Guards → options.rowAt i x = options.rowAt j y → i = j
  counts : ∀ b, (w.workers.map (Worker.loads b)).sum = (held.filter (rowExists · = b)).card

/-- A worker that is neither before nor after its lookups is busy with one of the rows. -/
theorem Flights.mem_rowSet (h : w.Flights stores options held) (at_i : w.workers[i]? = some x)
    (busy : x.iteration < options.iterations) : options.rowAt i x ∈ options.rowSet := by
  have inside := (List.getElem?_eq_some_iff.mp at_i).1
  exact Options.mem_rowSet.mpr ⟨i, h.crew ▸ inside, _, busy, rfl⟩

theorem Flights.busy (h : w.Flights stores options held) (at_i : w.workers[i]? = some x)
    (guards : x.phase.Guards) : x.iteration < options.iterations := by
  have time := (h.fits i x at_i).time
  cases phase : x.phase <;> rw [phase] at guards time
  case reading | missed | ending => exact time
  all_goals exact guards.elim

/-- Nobody else guards the row of a worker that moves, neither before nor afterwards. -/
theorem Flights.alone (h : w.Flights stores options held) (at_i : w.workers[i]? = some x)
    {after : Prop} {gates : Gates}
    (passes : Cache.Blocking.Passes x.phase.Guards after (rowKey (options.rowAt i x)) w.gated.gates
      gates) {y : Worker} (at_j : w.workers[j]? = some y) (other : j ≠ i) (guards : y.phase.Guards)
    (mine : x.phase.Guards ∨ after) : options.rowAt j y ≠ options.rowAt i x := by
  intro rows
  have before : ¬x.phase.Guards := fun mine => other (h.sole j i y x at_j at_i guards mine rows)
  rcases (passes.mine (mine.resolve_left before)).2 with mine | free
  · exact before mine
  · rw [← rows, h.locked j y at_j guards] at free
    cases free

/-- What a step has to show of the worker that makes it. -/
theorem Flights.turn (h : w.Flights stores options held)
    (apart : DigestsDiffer (max options.rows 1)) (at_i : w.workers[i]? = some x)
    (same : u.options = w.options)
    (grows : held' = held ∨ x.phase.Guards ∧ held' = insert (options.rowAt i x) held)
    (stored : stores held' u.gated.below) (fits : x'.Fits options held' i)
    (place : x'.phase.Guards → x'.iteration = x.iteration)
    (gates : Cache.Blocking.Passes x.phase.Guards x'.phase.Guards (rowKey (options.rowAt i x))
      w.gated.gates u.gated.gates)
    (counts : ∀ b, x'.loads b + (held.filter (rowExists · = b)).card =
      x.loads b + (held'.filter (rowExists · = b)).card) :
    Flights stores options held' { u with workers := w.workers.set i x' } := by
  have row (guards : x'.phase.Guards) : options.rowAt i x' = options.rowAt i x := by
    rw [Options.rowAt, place guards, Options.rowAt]
  have alone {j : Nat} {y : Worker} := h.alone at_i gates (j := j) (y := y)
  refine ⟨same.trans h.same, List.length_set.trans h.crew, stored, ?_, fun j y at_j => ?_,
    fun j y at_j guards => ?_, fun j k y z at_j at_k hy hz rows => ?_, fun b => ?_⟩
  · rcases grows with rfl | ⟨guards, rfl⟩
    · exact h.inside
    · exact Finset.insert_subset (h.mem_rowSet at_i (h.busy at_i guards)) h.inside
  · rcases getElem?_set_cases at_j with ⟨rfl, rfl⟩ | ⟨other, was⟩
    · exact fits
    · have old := h.fits j y was
      rcases grows with rfl | ⟨mine, rfl⟩
      · exact old
      · exact ⟨old.phase.written fun guards => alone was other guards (.inl mine),
          fun k hk => Finset.mem_insert_of_mem (old.past k hk), old.time⟩
  · rcases getElem?_set_cases at_j with ⟨rfl, rfl⟩ | ⟨other, was⟩
    · rw [row guards]
      exact (gates.mine guards).1
    · refine (gates.others _ (h.locked j y was guards)).resolve_right fun ⟨mine, key⟩ => ?_
      exact alone was other guards (.inl mine)
        (apart.rowKey (visitedRow_lt ..) (visitedRow_lt ..) key)
  · rcases getElem?_set_cases at_j with ⟨rfl, rfl⟩ | ⟨other, was⟩ <;>
      rcases getElem?_set_cases at_k with ⟨rfl, rfl⟩ | ⟨other', was'⟩
    · rfl
    · exact (alone was' other' hz (.inr hy) (rows.symm.trans (row hy))).elim
    · exact (alone was other hy (.inr hz) (rows.trans (row hz))).elim
    · exact h.sole j k y z was was' hy hz rows
  · have sums := sum_map_set (Worker.loads b) at_i x'
    have before := h.counts b
    have change := counts b
    show ((w.workers.set i x').map (Worker.loads b)).sum = _
    omega

/-- A step that neither the gates nor the layer below have part in. -/
theorem Flights.calm (h : w.Flights stores options held)
    (apart : DigestsDiffer (max options.rows 1)) (at_i : w.workers[i]? = some x)
    (same : u.options = w.options) (chain : u.chain = w.chain) (fits : x'.Fits options held i)
    (guards : x'.phase.Guards → x.phase.Guards ∧ x'.iteration = x.iteration)
    (loads : ∀ b, x'.loads b = x.loads b) :
    Flights stores options held { u with workers := w.workers.set i x' } := by
  have gated : u.gated = w.gated := chain
  refine h.turn apart at_i same (.inl rfl) (gated ▸ h.stored) fits (fun now => (guards now).2) ?_
    fun b => by rw [loads b]
  rw [gated]
  exact .stay rfl (h.locked i x at_i) fun now => (guards now).1

/-! ## Steps -/

theorem seated_fits (held : Finset Nat) (same : u.options = options) (i : Nat) (x : Worker) :
    (u.seated i x).Fails ∨
      (u.seated i x).Fits held (options.rowAt i x) ∧ ¬(u.seated i x).Guards := by
  subst same
  rcases Visit.read_starts held truth (u.options.rowAt i x) below.store.id u.now
    (rowKey (u.rowOf i x)) u.gated.gates.timeout with fails | ⟨key, known, outside⟩
  · exact .inl fails
  · exact .inr ⟨⟨key, known⟩, outside⟩

variable (apart : DigestsDiffer (max options.rows 1))
include apart

theorem Flights.asks (h : w.Flights stores options held) (at_i : w.workers[i]? = some x)
    {r : Pool.Request Nat} {p : Phase} (asks : w.Asks i x r)
    (led : World.asked { w with desk := (w.desk.serve Server.driver r).2 } i x
      (w.desk.serve Server.driver r).1 = some p) :
    p.Fails ∨ Flights stores options held
      { w with
        desk := (w.desk.serve Server.driver r).2
        workers := w.workers.set i { x with phase := p } } := by
  have old := h.fits i x at_i
  obtain ⟨stood, busy⟩ : (∀ b, x.phase.loads b = 0) ∧ x.iteration < options.iterations := by
    cases asks with
    | first phase more => exact ⟨by simp [phase, Phase.loads], h.same ▸ more⟩
    | again phase =>
      have time := old.time
      rw [phase] at time
      exact ⟨by simp [phase, Phase.loads], time⟩
  have calm (fits : p.Fits held (options.rowAt i x))
      (time : p.InTime x.iteration options.iterations) (guards : ¬p.Guards)
      (loads : ∀ b, p.loads b = 0) : Flights stores options held
        { w with
          desk := (w.desk.serve Server.driver r).2
          workers := w.workers.set i { x with phase := p } } :=
    h.calm apart at_i (u := { w with desk := (w.desk.serve Server.driver r).2 }) rfl rfl
      ⟨fits, old.past, time⟩ (fun now => (guards now).elim)
      fun b => by simp only [Worker.loads, stood, loads]
  generalize w.desk.serve Server.driver r = served at led calm ⊢
  unfold World.asked at led
  split at led <;> cases led
  · exact (seated_fits held (u := { w with desk := served.2 }) h.same i x).imp_right
      fun ⟨fits, outside⟩ => calm fits busy outside fun _ => rfl
  · exact .inr (calm trivial busy id fun _ => rfl)
  · exact .inr (calm trivial busy id fun _ => rfl)
  · exact .inl trivial

theorem Flights.ends (h : w.Flights stores options held) (at_i : w.workers[i]? = some x)
    (phase : x.phase = .starting) (through : ¬x.iteration < w.options.iterations) :
    Flights stores options held
      { w with workers := w.workers.set i { x with phase := .finished } } := by
  obtain ⟨fits, past, time⟩ := h.fits i x at_i
  rw [phase] at time
  rw [h.same] at through
  refine h.calm apart at_i rfl rfl
    ⟨trivial, past, Nat.le_antisymm time (Nat.le_of_not_lt through)⟩ (fun now => now.elim)
    fun b => ?_
  simp only [Worker.loads, phase]
  rfl

theorem Flights.hears (h : w.Flights stores options held) (at_i : w.workers[i]? = some x)
    {v : Visit} {said : Option Entry} (phase : x.phase = .reading v)
    (answer : v.answer? = some (.ok said)) :
    Flights stores options held
      { w with workers := w.workers.set i { x with phase := (w.hear i v.key (.ok said)).1 } } := by
  obtain ⟨fits, past, time⟩ := h.fits i x at_i
  rw [phase] at fits time
  obtain ⟨key, known⟩ := fits
  have unloaded (b : Bool) : x.phase.loads b = 0 := by rw [phase]; rfl
  rw [Cache.Blocking.answer?_eq_some answer] at known
  rcases known with ⟨mem, same⟩ | ⟨fresh, same⟩ <;> cases same
  · refine h.calm apart at_i rfl rfl ⟨⟨mem, _, rfl⟩, past, time⟩ (fun now => now.elim) fun b => ?_
    simp only [Worker.loads, unloaded]
    exact congrArg _ (loads_ofHit b _)
  · refine h.calm apart at_i rfl rfl ⟨⟨fresh, ?_⟩, past, time⟩ (fun _ => ⟨?_, rfl⟩) fun b => ?_
    · rw [key]
      rfl
    · rw [phase]
      exact .inr answer
    · simp only [Worker.loads, unloaded]
      rfl

theorem Flights.reads (h : w.Flights stores options held)
    (roomy : ∀ now, (below.store now).Roomy options.rowSet rowKey truth stores)
    (at_i : w.workers[i]? = some x)
    {v v' : Visit} {chain : (Shape.blocking timeout below).State} (phase : x.phase = .reading v)
    (step : (Shape.blocking timeout below).step w.now v w.chain = some (v', chain)) :
    (Phase.reading v').Fails ∨ Flights stores options held
      { w with chain, workers := w.workers.set i { x with phase := .reading v' } } := by
  obtain ⟨fits, past, time⟩ := h.fits i x at_i
  have locked := h.locked i x at_i
  rw [phase] at fits time locked
  obtain ⟨key, known⟩ := fits
  have unloaded (b : Bool) : x.phase.loads b = 0 := by rw [phase]; rfl
  refine (Visit.step_cases step).keeps_reads (roomy w.now) h.inside (h.mem_rowSet at_i time) key
    h.stored locked known |>.imp_right fun ⟨known, stored, gates⟩ => ?_
  refine h.turn apart at_i (u := { w with chain }) rfl (.inl rfl) stored
    ⟨⟨(Visit.step_cases step).key.trans key, known⟩, past, time⟩ (fun _ => rfl) ?_ fun b => ?_
  · rw [phase]
    exact gates
  · simp only [Worker.loads, unloaded]
    rfl

omit apart in
/-- What the database has said of a row is about to be written, or the query has failed. -/
theorem queryRow_cases (same : w.options = options) :
    (w.queryRow i x { missed := [rowKey (options.rowAt i x)] }).1.Fails ∨
      (w.queryRow i x { missed := [rowKey (options.rowAt i x)] }).1 =
        .ending [.write (rowKey (options.rowAt i x)) (truth (options.rowAt i x))]
          (.ok (query (options.rowAt i x)).1) := by
  have committed (id : Nat) : commit (afterQuery id (query id).2) (query id).1 =
      .ending [.write (rowKey id) (truth id)] (.ok (query id).1) := by
    rw [commit, commitPlan_afterQuery]
    rfl
  subst same
  unfold queryRow
  dsimp only
  split
  · exact .inl ⟨_, rfl⟩
  · exact .inr (committed (w.rowOf i x))

theorem Flights.queries (h : w.Flights stores options held) (at_i : w.workers[i]? = some x)
    {work : Cache.UnitOfWork} (phase : x.phase = .missed work) :
    (w.queryRow i x work).1.Fails ∨ Flights stores options held
      { (w.queryRow i x work).2 with
        workers := w.workers.set i { x with phase := (w.queryRow i x work).1 } } := by
  obtain ⟨fits, past, time⟩ := h.fits i x at_i
  rw [phase] at fits time
  obtain ⟨fresh, rfl⟩ := fits
  refine (queryRow_cases h.same).imp_right fun asked => ?_
  refine h.calm apart at_i rfl rfl ⟨?_, past, ?_⟩ (fun _ => ⟨phase ▸ trivial, rfl⟩) fun b => ?_
  · rw [asked]
    exact ⟨rfl, ⟨fresh, rfl⟩, rfl⟩
  · rw [asked]
    exact time
  · simp only [Worker.loads, asked, phase]
    rfl

theorem Flights.completes (h : w.Flights stores options held) (at_i : w.workers[i]? = some x)
    {r : Result} (phase : x.phase = .ending [] r) :
    Flights stores options held
      { w with workers := w.workers.set i { x with phase := .returning r } } := by
  obtain ⟨fits, past, time⟩ := h.fits i x at_i
  rw [phase] at fits time
  refine h.calm apart at_i rfl rfl ⟨fits, past, time⟩ (fun now => now.elim) fun b => ?_
  obtain ⟨-, o, rfl⟩ := fits
  simp only [Worker.loads, phase]
  rfl

/-- A unit of work that has missed its row has one write to make. -/
theorem Flights.settles (h : w.Flights stores options held) (at_i : w.workers[i]? = some x)
    {v : Visit} {rest : List Visit} {r : Result} {a : Answer (Option Entry)}
    (phase : x.phase = .ending (v :: rest) r) (answer : v.answer? = some a) :
    Flights stores options held
      { w with workers := w.workers.set i { x with phase := .ending rest (noteProblem r a) } } := by
  obtain ⟨fits, past, time⟩ := h.fits i x at_i
  rw [phase] at fits time
  cases rest with
  | cons => exact fits.elim
  | nil =>
    obtain ⟨key, known, rfl⟩ := fits
    have finished := Cache.Blocking.answer?_eq_some answer
    rw [finished] at known
    obtain ⟨mem, rfl⟩ := known
    refine h.calm apart at_i rfl rfl ⟨⟨mem, _, rfl⟩, past, time⟩ (fun now => now.elim) fun b => ?_
    simp only [Worker.loads, phase, Phase.loads, finished]
    rfl

theorem Flights.writes (h : w.Flights stores options held)
    (roomy : ∀ now, (below.store now).Roomy options.rowSet rowKey truth stores)
    (at_i : w.workers[i]? = some x)
    {v v' : Visit} {rest : List Visit} {r : Result} {chain : (Shape.blocking timeout below).State}
    (phase : x.phase = .ending (v :: rest) r)
    (step : (Shape.blocking timeout below).step w.now v w.chain = some (v', chain)) :
    ∃ held', Flights stores options held'
      { w with chain, workers := w.workers.set i { x with phase := .ending (v' :: rest) r } } := by
  obtain ⟨fits, past, time⟩ := h.fits i x at_i
  have locked := h.locked i x at_i
  rw [phase] at fits time locked
  cases rest with
  | cons => exact fits.elim
  | nil =>
    obtain ⟨key, known, rfl⟩ := fits
    have key' := (Visit.step_cases step).key.trans key
    obtain ⟨gates, wrote, stays⟩ := (Visit.step_cases step).keeps_writes (roomy w.now) h.inside
      (h.mem_rowSet at_i time) key h.stored locked known
    cases writing : v.phase.isWriting with
    | true =>
      rw [writing, if_pos rfl] at stays
      obtain ⟨fresh, known', stored⟩ := stays
      refine ⟨_, h.turn apart at_i (u := { w with chain }) rfl (.inr ⟨?_, rfl⟩) stored
        ⟨⟨key', known', rfl⟩, fun j hj => Finset.mem_insert_of_mem (past j hj), time⟩
        (fun _ => rfl) (phase ▸ gates) fun b => ?_⟩
      · rw [phase]
        exact Cache.Blocking.Phase.inside_of_isWriting writing
      · have grown := card_filter_insert b fresh
        simp only [Worker.loads, phase, Phase.loads, writing, wrote, if_true, Bool.false_eq_true,
          if_false]
        omega
    | false =>
      rw [writing, if_neg Bool.false_ne_true] at stays
      refine ⟨held, h.turn apart at_i (u := { w with chain }) rfl (.inl rfl) stays.2
        ⟨⟨key', stays.1, rfl⟩, past, time⟩ (fun _ => rfl) (phase ▸ gates) fun b => ?_⟩
      simp only [Worker.loads, phase, Phase.loads, writing, wrote]

theorem Flights.returns (h : w.Flights stores options held) (at_i : w.workers[i]? = some x)
    {r : Result} (phase : x.phase = .returning r) :
    Flights stores options held
      { w with
        desk := (w.desk.serve Server.driver (.release i)).2
        workers := w.workers.set i (w.onward x r) } := by
  obtain ⟨fits, past, time⟩ := h.fits i x at_i
  rw [phase] at fits time
  obtain ⟨mem, o, rfl⟩ := fits
  have phase' := onward_phase w x o
  refine h.calm apart at_i
    (u := { w with desk := (w.desk.serve Server.driver (.release i)).2 }) rfl rfl
    ⟨?_, fun j hj => ?_, ?_⟩ (fun now => ?_) fun b => ?_
  · rcases phase' with ⟨phase', -⟩ | ⟨phase', -⟩ <;> rw [phase'] <;> trivial
  · rcases Nat.lt_succ_iff_lt_or_eq.mp hj with old | rfl
    · exact past j old
    · exact mem
  · rw [h.same] at phase'
    rcases phase' with ⟨phase', -⟩ | ⟨phase', through⟩ <;> rw [phase']
    · exact Nat.succ_le_of_lt time
    · exact Nat.le_antisymm (Nat.succ_le_of_lt time) (Nat.le_of_not_lt through)
  · rcases phase' with ⟨phase', -⟩ | ⟨phase', -⟩ <;> rw [phase'] at now <;> exact now.elim
  · have none : (w.onward x (.ok o)).phase.loads b = 0 := by
      rcases phase' with ⟨phase', -⟩ | ⟨phase', -⟩ <;> rw [phase'] <;> rfl
    rw [Worker.loads, Worker.loads, none, phase]
    exact Tally.loads_record b x.tally o

/-! ## Runs -/

theorem Moves.flights (moves : w.Moves i x x' u) (h : w.Flights stores options held)
    (roomy : ∀ now, (below.store now).Roomy options.rowSet rowKey truth stores)
    (at_i : w.workers[i]? = some x) :
    x'.phase.Fails ∨
      ∃ held, Flights stores options held { u with workers := w.workers.set i x' } := by
  cases moves with
  | asks asks led => exact (h.asks apart at_i asks led).imp_right fun h => ⟨held, h⟩
  | ends phase through => exact .inr ⟨held, h.ends apart at_i phase through⟩
  | hears phase answer => exact .inr ⟨held, h.hears apart at_i phase answer⟩
  | fails => exact .inl (hear_fails ..)
  | reads phase pending step =>
    exact (h.reads apart roomy at_i phase step).imp_right fun h => ⟨held, h⟩
  | queries phase => exact (h.queries apart at_i phase).imp_right fun h => ⟨held, h⟩
  | completes phase => exact .inr ⟨held, h.completes apart at_i phase⟩
  | settles phase answer => exact .inr ⟨held, h.settles apart at_i phase answer⟩
  | writes phase pending step => exact .inr (h.writes apart roomy at_i phase step)
  | returns phase => exact .inr ⟨held, h.returns apart at_i phase⟩

theorem Flights.next (h : w.Flights stores options held)
    (roomy : ∀ now, (below.store now).Roomy options.rowSet rowKey truth stores) (event : Event) :
    (w.next event).Failing ∨ ∃ held, (w.next event).Flights stores options held :=
  next_keeps (P := fun w => ∃ held, w.Flights stores options held) ⟨held, h⟩
    (fun _ => ⟨held, h.same, h.crew, h.stored, h.inside, h.fits, h.locked, h.sole, h.counts⟩)
    (fun _ => ⟨held, h.same, h.crew, h.stored, h.inside, h.fits, h.locked, h.sole, h.counts⟩)
    (fun _ _ _ _ at_i moves => moves.flights apart h roomy at_i) event

omit apart in
theorem start_flights (stored : stores ∅ below.initial) (source : Source.DataSource)
    (pool : Pool.Settings) (options : Options) :
    (start (.blocking timeout below) source pool options).Flights stores options ∅ where
  same := rfl
  crew := List.length_replicate
  stored := stored
  inside := Finset.empty_subset _
  fits i x at_i := by
    obtain rfl := List.eq_of_mem_replicate (List.mem_of_getElem? at_i)
    exact ⟨trivial, fun j hj => absurd hj (Nat.not_lt_zero j), Nat.zero_le _⟩
  locked i x at_i guards := by
    obtain rfl := List.eq_of_mem_replicate (List.mem_of_getElem? at_i)
    exact guards.elim
  sole i j x y at_i at_j hx := by
    obtain rfl := List.eq_of_mem_replicate (List.mem_of_getElem? at_i)
    exact hx.elim
  counts b := by
    simp [start, Worker.loads, Tally.loads, Phase.loads]

/-- As long as no worker fails, there is at most one flight for each row. -/
theorem run_flights (roomy : ∀ now, (below.store now).Roomy options.rowSet rowKey truth stores)
    (events : List Event) (h : w.Flights stores options held) :
    (w.run events).Failing ∨ ∃ held, (w.run events).Flights stores options held :=
  run_keeps (P := fun w => ∃ held, w.Flights stores options held)
    (fun _ event ⟨_, h⟩ => h.next apart roomy event) events ⟨held, h⟩

end World
end DataTier.Simulation
