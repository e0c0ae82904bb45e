import DataTier.Proofs.Cache.Keeping
import DataTier.Proofs.Simulation.Rows
import DataTier.Simulation.Run

/-! What lookups report, and what they leave in the cache. Only the true entry of a row is ever
written for its key, so only that is held and found there, whatever is dropped or fails on the
way; and a worker that gets through with a row reports of it what the database would say. -/

namespace DataTier.Simulation

open Cache (Answer Entry Key Shape)
open Cache.Blocking (Visit)

/-! ## What is true of a row -/

def truth (id : Nat) : Entry := if rowExists id then .found (row id) else .knownAbsent

/-- The key is that of a row, and the entry is what is true of it. -/
def IsTrue (rows : Nat) (k : Key) (e : Entry) : Prop := ∃ id < rows, k = rowKey id ∧ e = truth id

def Outcome.saysExists : Outcome → Bool
  | .cached | .queried => true
  | .cachedAbsent | .queriedAbsent => false

/-- A lookup that gets through says of the row what is so. -/
def Agrees (id : Nat) (r : Result) : Prop := ∀ o, r = .ok o → o.saysExists = rowExists id

variable {rows id : Nat}

theorem agrees_error (id : Nat) (e : Failure) : Agrees id (.error e) := by simp [Agrees]

theorem agrees_hit (id : Nat) : Agrees id (.ok (ofHit (truth id))) := by
  intro o h
  obtain rfl := Except.ok.inj h
  unfold truth
  split <;> simp [ofHit, Entry.isAbsent, Outcome.saysExists, *]

theorem visitedRow_lt (worker iteration rows : Nat) :
    visitedRow worker iteration rows < max rows 1 :=
  Nat.mod_lt _ (Nat.lt_of_lt_of_le Nat.one_pos (Nat.le_max_right _ _))

/-! ## Workers -/

/-- What a lookup that is over came to. -/
def Phase.result? : Phase → Option Result
  | .returning r => some r
  | .failed e => some (.error e)
  | .starting | .asking | .reading _ | .missed _ | .ending .. | .finished => none

/-- What a worker that is busy with a row writes is true, and so is what it is about to report. -/
def Phase.Sound (rows id : Nat) : Phase → Prop
  | .reading v => v.key = rowKey id ∧ v.Tells (IsTrue rows)
  | .missed u => u = { missed := [rowKey id] }
  | .ending visits r => (∀ v ∈ visits, v.Tells (IsTrue rows)) ∧ Agrees id r
  | .returning r => Agrees id r
  | .starting | .asking | .finished | .failed _ => True

theorem Phase.Sound.result {p : Phase} (h : p.Sound rows id) {o : Outcome}
    (came : p.result? = some (.ok o)) : o.saysExists = rowExists id := by
  cases p with
  | returning r => exact h o (Option.some.inj came)
  | failed e => cases came
  | starting | asking | reading | missed | ending | finished => cases came

theorem commit_sound {o : Outcome} {u : Cache.UnitOfWork}
    (writes : ∀ k e, .put k e ∈ u.commitPlan → IsTrue rows k e)
    (agrees : o.saysExists = rowExists id) : (World.commit u o).Sound rows id := by
  refine ⟨fun v hv => ?_, fun o' same => Except.ok.inj same ▸ agrees⟩
  obtain ⟨c, hc, visit⟩ := List.mem_filterMap.mp hv
  cases c with
  | put k e =>
    cases visit
    exact writes k e hc
  | remove k =>
    cases visit
    exact Cache.finds_none k
  | size | get | contains | clear => cases visit

theorem rollBack_sound (u : Cache.UnitOfWork) (e : Failure) :
    (World.rollBack u e).Sound rows id := by
  refine ⟨fun v hv => ?_, agrees_error id e⟩
  simp only [Cache.UnitOfWork.rollbackPlan, List.filterMap_map, List.mem_filterMap] at hv
  obtain ⟨k, -, visit⟩ := hv
  cases visit
  exact Cache.finds_none k

theorem hear_sound {s : Shape} (w : World s) (i : Nat) (apart : DigestsDiffer rows)
    (inside : id < rows) {a : Answer (Option Entry)}
    (finds : Cache.Finds (IsTrue rows) (rowKey id) a) :
    (w.hear i (rowKey id) a).1.Sound rows id := by
  rcases a with e | _ | e
  · simp only [World.hear, Cache.UnitOfWork.learn]
    split
    · trivial
    · exact agrees_error id _
  · rfl
  · obtain ⟨j, hj, key, rfl⟩ := finds e rfl
    obtain rfl := apart.rowKey inside hj key
    exact commit_sound (by simp [Cache.UnitOfWork.commitPlan, Cache.UnitOfWork.writes,
      Cache.UnitOfWork.unwritten]) (agrees_hit id _ rfl)

/-- The unit of work that missed a row, with what the database has said of it. -/
def afterQuery (id : Nat) (said : Option Entry) : Cache.UnitOfWork :=
  match said with
  | some e => ({ missed := [rowKey id] } : Cache.UnitOfWork).put (rowKey id) e
  | none => { missed := [rowKey id] }

/-- A row that exists is put into the unit of work, and one that does not is a miss to the end: in
either case the commit writes what is true of it. -/
theorem commitPlan_afterQuery (id : Nat) :
    (afterQuery id (query id).2).commitPlan = [.put (rowKey id) (truth id)] := by
  unfold afterQuery query truth
  cases rowExists id <;> simp [Cache.UnitOfWork.commitPlan, Cache.UnitOfWork.writes,
    Cache.UnitOfWork.unwritten, Cache.UnitOfWork.put, Table.set, Table.has, Table.get?]

theorem saysExists_query (id : Nat) : (query id).1.saysExists = rowExists id := by
  unfold query
  cases rowExists id <;> rfl

theorem query_sound (inside : id < rows) :
    (World.commit (afterQuery id (query id).2) (query id).1).Sound rows id := by
  refine commit_sound (fun k e h => ?_) (saysExists_query id)
  rw [commitPlan_afterQuery, List.mem_singleton] at h
  cases h
  exact ⟨id, inside, rfl, rfl⟩

/-- The rows that a worker has been through. -/
def visited (worker iterations rows : Nat) : List Nat :=
  (List.range iterations).map fun j => visitedRow worker j rows

namespace Tally

def existing (t : Tally) : Nat := t.cached + t.queried

def absent (t : Tally) : Nat := t.cachedAbsent + t.queriedAbsent

/-- The tally of lookups that agree with the rows. -/
structure Counts (t : Tally) (ids : List Nat) : Prop where
  existing : t.existing = ids.countP rowExists
  absent : t.absent = ids.countP fun id => !rowExists id

theorem Counts.record {t : Tally} {ids : List Nat} (h : t.Counts ids) {o : Outcome}
    (agrees : o.saysExists = rowExists id) : (t.record o).Counts (ids ++ [id]) := by
  obtain ⟨existing, absent⟩ := h
  constructor <;> rw [List.countP_append, List.countP_singleton, ← agrees]
  · rw [← existing]
    cases o <;> simp [Tally.record, Tally.existing, Outcome.saysExists] <;> omega
  · rw [← absent]
    cases o <;> simp [Tally.record, Tally.absent, Outcome.saysExists] <;> omega

end Tally

structure Worker.Sound (options : Options) (i : Nat) (x : Worker) : Prop where
  phase : x.phase.Sound (max options.rows 1) (visitedRow i x.iteration options.rows)
  tally : x.tally.Counts (visited i x.iteration options.rows)

/-! ## Worlds -/

namespace World

variable {s : Shape} {options : Options} {w w' : World s} {i : Nat} {x x' : Worker}

/-- All that is held is true, and so is all that workers write, report and have counted. -/
structure Sound (options : Options) (w : World s) : Prop where
  same : w.options = options
  chain : (s.leaf w.chain).Holds (IsTrue (max options.rows 1))
  workers : ∀ i (x : Worker), w.workers[i]? = some x → x.Sound options i

theorem Sound.on_desk (h : w.Sound options) (desk : Pool.Service Nat Server) :
    Sound options { w with desk } := ⟨h.same, h.chain, h.workers⟩

theorem Sound.on_chain (h : w.Sound options) {chain : s.State}
    (holds : (s.leaf chain).Holds (IsTrue (max options.rows 1))) :
    Sound options { w with chain } := ⟨h.same, holds, h.workers⟩

/-- What a step of a worker leaves is sound: the worker, and the world that it is still to be put
back into. -/
structure Leaves (options : Options) (i : Nat) (left : Worker × World s) : Prop where
  worker : left.1.Sound options i
  world : left.2.Sound options

/-- Asking for a connection leads to a read of the row, to more asking, or to a failure. -/
theorem asks_sound {r : Pool.Request Nat} (h : w.Sound options) (hx : x.Sound options i)
    {left : Worker × World s}
    (asks : ((w.ask i x r).map fun p => ({ x with phase := p.1 }, p.2)) = some left) :
    Leaves options i left := by
  obtain ⟨⟨p, u⟩, asked, rfl⟩ := Option.map_eq_some_iff.mp asks
  obtain ⟨q, led, rest⟩ := Option.bind_eq_some_iff.mp asked
  cases rest
  refine ⟨⟨?_, hx.tally⟩, h.on_desk _⟩
  show p.Sound _ _
  unfold World.asked at led
  split at led <;> cases led
  · obtain ⟨tells, key⟩ := s.visitor_tells _ (rowKey _) w.chain
    exact ⟨h.same ▸ key, tells⟩
  all_goals trivial

/-- In each step of a visit, what it is to write or has found stays true. -/
theorem visits_sound {v : Visit} {f : Visit → Phase} (h : w.Sound options) (hx : x.Sound options i)
    (tells : v.Tells (IsTrue (max options.rows 1)))
    (sound : ∀ v' : Visit, v'.key = v.key → v'.Tells (IsTrue (max options.rows 1)) →
      (f v').Sound (max options.rows 1) (visitedRow i x.iteration options.rows))
    {left : Worker × World s}
    (visits : ((s.step w.now v w.chain).map fun p =>
      ({ x with phase := f p.1 }, { w with chain := p.2 })) = some left) :
    Leaves options i left := by
  obtain ⟨⟨v', chain⟩, step, rfl⟩ := Option.map_eq_some_iff.mp visits
  obtain ⟨tells', holds⟩ := Shape.step_keeps step tells h.chain
  exact ⟨⟨sound v' (Shape.step_key step) tells', hx.tally⟩, h.on_chain holds⟩

theorem queryRow_sound (same : w.options = options) :
    (w.queryRow i x { missed := [rowKey (visitedRow i x.iteration options.rows)] }).1.Sound
      (max options.rows 1) (visitedRow i x.iteration options.rows) := by
  unfold queryRow rowOf
  rw [same]
  dsimp only
  split
  · exact rollBack_sound _ _
  · exact query_sound (visitedRow_lt _ _ _)

theorem onward_sound {r : Result} (hx : x.Sound options i)
    (agrees : Agrees (visitedRow i x.iteration options.rows) r) :
    (w.onward x r).Sound options i := by
  cases r with
  | error e => exact ⟨trivial, hx.tally⟩
  | ok o =>
    refine ⟨?_, ?_⟩
    · show Phase.Sound _ _ (if _ then _ else _)
      split <;> trivial
    · show (x.tally.record o).Counts (visited i (x.iteration + 1) options.rows)
      rw [visited, List.range_succ, List.map_append]
      exact hx.tally.record (agrees o rfl)

theorem agrees_noteProblem {r : Result} (agrees : Agrees id r)
    (a : Cache.Answer (Option Entry)) : Agrees id (noteProblem r a) := by
  unfold noteProblem
  split
  · exact agrees
  · split
    · exact agrees_error id _
    · exact agrees

theorem move_sound (apart : DigestsDiffer (max options.rows 1)) (h : w.Sound options)
    (hx : x.Sound options i) (move : w.move i x = some (x', w')) :
    Leaves options i (x', w') := by
  have phase := hx.phase
  unfold World.move at move
  dsimp only at move
  split at move <;> rename_i now <;> rw [now] at phase
  · -- starting
    split at move
    · exact asks_sound h hx move
    · cases move
      exact ⟨⟨trivial, hx.tally⟩, h⟩
  · exact asks_sound h hx move
  · -- reading
    obtain ⟨key, tells⟩ := phase
    split at move
    · rename_i answer
      cases move
      have finds := tells.answer answer
      rw [key] at finds ⊢
      obtain ⟨desk, same⟩ := w.exists_hear_eq i (rowKey (visitedRow i x.iteration _)) _
      exact ⟨⟨hear_sound w i apart (visitedRow_lt _ _ _) finds, hx.tally⟩,
        same ▸ h.on_desk desk⟩
    · exact visits_sound (f := .reading) h hx tells
        (fun v' same tells' => ⟨same.trans key, tells'⟩) move
  · -- missed
    cases move
    cases phase
    exact ⟨⟨queryRow_sound h.same, hx.tally⟩, h.on_desk _⟩
  · -- ending, with no visit left
    cases move
    exact ⟨⟨phase.2, hx.tally⟩, h⟩
  · -- ending
    rename_i v rest r
    obtain ⟨tell, agrees⟩ := phase
    obtain ⟨tells, others⟩ := List.forall_mem_cons.mp tell
    split at move
    · cases move
      exact ⟨⟨⟨others, agrees_noteProblem agrees _⟩, hx.tally⟩, h⟩
    · exact visits_sound (f := fun v' => .ending (v' :: rest) r) h hx tells
        (fun v' _ tells' => ⟨List.forall_mem_cons.mpr ⟨tells', others⟩, agrees⟩) move
  · -- returning
    cases move
    exact ⟨onward_sound hx phase, h.on_desk _⟩
  · cases move
  · cases move

theorem step_sound (apart : DigestsDiffer (max options.rows 1)) (h : w.Sound options)
    (step : w.step i = some w') : w'.Sound options := by
  obtain ⟨x, at_i, rest⟩ := Option.bind_eq_some_iff.mp step
  obtain ⟨⟨x', u⟩, move, last⟩ := Option.bind_eq_some_iff.mp rest
  cases last
  have left := move_sound apart h (h.workers i x at_i) move
  refine ⟨left.world.same, left.world.chain, fun j y at_j => ?_⟩
  rw [List.getElem?_set] at at_j
  split at at_j
  · rename_i here
    subst here
    split at at_j
    · cases at_j
      exact left.worker
    · cases at_j
  · exact left.world.workers j y at_j

theorem next_sound (apart : DigestsDiffer (max options.rows 1)) (h : w.Sound options)
    (event : Event) : (w.next event).Sound options := by
  cases event with
  | step i =>
    unfold next
    dsimp only
    cases step : w.step i with
    | none => exact h
    | some w' => exact step_sound apart h step
  | expire | elapse => exact h.on_desk _

theorem run_sound (apart : DigestsDiffer (max options.rows 1)) (events : List Event)
    (h : w.Sound options) : (w.run events).Sound options := by
  induction events generalizing w with
  | nil => exact h
  | cons event rest ih => exact ih (next_sound apart h event)

theorem start_sound (s : Shape) (source : Source.DataSource) (pool : Pool.Settings)
    (options : Options) : (start s source pool options).Sound options where
  same := rfl
  chain := s.initial_holds
  workers i x at_i := by
    obtain rfl := List.eq_of_mem_replicate (List.mem_of_getElem? at_i)
    exact ⟨trivial, ⟨rfl, rfl⟩⟩

/-- Whatever the settings are, and whatever workers do or meet with and in which order: a lookup
that gets through says of its row what is so, and so does the tally of them all; the chain holds
what is true of the rows that are looked up, and nothing else. -/
theorem lookups_agree (r : Resolved) (options : Options) (events : List Event)
    (apart : DigestsDiffer (max options.rows 1)) :
    let w := (start r.cache.shape r.source r.pool options).run events
    (∀ i (x : Worker), w.workers[i]? = some x →
      (∀ o, x.phase.result? = some (.ok o) → o.saysExists = rowExists (w.rowOf i x)) ∧
        x.tally.Counts (visited i x.iteration options.rows)) ∧
      (∀ id < max options.rows 1, ∀ e,
        Cache.Memory.entry? (r.cache.shape.leaf w.chain) (rowKey id) = some e →
          e = if rowExists id then .found (row id) else .knownAbsent) ∧
      ∀ k e, Cache.Memory.entry? (r.cache.shape.leaf w.chain) k = some e →
        ∃ id < max options.rows 1, k = rowKey id := by
  intro w
  have sound : w.Sound options :=
    run_sound apart events (start_sound r.cache.shape r.source r.pool options)
  refine ⟨fun i x at_i => ⟨fun o came => ?_, (sound.workers i x at_i).tally⟩,
    fun id inside e held => ?_, fun k e held => ?_⟩
  · rw [rowOf, sound.same]
    exact (sound.workers i x at_i).phase.result came
  · obtain ⟨j, hj, key, rfl⟩ := sound.chain _ e held
    rw [apart.rowKey inside hj key, truth]
  · obtain ⟨id, inside, key, -⟩ := sound.chain k e held
    exact ⟨id, inside, key⟩

/-! ### A row that does not exist -/

def crowd : Resolved where
  source := { url := "sim" }
  pool := {}
  cache := { id := Resolved.cacheId, blockingTimeout := some (.ofSeconds 1) }

def crowdOptions : Options := { workers := 10, iterations := 1, rows := 4 }

def steps (i n : Nat) : List Event := List.replicate n (.step i)

/-- Worker 1 looks up row 3, worker 5 waits for that until its time is up, and worker 9 comes
when it is known. -/
def crowded : World crowd.cache.shape :=
  (start crowd.cache.shape crowd.source crowd.pool crowdOptions).run <|
    steps 1 4 ++ steps 5 3 ++ [.elapse (.ofSeconds 1)] ++ steps 5 3 ++ steps 1 6 ++ steps 9 7

theorem digestsDiffer_crowd : DigestsDiffer (max crowdOptions.rows 1) := by
  unfold DigestsDiffer
  decide +kernel

theorem lookups_agree_crowded :
    DigestsDiffer (max crowdOptions.rows 1) ∧
      ([1, 5, 9].map fun i => crowded.workers[i]?.bind (·.phase.result?)) =
        [some (.ok .queriedAbsent),
          some (.error (.cache (.lockTimeout (rowKey 3) Resolved.cacheId (.ofSeconds 1)))),
          some (.ok .cachedAbsent)] ∧
      ∀ e, Cache.Memory.entry? (crowd.cache.shape.leaf crowded.chain) (rowKey 3) = some e →
        e = .knownAbsent :=
  ⟨digestsDiffer_crowd, by decide +kernel,
    (lookups_agree crowd crowdOptions _ digestsDiffer_crowd).2.1 3 (by decide)⟩

end World
end DataTier.Simulation
