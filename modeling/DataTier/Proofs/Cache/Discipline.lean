import DataTier.Proofs.Cache.Plans
import DataTier.Proofs.Cache.Team
import DataTier.Cache.Memory
import Mathlib.Data.List.Perm.Basic

/-! Which gates units of work open. While a unit of work is in progress its client owes every
key that it has missed, and whatever it has written was missed or veiled; when it ends, its
plan settles each key once. So no keys but veiled ones go astray. -/

namespace DataTier.Cache.Blocking

/-! ## The keys of a plan -/

theorem keys_settlements_commitPlan (u : UnitOfWork) :
    (settlements u.commitPlan).map Prod.fst = u.pending.keys ++ u.unwritten := by
  have clear : settlements (if u.clearOnCommit then [.clear] else []) = [] := by
    split <;> rfl
  rw [UnitOfWork.commitPlan, UnitOfWork.writes, settlements, List.filterMap_append,
    ← settlements, clear, List.nil_append, List.filterMap_append, List.map_append,
    List.filterMap_map, List.filterMap_map]
  simp [Function.comp_def, settlement?, Table.keys, List.filterMap_eq_map']

theorem keys_settlements_rollbackPlan (u : UnitOfWork) :
    (settlements u.rollbackPlan).map Prod.fst = u.missed := by
  simp [settlements, UnitOfWork.rollbackPlan, List.filterMap_map, Function.comp_def, settlement?]

/-! ## What is known of a worker -/

namespace Activity

def isReading : Activity → Bool
  | reading _ => true
  | _ => false

def isSettling : Activity → Bool
  | settling _ => true
  | _ => false

theorem isReading_proceed (v : Visit) (a : Activity) : (a.proceed v).isReading = a.isReading := by
  cases a <;> rfl

theorem isSettling_proceed (v : Visit) (a : Activity) :
    (a.proceed v).isSettling = a.isSettling := by
  cases a <;> rfl

end Activity

/-- Two clients who owe the same, and are busy with the same kind of call. -/
structure Client.Alike (c c' : Client) : Prop where
  owed : c'.owed = c.owed
  reads : c'.activity.isReading = c.activity.isReading
  settles : c'.activity.isSettling = c.activity.isSettling

theorem Client.collect_reading {c c' : Client} {k : Key} {a : Answer (Option Entry)}
    (hc : c.collect = some (c', k, a)) (h : c.activity.isSettling = false) :
    c'.owed = (if isMiss a then k :: c.owed else c.owed) ∧ c'.activity = .idle := by
  unfold collect at hc
  split at hc
  · cases hc
  · obtain ⟨b, _, hb⟩ := Option.map_eq_some_iff.mp hc
    cases hb
    exact ⟨rfl, rfl⟩
  · rename_i v settles
    rw [settles] at h
    cases h

theorem error_of_firstOf {result : Answer Unit} {a : Answer (Option Entry)} {e : Error}
    (h : firstOf result a = .error e) : result = .error e ∨ a = .error e := by
  rcases result with _ | _
  · exact .inl h
  · rcases a with _ | _
    · cases h
      exact .inr rfl
    · cases h

/-- A unit of work in progress. -/
structure Working (veiled : List Key) (c : Client) (x : Worker) : Prop where
  settles : c.activity.isSettling = false
  pending : x.unit.pending.keys.Nodup
  missed : x.unit.missed.Nodup
  owed : ∀ k ∈ x.unit.missed, k ∈ c.owed
  blank : ∀ k ∈ x.blank, k ∈ x.unit.missed ∨ k ∈ veiled
  written : ∀ k ∈ x.unit.pending.keys, k ∈ x.blank

/-- A miss is owed from now on, and what has been made a miss is veiled. -/
theorem Working.learn {veiled : List Key} {c c' : Client} {x : Worker} {k : Key}
    {a : Answer (Option Entry)} (h : Working veiled c x) (hc : c.collect = some (c', k, a)) :
    Working (if x.veils k a then k :: veiled else veiled) c' (x.learn k a) := by
  obtain ⟨owed, idle⟩ := Client.collect_reading hc h.settles
  have settles : c'.activity.isSettling = false := by rw [idle]; rfl
  rcases a with e | _ | e
  · exact { h with settles, owed := by rw [owed]; exact h.owed }
  · refine ⟨settles, ?_, UnitOfWork.nodup_missed_note h.missed k, fun l hl => ?_, fun l hl => ?_,
      fun l hl => ?_⟩
    · rw [Worker.learn, UnitOfWork.pending_learn]
      exact h.pending
    · rw [owed]
      refine List.mem_cons.mpr (((x.unit.mem_missed_note k l).mp hl).imp_right (h.owed l))
    · rcases List.mem_cons.mp hl with rfl | old
      · exact .inl ((x.unit.mem_missed_note l l).mpr (.inl rfl))
      · exact (h.blank l old).imp_left fun missed => (x.unit.mem_missed_note k l).mpr (.inr missed)
    · rw [Worker.learn, UnitOfWork.pending_learn] at hl
      exact List.mem_cons_of_mem k (h.written l hl)
  -- a hit is told as a miss just if the store is to be cleared first
  · cases clears : x.unit.clearOnCommit with
    | false =>
      have learnt : x.learn k (.ok (some e)) = x := by
        simp [Worker.learn, UnitOfWork.learn, clears, isMiss]
      have shown : x.veils k (.ok (some e)) = false := by
        simp [Worker.veils, UnitOfWork.learn, clears, isMiss]
      rw [learnt, shown]
      exact { h with settles, owed := by rw [owed]; exact h.owed }
    | true =>
      have learnt : x.learn k (.ok (some e)) = { x with blank := k :: x.blank } := by
        simp [Worker.learn, UnitOfWork.learn, clears, isMiss]
      have hidden : x.veils k (.ok (some e)) = true := by
        simp [Worker.veils, UnitOfWork.learn, clears, isMiss]
      rw [learnt, hidden]
      refine { h with
        settles
        owed := by rw [owed]; exact h.owed
        blank := fun l hl => ?_
        written := fun l hl => List.mem_cons_of_mem k (h.written l hl) }
      rcases List.mem_cons.mp hl with rfl | old
      · exact .inr List.mem_cons_self
      · exact (h.blank l old).imp_right (List.mem_cons_of_mem k)

/-- A commit or a rollback. -/
structure Ending (veiled : List Key) (accounts : Error → Prop) (c : Client)
    (rest : List (Key × Option Entry)) (result : Answer Unit) : Prop where
  reads : c.activity.isReading = false
  once : (rest.map Prod.fst).Nodup
  due : ∀ k ∈ rest.map Prod.fst, k ∈ c.owed ∨ k ∈ veiled
  failed : ∀ e, result = .error e → accounts e

/-! ## What a move does to a crowd -/

namespace Crowd

variable {ι σ α : Type} [DecidableEq ι] {d : Store σ} {w : Crowd ι σ} {i : ι} {k : Key}
  {id : String}

theorem move_read_of_idle {now : Time.Instant} (idle : (w.clients i).activity = .idle) :
    w.move d (.read i k now) =
      { w with
        clients := Function.update w.clients i
          ((w.clients i).read d.id now k w.shared.gates.timeout) } := by
  simp only [move, idle]

theorem move_settle_of_idle {e : Option Entry} (idle : (w.clients i).activity = .idle) :
    w.move d (.settle i k e) =
      { w with
        clients := Function.update w.clients i ((w.clients i).settle k e)
        strays := if k ∈ (w.clients i).owed then w.strays else k :: w.strays } := by
  simp only [move, idle]

theorem grows_settle (d : Store σ) {e : Option Entry} (idle : (w.clients i).activity = .idle) :
    Grows w (w.move d (.settle i k e)) := by
  rw [move_settle_of_idle idle]
  refine ⟨fun _ hx => hx, fun l hl => ?_⟩
  dsimp only
  split
  · exact hl
  · exact List.mem_cons_of_mem k hl

omit [DecidableEq ι] in
theorem Fits.collect_settling {c c' : Client} {a : Answer (Option Entry)} (h : w.Fits id i c)
    (hc : c.collect = some (c', k, a)) (hr : c.activity.isReading = false) :
    c'.owed = c.owed ∧ c'.activity = .idle ∧
      ∀ e, a = .error e → Explained w.log w.strays id i k e := by
  have known := h.call
  unfold Client.collect at hc
  split at hc
  · cases hc
  · rename_i v reads
    rw [reads] at hr
    cases hr
  · rename_i v settles
    obtain ⟨b, answer, hb⟩ := Option.map_eq_some_iff.mp hc
    cases hb
    rw [settles, Known, answer?_eq_some answer] at known
    exact ⟨rfl, rfl, known⟩

theorem move_collect_of_some {c : Client} {a : Answer (Option Entry)}
    (hc : (w.clients i).collect = some (c, k, a)) :
    w.move d (.collect i) =
      { w with
        clients := Function.update w.clients i c
        log := .answered i k a :: w.log } := by
  simp only [move, hc]

theorem move_step_eq (d : Store σ) (w : Crowd ι σ) (i : ι) (now : Time.Instant) :
    w.move d (.step i now) = w ∨
      ∃ v v' shared, w.move d (.step i now) = w.advance d i v v' shared := by
  unfold move
  dsimp only
  split
  · exact .inl rfl
  · split
    · exact .inl rfl
    · exact .inr ⟨_, _, _, rfl⟩

omit [DecidableEq ι] in
/-- Something is asked of the layer below on behalf of a client, past all gates. -/
theorem Orderly.past (h : w.Orderly id) (i : ι) (a : Answer α) (below : σ) :
    Orderly { w with shared := { w.shared with below }, log := failure i a ++ w.log } id := by
  have calm : Calm w { w with shared := { w.shared with below }, log := failure i a ++ w.log } := by
    refine ⟨⟨fun _ hx => List.mem_append_right _ hx, fun _ hk => hk⟩, rfl, rfl, fun j k gate => ?_⟩
    simp [mem_failure]
  have none (j : ι) (k : Key) (b : Answer (Option Entry)) : .answered j k b ∉ failure i a := by
    simp [mem_failure]
  refine h.extend calm.toGrows (h.gates.congr rfl rfl calm.closed) (fun j k gate hm => ?_)
    (fun j k e earlier hm => ?_) fun j => calm.fits (.of_append rfl (none j)) (h.fits j)
  · exact .inl (by simpa [mem_failure] using hm)
  · exact .inl (answered_suffix_of_append (none j k _) hm)

end Crowd

/-- Each key is settled once, and so is still owed when its turn comes, if it was missed. -/
theorem Ending.next {veiled : List Key} {accounts : Error → Prop} {c : Client}
    {rest : List (Key × Option Entry)} {result : Answer Unit} {n : Nat} {k : Key}
    {e : Option Entry} (h : Ending veiled accounts c rest result)
    (turn : rest[n]? = some (k, e)) :
    (k ∈ c.owed ∨ k ∈ veiled) ∧
      Ending veiled accounts (c.settle k e) (rest.eraseIdx n) result := by
  obtain ⟨inside, look⟩ := List.getElem?_eq_some_iff.mp turn
  have perm := (List.getElem_cons_eraseIdx_perm inside).map Prod.fst
  rw [look, List.map_cons] at perm
  obtain ⟨gone, once⟩ := List.nodup_cons.mp (perm.nodup_iff.mpr h.once)
  have due (l : Key) (hl : l ∈ k :: (rest.eraseIdx n).map Prod.fst) : l ∈ c.owed ∨ l ∈ veiled :=
    h.due l (perm.mem_iff.mp hl)
  refine ⟨due k List.mem_cons_self, rfl, once, fun l hl => ?_, h.failed⟩
  -- the key that is settled now is not among the others, which are owed as before
  refine (due l (List.mem_cons_of_mem k hl)).imp_left fun owes => ?_
  have other : l ≠ k := fun same => gone (same ▸ hl)
  exact (List.mem_erase_of_ne other).mpr owes

namespace Team

variable {ι σ : Type} {id : String} {d : Store σ} {w w' : Team ι σ} {i j : ι} {c c' : Client}
  {x : Worker}

def Accounts (w : Team ι σ) (id : String) (i : ι) (e : Error) : Prop :=
  .failedBelow i e ∈ w.crowd.log ∨ ∃ k ∈ w.crowd.strays, e = .invalidRelease k id

def Fits (w : Team ι σ) (id : String) (i : ι) : Prop :=
  match (w.workers i).stage with
  | .working => Working w.veiled (w.crowd.clients i) (w.workers i)
  | .ending _ rest result =>
    Ending w.veiled (w.Accounts id i) (w.crowd.clients i) rest result
  | .over => True

structure Disciplined (w : Team ι σ) (id : String) : Prop where
  crowd : w.crowd.Orderly id
  strays : ∀ k ∈ w.crowd.strays, k ∈ w.veiled
  commits : ∀ i e, (i, .error e) ∈ w.commits → w.Accounts id i e
  fits : ∀ i, w.Fits id i

structure Grows (w w' : Team ι σ) : Prop where
  crowd : Crowd.Grows w.crowd w'.crowd
  veiled : ∀ k ∈ w.veiled, k ∈ w'.veiled

theorem Grows.of_eq (log : w'.crowd.log = w.crowd.log) (strays : w'.crowd.strays = w.crowd.strays)
    (veiled : w'.veiled = w.veiled) : Grows w w' :=
  ⟨⟨fun _ hx => log ▸ hx, fun _ hk => strays ▸ hk⟩, fun _ hk => veiled ▸ hk⟩

theorem Accounts.mono {e : Error} (h : w.Accounts id i e) (grows : Grows w w') :
    w'.Accounts id i e :=
  h.imp (grows.crowd.log _) fun ⟨k, hk, he⟩ => ⟨k, grows.crowd.strays k hk, he⟩

theorem Fits.mono (h : w.Fits id i) (grows : Grows w w') (worker : w'.workers i = w.workers i)
    (client : (w.crowd.clients i).Alike (w'.crowd.clients i)) : w'.Fits id i := by
  unfold Fits at h ⊢
  rw [worker]
  split
  · rename_i stage
    rw [stage] at h
    exact { h with
      settles := client.settles ▸ h.settles
      owed := client.owed ▸ h.owed
      blank := fun k hk => (h.blank k hk).imp_right (grows.veiled k) }
  · rename_i stage
    rw [stage] at h
    refine ⟨client.reads ▸ h.reads, h.once, fun k hk => ?_, fun e he => (h.failed e he).mono grows⟩
    rw [client.owed]
    exact (h.due k hk).imp_right (grows.veiled k)
  · trivial

theorem fits_iff_of_working (stage : (w.workers i).stage = .working) :
    w.Fits id i ↔ Working w.veiled (w.crowd.clients i) (w.workers i) := by
  rw [Fits, stage]

theorem fits_iff_of_ending {commits : Bool} {rest : List (Key × Option Entry)}
    {result : Answer Unit} (stage : (w.workers i).stage = .ending commits rest result) :
    w.Fits id i ↔ Ending w.veiled (w.Accounts id i) (w.crowd.clients i) rest result := by
  rw [Fits, stage]

theorem isFree_iff : w.isFree i = true ↔
    (w.workers i).stage = .working ∧ (w.crowd.clients i).activity = .idle := by
  unfold isFree
  split <;> simp_all

theorem Disciplined.extend (h : w.Disciplined id) (grows : Grows w w')
    (crowd : w'.crowd.Orderly id) (strays : ∀ k ∈ w'.crowd.strays, k ∈ w'.veiled)
    (commits : ∀ j e, (j, .error e) ∈ w'.commits →
      (j, .error e) ∈ w.commits ∨ w'.Accounts id j e)
    (fits : ∀ j, w'.Fits id j) : w'.Disciplined id where
  crowd := crowd
  strays := strays
  commits j e hm := (commits j e hm).elim (fun old => (h.commits j e old).mono grows) fun new => new
  fits := fits

variable [DecidableEq ι]

theorem workers_assign : (w.assign i x).workers i = x := Function.update_self ..

theorem workers_assign_of_ne (h : j ≠ i) : (w.assign i x).workers j = w.workers j :=
  Function.update_of_ne h ..

/-- What one worker does; the others do not depend on it. -/
theorem Disciplined.assign (h : w.Disciplined id) (grows : Grows w w')
    (workers : w'.workers = w.workers) (crowd : w'.crowd.Orderly id)
    (strays : ∀ k ∈ w'.crowd.strays, k ∈ w'.veiled)
    (commits : ∀ j e, (j, .error e) ∈ w'.commits →
      (j, .error e) ∈ w.commits ∨ w'.Accounts id j e)
    (others : ∀ j, j ≠ i → (w.crowd.clients j).Alike (w'.crowd.clients j))
    (own : (w'.assign i x).Fits id i) : (w'.assign i x).Disciplined id := by
  refine h.extend ⟨grows.crowd, grows.veiled⟩ crowd strays commits fun j => ?_
  by_cases e : j = i
  · exact e ▸ own
  · refine (h.fits j).mono ⟨grows.crowd, grows.veiled⟩ ?_ (others j e)
    rw [workers_assign_of_ne e, workers]

theorem fits_assign_of_working (stage : x.stage = .working)
    (h : Working w.veiled (w.crowd.clients i) x) : (w.assign i x).Fits id i := by
  rw [fits_iff_of_working (by rw [workers_assign]; exact stage), workers_assign]
  exact h

theorem fits_assign_of_ending {commits : Bool} {rest : List (Key × Option Entry)}
    {result : Answer Unit} (stage : x.stage = .ending commits rest result)
    (h : Ending w.veiled (w.Accounts id i) (w.crowd.clients i) rest result) :
    (w.assign i x).Fits id i := by
  rw [fits_iff_of_ending (by rw [workers_assign]; exact stage)]
  exact h

/-! ## A unit of work in progress -/

theorem Disciplined.get (h : w.Disciplined d.id) (i : ι) (k : Key) (now : Time.Instant) :
    (w.act d (.get i k now)).Disciplined d.id := by
  rw [act]
  split
  · rename_i free
    obtain ⟨stage, idle⟩ := isFree_iff.mp free
    have works := (fits_iff_of_working stage).mp (h.fits i)
    have crowd := h.crowd.move (.read i k now)
    rw [Crowd.move_read_of_idle idle] at crowd ⊢
    refine h.extend (.of_eq rfl rfl rfl) crowd h.strays (fun _ _ => .inl) fun j => ?_
    by_cases e : j = i
    · refine (fits_iff_of_working (by exact e ▸ stage)).mpr ?_
      rw [e]
      dsimp only
      rw [Function.update_self]
      exact { works with settles := rfl }
    · refine (h.fits j).mono (.of_eq rfl rfl rfl) rfl ?_
      dsimp only
      rw [Function.update_of_ne e]
      exact ⟨rfl, rfl, rfl⟩
  · exact h

/-- A change within a unit of work. -/
theorem Disciplined.edit (h : w.Disciplined id) (stage : x.stage = .working)
    (works : Working w.veiled (w.crowd.clients i) x) : (w.assign i x).Disciplined id :=
  h.assign (.of_eq rfl rfl rfl) rfl h.crowd h.strays (fun _ _ => .inl)
    (fun _ _ => ⟨rfl, rfl, rfl⟩) (fits_assign_of_working stage works)

theorem Disciplined.put (h : w.Disciplined d.id) (i : ι) (k : Key) (e : Entry) :
    (w.act d (.put i k e)).Disciplined d.id := by
  rw [act]
  split
  · rename_i allowed
    obtain ⟨free, hk⟩ := Bool.and_eq_true_iff.mp allowed
    obtain ⟨stage, _⟩ := isFree_iff.mp free
    have works := (fits_iff_of_working stage).mp (h.fits i)
    refine h.edit stage { works with
      pending := Table.nodup_keys_set works.pending _ _
      written := fun l hl => ?_ }
    rw [UnitOfWork.put, Table.mem_keys_set] at hl
    rcases hl with rfl | old
    · exact of_decide_eq_true hk
    · exact works.written l old
  · exact h

theorem Disciplined.clear (h : w.Disciplined d.id) (i : ι) :
    (w.act d (.clear i)).Disciplined d.id := by
  rw [act]
  split
  · rename_i free
    obtain ⟨stage, _⟩ := isFree_iff.mp free
    have works := (fits_iff_of_working stage).mp (h.fits i)
    exact h.edit stage { works with
      pending := List.nodup_nil
      written := fun _ hl => absurd hl List.not_mem_nil }
  · exact h

/-! ## The end of a unit of work -/

theorem Disciplined.commit (h : w.Disciplined d.id) (i : ι) :
    (w.act d (.commit i)).Disciplined d.id := by
  rw [act]
  split
  · rename_i free
    obtain ⟨stage, idle⟩ := isFree_iff.mp free
    have works := (fits_iff_of_working stage).mp (h.fits i)
    unfold Team.commit
    dsimp only
    obtain ⟨a, below⟩ := cleared d (w.workers i).unit w.crowd.shared.below
    refine h.assign ⟨⟨fun _ hx => List.mem_append_right _ hx, fun _ hk => hk⟩, fun _ hk => hk⟩ rfl
      (h.crowd.past i a below) h.strays (fun _ _ => .inl) (fun _ _ => ⟨rfl, rfl, rfl⟩)
      (fits_assign_of_ending rfl ⟨by rw [idle]; rfl, ?_, fun k hk => ?_, fun e he => .inl ?_⟩)
    · rw [keys_settlements_commitPlan]
      exact UnitOfWork.nodup_written works.pending works.missed
    · rw [keys_settlements_commitPlan] at hk
      -- a key is written where a read came back empty, and all else in the plan was missed
      have known : k ∈ (w.workers i).unit.missed ∨ k ∈ w.veiled := by
        rcases List.mem_append.mp hk with written | unwritten
        · exact works.blank k (works.written k written)
        · exact .inl (UnitOfWork.mem_unwritten.mp unwritten).1
      exact known.imp_left (works.owed k)
    · exact List.mem_append_left _ (mem_failure.mpr ⟨e, he, rfl⟩)
  · exact h

theorem Disciplined.rollback (h : w.Disciplined d.id) (i : ι) :
    (w.act d (.rollback i)).Disciplined d.id := by
  rw [act]
  split
  · rename_i free
    obtain ⟨stage, idle⟩ := isFree_iff.mp free
    have works := (fits_iff_of_working stage).mp (h.fits i)
    refine h.assign (.of_eq rfl rfl rfl) rfl h.crowd h.strays (fun _ _ => .inl)
      (fun _ _ => ⟨rfl, rfl, rfl⟩)
      (fits_assign_of_ending rfl ⟨by rw [idle]; rfl, ?_, fun k hk => ?_, fun _ he => by cases he⟩)
    · rw [keys_settlements_rollbackPlan]
      exact works.missed
    · rw [keys_settlements_rollbackPlan] at hk
      exact .inl (works.owed k hk)
  · exact h

theorem Disciplined.next (h : w.Disciplined d.id) (i : ι) (n : Nat) :
    (w.act d (.next i n)).Disciplined d.id := by
  rw [act]
  split
  · rename_i commits rest result stage idle
    split
    · exact h
    · rename_i k e turn
      obtain ⟨due, ends⟩ := ((fits_iff_of_ending stage).mp (h.fits i)).next turn
      have crowd := h.crowd.move (.settle i k e)
      have grows := Crowd.grows_settle d (k := k) (e := e) idle
      rw [Crowd.move_settle_of_idle idle] at crowd grows ⊢
      have grows : Grows w { w with crowd := _ } := ⟨grows, fun _ hl => hl⟩
      refine h.assign grows rfl crowd (fun l hl => ?_) (fun _ _ => .inl) (fun j hj => ?_)
        (fits_assign_of_ending rfl ?_)
      · dsimp only at hl
        split at hl
        · exact h.strays l hl
        · rename_i owesNot
          rcases List.mem_cons.mp hl with rfl | old
          · exact due.resolve_left owesNot
          · exact h.strays l old
      · dsimp only
        rw [Function.update_of_ne hj]
        exact ⟨rfl, rfl, rfl⟩
      · dsimp only
        rw [Function.update_self]
        exact { ends with failed := fun e he => (ends.failed e he).mono grows }
  · exact h

theorem Disciplined.conclude (h : w.Disciplined d.id) (i : ι) :
    (w.act d (.conclude i)).Disciplined d.id := by
  rw [act]
  split
  · rename_i commits result stage idle
    have ends := (fits_iff_of_ending stage).mp (h.fits i)
    refine h.assign (.of_eq rfl rfl rfl) rfl h.crowd h.strays (fun j e hm => ?_)
      (fun _ _ => ⟨rfl, rfl, rfl⟩) ?_
    · dsimp only at hm
      split at hm
      · rcases List.mem_cons.mp hm with new | old
        · cases new
          exact .inr (ends.failed e rfl)
        · exact .inl old
      · exact .inl hm
    · rw [Fits, workers_assign]
      trivial
  · exact h

/-! ## Answers and runs -/

/-- A move of the crowd that no worker takes notice of. -/
theorem Disciplined.goOn (h : w.Disciplined d.id) (m : Move ι σ)
    (grows : Crowd.Grows w.crowd (w.crowd.move d m))
    (strays : (w.crowd.move d m).strays = w.crowd.strays)
    (clients : ∀ j, (w.crowd.clients j).Alike ((w.crowd.move d m).clients j)) :
    Disciplined { w with crowd := w.crowd.move d m } d.id :=
  h.extend ⟨grows, fun _ hk => hk⟩ (h.crowd.move m)
    (fun k hk => h.strays k (strays ▸ hk)) (fun _ _ => .inl)
    fun j => (h.fits j).mono ⟨grows, fun _ hk => hk⟩ rfl (clients j)

theorem Disciplined.step (h : w.Disciplined d.id) (i : ι) (now : Time.Instant) :
    (w.act d (.step i now)).Disciplined d.id := by
  rcases Crowd.move_step_eq d w.crowd i now with same | ⟨v, v', shared, went⟩
  · rw [act, same]
    exact h
  · refine h.goOn (.step i now) ?_ ?_ fun j => ?_
    all_goals rw [went]
    · exact ⟨fun _ hx => List.mem_append_right _ hx, fun _ hk => hk⟩
    · rfl
    · by_cases e : j = i
      · rw [e, Crowd.advance]
        dsimp only
        rw [Function.update_self]
        exact ⟨rfl, Activity.isReading_proceed .., Activity.isSettling_proceed ..⟩
      · rw [Crowd.advance]
        dsimp only
        rw [Function.update_of_ne e]
        exact ⟨rfl, rfl, rfl⟩

theorem Disciplined.collect (h : w.Disciplined d.id) (i : ι) :
    (w.act d (.collect i)).Disciplined d.id := by
  rw [act]
  split
  · exact h
  · rename_i c k a hc
    have crowd := h.crowd.move (.collect i)
    rw [Crowd.move_collect_of_some hc] at crowd ⊢
    have others (j : ι) (hj : j ≠ i) :
        (w.crowd.clients j).Alike (Function.update w.crowd.clients i c j) := by
      rw [Function.update_of_ne hj]
      exact ⟨rfl, rfl, rfl⟩
    have grows : Crowd.Grows w.crowd { w.crowd with
        clients := Function.update w.crowd.clients i c
        log := .answered i k a :: w.crowd.log } :=
      ⟨fun _ hx => List.mem_cons_of_mem _ hx, fun _ hk => hk⟩
    unfold take
    dsimp only
    split
    · rename_i stage
      have works := (fits_iff_of_working stage).mp (h.fits i)
      have veiled (l : Key) (hl : l ∈ w.veiled) :
          l ∈ if (w.workers i).veils k a then k :: w.veiled else w.veiled := by
        split
        · exact List.mem_cons_of_mem k hl
        · exact hl
      refine h.assign ⟨grows, veiled⟩ rfl crowd (fun l hl => veiled l (h.strays l hl))
        (fun _ _ => .inl) others (fits_assign_of_working stage ?_)
      dsimp only
      rw [Function.update_self]
      exact works.learn hc
    · rename_i commits rest result stage
      have ends := (fits_iff_of_ending stage).mp (h.fits i)
      obtain ⟨owed, idle, failed⟩ := (h.crowd.fits i).collect_settling hc ends.reads
      have grows : Grows w { w with crowd := _ } := ⟨grows, fun _ hl => hl⟩
      refine h.assign grows rfl crowd h.strays (fun _ _ => .inl) others
        (fits_assign_of_ending rfl ?_)
      dsimp only
      rw [Function.update_self]
      refine ⟨by rw [idle]; rfl, ends.once, by rw [owed]; exact ends.due, fun e he => ?_⟩
      have accounts : w.Accounts d.id i e := by
        rcases error_of_firstOf he with old | new
        · exact ends.failed e old
        · exact (failed e new).imp FailedInCall.mem fun ⟨stray, hk⟩ => ⟨k, hk, stray⟩
      exact accounts.mono grows
    · rename_i stage
      refine h.extend ⟨grows, fun _ hl => hl⟩ crowd h.strays (fun _ _ => .inl) fun j => ?_
      by_cases e : j = i
      · rw [Fits, e]
        dsimp only
        rw [stage]
        trivial
      · exact (h.fits j).mono ⟨grows, fun _ hl => hl⟩ rfl (others j e)

theorem Disciplined.act (h : w.Disciplined d.id) (a : Act ι σ) : (w.act d a).Disciplined d.id := by
  cases a with
  | get i k now => exact h.get i k now
  | put i k e => exact h.put i k e
  | clear i => exact h.clear i
  | commit i => exact h.commit i
  | rollback i => exact h.rollback i
  | next i n => exact h.next i n
  | collect i => exact h.collect i
  | conclude i => exact h.conclude i
  | step i now => exact h.step i now
  | below f =>
    exact h.goOn (.below f) ⟨fun _ hx => hx, fun _ hk => hk⟩ rfl fun _ => ⟨rfl, rfl, rfl⟩
  | setTimeout t =>
    exact h.goOn (.setTimeout t) ⟨fun _ hx => hx, fun _ hk => hk⟩ rfl fun _ => ⟨rfl, rfl, rfl⟩

omit [DecidableEq ι] in
theorem start_disciplined (below : σ) (timeout : Option Time.Duration) (id : String) :
    (start below timeout : Team ι σ).Disciplined id where
  crowd := Crowd.start_orderly below timeout id
  strays _ hk := by cases hk
  commits _ _ hm := by cases hm
  fits _ := ⟨rfl, List.nodup_nil, List.nodup_nil, fun _ hk => (by cases hk),
    fun _ hk => (by cases hk), fun _ hk => (by cases hk)⟩

theorem Disciplined.run (h : w.Disciplined d.id) (as : List (Act ι σ)) :
    (w.run d as).Disciplined d.id := by
  induction as generalizing w with
  | nil => exact h
  | cons a as ih => exact ih (h.act a)

/-- Whatever units of work do beside each other: a commit that fails was failed by the layer
below or settled a key that had gone astray, a gate is opened by nobody but the client that has
closed it unless its key had gone astray, and only veiled keys go astray. -/
theorem run_discipline (d : Store σ) (below : σ) (timeout : Option Time.Duration)
    (as : List (Act ι σ)) :
    let w : Team ι σ := (start below timeout).run d as
    (∀ i e, (i, .error e) ∈ w.commits → .failedBelow i e ∈ w.crowd.log ∨
      ∃ k ∈ w.crowd.strays, e = .invalidRelease k d.id) ∧
    (∀ i k gate, .opened i k gate ∈ w.crowd.log → k ∉ w.crowd.strays →
      .closed i k gate ∈ w.crowd.log ∧ ∀ j l, .closed j l gate ∈ w.crowd.log → j = i) ∧
    ∀ k ∈ w.crowd.strays, k ∈ w.veiled := by
  intro w
  have h : w.Disciplined d.id := (start_disciplined below timeout d.id).run as
  refine ⟨h.commits, fun i k gate opened clean => ?_, h.strays⟩
  have closed := h.crowd.opened i k gate opened clean
  exact ⟨closed, fun j l other => h.crowd.gates.sole j i l k gate other closed⟩

/-- Unit 1 writes a key that it has found behind a clearing to come, while unit 3 has missed it.
The commit of unit 1 opens the gate of unit 3, whose own commit then finds none. -/
theorem veiled_write_opens :
    let k : Key := ⟨"k"⟩
    let e : Entry := .found (.number (.whole 1))
    let as : List (Act Nat Memory) :=
      [.get 0 k .start, .step 0 .start, .step 0 .start, .collect 0, .put 0 k e,
        .commit 0, .next 0 0, .step 0 .start, .step 0 .start, .step 0 .start, .collect 0,
        .conclude 0,
        .clear 1, .get 1 k .start, .step 1 .start, .step 1 .start, .step 1 .start,
        .step 1 .start, .collect 1, .put 1 k e,
        .clear 2, .commit 2, .conclude 2,
        .get 3 k .start, .step 3 .start, .step 3 .start, .collect 3, .put 3 k e,
        .commit 1, .next 1 0, .step 1 .start, .step 1 .start, .step 1 .start, .collect 1,
        .conclude 1,
        .commit 3, .next 3 0, .step 3 .start, .step 3 .start, .collect 3, .conclude 3]
    let w := run (Memory.store "users" none) (start {} none) as
    w.crowd.log[4]? = some (.closed 3 k 2) ∧ w.crowd.log[2]? = some (.opened 1 k 2) ∧
      w.commits.head? = some (3, .error (.invalidRelease k "users")) := by
  set_option maxRecDepth 1000 in
  exact ⟨rfl, rfl, rfl⟩

end Team

end DataTier.Cache.Blocking
