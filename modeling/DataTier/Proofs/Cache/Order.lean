import DataTier.Proofs.Cache.Crowd

/-! Crowds in order. A client keeps a key's gate if it has closed the gate that the table has
for the key. For keys that did not go astray this is the same as having the key in its hands,
which therefore no two clients do, and a call that takes a gate out finds the one that its own
client has closed. A call fails for what the layer below has said in that very call, or for what
the gates say themselves. -/

namespace DataTier.Cache.Blocking

variable {ι σ α : Type} {id : String} {d : Store σ} {i j : ι} {k : Key} {gate : Nat}

/-! ## Gates and the log of who closed them -/

structure Registered (g : Gates) (log : List (Deed ι)) : Prop where
  nodup : g.table.keys.Nodup
  fresh : ∀ i k gate, .closed i k gate ∈ log → gate < g.next
  sole : ∀ i j k l gate, .closed i k gate ∈ log → .closed j l gate ∈ log → i = j
  owned : ∀ k gate, g.table.get? k = some gate → ∃ i, .closed i k gate ∈ log

namespace Registered

variable {g g' : Gates} {log log' : List (Deed ι)}

theorem congr (h : Registered g log) (table : g'.table = g.table) (next : g'.next = g.next)
    (closed : ∀ i k gate, .closed i k gate ∈ log' ↔ .closed i k gate ∈ log) :
    Registered g' log' where
  nodup := table ▸ h.nodup
  fresh i k gate hm := next ▸ h.fresh i k gate ((closed i k gate).mp hm)
  sole i j k l gate hi hj :=
    h.sole i j k l gate ((closed i k gate).mp hi) ((closed j l gate).mp hj)
  owned k gate look := by
    obtain ⟨i, hm⟩ := h.owned k gate (table ▸ look)
    exact ⟨i, (closed i k gate).mpr hm⟩

theorem close (h : Registered g log) (i : ι) (k : Key) :
    Registered (g.close k) (.closed i k g.next :: log) where
  nodup := Table.nodup_keys_set h.nodup _ _
  fresh j l gate hm := by
    rcases List.mem_cons.mp hm with new | old
    · cases new
      exact Nat.lt_succ_self _
    · exact Nat.lt_succ_of_lt (h.fresh j l gate old)
  sole j l m n gate hj hl := by
    rcases List.mem_cons.mp hj with hj | hj <;> rcases List.mem_cons.mp hl with hl | hl
    · cases hj
      cases hl
      rfl
    · cases hj
      exact absurd (h.fresh _ _ _ hl) (Nat.lt_irrefl _)
    · cases hl
      exact absurd (h.fresh _ _ _ hj) (Nat.lt_irrefl _)
    · exact h.sole j l m n gate hj hl
  owned l gate look := by
    simp only [Gates.close, Table.get?_set] at look
    split at look
    · rename_i e
      cases look
      exact ⟨i, e ▸ List.mem_cons_self⟩
    · obtain ⟨j, closed⟩ := h.owned l gate look
      exact ⟨j, List.mem_cons_of_mem _ closed⟩

theorem takeOut (h : Registered g log) (k : Key) : Registered (g.takeOut k) log where
  nodup := Table.nodup_keys_erase h.nodup _
  fresh := h.fresh
  sole := h.sole
  owned l gate look := by
    simp only [Gates.takeOut, Table.get?_erase] at look
    split at look
    · cases look
    · exact h.owned l gate look

end Registered

/-! ## Failures from below -/

/-- The layer below has failed the client like this since the client took its last answer, which
is in the call that it is busy with. -/
def FailedInCall (i : ι) (e : Error) (log : List (Deed ι)) : Prop :=
  ∃ later earlier, log = later ++ .failedBelow i e :: earlier ∧ ∀ k a, .answered i k a ∉ later

section

variable {e : Error} {log new earlier : List (Deed ι)} {a : Answer α}

theorem FailedInCall.mem (h : FailedInCall i e log) : .failedBelow i e ∈ log := by
  obtain ⟨later, earlier, rfl, _⟩ := h
  exact List.mem_append_right _ List.mem_cons_self

theorem FailedInCall.append (h : FailedInCall i e log) (none : ∀ k a, .answered i k a ∉ new) :
    FailedInCall i e (new ++ log) := by
  obtain ⟨later, earlier, rfl, none_later⟩ := h
  refine ⟨new ++ later, earlier, (List.append_assoc ..).symm, fun k a hm => ?_⟩
  exact (List.mem_append.mp hm).elim (none k a) (none_later k a)

theorem mem_failure {x : Deed ι} :
    x ∈ failure i a ↔ ∃ e, a = .error e ∧ x = .failedBelow i e := by
  cases a <;> simp [failure]

theorem failedInCall_failure (fails : a = .error e) (log : List (Deed ι)) :
    FailedInCall i e (failure i a ++ log) := by
  subst fails
  exact ⟨[], log, rfl, fun _ _ => List.not_mem_nil⟩

/-- An answer that is not among what is new is an old one. -/
theorem answered_suffix_of_append {a : Answer (Option Entry)} (none : .answered i k a ∉ new)
    (h : .answered i k a :: earlier <:+ new ++ log) : .answered i k a :: earlier <:+ log := by
  induction new with
  | nil => exact h
  | cons x new ih =>
    obtain ⟨first, rest⟩ := List.ne_and_not_mem_of_not_mem_cons none
    rcases List.suffix_cons_iff.mp h with same | old
    · exact absurd (List.cons.inj same).1 first
    · exact ih rest old

end

/-- Where a failure comes from, unless a read has waited too long: from the layer below, or from
a key that went astray. -/
def Explained (log : List (Deed ι)) (strays : List Key) (id : String) (i : ι) (k : Key)
    (e : Error) : Prop :=
  FailedInCall i e log ∨ e = .invalidRelease k id ∧ k ∈ strays

/-! ## Who keeps a gate -/

namespace Crowd

def Keeps (w : Crowd ι σ) (i : ι) (k : Key) : Prop :=
  ∃ gate, w.shared.gates.table.get? k = some gate ∧ .closed i k gate ∈ w.log

variable {w w' : Crowd ι σ}

theorem Keeps.eq (hi : w.Keeps i k) (hj : w.Keeps j k) (h : Registered w.shared.gates w.log) :
    i = j := by
  obtain ⟨gate, look, closed⟩ := hi
  obtain ⟨gate', look', closed'⟩ := hj
  rw [look] at look'
  cases look'
  exact h.sole i j k k gate closed closed'

theorem mem_keys_table_iff (h : Registered w.shared.gates w.log) :
    k ∈ w.shared.gates.table.keys ↔ ∃ i, w.Keeps i k := by
  rw [Table.mem_keys_iff, Table.has, Option.isSome_iff_exists]
  constructor
  · rintro ⟨gate, look⟩
    obtain ⟨i, closed⟩ := h.owned k gate look
    exact ⟨i, gate, look, closed⟩
  · rintro ⟨i, gate, look, _⟩
    exact ⟨gate, look⟩

theorem not_keeps_of_free (free : w.shared.gates.table.get? k = none) : ¬w.Keeps i k := by
  rintro ⟨gate, look, _⟩
  rw [free] at look
  cases look

theorem keeps_close {l : Key} (h : Registered w.shared.gates w.log)
    (free : w.shared.gates.table.get? l = none)
    (gates : w'.shared.gates = w.shared.gates.close l)
    (log : w'.log = .closed i l w.shared.gates.next :: w.log) :
    w'.Keeps j k ↔ (j = i ∧ k = l) ∨ w.Keeps j k := by
  simp only [Keeps, gates, log, Gates.close, Table.get?_set, List.mem_cons, Deed.closed.injEq]
  constructor
  · rintro ⟨gate, look, ⟨rfl, rfl, -⟩ | old⟩
    · exact .inl ⟨rfl, rfl⟩
    · split at look
      · cases look
        exact absurd (h.fresh j k _ old) (Nat.lt_irrefl _)
      · exact .inr ⟨gate, look, old⟩
  · rintro (⟨rfl, rfl⟩ | keeps)
    · exact ⟨w.shared.gates.next, if_pos rfl, .inl ⟨rfl, rfl, rfl⟩⟩
    · have other : ¬l = k := fun e => not_keeps_of_free free (e ▸ keeps)
      obtain ⟨gate, look, closed⟩ := keeps
      exact ⟨gate, by rw [if_neg other]; exact look, .inr closed⟩

theorem keeps_takeOut {l : Key} (gates : w'.shared.gates = w.shared.gates.takeOut l)
    (log : w'.log = w.log) : w'.Keeps j k ↔ w.Keeps j k ∧ k ≠ l := by
  simp only [Keeps, gates, log, Gates.takeOut, Table.get?_erase]
  constructor
  · rintro ⟨gate, look, closed⟩
    split at look
    · cases look
    · rename_i other
      exact ⟨⟨gate, look, closed⟩, Ne.symm other⟩
  · rintro ⟨⟨gate, look, closed⟩, other⟩
    exact ⟨gate, by rw [if_neg (Ne.symm other)]; exact look, closed⟩

/-! ## What is known of a client -/

/-- What is known by the phase of a client's read. -/
def ReadKnown (w : Crowd ι σ) (id : String) (i : ι) (k : Key) : Phase → Prop
  | .entering | .waiting _ | .reading => True
  | .writing _ => False
  | .leaving a => isMiss a = false ∧ ∀ e, a = .error e → FailedInCall i e w.log
  | .opening gate a => isMiss a = false ∧ (∀ e, a = .error e → FailedInCall i e w.log) ∧
    (k ∉ w.strays → .closed i k gate ∈ w.log)
  | .finished a => ∀ e, a = .error e → (∃ t, e = .lockTimeout k id t) ∨
    (∃ t, e = .deadline k id t) ∨ Explained w.log w.strays id i k e

/-- What is known by the phase of a client's call that settles a key. -/
def SettlingKnown (w : Crowd ι σ) (id : String) (i : ι) (k : Key) : Phase → Prop
  | .entering | .waiting _ | .reading => False
  | .writing _ => True
  | .leaving a => ∀ e, a = .error e → FailedInCall i e w.log
  | .opening gate a => (∀ e, a = .error e → FailedInCall i e w.log) ∧
    (k ∉ w.strays → .closed i k gate ∈ w.log)
  | .finished a => ∀ e, a = .error e → Explained w.log w.strays id i k e

def Known (w : Crowd ι σ) (id : String) (i : ι) : Activity → Prop
  | .idle => True
  | .reading v => w.ReadKnown id i v.key v.phase
  | .settling v => w.SettlingKnown id i v.key v.phase

structure Fits (w : Crowd ι σ) (id : String) (i : ι) (c : Client) : Prop where
  kept : ∀ k ∉ w.strays, (k ∈ c.held ↔ w.Keeps i k) ∧ c.held.count k ≤ 1
  call : w.Known id i c.activity

structure Orderly (w : Crowd ι σ) (id : String) : Prop where
  gates : Registered w.shared.gates w.log
  opened : ∀ i k gate, .opened i k gate ∈ w.log → k ∉ w.strays → .closed i k gate ∈ w.log
  answers : ∀ i k e earlier, .answered i k (.error e) :: earlier <:+ w.log →
    (∃ t, e = .lockTimeout k id t) ∨ (∃ t, e = .deadline k id t) ∨
      Explained earlier w.strays id i k e
  fits : ∀ i, w.Fits id i (w.clients i)

/-- The log and the strays have only grown. -/
structure Grows (w w' : Crowd ι σ) : Prop where
  log : ∀ x ∈ w.log, x ∈ w'.log
  strays : ∀ k ∈ w.strays, k ∈ w'.strays

variable {c c' : Client} {e : Error} {v v' : Visit}

/-- What has failed the client's call before has still failed it. -/
def Recalls (w w' : Crowd ι σ) (i : ι) : Prop :=
  ∀ e, FailedInCall i e w.log → FailedInCall i e w'.log

theorem Recalls.of_append {new : List (Deed ι)} (log : w'.log = new ++ w.log)
    (none : ∀ k a, .answered i k a ∉ new) : Recalls w w' i :=
  fun _ failed => log ▸ failed.append none

theorem Explained.mono {log : List (Deed ι)} {strays strays' : List Key}
    (h : Explained log strays id i k e) (grows : ∀ k ∈ strays, k ∈ strays') :
    Explained log strays' id i k e :=
  h.imp_right fun ⟨he, hk⟩ => ⟨he, grows k hk⟩

theorem Explained.recall (h : Explained w.log w.strays id i k e) (grows : Grows w w')
    (recalls : Recalls w w' i) : Explained w'.log w'.strays id i k e :=
  h.imp (recalls e) fun ⟨he, hk⟩ => ⟨he, grows.strays k hk⟩

theorem ReadKnown.mono {p : Phase} (h : w.ReadKnown id i k p) (grows : Grows w w')
    (recalls : Recalls w w' i) : w'.ReadKnown id i k p := by
  cases p with
  | entering | waiting | reading => trivial
  | writing => exact h
  | leaving a => exact ⟨h.1, fun e he => recalls e (h.2 e he)⟩
  | opening gate a =>
    exact ⟨h.1, fun e he => recalls e (h.2.1 e he),
      fun hk => grows.log _ (h.2.2 fun hs => hk (grows.strays _ hs))⟩
  | finished a =>
    exact fun e he => (h e he).imp_right (Or.imp_right (Explained.recall · grows recalls))

theorem SettlingKnown.mono {p : Phase} (h : w.SettlingKnown id i k p) (grows : Grows w w')
    (recalls : Recalls w w' i) : w'.SettlingKnown id i k p := by
  cases p with
  | entering | waiting | reading => exact h
  | writing => trivial
  | leaving a => exact fun e he => recalls e (h e he)
  | opening gate a =>
    exact ⟨fun e he => recalls e (h.1 e he),
      fun hk => grows.log _ (h.2 fun hs => hk (grows.strays _ hs))⟩
  | finished a => exact fun e he => Explained.recall (h e he) grows recalls

theorem Known.mono {a : Activity} (h : w.Known id i a) (grows : Grows w w')
    (recalls : Recalls w w' i) : w'.Known id i a := by
  cases a with
  | idle => trivial
  | reading v => exact ReadKnown.mono h grows recalls
  | settling v => exact SettlingKnown.mono h grows recalls

/-- A client whose keys others leave alone. -/
theorem Fits.of_keeps (h : w.Fits id i c) (grows : Grows w w') (recalls : Recalls w w' i)
    (keeps : ∀ k ∉ w'.strays, w'.Keeps i k ↔ w.Keeps i k) : w'.Fits id i c := by
  refine ⟨fun k hk => ?_, h.call.mono grows recalls⟩
  obtain ⟨iff, once⟩ := h.kept k fun hs => hk (grows.strays k hs)
  exact ⟨iff.trans (keeps k hk).symm, once⟩

theorem visit?_cases {a : Activity} (h : a.visit? = some v) : a = .reading v ∨ a = .settling v := by
  cases a with
  | idle => cases h
  | reading u =>
    cases h
    exact .inl rfl
  | settling u =>
    cases h
    exact .inr rfl

/-- A call that opens a gate knows that its own client has closed it. -/
theorem Known.closed_of_opening {a : Answer (Option Entry)} {act : Activity}
    (h : w.Known id i act) (hv : act.visit? = some v) (phase : v.phase = .opening gate a)
    (hk : v.key ∉ w.strays) : .closed i v.key gate ∈ w.log := by
  rcases visit?_cases hv with rfl | rfl
  · rw [Known, phase] at h
    exact h.2.2 hk
  · rw [Known, phase] at h
    exact h.2 hk

theorem afterRead_eq (a : Answer (Option Entry)) :
    Visit.afterRead a = if isMiss a then .finished a else .leaving a := by
  rcases a with _ | _ | _ <;> rfl

theorem held?_of_leaving {a : Answer (Option Entry)} {act : Activity} (hv : act.visit? = some v)
    (phase : v.phase = .leaving a) : act.held? = some v.key := by
  rcases visit?_cases hv with rfl | rfl <;> rw [Activity.held?, phase] <;> rfl

theorem held?_proceed_finished {a : Answer (Option Entry)} {act : Activity}
    (hv : act.visit? = some v) (hit : isMiss a = false) :
    (act.proceed { v with phase := .finished a }).held? = none := by
  rcases visit?_cases hv with rfl | rfl
  · simp [Activity.proceed, Activity.held?, Phase.readHolds, hit]
  · rfl

theorem held?_proceed_opening {a : Answer (Option Entry)} {act : Activity}
    (hv : act.visit? = some v) :
    (act.proceed { v with phase := .opening gate a }).held? = none := by
  rcases visit?_cases hv with rfl | rfl <;> rfl

theorem known_opening {a : Answer (Option Entry)} {act : Activity} (hv : act.visit? = some v)
    (phase : v.phase = .leaving a) (h : w.Known id i act)
    (closed : v.key ∉ w.strays → .closed i v.key gate ∈ w.log) :
    w.Known id i (act.proceed { v with phase := .opening gate a }) := by
  rcases visit?_cases hv with rfl | rfl
  · rw [Known, phase] at h
    exact ⟨h.1, h.2, closed⟩
  · rw [Known, phase] at h
    exact ⟨h, closed⟩

theorem read_known (id : String) (now : Time.Instant) (k : Key) (timeout : Option Time.Duration) :
    w.Known id i (.reading (.read id now k timeout)) ∧
      (Activity.reading (.read id now k timeout)).held? = none := by
  unfold Visit.read
  split
  · exact ⟨trivial, rfl⟩
  · split
    · refine ⟨fun e he => ?_, rfl⟩
      cases he
      exact .inr (.inl ⟨_, rfl⟩)
    · exact ⟨trivial, rfl⟩

/-- Taking an answer changes nothing in what a client has in hand. -/
theorem Fits.collect {a : Answer (Option Entry)} (h : w.Fits id i c)
    (hc : c.collect = some (c', k, a)) :
    c'.held = c.held ∧ c'.activity = .idle ∧ ∀ e, a = .error e →
      (∃ t, e = .lockTimeout k id t) ∨ (∃ t, e = .deadline k id t) ∨
        Explained w.log w.strays id i k e := by
  have known := h.call
  unfold Client.collect at hc
  split at hc
  · cases hc
  · rename_i v reads
    obtain ⟨b, answer, hb⟩ := Option.map_eq_some_iff.mp hc
    have phase := answer?_eq_some answer
    cases hb
    rw [reads, Known, phase] at known
    refine ⟨?_, rfl, known⟩
    cases miss : isMiss a <;>
      simp [Client.held, Activity.held?, Phase.readHolds, reads, phase, miss]
  · rename_i v settles
    obtain ⟨b, answer, hb⟩ := Option.map_eq_some_iff.mp hc
    have phase := answer?_eq_some answer
    cases hb
    rw [settles, Known, phase] at known
    refine ⟨?_, rfl, fun e he => .inr (.inr (known e he))⟩
    simp [Client.held, Activity.held?, Phase.settlingHolds, settles, phase]

/-! ## What a step puts into the log -/

theorem closed_mem_deeds (h : .closed j k gate ∈ v.deeds d i w.shared) :
    v.phase = .entering ∧ w.shared.gates.table.get? v.key = none := by
  unfold Visit.deeds at h
  split at h
  · rename_i phase
    split at h
    · rename_i free
      exact ⟨phase, free⟩
    · cases h
  · simp [mem_failure] at h
  · simp [mem_failure] at h
  · simp at h
  · cases h

theorem opened_mem_deeds (h : .opened j k gate ∈ v.deeds d i w.shared) :
    (∃ a, v.phase = .opening gate a) ∧ j = i ∧ k = v.key := by
  unfold Visit.deeds at h
  split at h
  · split at h <;> simp at h
  · simp [mem_failure] at h
  · simp [mem_failure] at h
  · rename_i a phase
    cases List.mem_singleton.mp h
    exact ⟨⟨a, phase⟩, rfl, rfl⟩
  · cases h

theorem answered_not_mem_deeds {a : Answer (Option Entry)} :
    .answered j k a ∉ v.deeds d i w.shared := by
  intro h
  unfold Visit.deeds at h
  split at h
  · split at h <;> simp at h
  · simp [mem_failure] at h
  · simp [mem_failure] at h
  · simp at h
  · cases h

/-! ## Moves that leave the table of gates alone -/

/-- Nothing has changed in who keeps which gate. -/
structure Calm (w w' : Crowd ι σ) : Prop extends Grows w w' where
  table : w'.shared.gates.table = w.shared.gates.table
  next : w'.shared.gates.next = w.shared.gates.next
  closed : ∀ j k gate, .closed j k gate ∈ w'.log ↔ .closed j k gate ∈ w.log

theorem Calm.keeps_iff (h : Calm w w') : w'.Keeps j k ↔ w.Keeps j k := by
  unfold Keeps
  rw [h.table]
  exact exists_congr fun gate => and_congr_right fun _ => h.closed j k gate

theorem Calm.fits (h : Calm w w') (recalls : Recalls w w' j) (hc : w.Fits id j c) :
    w'.Fits id j c :=
  hc.of_keeps h.toGrows recalls fun _ _ => h.keeps_iff

/-- A client whose call goes on without a change in what it has in hand. -/
theorem Calm.fits_of_held (h : Calm w w') (hc : w.Fits id j c)
    (held : ∀ k ∉ w'.strays, c'.held.count k = c.held.count k)
    (call : w'.Known id j c'.activity) : w'.Fits id j c' := by
  refine ⟨fun k hk => ?_, call⟩
  obtain ⟨iff, once⟩ := hc.kept k fun hs => hk (h.strays k hs)
  refine ⟨?_, by rw [held k hk]; exact once⟩
  rw [h.keeps_iff, ← iff, ← List.count_pos_iff, held k hk, List.count_pos_iff]

theorem Orderly.extend (h : w.Orderly id) (grows : Grows w w')
    (gates : Registered w'.shared.gates w'.log)
    (opened : ∀ j k gate, .opened j k gate ∈ w'.log →
      .opened j k gate ∈ w.log ∨ (k ∉ w.strays → .closed j k gate ∈ w.log))
    (answers : ∀ j k e earlier, .answered j k (.error e) :: earlier <:+ w'.log →
      .answered j k (.error e) :: earlier <:+ w.log ∨ (∃ t, e = .lockTimeout k id t) ∨
        (∃ t, e = .deadline k id t) ∨ Explained earlier w'.strays id j k e)
    (fits : ∀ j, w'.Fits id j (w'.clients j)) : w'.Orderly id where
  gates := gates
  opened j k gate hm hk := by
    have clean : k ∉ w.strays := fun hs => hk (grows.strays k hs)
    refine grows.log _ ?_
    rcases opened j k gate hm with old | new
    · exact h.opened j k gate old clean
    · exact new clean
  answers j k e earlier hm := by
    rcases answers j k e earlier hm with old | new
    · exact (h.answers j k e earlier old).imp_right (Or.imp_right (Explained.mono · grows.strays))
    · exact new
  fits := fits

variable [DecidableEq ι]

theorem fits_update (clients : w'.clients = Function.update w.clients i c)
    (hi : w'.Fits id i c) (hj : ∀ j, j ≠ i → w'.Fits id j (w.clients j)) (j : ι) :
    w'.Fits id j (w'.clients j) := by
  rw [clients]
  by_cases e : j = i
  · rw [e, Function.update_self]
    exact hi
  · rw [Function.update_of_ne e]
    exact hj j e

theorem Orderly.of_calm (h : w.Orderly id) (calm : Calm w w')
    (recalls : ∀ j, j ≠ i → Recalls w w' j)
    (clients : w'.clients = Function.update w.clients i c)
    (opened : ∀ j k gate, .opened j k gate ∈ w'.log →
      .opened j k gate ∈ w.log ∨ (k ∉ w.strays → .closed j k gate ∈ w.log))
    (answers : ∀ j k e earlier, .answered j k (.error e) :: earlier <:+ w'.log →
      .answered j k (.error e) :: earlier <:+ w.log ∨ (∃ t, e = .lockTimeout k id t) ∨
        (∃ t, e = .deadline k id t) ∨ Explained earlier w'.strays id j k e)
    (fits : w'.Fits id i c) : w'.Orderly id :=
  h.extend calm.toGrows (h.gates.congr calm.table calm.next calm.closed) opened answers
    (fits_update clients fits fun j hj => calm.fits (recalls j hj) (h.fits j))

theorem Orderly.read (h : w.Orderly d.id) (i : ι) (k : Key) (now : Time.Instant) :
    (w.move d (.read i k now)).Orderly d.id := by
  unfold move
  dsimp only
  split
  · rename_i idle
    obtain ⟨known, free⟩ := read_known d.id now k w.shared.gates.timeout
    have calm : Calm w { w with
        clients := Function.update w.clients i
          ((w.clients i).read d.id now k w.shared.gates.timeout) } :=
      ⟨⟨fun _ hx => hx, fun _ hx => hx⟩, rfl, rfl, fun _ _ _ => Iff.rfl⟩
    have held : ((w.clients i).read d.id now k w.shared.gates.timeout).held =
        (w.clients i).held := by
      rw [Client.held, Client.read, free, Client.held, idle]
      rfl
    exact h.of_calm calm (fun _ _ _ => id) rfl (fun _ _ _ => .inl) (fun _ _ _ _ => .inl)
      (calm.fits_of_held (h.fits i) (fun j _ => by rw [held]) known)
  · exact h

theorem Orderly.settle (h : w.Orderly d.id) (i : ι) (k : Key) (e : Option Entry) :
    (w.move d (.settle i k e)).Orderly d.id := by
  unfold move
  dsimp only
  split
  · rename_i idle
    have calm : Calm w { w with
        clients := Function.update w.clients i ((w.clients i).settle k e)
        strays := if k ∈ (w.clients i).owed then w.strays else k :: w.strays } := by
      refine ⟨⟨fun _ hx => hx, fun j hj => ?_⟩, rfl, rfl, fun _ _ _ => Iff.rfl⟩
      dsimp only
      split
      · exact hj
      · exact List.mem_cons_of_mem k hj
    have held : ((w.clients i).settle k e).held = k :: (w.clients i).owed.erase k := by
      cases e <;> rfl
    have before : (w.clients i).held = (w.clients i).owed := by
      rw [Client.held, idle]
      rfl
    refine h.of_calm calm (fun _ _ _ => id) rfl (fun _ _ _ => .inl) (fun _ _ _ _ => .inl)
      (calm.fits_of_held (h.fits i) (fun j hj => ?_) ?_)
    · rw [held, before]
      dsimp only at hj
      split at hj
      · rename_i owes
        exact ((List.perm_cons_erase owes).count_eq j).symm
      · rename_i owesNot
        rw [List.erase_of_not_mem owesNot, List.count_cons_of_ne]
        exact fun e => hj (e ▸ List.mem_cons_self)
    · cases e with
      | none => exact fun e he => by cases he
      | some e => trivial
  · exact h

theorem Orderly.collect (h : w.Orderly d.id) (i : ι) : (w.move d (.collect i)).Orderly d.id := by
  unfold move
  dsimp only
  split
  · exact h
  · rename_i c k a hc
    obtain ⟨held, idle, failed⟩ := (h.fits i).collect hc
    have calm : Calm w { w with
        clients := Function.update w.clients i c
        log := .answered i k a :: w.log } :=
      ⟨⟨fun _ hx => List.mem_cons_of_mem _ hx, fun _ hx => hx⟩, rfl, rfl, fun _ _ _ => by simp⟩
    refine h.of_calm calm (fun j hj => .of_append (show _ = [.answered i k a] ++ w.log from rfl) ?_) rfl
      (fun j l gate hm => .inl (by simpa using hm)) (fun j l e earlier hm => ?_)
      (calm.fits_of_held (h.fits i) (fun j _ => by rw [held]) (idle ▸ trivial))
    · simp [hj]
    · rcases List.suffix_cons_iff.mp hm with new | old
      · cases new
        exact .inr (failed e rfl)
      · exact .inl old

/-! ## Steps of a call -/

variable {s' : Blocking σ} {now : Time.Instant}

theorem recalls_advance (j : ι) : Recalls w (w.advance d i v v' s') j :=
  .of_append rfl fun _ _ => answered_not_mem_deeds

omit [DecidableEq ι] in
theorem Orderly.opened_advance (h : w.Orderly id) (hv : (w.clients i).activity.visit? = some v)
    (hm : .opened j k gate ∈ v.deeds d i w.shared ++ w.log) :
    .opened j k gate ∈ w.log ∨ (k ∉ w.strays → .closed j k gate ∈ w.log) := by
  refine (List.mem_append.mp hm).symm.imp_right fun new hk => ?_
  obtain ⟨⟨a, phase⟩, rfl, rfl⟩ := opened_mem_deeds new
  exact (h.fits j).call.closed_of_opening hv phase hk

/-- A step that leaves the table of gates alone, and after which the call still has in hand
what it had before. -/
theorem Orderly.advance_of_table (h : w.Orderly d.id)
    (hv : (w.clients i).activity.visit? = some v)
    (table : s'.gates.table = w.shared.gates.table) (next : s'.gates.next = w.shared.gates.next)
    (inside : v.phase = .entering → w.shared.gates.table.get? v.key ≠ none)
    (client : (∀ k ∉ w.strays, ((w.clients i).activity.proceed v').held?.toList.count k =
        (w.clients i).activity.held?.toList.count k) ∧
      (w.advance d i v v' s').Known d.id i ((w.clients i).activity.proceed v')) :
    (w.advance d i v v' s').Orderly d.id := by
  have calm : Calm w (w.advance d i v v' s') := by
    refine ⟨⟨fun x hx => List.mem_append_right _ hx, fun _ hx => hx⟩, table, next,
      fun j k gate => ⟨fun hm => ?_, fun hm => List.mem_append_right _ hm⟩⟩
    refine (List.mem_append.mp hm).resolve_left fun new => ?_
    obtain ⟨entering, free⟩ := closed_mem_deeds new
    exact inside entering free
  refine h.of_calm calm (fun j _ => recalls_advance j) rfl
    (fun j k gate => h.opened_advance hv) (fun j k e earlier hm => ?_)
    (calm.fits_of_held (h.fits i) (fun k hk => ?_) client.2)
  · exact .inl (answered_suffix_of_append answered_not_mem_deeds hm)
  · rw [Client.held, Client.held, List.count_append, List.count_append, client.1 k hk]

/-- A read passes a gate and closes it behind it. -/
theorem Orderly.enter (h : w.Orderly d.id) (hv : (w.clients i).activity.visit? = some v)
    (phase : v.phase = .entering) (free : w.shared.gates.table.get? v.key = none) :
    (w.advance d i v { v with phase := .reading }
      { w.shared with gates := w.shared.gates.close v.key }).Orderly d.id := by
  have fits := h.fits i
  have reads : (w.clients i).activity = .reading v := by
    refine (visit?_cases hv).resolve_right fun settles => ?_
    have known := fits.call
    rw [settles, Known, phase] at known
    exact known
  have deeds : v.deeds d i w.shared = [.closed i v.key w.shared.gates.next] := by
    simp only [Visit.deeds, phase, free]
  generalize hw : w.advance d i v _ _ = w'
  have log : w'.log = .closed i v.key w.shared.gates.next :: w.log := by
    rw [← hw, advance, deeds, List.singleton_append]
  have gates : w'.shared.gates = w.shared.gates.close v.key := by rw [← hw]; rfl
  have strays : w'.strays = w.strays := by rw [← hw]; rfl
  have grows : Grows w w' := ⟨fun x hx => log ▸ List.mem_cons_of_mem _ hx, fun k hk => strays ▸ hk⟩
  have keeps (j : ι) (k : Key) : w'.Keeps j k ↔ (j = i ∧ k = v.key) ∨ w.Keeps j k :=
    keeps_close h.gates free gates log
  have before : (w.clients i).held = (w.clients i).owed := by
    rw [Client.held, reads, Activity.held?, phase]
    rfl
  have after : Client.held { w.clients i with activity := .reading { v with phase := .reading } } =
      v.key :: (w.clients i).owed := rfl
  have recalls (j : ι) : Recalls w w' j := hw ▸ recalls_advance j
  refine h.extend grows ?_ (fun j k gate hm => ?_) (fun j k e earlier hm => ?_)
    (fits_update (c := { w.clients i with activity := .reading { v with phase := .reading } })
      (by rw [← hw, advance, reads]; rfl) ⟨fun k hk => ?_, trivial⟩ fun j hj => ?_)
  · rw [gates, log]
    exact h.gates.close i v.key
  · exact .inl (by simpa [log] using hm)
  · rw [log] at hm
    have none : .answered j k (.error e) ∉ [Deed.closed i v.key w.shared.gates.next] := by simp
    exact .inl (answered_suffix_of_append none hm)
  · obtain ⟨iff, once⟩ := fits.kept k (strays ▸ hk)
    rw [before] at iff once
    rw [after, keeps, ← iff, List.mem_cons]
    refine ⟨by simp, ?_⟩
    by_cases e : k = v.key
    -- what is owed is kept, and nobody keeps a gate that is not in the table
    · have none : (w.clients i).owed.count k = 0 :=
        List.count_eq_zero.mpr fun hm => not_keeps_of_free (e ▸ free) (iff.mp hm)
      rw [e, List.count_cons_self, ← e]
      omega
    · rwa [List.count_cons_of_ne (Ne.symm e)]
  · refine (h.fits j).of_keeps grows (recalls j) fun k _ => ?_
    rw [keeps]
    exact or_iff_right fun e => hj e.1

/-- A call takes out the gate of its key, which its own client has closed. -/
theorem Orderly.takeOut {a : Answer (Option Entry)} (h : w.Orderly d.id)
    (hv : (w.clients i).activity.visit? = some v) (phase : v.phase = .leaving a)
    (locked : w.shared.gates.table.get? v.key = some gate) :
    (w.advance d i v { v with phase := .opening gate a }
      { w.shared with gates := w.shared.gates.takeOut v.key }).Orderly d.id := by
  have fits := h.fits i
  have deeds : v.deeds d i w.shared = [] := by simp only [Visit.deeds, phase]
  have before : (w.clients i).held = v.key :: (w.clients i).owed :=
    congrArg (·.toList ++ _) (held?_of_leaving hv phase)
  generalize hc : ({ w.clients i with
    activity := (w.clients i).activity.proceed { v with phase := .opening gate a } } : Client) = c'
  have after : c'.held = (w.clients i).owed := by
    rw [← hc]
    exact congrArg (·.toList ++ _) (held?_proceed_opening hv)
  have closed : v.key ∉ w.strays → .closed i v.key gate ∈ w.log := fun hk => by
    obtain ⟨gate', look, closed⟩ := (fits.kept v.key hk).1.mp (before ▸ List.mem_cons_self)
    rw [locked] at look
    cases look
    exact closed
  generalize hw : w.advance d i v _ _ = w'
  have log : w'.log = w.log := by rw [← hw, advance, deeds, List.nil_append]
  have gates : w'.shared.gates = w.shared.gates.takeOut v.key := by rw [← hw]; rfl
  have strays : w'.strays = w.strays := by rw [← hw]; rfl
  have clients : w'.clients = Function.update w.clients i c' := by rw [← hw, ← hc]; rfl
  have grows : Grows w w' := ⟨fun x hx => log ▸ hx, fun k hk => strays ▸ hk⟩
  have keeps (j : ι) (k : Key) : w'.Keeps j k ↔ w.Keeps j k ∧ k ≠ v.key := keeps_takeOut gates log
  have recalls (j : ι) : Recalls w w' j := hw ▸ recalls_advance j
  refine h.extend grows ?_ (fun j k gate hm => .inl (log ▸ hm))
    (fun j k e earlier hm => .inl (log ▸ hm)) (fits_update clients ⟨fun k hk => ?_, ?_⟩ fun j hj => ?_)
  · rw [gates, log]
    exact h.gates.takeOut v.key
  · obtain ⟨iff, once⟩ := fits.kept k (strays ▸ hk)
    rw [before] at iff once
    rw [after, keeps, ← iff, List.mem_cons]
    by_cases e : k = v.key
    · rw [e, List.count_cons_self, ← e] at once
      have gone : k ∉ (w.clients i).owed := List.count_eq_zero.mp (by omega)
      exact ⟨by simp [gone, e.symm], by omega⟩
    · rw [List.count_cons_of_ne (Ne.symm e)] at once
      exact ⟨by simp [e], once⟩
  · rw [← hc]
    exact (known_opening hv phase fits.call closed).mono grows (recalls i)
  · refine (h.fits j).of_keeps grows (recalls j) fun k hk => ?_
    -- somebody else who keeps the key of the call would be the caller
    rw [keeps]
    refine and_iff_left_of_imp fun keeps e => hj ?_
    have own : w.Keeps i k := (fits.kept k (strays ▸ hk)).1.mp (by rw [before, e]; simp)
    exact keeps.eq own h.gates

omit [DecidableEq ι] in
/-- A call that leaves for a gate which is not there has gone astray. -/
theorem Orderly.stray_of_free {a : Answer (Option Entry)} (h : w.Orderly id)
    (hv : (w.clients i).activity.visit? = some v) (phase : v.phase = .leaving a)
    (free : w.shared.gates.table.get? v.key = none) : v.key ∈ w.strays := by
  by_contra hk
  have held : v.key ∈ (w.clients i).held := by
    rw [Client.held, held?_of_leaving hv phase]
    exact List.mem_cons_self
  exact not_keeps_of_free free (((h.fits i).kept v.key hk).1.mp held)

/-- A step that leaves the table of gates alone, by the phases before and after it. -/
theorem Orderly.advance_of_phase {p q : Phase} (h : w.Orderly d.id)
    (hv : (w.clients i).activity.visit? = some v) (phase : v.phase = p)
    (table : s'.gates.table = w.shared.gates.table) (next : s'.gates.next = w.shared.gates.next)
    (inside : p = .entering → w.shared.gates.table.get? v.key ≠ none)
    (reads : w.ReadKnown d.id i v.key p → q.readHolds = p.readHolds ∧
      (w.advance d i v { v with phase := q } s').ReadKnown d.id i v.key q)
    (settles : w.SettlingKnown d.id i v.key p → q.settlingHolds = p.settlingHolds ∧
      (w.advance d i v { v with phase := q } s').SettlingKnown d.id i v.key q) :
    (w.advance d i v { v with phase := q } s').Orderly d.id := by
  have known := (h.fits i).call
  subst phase
  refine h.advance_of_table hv table next inside ?_
  rcases visit?_cases hv with act | act <;> rw [act] at known ⊢
  · obtain ⟨same, known⟩ := reads known
    exact ⟨fun _ _ => by rw [Activity.proceed, Activity.held?, Activity.held?, same], known⟩
  · obtain ⟨same, known⟩ := settles known
    exact ⟨fun _ _ => by rw [Activity.proceed, Activity.held?, Activity.held?, same], known⟩

theorem Orderly.readBelow (h : w.Orderly d.id) (hv : (w.clients i).activity.visit? = some v)
    (phase : v.phase = .reading) :
    (w.advance d i v { v with phase := Visit.afterRead (d.get v.key w.shared.below).1 }
      { w.shared with below := (d.get v.key w.shared.below).2 }).Orderly d.id := by
  have deeds : v.deeds d i w.shared = failure i (d.get v.key w.shared.below).1 := by
    simp only [Visit.deeds, phase]
  refine h.advance_of_phase hv phase rfl rfl (fun e => by cases e) (fun _ => ?_)
    fun never => never.elim
  rw [afterRead_eq]
  split
  · rename_i miss
    refine ⟨miss, fun e he => ?_⟩
    rw [he] at miss
    cases miss
  · rename_i hit
    refine ⟨rfl, by simpa using hit, fun e he => ?_⟩
    rw [advance, deeds]
    exact failedInCall_failure he w.log

theorem Orderly.writeBelow {entry : Entry} (h : w.Orderly d.id)
    (hv : (w.clients i).activity.visit? = some v) (phase : v.phase = .writing entry) :
    (w.advance d i v
      { v with phase := .leaving ((d.put v.key entry w.shared.below).1.map fun _ => none) }
      { w.shared with below := (d.put v.key entry w.shared.below).2 }).Orderly d.id := by
  have deeds : v.deeds d i w.shared = failure i (d.put v.key entry w.shared.below).1 := by
    simp only [Visit.deeds, phase]
  refine h.advance_of_phase hv phase rfl rfl (fun e => by cases e) (fun never => never.elim)
    fun _ => ⟨rfl, fun e he => ?_⟩
  rw [advance, deeds]
  cases put : (d.put v.key entry w.shared.below).1 with
  | error _ =>
    rw [put] at he
    cases he
    exact failedInCall_failure rfl w.log
  | ok _ =>
    rw [put] at he
    cases he

/-- A call that finds no gate to take out lets go of its key, which has gone astray. -/
theorem Orderly.findNone {a : Answer (Option Entry)} (h : w.Orderly d.id)
    (hv : (w.clients i).activity.visit? = some v) (phase : v.phase = .leaving a)
    (free : w.shared.gates.table.get? v.key = none) :
    (w.advance d i v { v with phase := .finished (.error (.invalidRelease v.key d.id)) }
      w.shared).Orderly d.id := by
  have stray := h.stray_of_free hv phase free
  refine h.advance_of_table hv rfl rfl (fun e => by cases phase.symm.trans e)
    ⟨fun k hk => ?_, ?_⟩
  · have other : k ≠ v.key := fun e => hk (e ▸ stray)
    rw [held?_proceed_finished hv rfl, held?_of_leaving hv phase]
    exact (List.count_eq_zero.mpr fun hm => other (List.mem_singleton.mp hm)).symm
  · rcases visit?_cases hv with act | act <;> rw [act] <;> intro e he <;> cases he
    · exact .inr (.inr (.inr ⟨rfl, stray⟩))
    · exact .inr ⟨rfl, stray⟩

theorem Orderly.advance (h : w.Orderly d.id) (hv : (w.clients i).activity.visit? = some v)
    (step : Visit.Step d now v w.shared v' s') : (w.advance d i v v' s').Orderly d.id := by
  cases step with
  | enters phase free => exact h.enter hv phase free
  | takesOut phase locked => exact h.takeOut hv phase locked
  | strays phase free => exact h.findNone hv phase free
  | reads phase => exact h.readBelow hv phase
  | writes phase => exact h.writeBelow hv phase
  | meets phase locked =>
    exact h.advance_of_phase hv phase rfl rfl (fun _ => by simp [locked])
      (fun _ => ⟨rfl, trivial⟩) fun never => never.elim
  | wakes phase opened =>
    exact h.advance_of_phase hv phase rfl rfl (fun e => by cases e)
      (fun _ => ⟨rfl, trivial⟩) fun never => never.elim
  | expires phase shut expired =>
    refine h.advance_of_phase hv phase rfl rfl (fun e => by cases e)
      (fun _ => ⟨rfl, fun e he => ?_⟩) fun never => never.elim
    cases he
    exact .inl ⟨_, rfl⟩
  | opens phase =>
    refine h.advance_of_phase hv phase rfl rfl (fun e => by cases e)
      (fun known => ⟨known.1, fun e he => ?_⟩) fun known => ⟨rfl, fun e he => ?_⟩
    · exact .inr (.inr (.inl (recalls_advance i e (known.2.1 e he))))
    · exact .inl (recalls_advance i e (known.1 e he))

/-! ## Moves and runs -/

theorem Orderly.move (h : w.Orderly d.id) (m : Move ι σ) : (w.move d m).Orderly d.id := by
  cases m with
  | read i k now => exact h.read i k now
  | settle i k e => exact h.settle i k e
  | collect i => exact h.collect i
  | step i now =>
    unfold Crowd.move
    dsimp only
    split
    · exact h
    · rename_i v hv
      split
      · exact h
      · rename_i v' s' step
        exact h.advance hv (Visit.step_cases step)
  | below f | setTimeout t =>
    refine h.extend ⟨fun _ hx => hx, fun _ hx => hx⟩ (h.gates.congr rfl rfl fun _ _ _ => Iff.rfl)
      (fun _ _ _ => .inl) (fun _ _ _ _ => .inl) fun j => ?_
    exact (h.fits j).of_keeps ⟨fun _ hx => hx, fun _ hx => hx⟩ (fun _ => id) fun _ _ => Iff.rfl

omit [DecidableEq ι] in
theorem start_orderly (below : σ) (timeout : Option Time.Duration) (id : String) :
    (start below timeout : Crowd ι σ).Orderly id where
  gates := ⟨List.nodup_nil, fun _ _ _ h => (by cases h), fun _ _ _ _ _ h => (by cases h),
    fun _ _ h => (by cases h)⟩
  opened _ _ _ h := by cases h
  answers _ _ _ _ h := by cases List.suffix_nil.mp h
  fits i := by
    refine ⟨fun k _ => ⟨⟨fun h => (by cases h), fun ⟨_, look, _⟩ => by cases look⟩, ?_⟩, trivial⟩
    exact Nat.zero_le _

theorem Orderly.run (h : w.Orderly d.id) (ms : List (Move ι σ)) : (w.run d ms).Orderly d.id := by
  induction ms generalizing w with
  | nil => exact h
  | cons m ms ih => exact ih (h.move m)

end Crowd

end DataTier.Cache.Blocking
