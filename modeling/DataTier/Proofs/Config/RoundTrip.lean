import DataTier.Proofs.Command.Folder
import DataTier.Proofs.Toml.Lines

/-! A configuration that is written is read back. Its statements describe the table of what it
says (`members`), of which each section takes what it has written itself (`Form.Takes`); and the
first configuration of a directory is read back from its file. -/

namespace DataTier

open Toml

/-! ## Tables -/

namespace Toml

/-- What assignments without dots say. -/
def pairs (as : List Assignment) : List (String × Value) := as.map fun a => (a.key, a.value)

def leaves (as : List Assignment) : List (String × Node) := as.map fun a => (a.key, .leaf a.value)

/-- Assignments without dots, each to a key of its own. -/
structure Simple (as : List Assignment) : Prop where
  plain : ∀ a ∈ as, a.path = []
  once : (as.map (·.key)).Nodup

theorem memberValues_append (ms ns : List (String × Node)) :
    memberValues (ms ++ ns) = memberValues ms ++ memberValues ns := by
  induction ms with
  | nil => rfl
  | cons m ms ih =>
    obtain ⟨k, n⟩ := m
    rw [List.cons_append, memberValues, memberValues, ih, List.cons_append]

theorem memberValues_leaves (as : List Assignment) : memberValues (leaves as) = pairs as := by
  induction as with
  | nil => rfl
  | cons a as ih =>
    rw [leaves, List.map_cons, memberValues]
    exact congrArg _ ih

theorem memberValues_optional {α : Type} (key : String) (f : α → List Assignment) (o : Option α) :
    memberValues (o.map fun a => (key, Node.branch .written (leaves (f a)))).toList =
      (o.map fun a => (key, Value.table (pairs (f a)))).toList := by
  cases o with
  | none => rfl
  | some a => simp [memberValues, Node.value, memberValues_leaves]

theorem lookup_eq_none {α : Type} {ms : List (String × α)} {key : String}
    (h : key ∉ ms.map Prod.fst) : ms.lookup key = none := by
  refine List.lookup_eq_none_iff.mpr fun m hm => ?_
  rw [bne_iff_ne]
  rintro rfl
  exact h (List.mem_map_of_mem hm)

namespace Branch

theorem fill_simple {as : List Assignment} {m : List (String × Node)} (h : Simple as)
    (fresh : ∀ a ∈ as, a.key ∉ m.map Prod.fst) :
    fill { origin := .written, members := m } as =
      some { origin := .written, members := m ++ leaves as } := by
  induction as generalizing m with
  | nil => simp [fill, leaves]
  | cons a as ih =>
    have here := fresh a List.mem_cons_self
    obtain ⟨apart, once⟩ := List.nodup_cons.mp h.once
    have assigned : assign a.path a.key a.value { origin := .written, members := m } =
        some { origin := .written, members := m ++ [(a.key, .leaf a.value)] } := by
      rw [h.plain a List.mem_cons_self]
      simp [assign, change, lookup_eq_none here, append]
    have rest := ih (m := m ++ [(a.key, .leaf a.value)])
      ⟨fun b hb => h.plain b (List.mem_cons_of_mem _ hb), once⟩ fun b hb => ?_
    · rw [fill, List.foldlM_cons, assigned]
      refine Eq.trans rest ?_
      simp [leaves]
    · have old := fresh b (List.mem_cons_of_mem _ hb)
      have ne : b.key ≠ a.key := fun same => apart (List.mem_map.mpr ⟨b, hb, same⟩)
      simpa [ne] using old

/-- A heading on its own opens a table behind those before it. -/
theorem place_append {as : List Assignment} {ms : List (String × Node)} {o : Origin} {key : String}
    (h : Simple as) (fresh : key ∉ ms.map Prod.fst) :
    place { origin := o, members := ms } ({ key }, as) =
      some { origin := o, members := ms ++ [(key, .branch .written (leaves as))] } := by
  have filled := fill_simple (m := []) h fun _ _ => List.not_mem_nil
  simp [place, change, open?, lookup_eq_none fresh, filled, append, node]

/-- A heading may reach into a table that is written out already. -/
theorem place_within {as : List Assignment} {ms : List (String × Node)} {o o' : Origin}
    {key outer : String} (h : Simple as) (fresh : key ∉ ms.map Prod.fst) :
    place { origin := o, members := [(outer, .branch o' ms)] } ({ path := [outer], key }, as) =
      some { origin := o, members :=
        [(outer, .branch o' (ms ++ [(key, .branch .written (leaves as))]))] } := by
  have filled := fill_simple (m := []) h fun _ _ => List.not_mem_nil
  simp [place, change, open?, lookup_eq_none fresh, filled, append, replace, node]

theorem places_optional {α : Type} {m : List (String × Node)} {o : Origin} (key : String)
    (f : α → List Assignment) (h : ∀ a, Simple (f a)) (fresh : key ∉ m.map Prod.fst)
    (given : Option α) :
    (given.map fun a => (({ key } : Heading), f a)).toList.foldlM place { origin := o, members := m } =
      some { origin := o, members :=
        m ++ (given.map fun a => (key, Node.branch .written (leaves (f a)))).toList } := by
  cases given with
  | none => simp
  | some a => simp [place_append (h a) fresh]

end Branch

theorem sections_assignments (as : List Assignment) {sts : List Statement}
    (h : (sections sts).1 = []) : sections (as.map .assignment ++ sts) = (as, (sections sts).2) := by
  induction as with
  | nil => rw [List.map_nil, List.nil_append, ← h]
  | cons a as ih => rw [List.map_cons, List.cons_append, sections, ih]

theorem sections_headed {path : List String} {key : String} (as : List Assignment)
    {sts : List Statement} (h : (sections sts).1 = []) :
    sections (Config.headed path key as ++ sts) = ([], ({ path, key }, as) :: (sections sts).2) := by
  rw [Config.headed, List.cons_append, sections, sections_assignments as h]

theorem sections_flatMap {tables : List (Heading × List Assignment)}
    (once : ∀ t ∈ tables, t.1.repeated = false) :
    sections (tables.flatMap fun t => Config.headed t.1.path t.1.key t.2) = ([], tables) := by
  induction tables with
  | nil => rfl
  | cons t tables ih =>
    have rest := ih fun t' ht => once t' (List.mem_cons_of_mem _ ht)
    have first := once t List.mem_cons_self
    obtain ⟨⟨repeated, path, key⟩, as⟩ := t
    obtain rfl : repeated = false := first
    rw [List.flatMap_cons, sections_headed as (by rw [rest]), rest]

end Toml

namespace Config

/-! ## What a configuration says -/

/-- The assignments are without dots, and to keys among these in their order. -/
structure Keyed (keys : List String) (as : List Assignment) : Prop where
  plain : ∀ a ∈ as, a.path = []
  keys : (as.map (·.key)).Sublist keys

theorem Keyed.given {α : Type} (key : String) (value : α → Value) (o : Option α) :
    Keyed [key] (given key value o) := by
  cases o with
  | none => exact ⟨fun a ha => absurd ha List.not_mem_nil, List.nil_sublist _⟩
  | some a => exact ⟨fun _ ha => congrArg Assignment.path (List.mem_singleton.mp ha), List.Sublist.refl _⟩

theorem Keyed.append {keys keys' : List String} {as as' : List Assignment} (h : Keyed keys as)
    (h' : Keyed keys' as') : Keyed (keys ++ keys') (as ++ as') where
  plain a ha := (List.mem_append.mp ha).elim (h.plain a) (h'.plain a)
  keys := by
    rw [List.map_append]
    exact h.keys.append h'.keys

theorem Keyed.simple {keys : List String} {as : List Assignment} (h : Keyed keys as)
    (once : keys.Nodup) : Simple as := ⟨h.plain, h.keys.nodup once⟩

theorem keyed_source (s : SourceSection) :
    Keyed ["url", "username", "password", "auto_commit"] s.assignments :=
  ((Keyed.given "url" .text (some s.url)).append (.given ..)).append (.given ..) |>.append (.given ..)

theorem keyed_pool (s : PoolSection) :
    Keyed ["max_active", "max_idle", "max_checkout_time", "time_to_wait",
      "bad_connection_tolerance", "ping_enabled", "ping_query", "ping_connections_not_used_for"]
      s.assignments :=
  ((((((Keyed.given ..).append (.given ..)).append (.given ..)).append (.given ..)).append
    (.given ..)).append (.given ..)).append (.given ..) |>.append (.given ..)

theorem keyed_cache (s : CacheSection) :
    Keyed ["blocking", "blocking_timeout", "retention_size", "max_entries", "memory_budget"]
      s.assignments :=
  (((Keyed.given ..).append (.given ..)).append (.given ..)).append (.given ..) |>.append (.given ..)

/-- The properties of a source are in the order of their names, each name once. -/
def Ordered (c : Config) : Prop :=
  ∀ ps, c.source.properties = some ps → (ps.map Prod.fst).Pairwise (· < ·)

theorem plain_properties (ps : List (String × String)) :
    ∀ a ∈ propertyAssignments ps, a.path = [] := by
  intro a ha
  obtain ⟨p, -, rfl⟩ := List.mem_map.mp ha
  rfl

theorem simple_properties {ps : List (String × String)} (h : (ps.map Prod.fst).Nodup) :
    Simple (propertyAssignments ps) where
  plain := plain_properties ps
  once := by
    rw [propertyAssignments, List.map_map]
    exact h

/-- The table that the statements of a configuration describe. -/
def members (c : Config) : Members :=
  [("datasource", .table (pairs c.source.assignments ++
      (c.source.properties.map fun ps =>
        ("properties", .table (pairs (propertyAssignments ps)))).toList))] ++
    (c.pool.map fun s => ("pool", .table (pairs s.assignments))).toList ++
    (c.cache.map fun s => ("cache", .table (pairs s.assignments))).toList

/-- The tables that are written, each with its heading. -/
def tables (c : Config) : List (Heading × List Assignment) :=
  [({ key := "datasource" }, c.source.assignments)] ++
    (c.source.properties.map fun ps =>
      (({ path := ["datasource"], key := "properties" } : Heading), propertyAssignments ps)).toList ++
    (c.pool.map fun s => (({ key := "pool" } : Heading), s.assignments)).toList ++
    (c.cache.map fun s => (({ key := "cache" } : Heading), s.assignments)).toList

theorem statements_eq (c : Config) :
    c.statements = c.tables.flatMap fun t => headed t.1.path t.1.key t.2 := by
  unfold statements tables
  cases c.source.properties <;> cases c.pool <;> cases c.cache <;> simp

theorem tableOf?_statements {c : Config} (h : c.Ordered) :
    tableOf? c.statements = some c.members := by
  have once : ∀ t ∈ c.tables, t.1.repeated = false := by
    unfold tables
    cases c.source.properties <;> cases c.pool <;> cases c.cache <;> simp
  have source := (keyed_source c.source).simple (by decide)
  have apart : "properties" ∉ (leaves c.source.assignments).map Prod.fst := by
    have keys := (keyed_source c.source).keys
    rw [leaves, List.map_map]
    exact fun here => absurd (keys.subset here) (by decide)
  have first : Branch.place { origin := .written } ({ key := "datasource" }, c.source.assignments) =
      some { origin := .written,
             members := [("datasource", .branch .written (leaves c.source.assignments))] } :=
    Branch.place_append source List.not_mem_nil
  have properties : (c.source.properties.map fun ps =>
      (({ path := ["datasource"], key := "properties" } : Heading),
        propertyAssignments ps)).toList.foldlM Branch.place
      { origin := .written,
        members := [("datasource", .branch .written (leaves c.source.assignments))] } =
      some { origin := .written, members := [("datasource", .branch .written
        (leaves c.source.assignments ++ (c.source.properties.map fun ps =>
          ("properties", .branch .written (leaves (propertyAssignments ps)))).toList))] } := by
    cases hprops : c.source.properties with
    | none => simp
    | some ps =>
      have simple := simple_properties ((h ps hprops).imp fun lt => String.ne_of_lt lt)
      simp [Branch.place_within simple apart]
  have pool (ms : List (String × Node)) := Branch.places_optional
    (m := [("datasource", .branch .written ms)]) (o := .written) "pool" PoolSection.assignments
    (fun s => (keyed_pool s).simple (by decide)) (by simp) c.pool
  have cache (ms : List (String × Node)) := Branch.places_optional
    (m := [("datasource", .branch .written ms)] ++
      (c.pool.map fun s => ("pool", Node.branch .written (leaves s.assignments))).toList)
    (o := .written) "cache" CacheSection.assignments
    (fun s => (keyed_cache s).simple (by decide)) (by cases c.pool <;> simp) c.cache
  rw [statements_eq, tableOf?, sections_flatMap once]
  simp only [tables, List.foldlM_append, List.foldlM_cons, List.foldlM_nil, Option.bind_eq_bind,
    Option.bind_some, Option.pure_def, Branch.fill, first, properties, pool, cache]
  simp only [members, memberValues_append, memberValues_optional, memberValues, Node.value,
    memberValues_leaves]

/-! ## Reading it back -/

/-- A table of these assignments takes a reading from `a` to `b`. -/
def Form.Takes {α : Type} (f : Form α) (a : α) (as : List Assignment) (b : α) : Prop :=
  f.takeMembers a (pairs as) = .ok b

namespace Form

variable {α β : Type} {f : Form α} {a b c : α} {as as' : List Assignment}

theorem takeMembers_append {ms ms' : Members} (h : f.takeMembers a ms = .ok b) :
    f.takeMembers a (ms ++ ms') = f.takeMembers b ms' := by
  rw [takeMembers, List.foldlM_append]
  exact congrArg (· >>= fun s => f.takeMembers s ms') h

theorem Takes.append (h : f.Takes a as b) (h' : f.Takes b as' c) : f.Takes a (as ++ as') c := by
  rw [Takes, pairs, List.map_append]
  exact (takeMembers_append h).trans h'

theorem takeMembers_cons (key : String) {read : Value → Except Schema.Mismatch β} (set : β → α → α)
    (field : f.fields.lookup key = some fun v s => return set (← read v) s) {v : Value} {x : β}
    (reads : read v = .ok x) (a : α) (ms : Members) :
    f.takeMembers a ((key, v) :: ms) = f.takeMembers (set x a) ms := by
  simp only [takeMembers, List.foldlM_cons, field, reads]
  rfl

/-- A field that may be left out is set to what was given; before, it has its default. -/
theorem takes_given {key : String} {value : β → Value} {read : Value → Except Schema.Mismatch β}
    (reads : ∀ x, read (value x) = .ok x) (set : Option β → α → α)
    (field : f.fields.lookup key = some fun v s => return set (some (← read v)) s)
    (o : Option β) (fresh : set none a = a) : f.Takes a (given key value o) (set o a) := by
  cases o with
  | none => exact congrArg Except.ok fresh.symm
  | some x => exact takeMembers_cons key (fun x => set (some x)) field (reads x) a []

theorem takes_text (key : String) (set : Option String → α → α)
    (field : f.fields.lookup key = some fun v s => return set (some (← text v)) s)
    (o : Option String) (fresh : set none a = a) : f.Takes a (given key .text o) (set o a) :=
  takes_given (fun s => (rfl : text (.text s) = .ok s)) set field o fresh

theorem takes_flag (key : String) (set : Option Bool → α → α)
    (field : f.fields.lookup key = some fun v s => return set (some (← flag v)) s)
    (o : Option Bool) (fresh : set none a = a) : f.Takes a (given key .bool o) (set o a) :=
  takes_given (fun b => (rfl : flag (.bool b) = .ok b)) set field o fresh

theorem takes_size (key : String) (set : Option Nat → α → α)
    (field : f.fields.lookup key = some fun v s => return set (some (← size v)) s)
    (o : Option Nat) (fresh : set none a = a) : f.Takes a (given key number o) (set o a) :=
  takes_given (fun n => by simp [size, number]) set field o fresh

end Form

theorem poolForm_takes (s : PoolSection) : poolForm.Takes {} s.assignments s :=
  ((((((Form.takes_size "max_active"
      (fun o (s : PoolSection) => { s with maxActive := o }) rfl _ rfl).append
    (Form.takes_size "max_idle"
      (fun o (s : PoolSection) => { s with maxIdle := o }) rfl _ rfl)).append
    (Form.takes_text "max_checkout_time"
      (fun o (s : PoolSection) => { s with maxCheckoutTime := o }) rfl _ rfl)).append
    (Form.takes_text "time_to_wait"
      (fun o (s : PoolSection) => { s with timeToWait := o }) rfl _ rfl)).append
    (Form.takes_size "bad_connection_tolerance"
      (fun o (s : PoolSection) => { s with badConnectionTolerance := o }) rfl _ rfl)).append
    (Form.takes_flag "ping_enabled"
      (fun o (s : PoolSection) => { s with pingEnabled := o }) rfl _ rfl)).append
    (Form.takes_text "ping_query"
      (fun o (s : PoolSection) => { s with pingQuery := o }) rfl _ rfl) |>.append
    (Form.takes_text "ping_connections_not_used_for"
      (fun o (s : PoolSection) => { s with pingConnectionsNotUsedFor := o }) rfl _ rfl)

theorem cacheForm_takes (s : CacheSection) : cacheForm.Takes {} s.assignments s :=
  (((Form.takes_flag "blocking"
      (fun o (s : CacheSection) => { s with blocking := o }) rfl _ rfl).append
    (Form.takes_text "blocking_timeout"
      (fun o (s : CacheSection) => { s with blockingTimeout := o }) rfl _ rfl)).append
    (Form.takes_size "retention_size"
      (fun o (s : CacheSection) => { s with retentionSize := o }) rfl _ rfl)).append
    (Form.takes_size "max_entries"
      (fun o (s : CacheSection) => { s with maxEntries := o }) rfl _ rfl) |>.append
    (Form.takes_size "memory_budget"
      (fun o (s : CacheSection) => { s with memoryBudget := o }) rfl _ rfl)

theorem sourceForm_takes (s : SourceSection) : sourceForm.Takes { url := "" } s.assignments
    { s with properties := none } :=
  ((Form.takes_text "url"
      (fun o (s : SourceSection) => { s with url := o.getD "" }) rfl (some s.url) rfl).append
    (Form.takes_text "username"
      (fun o (s : SourceSection) => { s with username := o }) rfl s.username rfl)).append
    (Form.takes_text "password"
      (fun o (s : SourceSection) => { s with password := o }) rfl s.password rfl) |>.append
    (Form.takes_flag "auto_commit"
      (fun o (s : SourceSection) => { s with autoCommit := o }) rfl s.autoCommit rfl)

theorem mapM_texts (ps : List (String × String)) :
    (pairs (propertyAssignments ps)).mapM
      (fun m => return (m.1, ← text m.2)) = Except.ok (ε := Schema.Mismatch) ps := by
  induction ps with
  | nil => rfl
  | cons p ps ih =>
    simp only [propertyAssignments, pairs, List.map_cons, List.mapM_cons] at ih ⊢
    rw [ih]
    rfl

theorem texts_properties {ps : List (String × String)} (h : (ps.map Prod.fst).Pairwise (· < ·)) :
    texts (.table (pairs (propertyAssignments ps))) = .ok ps := by
  have sorted : ps.mergeSort (fun a b => !(b.1 < a.1)) = ps := by
    refine List.mergeSort_of_pairwise ((List.pairwise_map.mp h).imp fun lt => ?_)
    exact (Bool.not_eq_true' _).mpr (decide_eq_false (Std.le_of_lt lt))
  simp only [texts, Value.members?]
  rw [mapM_texts]
  exact congrArg Except.ok sorted

theorem poolSection_members (s : PoolSection) :
    poolSection (.table (pairs s.assignments)) = .ok s := by
  simp only [poolSection, Form.read, Value.members?]
  rw [show poolForm.takeMembers {} (pairs s.assignments) = .ok s from poolForm_takes s]
  rfl

theorem cacheSection_members (s : CacheSection) :
    cacheSection (.table (pairs s.assignments)) = .ok s := by
  simp only [cacheSection, Form.read, Value.members?]
  rw [show cacheForm.takeMembers {} (pairs s.assignments) = .ok s from cacheForm_takes s]
  rfl

theorem sourceSection_members {s : SourceSection}
    (h : ∀ ps, s.properties = some ps → (ps.map Prod.fst).Pairwise (· < ·)) :
    sourceSection (.table (pairs s.assignments ++ (s.properties.map fun ps =>
      ("properties", Value.table (pairs (propertyAssignments ps)))).toList)) = .ok s := by
  have rest : sourceForm.takeMembers { s with properties := none } (s.properties.map fun ps =>
      ("properties", Value.table (pairs (propertyAssignments ps)))).toList = .ok s := by
    obtain ⟨url, username, password, autoCommit, properties⟩ := s
    cases properties with
    | none => rfl
    | some ps =>
      exact Form.takeMembers_cons "properties"
        (fun ps (s : SourceSection) => { s with properties := some ps }) rfl (texts_properties (h ps rfl)) _ []
  have required : (pairs s.assignments ++ (s.properties.map fun ps =>
      ("properties", Value.table (pairs (propertyAssignments ps)))).toList).all (·.1 ≠ "url") =
        false := by
    simp [pairs, SourceSection.assignments]
  simp only [sourceSection, Form.read, Value.members?, List.find?]
  rw [Form.takeMembers_append (sourceForm_takes s), rest]
  simp only [required]
  rfl

theorem ofTable_members {c : Config} (h : c.Ordered) : ofTable c.members = .ok c := by
  have source := Form.takeMembers_cons (f := form) "datasource"
    (fun s (c : Config) => { c with source := s }) rfl (sourceSection_members h)
  have pool (s : PoolSection) := Form.takeMembers_cons (f := form) "pool"
    (fun s (c : Config) => { c with pool := some s }) rfl (poolSection_members s)
  have cache (s : CacheSection) := Form.takeMembers_cons (f := form) "cache"
    (fun s (c : Config) => { c with cache := some s }) rfl (cacheSection_members s)
  have taken : form.takeMembers { source := { url := "" } } c.members = .ok c := by
    obtain ⟨_, _ | _, _ | _⟩ := c <;>
      simp only [members, Option.map_none, Option.map_some, Option.toList_none, Option.toList_some,
        List.append_nil, List.cons_append, List.nil_append, source, pool, cache] <;> rfl
  have required : c.members.all (·.1 ≠ "datasource") = false := by simp [members]
  simp only [ofTable, Form.read, Value.members?, taken, List.find?, required]
  rfl

/-! ## What can be written -/

/-- Whatever is assigned is written in full. -/
def AllWritten (as : List Assignment) : Prop := ∀ a ∈ as, a.value.Written

theorem written_given {α : Type} {key : String} {value : α → Value} {o : Option α}
    (h : ∀ x, o = some x → (value x).Written) : AllWritten (given key value o) := by
  cases o with
  | none => exact fun a ha => absurd ha List.not_mem_nil
  | some x =>
    intro a ha
    obtain rfl := List.mem_singleton.mp ha
    exact h x rfl

theorem written_headed {path : List String} {key : String} {as : List Assignment}
    (short : path.length + 1 < Key.pathBound) (plain : ∀ a ∈ as, a.path = [])
    (values : AllWritten as) : ∀ st ∈ headed path key as, st.Written := by
  intro st hst
  obtain rfl | hst := List.mem_cons.mp hst
  · exact .heading short rfl
  · obtain ⟨a, ha, rfl⟩ := List.mem_map.mp hst
    exact .assignment (by rw [plain a ha]; decide) (values a ha)

theorem AllWritten.append {as as' : List Assignment} (h : AllWritten as) (h' : AllWritten as') :
    AllWritten (as ++ as') :=
  fun a ha => (List.mem_append.mp ha).elim (h a) (h' a)

/-- A number is small enough to be written, or left out. -/
def Small (n : Option Nat) : Prop := n.all (· < numberBound) = true

theorem written_text (key : String) (o : Option String) :
    AllWritten (given key .text o) := written_given fun x _ => .text x

theorem written_flag (key : String) (o : Option Bool) :
    AllWritten (given key .bool o) := written_given fun x _ => .bool x

theorem written_number {key : String} {o : Option Nat} (h : Small o) :
    AllWritten (given key number o) :=
  written_given fun n hn => .whole (by
    subst hn
    exact of_decide_eq_true h)

theorem written_source (s : SourceSection) : AllWritten s.assignments :=
  ((written_text "url" (some s.url)).append (written_text _ _)).append (written_text _ _)
    |>.append (written_flag _ _)

theorem written_pool {s : PoolSection}
    (h : ∀ n ∈ [s.maxActive, s.maxIdle, s.badConnectionTolerance], Small n) :
    AllWritten s.assignments := by
  simp only [List.forall_mem_cons] at h
  obtain ⟨active, idle, tolerance, -⟩ := h
  exact ((((((written_number active).append (written_number idle)).append (written_text _ _)).append
    (written_text _ _)).append (written_number tolerance)).append (written_flag _ _)).append
    (written_text _ _) |>.append (written_text _ _)

theorem written_cache {s : CacheSection}
    (h : ∀ n ∈ [s.retentionSize, s.maxEntries, s.memoryBudget], Small n) :
    AllWritten s.assignments := by
  simp only [List.forall_mem_cons] at h
  obtain ⟨retention, entries, budget, -⟩ := h
  exact (((written_flag _ _).append (written_text _ _)).append (written_number retention)).append
    (written_number entries) |>.append (written_number budget)

theorem written_properties (ps : List (String × String)) : AllWritten (propertyAssignments ps) := by
  intro a ha
  obtain ⟨p, -, rfl⟩ := List.mem_map.mp ha
  exact .text p.2

theorem written_statements {c : Config} (h : c.isWritable = true) : ∀ st ∈ c.statements, st.Written := by
  obtain ⟨source, pool, cache⟩ := c
  have small : ∀ n ∈ sizes ⟨source, pool, cache⟩, Small n := List.all_eq_true.mp h
  rw [sizes, List.forall_mem_append] at small
  simp only [statements, List.forall_mem_append]
  refine ⟨⟨⟨?source, ?properties⟩, ?pool⟩, ?cache⟩
  case source => exact written_headed (by decide) (keyed_source source).plain (written_source source)
  case properties =>
    cases source.properties with
    | none => exact fun st hst => absurd hst List.not_mem_nil
    | some ps => exact written_headed (by decide) (plain_properties ps) (written_properties ps)
  case pool =>
    cases pool with
    | none => exact fun st hst => absurd hst List.not_mem_nil
    | some s => exact written_headed (by decide) (keyed_pool s).plain (written_pool small.1)
  case cache =>
    cases cache with
    | none => exact fun st hst => absurd hst List.not_mem_nil
    | some s => exact written_headed (by decide) (keyed_cache s).plain (written_cache small.2)

/-! ## There and back -/

theorem writable_iff (c : Config) :
    c.isWritable = true ↔ ∀ n, some n ∈ c.sizes → n ≤ 2 ^ 63 - 1 := by
  have small (n : Nat) : n < numberBound ↔ n ≤ 2 ^ 63 - 1 := by
    rw [show numberBound = 2 ^ 63 from rfl]
    omega
  simp only [isWritable, List.all_eq_true]
  refine ⟨fun h n hn => (small n).mp (of_decide_eq_true (h _ hn)), fun h o ho => ?_⟩
  cases o with
  | none => rfl
  | some n => exact decide_eq_true ((small n).mpr (h n ho))

theorem parse_write {c : Config} {text : String} (h : c.Ordered) (written : c.write = .ok text) :
    parse text = .ok c := by
  unfold write at written
  split at written
  · rename_i writable
    cases written
    have read := Statement.Written.statements?_write (written_statements writable)
    simp only [parse, parse?, String.toList_ofList, read, Option.bind_eq_bind, Option.bind_some,
      tableOf?_statements h, ofTable_members h]
    rfl
  · cases written

theorem scaffold_ordered (url username : String) : (scaffold url username).Ordered :=
  fun _ none => nomatch none

end Config

namespace Command

variable {directory url username : String} {d d' : Folder}

/-- Nothing is written where something is; elsewhere the whole text is. -/
theorem carryOut_scaffoldIn {text : String} (written : (Config.scaffold url username).write = .ok text) :
    (scaffoldIn directory url username).carryOut d =
      if d.holds (inside directory defaultFile) then
        (.error (.fileExists (inside directory defaultFile)), d)
      else
        match d.write (inside directory defaultFile) text with
        | (some f, d') => (.error (.file f), d')
        | (none, d') => (.ok ("✓ Generated " ++ inside directory defaultFile ++ "\n"), d') := by
  rw [scaffoldIn, Plan.carryOut]
  split
  · rfl
  · rw [written]
    simp only [Plan.carryOut]
    obtain ⟨_ | f, d'⟩ := d.write (inside directory defaultFile) text <;> rfl

/-- Once its text is in the folder, the first configuration is read from it. -/
theorem ofFile_of_write {path text : String} (written : (Config.scaffold url username).write = .ok text)
    (h : d.write path text = (none, d')) :
    Config.ofFile (d'.read path) = .ok (Config.scaffold url username) := by
  rw [Folder.read_of_write h, Config.ofFile_toUTF8]
  exact Config.parse_write (Config.scaffold_ordered url username) written

theorem ofFile_of_carryOut {message : String}
    (h : (scaffoldIn directory url username).carryOut d = (.ok message, d')) :
    Config.ofFile (d'.read (inside directory defaultFile)) = .ok (Config.scaffold url username) := by
  obtain ⟨text, written⟩ := (⟨_, rfl⟩ : ∃ text, (Config.scaffold url username).write = .ok text)
  rw [carryOut_scaffoldIn written] at h
  split at h
  · cases h
  · split at h
    · cases h
    · rename_i done
      cases h
      exact ofFile_of_write written done

theorem carryOut_of_free {place : List String}
    (leads : d.placeOf (inside directory defaultFile) = .ok place)
    (free : d.holds (inside directory defaultFile) = false) :
    ∃ message d', (scaffoldIn directory url username).carryOut d = (.ok message, d') := by
  obtain ⟨text, written⟩ := (⟨_, rfl⟩ : ∃ text, (Config.scaffold url username).write = .ok text)
  have noDirectory : d.isDirectory place = false := by
    rw [Folder.holds, leads] at free
    exact (Bool.or_eq_false_iff.mp free).2
  simp only [carryOut_scaffoldIn written, free, Folder.write, leads, noDirectory]
  exact ⟨_, _, rfl⟩

end Command

/-- Whatever a configuration says, its text says it too; and the file that starts a directory says
what the first configuration says. -/
theorem Config.text_reads_back :
    (∀ c : Config, c.Ordered → (∀ n, some n ∈ c.sizes → n ≤ 2 ^ 63 - 1) →
      ∃ text, c.write = .ok text ∧ parse text = .ok c) ∧
    (∀ (directory url username : String) (d d' : Command.Folder) (message : String),
      (Command.scaffoldIn directory url username).carryOut d = (.ok message, d') →
        ofFile (d'.read (Command.inside directory Command.defaultFile)) = .ok (scaffold url username)) ∧
    (∀ (directory url username : String) (d : Command.Folder) (place : List String),
      d.placeOf (Command.inside directory Command.defaultFile) = .ok place →
      d.holds (Command.inside directory Command.defaultFile) = false →
        ∃ message d', (Command.scaffoldIn directory url username).carryOut d = (.ok message, d')) := by
  refine ⟨fun c ordered small => ?_, fun _ _ _ _ _ _ => Command.ofFile_of_carryOut,
    fun _ _ _ _ _ => Command.carryOut_of_free⟩
  have written : c.write = .ok (String.ofList (Toml.write c.statements)) :=
    if_pos ((writable_iff c).mpr small)
  exact ⟨_, written, parse_write ordered written⟩

/-- Texts that need quoting of every kind, beside sections and numbers at their limits. -/
def Config.awkward : Config where
  source :=
    { url := "sql://it's \"here\"\\\x07\n'''\"\"\""
      password := some ""
      properties := some [("", "\x7f\t"), ("a b", "\"\"\"\r\n"), ("a.b", "''''\\"), ("å", "\u0000")] }
  pool := some {}
  cache := some { maxEntries := some (2 ^ 63 - 1) }

theorem Config.awkward_text_reads_back :
    (∃ text, awkward.write = .ok text ∧ parse text = .ok awkward) ∧
      ∃ message d', (Command.scaffoldIn "" "a'b\"\n" "\\u").carryOut { home := ["home"] } =
          (.ok message, d') ∧
        ofFile (d'.read (Command.inside "" Command.defaultFile)) = .ok (scaffold "a'b\"\n" "\\u") := by
  obtain ⟨text, file, init⟩ := text_reads_back
  refine ⟨text awkward (fun ps h => ?_) (fun n h => ?_), ?_⟩
  · rw [← Option.some.inj h]
    decide +kernel
  · simp [awkward, sizes] at h
    omega
  · have name : Command.inside "" Command.defaultFile = "tidepool.toml" := by decide +kernel
    have noNul : "tidepool.toml".contains '\x00' = false := by
      rw [String.contains_char_eq]
      decide +kernel
    have relative : "tidepool.toml".startsWith "/" = false := by decide +kernel
    have leads : ({ home := ["home"] } : Command.Folder).placeOf
        (Command.inside "" Command.defaultFile) = .ok ["home", Command.defaultFile] := by
      rw [name, Command.Folder.placeOf, noNul, relative]
      rfl
    obtain ⟨message, d', done⟩ := init "" "a'b\"\n" "\\u" { home := ["home"] } _ leads (by
      rw [Command.Folder.holds, leads]
      decide +kernel)
    exact ⟨message, d', done, file _ _ _ _ _ _ done⟩

end DataTier
