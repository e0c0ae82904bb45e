import DataTier.Proofs.Cache.Upkeep

/-! Stores that write down what they are asked. A journal is kept beside the state of a store and
changes nothing that the store does, and a soft layer over such a store does what it does over the
store alone (`map_carryOutAll`). -/

namespace DataTier.Cache

variable {σ τ α : Type}

/-- The calls of a store with their answers, the latest first. -/
abbrev Journal := List (Call × Answer Reply)

namespace Store

/-- The call is done, and written down with its answer. -/
def writeDown (c : Call) (reply : α → Reply) (f : σ → Answer α × σ) (s : σ × Journal) :
    Answer α × σ × Journal :=
  let (a, t) := f s.1
  (a, t, (c, a.map reply) :: s.2)

def journaled (d : Store σ) : Store (σ × Journal) where
  id := d.id
  size := writeDown .size .count d.size
  get k := writeDown (.get k) .entry (d.get k)
  put k e := writeDown (.put k e) (fun _ => .done) (d.put k e)
  contains k := writeDown (.contains k) .flag (d.contains k)
  remove k := writeDown (.remove k) .entry (d.remove k)
  clear := writeDown .clear (fun _ => .done) d.clear

theorem journal_get {d : Store σ} {k : Key} {s : σ × Journal} {a : Answer (Option Entry)}
    (answer : (d.journaled.get k s).1 = a) :
    (d.journaled.get k s).2.2 = (.get k, a.map .entry) :: s.2 := by
  subst answer
  rfl

theorem journal_put {d : Store σ} {k : Key} {e : Entry} {s : σ × Journal} {a : Answer Unit}
    (answer : (d.journaled.put k e s).1 = a) :
    (d.journaled.put k e s).2.2 = (.put k e, a.map fun _ => .done) :: s.2 := by
  subst answer
  rfl

/-- What the store `d'` does is what `d` does on a part of its state. -/
structure Extends (d' : Store τ) (d : Store σ) (part : τ → σ) : Prop where
  size : ∀ s, d.size (part s) = ((d'.size s).1, part (d'.size s).2)
  get : ∀ k s, d.get k (part s) = ((d'.get k s).1, part (d'.get k s).2)
  put : ∀ k e s, d.put k e (part s) = ((d'.put k e s).1, part (d'.put k e s).2)
  contains : ∀ k s, d.contains k (part s) = ((d'.contains k s).1, part (d'.contains k s).2)
  remove : ∀ k s, d.remove k (part s) = ((d'.remove k s).1, part (d'.remove k s).2)
  clear : ∀ s, d.clear (part s) = ((d'.clear s).1, part (d'.clear s).2)

theorem journaled_extends (d : Store σ) : d.journaled.Extends d Prod.fst where
  size _ := rfl
  get _ _ := rfl
  put _ _ _ := rfl
  contains _ _ := rfl
  remove _ _ := rfl
  clear _ := rfl

end Store

/-! ## Soft layers -/

namespace Soft

variable {d' : Store τ} {d : Store σ} {part : τ → σ} {limits : Limits}

def map (part : τ → σ) (s : Soft τ) : Soft σ := ⟨part s.below, s.books⟩

theorem below_map (part : τ → σ) (s : Soft τ) : (s.map part).below = part s.below := rfl

theorem books_map (part : τ → σ) (s : Soft τ) : (s.map part).books = s.books := rfl

theorem map_drain (wider : d'.Extends d part) (ks : List Key) (s : Soft τ) :
    drain d ks (s.map part) = ((drain d' ks s).1, (drain d' ks s).2.map part) := by
  induction ks generalizing s with
  | nil => rfl
  | cons k ks ih =>
    rw [drain, drain, below_map, wider.remove]
    rcases d'.remove k s.below with ⟨_ | _, below⟩
    · rfl
    · exact ih ⟨below, { s.books with reclaimed := ks }⟩

theorem map_afterDrain (wider : d'.Extends d part) {f : Soft σ → Answer α × Soft σ}
    {f' : Soft τ → Answer α × Soft τ} (hf : ∀ s, f (s.map part) = ((f' s).1, (f' s).2.map part))
    (s : Soft τ) : afterDrain d f (s.map part) =
      ((afterDrain d' f' s).1, (afterDrain d' f' s).2.map part) := by
  rw [afterDrain, afterDrain, books_map, map_drain wider]
  rcases drain d' s.books.reclaimed s with ⟨_ | _, t⟩
  · rfl
  · exact hf t

theorem map_forgetEvicted (wider : d'.Extends d part) (held : Nat) (ks : List Key)
    (s : Soft τ) : forgetEvicted d held ks (s.map part) =
      ((forgetEvicted d' held ks s).1, (forgetEvicted d' held ks s).2.map part) := by
  induction ks generalizing s with
  | nil => rfl
  | cons k ks ih =>
    rw [forgetEvicted, forgetEvicted, books_map]
    split
    · rfl
    · rw [below_map, wider.contains]
      rcases d'.contains k s.below with ⟨_ | _ | _, below⟩
      · rfl
      · exact ih ⟨below, s.books.forget k⟩
      · exact ih { s with below }

theorem map_reconcile (wider : d'.Extends d part) (s : Soft τ) :
    reconcile d (s.map part) = ((reconcile d' s).1, (reconcile d' s).2.map part) := by
  rw [reconcile, reconcile, below_map, wider.size]
  rcases d'.size s.below with ⟨_ | _, below⟩
  · rfl
  · exact map_forgetEvicted wider _ _ { s with below }

theorem map_noteRead (k : Key) (a : Answer (Option Entry)) (s : Soft τ) :
    noteRead limits k a (s.map part) = (noteRead limits k a s).map part := by
  rcases a with _ | _ | _ <;> rfl

theorem map_enforce (s : Soft τ) : enforce limits (s.map part) = (enforce limits s).map part := by
  unfold enforce
  split <;> rfl

theorem map_put (wider : d'.Extends d part) (k : Key) (e : Entry) (s : Soft τ) :
    put limits d k e (s.map part) =
      ((put limits d' k e s).1, (put limits d' k e s).2.map part) := by
  refine map_afterDrain wider ?_ s
  intro s
  rw [below_map, wider.put]
  rcases d'.put k e s.below with ⟨_ | _, below⟩
  · rfl
  · dsimp only
    rw [show (⟨part below, (s.map part).books.track k e.weight⟩ : Soft σ) =
      map part ⟨below, s.books.track k e.weight⟩ from rfl, map_reconcile wider]
    rcases reconcile d' ⟨below, s.books.track k e.weight⟩ with ⟨_ | _, t⟩
    · rfl
    · exact congrArg (Prod.mk _) (map_enforce t)

theorem extends_store (wider : d'.Extends d part) (limits : Limits) :
    (store limits d').Extends (store limits d) (map part) where
  size := by
    refine map_afterDrain wider ?_
    intro s
    rw [below_map, wider.size]
    rfl
  get k := by
    refine map_afterDrain wider ?_
    intro s
    rw [below_map, wider.get]
    exact congrArg (Prod.mk _) (map_noteRead k _ { s with below := (d'.get k s.below).2 })
  put := map_put wider
  contains k := by
    refine map_afterDrain wider ?_
    intro s
    rw [below_map, wider.contains]
    rfl
  remove k := by
    refine map_afterDrain wider ?_
    intro s
    rw [below_map, wider.remove]
    rfl
  clear s := by
    refine map_afterDrain wider ?_ { s with books := { s.books with retained := [] } }
    intro s
    rw [below_map, wider.clear]
    rfl

theorem map_carryOut (limits : Limits) (wider : d'.Extends d part) (s : Soft τ) (o : Operation) :
    carryOut limits d (s.map part) o = (carryOut limits d' s o).map part := by
  have soft := extends_store wider limits
  cases o with
  | reclaimUnretained => rfl
  | call c =>
    cases c with
    | size => exact congrArg Prod.snd (soft.size s)
    | get k => exact congrArg Prod.snd (soft.get k s)
    | put k e => exact congrArg Prod.snd (soft.put k e s)
    | contains k => exact congrArg Prod.snd (soft.contains k s)
    | remove k => exact congrArg Prod.snd (soft.remove k s)
    | clear => exact congrArg Prod.snd (soft.clear s)

theorem map_carryOutAll (wider : d'.Extends d part) (s : Soft τ) (os : List Operation) :
    carryOutAll limits d (s.map part) os = (carryOutAll limits d' s os).map part := by
  induction os generalizing s with
  | nil => rfl
  | cons o os ih =>
    have step := map_carryOut limits wider s o
    rw [carryOutAll, List.foldl_cons, step]
    exact ih (carryOut limits d' s o)

end Soft
end DataTier.Cache
