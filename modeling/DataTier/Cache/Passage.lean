import DataTier.Cache.Shape

/-! A reader on its way down a chain, which may have to wait at any of its gates. At each
layer the reader is either at the layer, or below it while the layer waits for the answer;
the answer comes back up through the same layers. A soft layer admits nobody else as long
as a reader is below it. -/

namespace DataTier.Cache

inductive Passage where
  /-- At a layer: about to enter it, waiting at its gate, or through with it. -/
  | here (v : Blocking.Visit)
  /-- Inside a layer, with the rest of the passage below it; an exclusive one keeps others out. -/
  | inside (exclusive : Bool) (v : Blocking.Visit) (next : Passage)

namespace Passage

def answer? : Passage → Option (Answer (Option Entry))
  | here v => v.answer?
  | inside .. => none

def key : Passage → Key
  | here v | inside _ v _ => v.key

/-- When a wait at a gate ends, if there is one and it has an end. -/
def deadline? : Passage → Option Time.Instant
  | here v =>
    match v.phase with
    | .waiting _ => v.deadline
    | _ => none
  | inside _ _ next => next.deadline?

/-- How far down the layers are that admit nobody else. -/
def occupied : Passage → List Nat
  | here _ => []
  | inside exclusive _ next => (if exclusive then [0] else []) ++ next.occupied.map (· + 1)

end Passage

namespace Shape

/-- A reader who comes to the top of a chain. -/
def arrival (s : Shape) (now : Time.Instant) (k : Key) (st : s.State) : Passage :=
  .here (s.visitor now k st)

/-- Takes a reader as far as it gets while nobody else moves. Where a layer is barred, by how
far down it is, it does not let the reader in. -/
def advance : (s : Shape) → Time.Instant → (Nat → Bool) → Passage → s.State → Passage × s.State
  | memory id maxEntries, _, _, p, (st : Memory) =>
    match p with
    | .here v =>
      if v.answer?.isSome then (p, st)
      else
        let (a, st) := (Memory.store id maxEntries).get v.key st
        (.here (v.finish a), st)
    | .inside .. => (p, st)
  | probe b, now, barred, p, (st : Probe b.State) =>
    let down (v : Blocking.Visit) (next : Passage) (st : Probe b.State) :
        Passage × Probe b.State :=
      let (next, below) := b.advance now (fun n => barred (n + 1)) next st.below
      let st := { st with below }
      match next.answer? with
      | none => (.inside false v next, st)
      | some a => (.here (v.finish a), st)
    match p with
    | .here v =>
      if v.answer?.isSome then (p, st)
      else
        match Probe.pass .get (some v.key) (fun below => (.ok (), below)) st with
        | (.error e, st) => (.here (v.finish (.error e)), st)
        | (.ok (), st) => down v (b.arrival now v.key st.below) st
    | .inside _ v next => down v next st
  | soft limits b, now, barred, p, (st : Soft b.State) =>
    let down (v : Blocking.Visit) (next : Passage) (st : Soft b.State) :
        Passage × Soft b.State :=
      let (next, below) := b.advance now (fun n => barred (n + 1)) next st.below
      let st := { st with below }
      match next.answer? with
      | none => (.inside true v next, st)
      | some a => (.here (v.finish a), st.noteRead limits v.key a)
    match p with
    | .here v =>
      if v.answer?.isSome || barred 0 then (p, st)
      else
        match Soft.drain (b.store now) st.books.reclaimed st with
        | (.error e, st) => (.here (v.finish (.error e)), st)
        | (.ok (), st) => down v (b.arrival now v.key st.below) st
    | .inside _ v next => down v next st
  | blocking _ b, now, barred, p, (st : Blocking b.State) =>
    let down (v : Blocking.Visit) (next : Passage) (st : Blocking b.State) :
        Passage × Blocking b.State :=
      let (next, below) := b.advance now (fun n => barred (n + 1)) next st.below
      let st := { st with below }
      match next.answer? with
      | none => (.inside false v next, st)
      | some a =>
        let (v, st) := { v with phase := Blocking.Visit.afterRead a }.settle (b.store now) now st
        (.here v, st)
    match p with
    | .here v =>
      let (v, st) := v.approach (b.store now) now 4 st
      match v.phase with
      | .reading => down v (b.arrival now v.key st.below) st
      | _ => (.here v, st)
    | .inside _ v next => down v next st

/-- How many layers of a chain a removal comes to; gates keep it from what is below them. -/
def removalReach : Shape → Nat
  | memory _ _ | blocking _ _ => 1
  | probe b | soft _ b => b.removalReach + 1

/-- How far down the probe is that turns the question whether a key is held into a read;
gates let the question pass. -/
def probeDepth? : Shape → Option Nat
  | memory _ _ | soft _ _ => none
  | probe _ => some 0
  | blocking _ b => b.probeDepth?.map (· + 1)

end Shape

end DataTier.Cache
