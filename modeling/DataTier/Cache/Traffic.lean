import DataTier.Cache.Bank
import DataTier.Cache.Passage

/-! Readers on their way through the chains of a bank, beside a caller who does one thing
after the other. After everything the caller does, the readers get as far as they can; time
passes only where the caller has to wait, and then up to the next end of a wait. -/

namespace DataTier.Cache

structure Reader (ss : List Shape) where
  chain : Fin ss.length
  /-- How many layers of the chain lie above the one the reader came to. -/
  depth : Nat
  passage : Passage

structure Traffic (ι : Type) (ss : List Shape) where
  bank : Bank ss
  now : Time.Instant := .start
  /-- In the order in which they came; the caller is the one without a name. -/
  readers : Table (Option ι) (Reader ss) := []

namespace Reader

variable {ss : List Shape}

/-- How far down their chain the layers are that the reader keeps others out of. -/
def occupied (r : Reader ss) : List Nat := r.passage.occupied.map (· + r.depth)

end Reader

namespace Traffic

variable {ι : Type} [DecidableEq ι] {ss : List Shape}

/-- Whether a layer of a chain is occupied by a reader other than the one named. -/
def isBarred (w : Traffic ι ss) (name : Option ι) (i : Fin ss.length) (n : Nat) : Bool :=
  w.readers.any fun (other, r) => other ≠ name && r.chain = i && r.occupied.contains n

def advance (w : Traffic ι ss) (name : Option ι) : Traffic ι ss :=
  match w.readers.get? name with
  | none => w
  | some r =>
    let barred (n : Nat) : Bool := w.isBarred name r.chain (n + r.depth)
    let (p, bank) := Bank.atLayer (fun t st => t.advance w.now barred r.passage st) ss
      r.chain r.depth w.bank
    { w with bank, readers := w.readers.set name { r with passage := p.getD r.passage } }

/-- Every reader in turn, which may clear the way for those before it. -/
def round (w : Traffic ι ss) : Traffic ι ss := w.readers.keys.foldl advance w

/-- Each reader can be held up at each layer once by every other. -/
def rounds (w : Traffic ι ss) : Nat :=
  let layers := (ss.map Shape.layers).foldl max 1
  w.readers.length * w.readers.length * layers

def settle (w : Traffic ι ss) : Traffic ι ss := Nat.repeat round w.rounds w

def nextDeadline? (w : Traffic ι ss) : Option Time.Instant :=
  (w.readers.filterMap fun e => e.2.passage.deadline?).foldl
    (fun
      | none, t => some t
      | some u, t => some (if u.reached t then t else u)) none

/-- Time passes until a wait is over, unless none of them has an end. -/
def pass? (w : Traffic ι ss) : Option (Traffic ι ss) :=
  w.nextDeadline?.map fun now => settle { w with now }

/-- No two things are done at the same instant. -/
def tick (w : Traffic ι ss) : Traffic ι ss := { w with now := w.now.plus ⟨1⟩ }

def depart (w : Traffic ι ss) (name : Option ι) (i : Fin ss.length) (depth : Nat) (k : Key) :
    Traffic ι ss :=
  let w := w.tick
  match (Bank.atLayer (fun t st => (t.arrival w.now k st, st)) ss i depth w.bank).1 with
  | none => w
  | some passage => settle { w with readers := w.readers.set name ⟨i, depth, passage⟩ }

/-- The answer to a reader, who is waited for; every wait that ends ends a passage. -/
def arriveIn : Nat → Option ι → Traffic ι ss → Option (Answer (Option Entry)) × Traffic ι ss
  | n, name, w =>
    match w.readers.get? name with
    | none => (none, w)
    | some r =>
      let leave (a : Answer (Option Entry)) : Option (Answer (Option Entry)) × Traffic ι ss :=
        (some a, { w with readers := w.readers.erase name })
      match r.passage.answer?, n, w.pass? with
      | some a, _, _ => leave a
      | none, n + 1, some w => arriveIn n name w
      | none, _, _ => leave (.error (.stalled r.passage.key (Bank.store ss r.chain).id))

def arrive (w : Traffic ι ss) (name : Option ι) :
    Option (Answer (Option Entry)) × Traffic ι ss := arriveIn w.readers.length name w

def clearIn (i : Fin ss.length) (layers : List Nat) : Nat → Traffic ι ss → Traffic ι ss
  | 0, w => w
  | n + 1, w =>
    if layers.any (w.isBarred none i) then
      match w.pass? with
      | some w => clearIn i layers n w
      | none => w
    else w

/-- The caller waits until none of some layers is occupied. -/
def clear (w : Traffic ι ss) (i : Fin ss.length) (layers : List Nat) : Traffic ι ss :=
  clearIn i layers w.readers.length w

/-- The caller does something that comes to a number of layers, one of which is the first. -/
def act {α : Type} (f : Time.Instant → Bank ss → α × Bank ss) (i : Fin ss.length)
    (depth reach : Nat) (w : Traffic ι ss) : α × Traffic ι ss :=
  let w := (w.clear i (List.range' depth reach)).tick
  let (a, bank) := f w.now w.bank
  (a, settle { w with bank })

/-- The caller reads a key, with readers beside it as one of them. -/
def read (d : Clocked (Bank ss)) (i : Fin ss.length) (depth : Nat) (k : Key) (w : Traffic ι ss) :
    Answer (Option Entry) × Traffic ι ss :=
  if w.readers.isEmpty then w.act (fun now => (d now).get k) i depth ss[i].layers
  else
    let (a, w) := (w.depart none i depth k).arrive none
    (a.getD (.error (.stalled k d.id)), w)

/-- A layer of a chain, as the caller finds it beside the readers. -/
def store (i : Fin ss.length) (depth : Nat) (d : Clocked (Bank ss)) : Store (Traffic ι ss) :=
  let t := ss[i].drop depth
  let act {α : Type} (f : Store (Bank ss) → Bank ss → α × Bank ss) (w : Traffic ι ss) :
      α × Traffic ι ss :=
    w.act (fun now => f (d now)) i depth t.layers
  { id := d.id
    size := act Store.size
    get := read d i depth
    put := fun k e => act fun d => d.put k e
    contains := fun k w =>
      match w.readers, t.probeDepth? with
      | [], _ | _, none => act (fun d => d.contains k) w
      | _, some n =>
        let (a, w) := w.read d i (depth + n) k
        (a.map Option.isSome, w)
    remove := fun k w => w.act (fun now => (d now).remove k) i depth t.removalReach
    clear := act Store.clear }

end Traffic

end DataTier.Cache
