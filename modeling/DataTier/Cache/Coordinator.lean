import DataTier.Cache.UnitOfWork

/-! The units of work of one session, one for each store it has touched. Stores are told
apart by their index, not by their name. -/

namespace DataTier.Cache

structure Coordinator (ι : Type) where
  units : Table ι UnitOfWork := []

namespace Coordinator

variable {ι ω : Type} [DecidableEq ι]

/-- A store is touched as soon as its unit of work is asked for. -/
def unit (c : Coordinator ι) (i : ι) : UnitOfWork := (c.units.get? i).getD {}

def touch (i : ι) (c : Coordinator ι) : Coordinator ι := ⟨c.units.set i (c.unit i)⟩

def touched (c : Coordinator ι) : Nat := c.units.length

def get (stores : ι → Store ω) (i : ι) (k : Key) (c : Coordinator ι) (w : ω) :
    Answer (Option Entry) × Coordinator ι × ω :=
  let (a, u, w) := (c.unit i).get (stores i) k w
  (a, ⟨c.units.set i u⟩, w)

def put (i : ι) (k : Key) (e : Entry) (c : Coordinator ι) : Coordinator ι :=
  ⟨c.units.set i ((c.unit i).put k e)⟩

def clear (i : ι) (c : Coordinator ι) : Coordinator ι := ⟨c.units.set i (c.unit i).clear⟩

/-- Every unit is committed; the first failure is the answer. -/
def commitEach (stores : ι → Store ω) : Table ι UnitOfWork → ω → Answer Unit × Table ι UnitOfWork × ω
  | [], w => (.ok (), [], w)
  | (i, u) :: rest, w =>
    let (a, u, w) := u.commit (stores i) w
    let (b, rest, w) := commitEach stores rest w
    (if a.isOk then b else a, (i, u) :: rest, w)

def commit (stores : ι → Store ω) (c : Coordinator ι) (w : ω) : Answer Unit × Coordinator ι × ω :=
  let (a, units, w) := commitEach stores c.units w
  (a, ⟨units⟩, w)

def rollbackEach (stores : ι → Store ω) : Table ι UnitOfWork → ω → Table ι UnitOfWork × ω
  | [], w => ([], w)
  | (i, u) :: rest, w =>
    let (u, w) := u.rollback (stores i) w
    let (rest, w) := rollbackEach stores rest w
    ((i, u) :: rest, w)

def rollback (stores : ι → Store ω) (c : Coordinator ι) (w : ω) : Coordinator ι × ω :=
  let (units, w) := rollbackEach stores c.units w
  (⟨units⟩, w)

end DataTier.Cache.Coordinator
