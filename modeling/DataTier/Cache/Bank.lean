import DataTier.Cache.Shape

/-! Several chains side by side, which share nothing. An operation on one of them leaves
the others as they are. -/

namespace DataTier.Cache

/-- A state of each chain. -/
def Bank : List Shape → Type
  | [] => Unit
  | s :: ss => s.State × Bank ss

namespace Bank

def initial : (ss : List Shape) → Bank ss
  | [] => ()
  | s :: ss => (s.initial, initial ss)

/-- One chain, or the part of it below a number of layers, as a store on all states. -/
def layer? : (ss : List Shape) → Fin ss.length → Nat → Option (Clocked (Bank ss))
  | s :: _, ⟨0, _⟩, n => (s.focus n).map fun d => d.within Prod.fst fun p st => (st, p.2)
  | _ :: ss, ⟨i + 1, h⟩, n =>
    (layer? ss ⟨i, Nat.lt_of_succ_lt_succ h⟩ n).map fun d =>
      d.within Prod.snd fun p st => (p.1, st)

def store : (ss : List Shape) → Fin ss.length → Clocked (Bank ss)
  | s :: _, ⟨0, _⟩ => s.store.within Prod.fst fun p st => (st, p.2)
  | _ :: ss, ⟨i + 1, h⟩ =>
    (store ss ⟨i, Nat.lt_of_succ_lt_succ h⟩).within Prod.snd fun p st => (p.1, st)

/-- Something done to the whole of one chain. -/
def atChain {α : Type} (f : (t : Shape) → t.State → α × t.State) :
    (ss : List Shape) → Fin ss.length → Bank ss → α × Bank ss
  | s :: _, ⟨0, _⟩, st =>
    let (a, b) := f s st.1
    (a, (b, st.2))
  | _ :: ss, ⟨i + 1, h⟩, st =>
    let (a, b) := atChain f ss ⟨i, Nat.lt_of_succ_lt_succ h⟩ st.2
    (a, (st.1, b))

/-- Something done to the layer of one chain below a number of layers. -/
def atLayer {α : Type} (f : (t : Shape) → t.State → α × t.State) (ss : List Shape)
    (i : Fin ss.length) (depth : Nat) : Bank ss → Option α × Bank ss :=
  atChain (fun t st =>
    match t.atLayer f depth st with
    | some (a, st) => (some a, st)
    | none => (none, st)) ss i

end DataTier.Cache.Bank
