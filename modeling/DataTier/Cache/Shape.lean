import DataTier.Cache.Blocking
import DataTier.Cache.Memory
import DataTier.Cache.Probe
import DataTier.Cache.Settings

/-! Chains of layers. A shape says which layers a chain has, a memory at the bottom; it
determines the chain's states and the store it is. -/

namespace DataTier.Cache

inductive Shape where
  | memory (id : String) (maxEntries : Option Nat)
  | probe (below : Shape)
  | soft (limits : Soft.Limits) (below : Shape)
  | blocking (timeout : Option Time.Duration) (below : Shape)

namespace Shape

def State : Shape → Type
  | memory _ _ => Memory
  | probe below => Probe below.State
  | soft _ below => Soft below.State
  | blocking _ below => Blocking below.State

def store : (s : Shape) → Clocked s.State
  | memory id maxEntries => fun _ => Memory.store id maxEntries
  | probe below => fun now => Probe.store (below.store now)
  | soft limits below => fun now => Soft.store limits (below.store now)
  | blocking _ below => Blocking.store below.store

def initial : (s : Shape) → s.State
  | memory _ _ => ({} : Memory)
  | probe below => (⟨below.initial, [], []⟩ : Probe below.State)
  | soft _ below => (⟨below.initial, {}⟩ : Soft below.State)
  | blocking timeout below =>
    (⟨below.initial, Blocking.Gates.setTimeout {} timeout⟩ : Blocking below.State)

def layers : Shape → Nat
  | memory _ _ => 1
  | probe below | soft _ below | blocking _ below => below.layers + 1

/-- The chain below a number of layers; the lowest always stays. -/
def drop : Shape → Nat → Shape
  | s, 0 => s
  | memory id maxEntries, _ + 1 => memory id maxEntries
  | probe below, n + 1 | soft _ below, n + 1 | blocking _ below, n + 1 => below.drop n

/-- The chain below a number of layers, as a store on the states of the whole. -/
def focus : (s : Shape) → Nat → Option (Clocked s.State)
  | s, 0 => some s.store
  | memory _ _, _ + 1 => none
  | probe below, n + 1 =>
    (below.focus n).map fun d => d.within Probe.below fun p st => { p with below := st }
  | soft _ below, n + 1 =>
    (below.focus n).map fun d => d.within Soft.below fun p st => { p with below := st }
  | blocking _ below, n + 1 =>
    (below.focus n).map fun d => d.within Blocking.below fun p st => { p with below := st }

/-- Something done to the layer below a number of layers. -/
def atLayer {α : Type} (f : (t : Shape) → t.State → α × t.State) :
    (s : Shape) → Nat → s.State → Option (α × s.State)
  | s, 0, st => some (f s st)
  | memory _ _, _ + 1, _ => none
  | probe below, n + 1, (st : Probe below.State) =>
    (atLayer f below n st.below).map fun (a, b) => (a, ({ st with below := b } : Probe below.State))
  | soft _ below, n + 1, (st : Soft below.State) =>
    (atLayer f below n st.below).map fun (a, b) => (a, ({ st with below := b } : Soft below.State))
  | blocking _ below, n + 1, (st : Blocking below.State) =>
    (atLayer f below n st.below).map fun (a, b) =>
      (a, ({ st with below := b } : Blocking below.State))

/-- One step of a caller at the top of a chain. Without gates there is nothing to wait for,
and what the caller came for is done at once. -/
def step : (s : Shape) → Time.Instant → Blocking.Visit → s.State → Option (Blocking.Visit × s.State)
  | blocking _ below, now, v, st => v.step (below.store now) now st
  | s, now, v, st =>
    let done (a : Answer (Option Entry) × s.State) := some ({ v with phase := .finished a.1 }, a.2)
    match v.phase with
    | .entering | .waiting _ | .reading => done ((s.store now).get v.key st)
    | .writing e =>
      let (a, st) := (s.store now).put v.key e st
      done (a.map fun _ => none, st)
    | .leaving _ | .opening _ _ => done ((s.store now).remove v.key st)
    | .finished _ => none

/-- A reader who comes to the top of a chain. -/
def visitor : (s : Shape) → Time.Instant → Key → s.State → Blocking.Visit
  | blocking _ below, now, k, (st : Blocking below.State) =>
    .read below.store.id now k st.gates.timeout
  | s, now, k, _ => .read s.store.id now k none

end Shape

/-- Memory at the bottom, a soft layer over it, and gates on top if asked for. -/
def Settings.shape (s : Settings) : Shape :=
  let chain := Shape.soft s.limits (.memory s.id s.maxEntries)
  if s.blocking then .blocking s.blockingTimeout chain else chain

end DataTier.Cache
