import DataTier.Pool.Acquire

/-! The end of a checkout: its holder gives the connection back, or the pool closes all
that it has. A connection comes back to the idle ones if it passes its check, there is
room for it, and it was held under the identity that the pool expects. -/

namespace DataTier.Pool

variable {δ : Type}

def State.canKeep (c : Checkout) (s : State) : Bool :=
  s.idle.length < s.settings.maxIdle && c.fingerprint == s.expected

/-- The good connection of a checkout that ended joins the idle ones or is closed. -/
def settleReturn (D : Driver δ) (now : Time.Instant) (c : Checkout) (p : Pool δ) : Pool δ :=
  let age := c.age now
  let state := (p.state.count fun k =>
    { k with checkoutTime := ⟨k.checkoutTime.nanoseconds + age.nanoseconds⟩ }).invalidate c
  let line := (p.line.rollbackIfNeeded D c.connection).2
  if p.state.canKeep c then { line, state := { state with idle := state.idle ++ [c.detach] } }
  else { line := line.close D c.connection, state }

/-- A handle that is no longer valid, or whose connection fails its check, counts as bad. -/
def release (D : Driver δ) (now : Time.Instant) (c : Checkout) (p : Pool δ) : Pool δ :=
  let state := p.state.removeActive c
  let (good, line) := if state.isValid c then validate D state.settings now c.detach p.line
    else (false, p.line)
  if good then settleReturn D now c { state, line }
  else { state := (state.invalidate c).countBad, line }

/-- Closes every connection, and expects the identity of the present source from now on. -/
def closeAll (D : Driver δ) (p : Pool δ) : Pool δ :=
  let line := p.state.active.foldl (fun l c => l.retire D c.connection) p.line
  let line := p.state.idle.foldl (fun l d => l.retire D d.connection) line
  let state := p.state.active.foldl (fun s c => s.invalidate c) p.state
  { line, state := { state with active := [], idle := [], expected := state.source.fingerprint } }

/-- Refuses all callers from now on. -/
def shutdown (D : Driver δ) (p : Pool δ) : Pool δ :=
  closeAll D { p with state := { p.state with closed := true } }

/-- A new source or new settings are for new connections only. -/
def reconfigure (D : Driver δ)
    (change : Source.DataSource → Settings → Source.DataSource × Settings) (p : Pool δ) :
    Pool δ :=
  let (source, settings) := change p.state.source p.state.settings
  closeAll D { p with state := { p.state with source, settings } }

/-- How many bad connections a caller puts up with is no matter of those there are. -/
def setTolerance (n : Nat) (p : Pool δ) : Pool δ :=
  { p with state := { p.state with
      settings := { p.state.settings with badConnectionTolerance := n } } }

end DataTier.Pool
