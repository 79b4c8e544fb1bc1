import NixRemoteStore.Connection

/-! # The connection pool

`Pool<Connection>` of `pool.hh`, not in the sources, modelled from §3 and §4.7 of the spec:
the idle connections, most recently released first, the handles out, and the capacity. -/

namespace NixRemoteStore

/-- Modelled from the spec: the state of `Pool<Connection>`. -/
structure Pool where
  idle : List Connection
  inUse : Nat
  max : Nat
  deriving DecidableEq, Repr

/-- What `Pool::get` does. -/
inductive Grant
  | idle (c : Connection)
  | create
  | blocked
  deriving DecidableEq, Repr

namespace Pool

variable (live : Connection → Bool)

/-- Modelled from the spec: the first live idle connection; the dead ones above it are
dropped. -/
def popLive : List Connection → Option Connection × List Connection
  | [] => (none, [])
  | c :: cs => if live c then (some c, cs) else popLive cs

/-- Modelled from the spec: `get` picks a live idle connection, else asks the factory for
one while fewer than `max` are out, else waits until one is released. -/
def get (p : Pool) : Grant × Pool :=
  match popLive live p.idle with
  | (some c, rest) => (.idle c, { p with idle := rest, inUse := p.inUse + 1 })
  | (none, rest) =>
    if p.inUse < p.max then (.create, { p with idle := rest, inUse := p.inUse + 1 })
    else (.blocked, { p with idle := rest })

/-- Modelled from the spec: a handle is given back; a bad or dead connection is dropped,
any other goes on top of the idle ones. -/
def release (p : Pool) (c : Connection) (bad : Bool) : Pool :=
  { p with idle := if !bad && live c then c :: p.idle else p.idle, inUse := p.inUse - 1 }

/-- Modelled from the spec: the factory raised, and the slot it was to fill is free again. -/
def cancel (p : Pool) : Pool := { p with inUse := p.inUse - 1 }

/-- Modelled from the spec: `incCapacity`. -/
def incCapacity (p : Pool) : Pool := { p with max := p.max + 1 }

/-- Modelled from the spec: `decCapacity`. -/
def decCapacity (p : Pool) : Pool := { p with max := p.max - 1 }

/-- A connection released live and unpoisoned is the next one `get` hands out. -/
theorem get_release {p : Pool} {c : Connection} (hc : live c = true) :
    get live (release live p c false) = (.idle c, { p with inUse := p.inUse - 1 + 1 }) := by
  simp [get, release, popLive, hc]

theorem get_inUse {p p' : Pool} {g : Grant} (h : get live p = (g, p')) (hg : g ≠ .blocked) :
    p'.inUse = p.inUse + 1 := by
  unfold get at h
  split at h
  · cases h; rfl
  · split at h <;> cases h
    · rfl
    · exact absurd rfl hg

theorem get_max (p : Pool) : (get live p).2.max = p.max := by
  unfold get
  split
  · rfl
  · split <;> rfl

theorem get_blocked {p p' : Pool} (h : get live p = (.blocked, p')) : p'.inUse = p.inUse := by
  unfold get at h
  split at h
  · cases h
  · split at h <;> cases h
    rfl

end Pool

end NixRemoteStore
