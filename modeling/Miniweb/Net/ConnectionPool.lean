import Mathlib

/-! `src/net/connection_pool.c`: the fixed pool of connection slots behind the
descriptor index. Every function below runs whole under `pool->lock` in the
source, so each is one atomic operation on the pool. -/
namespace Miniweb.Net

/-- `MINIWEB_MAX_CONNECTIONS`. -/
abbrev maxConnections : Nat := 4096

instance neZero_maxConnections : NeZero maxConnections := ⟨by decide⟩

/-- `MINIWEB_REQUEST_BUFFER_SIZE`. -/
abbrev requestBufferSize : Nat := 16384

/-- A pointer into `pool->pool[]`, as the index of the slot it points to. -/
abbrev Slot := Fin maxConnections

/-- A descriptor that passed the range check, as an index of `connections[]`. -/
abbrev Fd := Fin maxConnections

/-- A `time_t` reading. -/
abbrev Time := Int

/-- The fields of `struct sockaddr_in` that identify a peer. -/
structure SockaddrIn where
  sinPort : UInt16 := 0
  sinAddr : UInt32 := 0
  deriving DecidableEq, Repr

/-- `miniweb_connection_t`. The default value is the zeroed slot.

`buffer` holds the received bytes; the C array holds them followed by a NUL,
which the worker writes at `bytes_read` after every `recv`. -/
structure Connection where
  fd : Int := 0
  addr : SockaddrIn := {}
  buffer : List UInt8 := []
  bytesRead : Nat := 0
  created : Time := 0
  lastActivity : Time := 0
  requestsServed : Nat := 0
  gen : UInt32 := 0
  deriving DecidableEq, Repr

/-- `miniweb_connection_pool_t`. Only the entries of `freeStack` below
`maxConnections` exist in the source; `freeTop` never passes that bound. -/
structure ConnectionPool where
  connections : Fd → Option Slot
  connGen : Fd → UInt32
  activeConnections : Nat
  pool : Slot → Connection
  freeStack : Nat → Slot
  freeTop : Nat

/-- The guard `fd < 0 || fd >= MINIWEB_MAX_CONNECTIONS`. -/
def fdIndex (fd : Int) : Option Fd :=
  if range : 0 ≤ fd ∧ fd.toNat < maxConnections then some ⟨fd.toNat, range.2⟩ else none

/-- `miniweb_connection_pool_init`. -/
def connectionPoolInit : ConnectionPool where
  connections := fun _ => none
  connGen := fun _ => 0
  activeConnections := 0
  pool := fun _ => {}
  freeStack := fun i => ⟨maxConnections - 1 - i, Nat.lt_of_le_of_lt (Nat.sub_le _ _) (by decide)⟩
  freeTop := maxConnections

/-- `miniweb_connection_alloc`; `now` is what `time(NULL)` returns. -/
def connectionAlloc (p : ConnectionPool) (fd : Int) (addr : Option SockaddrIn)
    (maxConns : Int) (now : Time) : Option Slot × ConnectionPool :=
  match fdIndex fd with
  | none => (none, p)
  | some i =>
    if maxConns ≤ p.activeConnections ∨ p.connections i ≠ none ∨ p.freeTop = 0 then
      (none, p)
    else
      let slot := p.freeStack (p.freeTop - 1)
      let conn : Connection :=
        { fd, created := now, lastActivity := now, gen := p.connGen i, addr := addr.getD {} }
      (some slot,
        { p with
          freeTop := p.freeTop - 1
          pool := Function.update p.pool slot conn
          connections := Function.update p.connections i (some slot)
          activeConnections := p.activeConnections + 1 })

/-- `miniweb_connection_free`. The guard on `conn - pool->pool` holds of every
pointer into the array, which is all a `Slot` can be. -/
def connectionFree (p : ConnectionPool) (fd : Int) : ConnectionPool :=
  match fdIndex fd with
  | none => p
  | some i =>
    match p.connections i with
    | none => p
    | some slot =>
      { pool := Function.update p.pool slot {}
        freeStack :=
          if p.freeTop < maxConnections then Function.update p.freeStack p.freeTop slot
          else p.freeStack
        freeTop := if p.freeTop < maxConnections then p.freeTop + 1 else p.freeTop
        connections := Function.update p.connections i none
        connGen := Function.update p.connGen i (p.connGen i + 1)
        activeConnections := p.activeConnections - 1 }

/-- `miniweb_connection_is_stale`. Its callers check the range of `fd` first. -/
def connectionIsStale (p : ConnectionPool) (fd : Fd) (conn : Option Slot) : Bool :=
  match conn with
  | none => true
  | some slot => p.connections fd != some slot || (p.pool slot).gen != p.connGen fd

/-- One call on the pool, with the arguments it is made with. -/
inductive PoolOp where
  | alloc (fd : Int) (addr : Option SockaddrIn) (maxConns : Int) (now : Time)
  | free (fd : Int)

/-- The pool after one call. -/
def PoolOp.apply (p : ConnectionPool) : PoolOp → ConnectionPool
  | .alloc fd addr maxConns now => (connectionAlloc p fd addr maxConns now).2
  | .free fd => connectionFree p fd

/-- The pool after a sequence of calls. -/
def runPool (p : ConnectionPool) (ops : List PoolOp) : ConnectionPool := ops.foldl PoolOp.apply p

end Miniweb.Net
