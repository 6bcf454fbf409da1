import SqlClient.Error
/-!
# Pools — settings

How many connections a pool holds, how old they may grow, and how long a caller waits for one.
-/

namespace SqlClient

/-- The settings of a pool; times are in milliseconds. -/
structure PoolSettings where
  /-- Idle connections that the pool keeps in store. -/
  minSize : Nat
  /-- Connections that the pool may have in all. -/
  maxSize : Nat
  /-- The age at which a returned connection is closed. -/
  idleTtl : Nat
  /-- The longest wait for a connection. -/
  acquireTimeout : Nat
deriving DecidableEq, Repr

namespace PoolSettings

/-- Up to ten connections of at most 45 minutes, one in store, half a minute of patience. -/
def default : PoolSettings := ⟨1, 10, 45 * 60 * 1000, 30 * 1000⟩

/-- Refuses sizes that contradict each other and connections without a lifetime. -/
def validate (s : PoolSettings) : Outcome Unit :=
  if s.maxSize = 0 then .error (.config "max_size must be at least 1")
  else if s.maxSize < s.minSize then
    .error (.config ("min_size (" ++ toString s.minSize ++ ") exceeds max_size (" ++
      toString s.maxSize ++ ")"))
  else if s.idleTtl = 0 then .error (.config "idle_ttl must be non-zero")
  else .ok ()

end PoolSettings

end SqlClient
