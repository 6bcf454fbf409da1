import SqlClient.Names
import SqlClient.Pool.Settings
/-!
# SQLite — options

What a client of a database file is configured with. Nothing is checked here; the pool refuses what
it cannot work with.
-/

namespace SqlClient

namespace Sqlite

/-- The configuration of a client; times are in milliseconds. -/
structure Options where
  path : String
  /-- How long a connection waits for a locked database. -/
  busyTimeout : Nat
  pool : PoolSettings
  transforms : NameTransforms

namespace Options

/-- The configuration for a path when nothing else is said. -/
def ofPath (path : String) : Options := ⟨path, 5000, .default, .none⟩

/-- The configuration with the parts that are given. -/
def build (path : String) (busyTimeout : Option Nat) (pool : Option PoolSettings)
    (transforms : Option NameTransforms) : Options :=
  let base := ofPath path
  { base with
    busyTimeout := busyTimeout.getD base.busyTimeout
    pool := pool.getD base.pool
    transforms := transforms.getD base.transforms }

end Options

end Sqlite

end SqlClient
