/-!
# Pools — fitness

Whether a connection can be used again. A request that was begun and did not finish leaves the
connection in an unknown state, and its user may say outright that it is broken.
-/

namespace SqlClient

/-- What is known about the state of a connection. -/
structure Fitness where
  /-- A request was begun and has not finished. -/
  inFlight : Bool
  /-- Someone said that the connection must not be used again. -/
  broken : Bool
deriving DecidableEq, Repr

namespace Fitness

/-- A connection that was just opened. -/
def fresh : Fitness := ⟨false, false⟩

/-- A request begins. -/
def beginRequest (f : Fitness) : Fitness := { f with inFlight := true }

/-- A request finishes, with an answer or with an error. -/
def finishRequest (f : Fitness) : Fitness := { f with inFlight := false }

/-- The connection must not be used again. -/
def markBroken (f : Fitness) : Fitness := { f with broken := true }

/-- Whether the connection must be closed instead of used again; `closed` says that the other side
is gone. -/
def isUnfit (f : Fitness) (closed : Bool) : Bool := f.inFlight || f.broken || closed

end Fitness

end SqlClient
