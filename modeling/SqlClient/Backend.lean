import SqlClient.Coroutine.Basic
import SqlClient.Error
import SqlClient.ResultSet
/-!
# Backends

What a client or a pool needs of a database: that it opens connections and answers requests on
them. Connections are known by the number of the attempt that asked for them.
-/

namespace SqlClient

/-- What is sent over a connection. -/
inductive Request
  | statement (sql : String) (params : List Value)
  /-- Several statements without parameters. -/
  | script (sql : String)
deriving DecidableEq

namespace Request

/-- The text of a request. -/
def sql : Request → String
  | .statement sql _ | .script sql => sql

/-- The bound values of a request. -/
def params : Request → List Value
  | .statement _ params => params
  | .script _ => []

end Request

/-- How a connection answers. -/
inductive Response
  | answer (outcome : Outcome ResultSet)
  | never

/-- Takes the answer of a request; `stall` waits for good. -/
def Response.wait {σ : Type} (stall : Coroutine σ Unit) :
    Response → Coroutine σ (Outcome ResultSet)
  | .answer outcome => return outcome
  | .never => do
    stall
    return .ok (.ofAffected 0)

/-- A database, as far as clients see it. -/
class Backend (β : Type) where
  /-- Asked for the connection of an attempt; an error refuses it. -/
  connect : Nat → β → Option Error × β
  /-- How many times the sender of a request gives way before it is answered. -/
  delay : Request → β → Nat := fun _ _ => 0
  /-- Answers a request on a connection. -/
  respond : Nat → Request → β → Response × β

end SqlClient
