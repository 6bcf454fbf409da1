import SqlClient.Names
import SqlClient.Pool.Settings
import SqlClient.Postgres.ConnectionString
/-!
# PostgreSQL — options

A client is configured by a connection string, by discrete fields, or by both. A discrete field
takes the place of what the string says; a discrete host or port is added to those of the string.
-/

namespace SqlClient

namespace Postgres

/-- The configuration of a client. -/
structure Options where
  url : Option String
  host : Option String
  port : Option Nat
  dbname : Option String
  user : Option String
  password : Option String
  pool : PoolSettings
  transforms : NameTransforms

namespace Options

/-- What the connection string says. -/
def base (o : Options) : Outcome Target :=
  match o.url with
  | none => .ok .empty
  | some url =>
    match Target.read? url with
    | some t => .ok t
    | none => .error (.config "invalid postgres url: invalid connection string")

/-- A target with the discrete fields. -/
def override (o : Options) (t : Target) : Target :=
  { hosts := t.hosts ++ (o.host.map .ofText).toList
    ports := t.ports ++ o.port.toList
    dbname := o.dbname <|> t.dbname
    user := o.user <|> t.user
    password := o.password.map encodeText <|> t.password }

/-- The target, if host, database and user are known. -/
def target (o : Options) : Outcome Target :=
  match o.base with
  | .error e => .error e
  | .ok t =>
    let t := o.override t
    if t.hosts.isEmpty then .error (.config "host is required")
    else if t.dbname.isNone then .error (.config "dbname is required")
    else if t.user.isNone then .error (.config "user is required")
    else .ok t

/-- Refuses what no client can be made of: first for the target, then for the pool. -/
def check (o : Options) : Outcome Target :=
  match o.target with
  | .error e => .error e
  | .ok t =>
    match o.pool.validate with
    | .error e => .error e
    | .ok () => .ok t

end Options

end Postgres

end SqlClient
