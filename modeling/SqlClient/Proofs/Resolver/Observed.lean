import SqlClient.Resolver.Run
/-!
# Resolvers — observed batches

An observed resolver writes down every call of its batch function, with the client and the inputs
that the function was handed, and the answers when it returns. Nothing else changes, so what the
record says is what the resolver does.
-/

namespace SqlClient

/-- A call of a batch function; the answers are there once it has returned. -/
structure Handed where
  client : Client
  inputs : List Input
  answers : Option (List (Outcome Json))

/-- A database with a record of the batches that were run. -/
structure Observed (β : Type) where
  database : β
  batches : List Handed

variable {β : Type}

instance [Backend β] : Backend (Observed β) where
  connect n o :=
    let (refusal, database) := Backend.connect n o.database
    (refusal, { o with database })
  delay r o := Backend.delay r o.database
  respond n r o :=
    let (response, database) := Backend.respond n r o.database
    (response, { o with database })

namespace Store

/-- Writes down that a batch function is called; tells where. -/
def noteCall (client : Client) (inputs : List Input) (s : Store (Observed β)) :
    Nat × Store (Observed β) :=
  (s.backend.batches.length,
    { s with
      backend := { s.backend with batches := s.backend.batches ++ [⟨client, inputs, none⟩] } })

/-- Writes down what a call returns. -/
def noteReturn (place : Nat) (answers : List (Outcome Json)) (s : Store (Observed β)) :
    Store (Observed β) :=
  { s with
    backend :=
      { s.backend with
        batches := s.backend.batches.modify place fun h => { h with answers := some answers } } }

end Store

namespace Resolver

/-- A batch function whose calls are written down. -/
def observe (f : BatchFunction (Observed β)) : BatchFunction (Observed β) := fun client inputs => do
  let place ← Coroutine.perform (Store.noteCall client inputs)
  let answers ← f client inputs
  Coroutine.change (Store.noteReturn place answers)
  return answers

/-- The resolver with its batches written down. -/
def observed (r : Resolver (Observed β)) : Resolver (Observed β) := { r with batch := observe r.batch }

end Resolver

end SqlClient
