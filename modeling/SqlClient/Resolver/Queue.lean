/-!
# Resolvers — the batch queue

Requests that come close together wait in one queue. The first of them schedules a flush, which
takes all that have come until then and cuts them into batches: requests of one transaction (or of
none) stay together in the order in which they came, and no batch is larger than the limit.
-/

namespace SqlClient

/-- Requests that wait for their flush. -/
structure BatchQueue (α : Type) where
  items : List α
  /-- A flush is on its way. -/
  flushScheduled : Bool

namespace BatchQueue

variable {α : Type}

/-- No requests, no flush. -/
def empty : BatchQueue α := ⟨[], false⟩

/-- Adds a request; the answer says whether a flush has to be scheduled for it. -/
def enqueue (q : BatchQueue α) (item : α) : Bool × BatchQueue α :=
  (!q.flushScheduled, ⟨q.items ++ [item], true⟩)

/-- Takes all requests out; the next one schedules a flush again. -/
def flush (_ : BatchQueue α) : BatchQueue α := ⟨[], false⟩

/-- Items by key, the groups in the order in which their keys first occur. -/
def groups {κ : Type} [DecidableEq κ] (key : α → κ) (items : List α) : List (List α) :=
  (items.map key).eraseDups.map fun k => items.filter fun item => key item = k

/-- Cuts a list into pieces of a size, the last one perhaps shorter. A size of zero counts as
one. -/
def chunks (size : Nat) (items : List α) : List (List α) :=
  if _h : items = [] then []
  else items.take (max size 1) :: chunks size (items.drop (max size 1))
termination_by items.length
decreasing_by
  have := List.length_pos_iff.2 ‹_›
  simp only [List.length_drop]
  omega

/-- The batches of a flush. Without a limit, a group is one batch. -/
def batches {κ : Type} [DecidableEq κ] (key : α → κ) (limit : Option Nat) (items : List α) :
    List (List α) :=
  (groups key items).flatMap fun group => chunks (limit.getD group.length) group

end BatchQueue

end SqlClient
