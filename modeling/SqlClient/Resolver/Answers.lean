import SqlClient.Shape
/-!
# Resolvers — from rows to answers

How the rows of a batch become one answer for each of its requests. Rows are matched to requests by
position or by key. What goes wrong with the batch as a whole is every request's error; a row that
cannot be decoded is the error of those it answers and of nobody else.
-/

namespace SqlClient

namespace Answers

variable {ι κ α : Type}

/-- One error for each of `count` requests. -/
def failAll (count : Nat) (e : Error) : List (Outcome α) := List.replicate count (.error e)

/-- Encodes every input; the first that fails is the error. -/
def encodeAll {ρ : Type} (encode : ι → Outcome ρ) (inputs : List ι) : Outcome (List ρ) :=
  inputs.mapM encode

/-! ## By position -/

/-- Row `i` answers request `i`; any other number of rows fails every request. -/
def positional (decode : Row → Outcome α) (count : Nat) (rows : List Row) : List (Outcome α) :=
  if rows.length = count then rows.map decode
  else failAll count (.lengthMismatch count rows.length)

/-! ## One query for each request -/

/-- The first row. -/
def firstRow (decode : Row → Outcome α) (rows : List Row) : Outcome α :=
  match rows with
  | [] => .error (.lengthMismatch 1 0)
  | row :: _ => decode row

/-- The first row if there is one. -/
def firstRow? (decode : Row → Outcome α) (rows : List Row) : Outcome (Option α) :=
  match rows with
  | [] => .ok none
  | row :: _ => (decode row).map some

/-! ## By key -/

variable [DecidableEq κ]

/-- Requests by key: the places of a key wait for its rows. -/
abbrev Waiting (κ : Type) := List (κ × List Nat)

/-- Adds a place to those of its key. -/
def Waiting.add (key : κ) (place : Nat) : Waiting κ → Waiting κ
  | [] => [(key, [place])]
  | (k, places) :: rest =>
    if k = key then (k, places ++ [place]) :: rest else (k, places) :: Waiting.add key place rest

/-- The places of each key among the keys of a batch, counted from `place` on. -/
def Waiting.ofKeys (keys : List κ) : Waiting κ :=
  keys.zipIdx.foldl (fun waiting k => waiting.add k.1 k.2) []

/-- Answers at their places changed by a function. -/
def changeAt (f : Outcome α → Outcome α) (places : List Nat) (answers : List (Outcome α)) :
    List (Outcome α) :=
  places.foldl (fun answers place => answers.modify place f) answers

/-- Answers one row: the first row of a key answers all requests with that key, which then wait no
longer. -/
def answerFirst (rowKey : Row → Option κ) (decode : Row → Outcome α)
    (state : Waiting κ × List (Outcome (Option α))) (row : Row) :
    Waiting κ × List (Outcome (Option α)) :=
  match rowKey row with
  | none => state
  | some key =>
    match state.1.lookup key with
    | none => state
    | some places =>
      (state.1.filter fun w => w.1 ≠ key,
        changeAt (fun _ => (decode row).map some) places state.2)

/-- The first row of its key answers a request; without such a row the answer is `none`. -/
def byKey (rowKey : Row → Option κ) (decode : Row → Outcome α) (keys : List κ) (rows : List Row) :
    List (Outcome (Option α)) :=
  (rows.foldl (answerFirst rowKey decode)
    (Waiting.ofKeys keys, List.replicate keys.length (.ok none))).2

/-- Adds a row to an answer: a decoded row at its end, a failure in its place. The first failure
stays. -/
def gather (row : Outcome α) : Outcome (List α) → Outcome (List α)
  | .error e => .error e
  | .ok found =>
    match row with
    | .ok a => .ok (found ++ [a])
    | .error e => .error e

/-- All rows of its key answer a request, in their order; the first that cannot be decoded is the
error. -/
def byKeyAll (rowKey : Row → Option κ) (decode : Row → Outcome α) (keys : List κ)
    (rows : List Row) : List (Outcome (List α)) :=
  let waiting := Waiting.ofKeys keys
  rows.foldl
    (fun answers row =>
      match (rowKey row).bind fun key => List.lookup key waiting with
      | none => answers
      | some places => changeAt (gather (decode row)) places answers)
    (List.replicate keys.length (.ok []))

end Answers

end SqlClient
