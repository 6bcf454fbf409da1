import SqlClient.Client.Store
/-!
# Sessions — scripted connections

Connections without a database: rules say how statements are answered. The first rule that fits a
statement and has uses left answers it; a statement without a rule affects no rows. If that rule
makes its sender give way first, the answer comes from the rule that is first by then.
-/

namespace SqlClient

/-- A test of a statement's text. -/
inductive TextTest
  | equals (text : String)
  | startsWith (text : String)
  | contains (text : String)
deriving DecidableEq, Repr

namespace TextTest

/-- Whether a text occurs in another as a run of characters. -/
def occursIn (part : List Char) : List Char → Bool
  | [] => part.isEmpty
  | c :: rest => part.isPrefixOf (c :: rest) || occursIn part rest

/-- Whether a statement passes the test. -/
def holds (t : TextTest) (sql : String) : Bool :=
  match t with
  | .equals text => sql == text
  | .startsWith text => text.toList.isPrefixOf sql.toList
  | .contains text => occursIn text.toList sql.toList

end TextTest

/-- What a rule answers. -/
inductive ScriptedAnswer
  | result (rs : ResultSet)
  | fail (e : Error)
  /-- The rows whose first cell equals a parameter, for one parameter after another. -/
  | lookup (rs : ResultSet)
  | hang
  /-- No rows, and the sender gives way so many times before. -/
  | yields (turns : Nat)

namespace ScriptedAnswer

/-- The rows that are looked up for one parameter. -/
def rowsFor (rows : List (List Value)) (param : Value) : List (List Value) :=
  rows.filter fun row =>
    match row with
    | [] => false
    | cell :: _ => cell.same param

/-- The response to a statement with parameters. -/
def response (a : ScriptedAnswer) (params : List Value) : Response :=
  match a with
  | .result rs => .answer (.ok rs)
  | .fail e => .answer (.error e)
  | .lookup rs => .answer (.ok (.ofRows rs.columns (params.flatMap (rowsFor rs.rows))))
  | .hang => .never
  | .yields _ => .answer (.ok (.ofAffected 0))

/-- How many times the sender of a statement gives way. -/
def delay : ScriptedAnswer → Nat
  | .yields turns => turns
  | _ => 0

end ScriptedAnswer

/-- A rule: a statement that passes all tests gets the answer, as often as there are uses left. -/
structure ScriptedRule where
  tests : List TextTest
  answer : ScriptedAnswer
  uses : Option Nat

namespace ScriptedRule

/-- Whether a rule answers a statement. -/
def fits (r : ScriptedRule) (sql : String) : Bool :=
  r.uses != some 0 && r.tests.all (·.holds sql)

/-- The rule with one use less. -/
def used (r : ScriptedRule) : ScriptedRule := { r with uses := r.uses.map (· - 1) }

/-- The answer of the first rule that fits, and the rules after that. -/
def answerFrom (sql : String) : List ScriptedRule → ScriptedAnswer × List ScriptedRule
  | [] => (.result (.ofAffected 0), [])
  | r :: rest =>
    if r.fits sql then (r.answer, r.used :: rest)
    else
      let (answer, rest) := answerFrom sql rest
      (answer, r :: rest)

end ScriptedRule

/-- Scripted connections. -/
structure ScriptedDatabase where
  rules : List ScriptedRule
  /-- Attempts that get no connection. -/
  refusals : List Nat

namespace ScriptedDatabase

/-- Answers an attempt to get a connection. -/
def connect (n : Nat) (d : ScriptedDatabase) : Option Error × ScriptedDatabase :=
  if d.refusals.contains n then (some (.ofMessage "no connection available"), d) else (none, d)

/-- How many times the sender of a request gives way: as the rule says that fits it now. -/
def delay (r : Request) (d : ScriptedDatabase) : Nat :=
  (ScriptedRule.answerFrom r.sql d.rules).1.delay

/-- Answers a request by the rules. -/
def respond (r : Request) (d : ScriptedDatabase) : Response × ScriptedDatabase :=
  let (answer, rules) := ScriptedRule.answerFrom r.sql d.rules
  (answer.response r.params, { d with rules })

instance : Backend ScriptedDatabase where
  connect := connect
  delay := delay
  respond _ := respond

end ScriptedDatabase

end SqlClient
