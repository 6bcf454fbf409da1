import SqlClient.Proofs.Coroutine.Turns
import SqlClient.Transaction.Run
/-!
# Clients — nobody side by side

A request runs nobody side by side, and neither do the statements that open and close a scope. So there
are no crowds in a transaction but those of its operation (`orderly_transact`), and its runs are
interleavings.
-/

namespace SqlClient

open Coroutine

variable {β α : Type}

theorem orderly_giveWay (n : Nat) : (giveWay (σ := Store β) n).Orderly := by
  induction n with
  | zero => trivial
  | succ n ih => exact ih

theorem orderly_ensuring {cleanup : Store β → Store β} {body : Coroutine (Store β) α} (hbody : body.Orderly) :
    (ensuring cleanup body).Orderly :=
  ⟨hbody, fun _ _ => trivial⟩

theorem orderly_inTurn {n : Nat} {body : Coroutine (Store β) α} (hbody : body.Orderly) :
    (Connection.inTurn n body).Orderly :=
  fun _ => orderly_ensuring hbody

variable [Backend β]

theorem orderly_exchange (n : Nat) (request : Request) :
    (Connection.exchange (β := β) n request).Orderly := by
  refine fun turns => (orderly_giveWay turns).bind fun _ response => ?_
  have hwait : (response.wait (Connection.stall (β := β))).Orderly := by
    cases response with
    | answer o => trivial
    | never => exact fun _ => trivial
  exact hwait.bind fun _ _ => trivial

/-- A query runs nobody side by side. -/
theorem orderly_query (c : Client) (request : Request) : (c.run request : Work β ResultSet).run.Orderly := by
  rw [Client.run]
  cases c.scope with
  | none =>
    intro o
    cases o with
    | error e => trivial
    | ok n => exact orderly_ensuring (orderly_exchange n request)
  | some scope =>
    intro isOpen
    cases isOpen with
    | false => trivial
    | true => exact orderly_inTurn (orderly_exchange scope.connection request)

theorem orderly_shareScript (n : Nat) (text : String) :
    (Connection.shareScript (β := β) n text).Orderly :=
  (orderly_inTurn (orderly_exchange n _)).bind fun _ => trivial

theorem orderly_rollBack (n : Nat) (text : String) : (Transaction.rollBack (β := β) n text).Orderly := by
  refine (orderly_shareScript n text).bind fun o => ?_
  cases o with
  | ok => trivial
  | error e => exact orderly_inTurn fun _ => trivial

theorem orderly_rescue (n : Nat) (text : String) (isRoot : Bool) :
    (Transaction.rescue (β := β) n text isRoot).Orderly := by
  refine orderly_ensuring ((orderly_shareScript n text).bind fun _ => ?_)
  cases isRoot with
  | false => trivial
  | true => exact orderly_inTurn fun _ => trivial

theorem orderly_closing {scope : Scope} {rollback : String} {operation : Coroutine (Store β) (Outcome α)}
    {close : Outcome α → Coroutine (Store β) (Outcome α)} (hoperation : operation.Orderly)
    (hclose : ∀ o, (close o).Orderly) :
    (Transaction.closing scope rollback operation close).Orderly :=
  ⟨orderly_rescue _ _ _, hoperation.bind fun o _ => hclose o, fun _ => trivial⟩

theorem orderly_closeRoot (sql : TransactionSql) (n : Nat) (o : Outcome α) :
    (Transaction.closeRoot (β := β) sql n o).Orderly := by
  cases o with
  | error e => exact (orderly_rollBack n _).bind fun _ => trivial
  | ok a =>
    refine (orderly_shareScript n _).bind fun o => ?_
    cases o with
    | ok => trivial
    | error e => exact (orderly_rollBack n _).bind fun _ => trivial

theorem orderly_closeNested (n : Nat) (undo : String) (o : Outcome α) :
    (Transaction.closeNested (β := β) n undo o).Orderly := by
  cases o with
  | ok a => trivial
  | error e => exact (orderly_rollBack n undo).bind fun _ => trivial

/-- **A transaction is orderly if its operation is.** -/
theorem orderly_transact (c : Client) {operation : Client → Work β α}
    (hoperation : ∀ c, (operation c).run.Orderly) : (c.transact operation).run.Orderly := by
  rw [Client.transact]
  cases c.scope with
  | none =>
    intro o
    cases o with
    | error e => trivial
    | ok n =>
      refine orderly_ensuring ((orderly_shareScript n _).bind fun o => ?_)
      cases o with
      | error e => trivial
      | ok => exact fun _ => orderly_closing (hoperation _) fun o => orderly_closeRoot _ n o
  | some parent =>
    intro isOpen
    cases isOpen with
    | false => trivial
    | true =>
      refine (orderly_shareScript parent.connection _).bind fun o => ?_
      cases o with
      | error e => trivial
      | ok => exact fun _ => orderly_closing (hoperation _) fun o => orderly_closeNested _ _ o

end SqlClient
