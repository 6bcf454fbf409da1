import SqlClient.Proofs.Client.Tracking
import SqlClient.Proofs.Coroutine.Trails
import SqlClient.Proofs.Transaction.Grammar
import SqlClient.Proofs.Transaction.Stages
/-!
# Transactions — what a scope contributes to a record

Over a journal, every request that is answered is written down at once, and nothing else is. So the trail
of a request is a single exchange, wherever it stands in line (`exchanged_of_trail`), and that of a scope
is what its operation leaves, between the statements that open and close the scope. None of this needs to
know what others do on the connection in the meantime.
-/

namespace SqlClient

open Coroutine

variable {β α : Type}

namespace Store

/-- What is new in the journal. -/
def written (s s' : Store (Journal β)) : List (Nat × Exchange) :=
  s'.backend.entries.drop s.backend.entries.length

theorem written_eq_nil {s s' : Store (Journal β)} (h : s'.backend.entries = s.backend.entries) :
    s.written s' = [] := by
  rw [written, h, List.drop_length]

theorem entries_endScope (s : Store (Journal β)) (scope : Scope) :
    (s.endScope scope).backend.entries = s.backend.entries := by
  rw [endScope]
  split <;> rfl

variable [Backend β] {s : Store (Journal β)} {n : Nat} {r : Request}

/-- A request that is never answered is not written down. -/
theorem entries_receive_never (h : (s.receive n r).1 = .never) :
    (s.receive n r).2.backend.entries = s.backend.entries := by
  cases hresponse : (Backend.respond n r s.backend.database).1 with
  | answer o => cases (congrArg Prod.fst (Backend.respond_journal hresponse)).symm.trans h
  | never => simp only [receive, Backend.respond, hresponse]

/-- An answer is written down. -/
theorem written_receive {o : Outcome ResultSet} (h : (s.receive n r).1 = .answer o) :
    s.written (s.receive n r).2 = [(n, ⟨r, o.isOk⟩)] := by
  have hresponse : Backend.respond n r s.backend = (.answer o, (s.receive n r).2.backend) :=
    Prod.ext h rfl
  rw [written, Backend.entries_of_respond hresponse, List.drop_left]

theorem entries_acquire (s : Store (Journal β)) (acquirer : Acquirer) :
    (s.acquire acquirer).2.backend.entries = s.backend.entries := by
  rw [backend_acquire]
  rfl

end Store

/-- A journal that stays as it is has nothing new. -/
theorem Store.written_self (s : Store (Journal β)) : s.written s = [] := Store.written_eq_nil rfl

/-! ## Requests -/

section Tracks

variable [Backend β] {guards : List (Guard (Store (Journal β)))} {γ : List (Nat × Exchange)} {n : Nat}

omit [Backend β] in
/-- Where nothing is written down, nothing is left. -/
theorem does_of_entries {s s' : Store (Journal β)} (h : s'.backend.entries = s.backend.entries) :
    (leaving Store.written).does γ s γ s' := by
  change γ = γ ++ s.written s'
  rw [Store.written_eq_nil h, List.append_nil]

theorem overlooks_entries : (leaving (Store.written (β := β))).Overlooks
    fun s s' => s'.backend.entries = s.backend.entries where
  does := does_of_entries
  quits _ _ := trivial
  takeTicket _ _ := rfl
  returnTicket _ _ _ := rfl
  never := Store.entries_receive_never
  stalled _ := rfl

/-- A request in a line leaves one exchange. -/
theorem leaves_share (r : Request) : (Connection.share n r).Tracks (leaving (Store.written (β := β))) guards γ
    fun γ' o => γ' = γ ++ [(n, ⟨r, o.isOk⟩)] := by
  refine overlooks_entries.share (fun _ => trivial) (fun _ => does_of_entries rfl) (fun s o hanswer => ?_)
    fun _ _ h _ => h ▸ does_of_entries rfl
  exact ⟨_, by rw [← Store.written_receive hanswer]; rfl, rfl⟩

theorem leaves_shareScript (text : String) :
    (Connection.shareScript n text).Tracks (leaving (Store.written (β := β))) guards γ
      fun γ' u => γ' = γ ++ [(n, ⟨.script text, u.isOk⟩)] := by
  refine (leaves_share (.script text)).bind ?_
  rintro _ (e | a) rfl
  · rfl
  · rfl

/-- Rolling back leaves one exchange, whether it succeeds or not. -/
theorem leaves_rollBack (text : String) :
    (Transaction.rollBack n text).Tracks (leaving (Store.written (β := β))) guards γ
      fun γ' _ => ∃ succeeded, γ' = γ ++ [(n, ⟨.script text, succeeded⟩)] := by
  refine (leaves_shareScript text).bind ?_
  rintro _ (e | _) rfl
  · refine (overlooks_entries.markBroken (fun _ => trivial) fun _ => does_of_entries rfl).mono ?_
    rintro _ _ rfl
    exact ⟨false, rfl⟩
  · exact ⟨true, rfl⟩

/-- Closing a nested scope leaves nothing after a result, and one exchange after a failure. -/
theorem leaves_closeNested (undo : String) (o : Outcome α) :
    (Transaction.closeNested n undo o).Tracks (leaving (Store.written (β := β))) guards γ
      fun γ' o' => o' = o ∧ ∃ succeeded,
        γ' = γ ++ if o.isOk then [] else [(n, ⟨.script undo, succeeded⟩)] := by
  cases o with
  | ok a => exact ⟨rfl, true, (List.append_nil _).symm⟩
  | error e =>
    refine (leaves_rollBack undo).bind ?_
    rintro _ _ ⟨succeeded, rfl⟩
    exact ⟨rfl, succeeded, rfl⟩

/-- What closing a root transaction leaves, and what the transaction then comes to. -/
inductive RootClosed (sql : TransactionSql) (n : Nat) (o : Outcome α) :
    List (Nat × Exchange) → Outcome α → Prop
  | committed : o.isOk = true → RootClosed sql n o [(n, ⟨.script sql.commit, true⟩)] o
  | uncommitted {e : Error} {succeeded : Bool} : o.isOk = true → RootClosed sql n o
      [(n, ⟨.script sql.commit, false⟩), (n, ⟨.script sql.rollback, succeeded⟩)] (.error e)
  | rolledBack {succeeded : Bool} : o.isOk = false →
      RootClosed sql n o [(n, ⟨.script sql.rollback, succeeded⟩)] o

/-- What closes a root transaction goes over its connection. -/
theorem RootClosed.connection {sql : TransactionSql} {o o' : Outcome α} {left : List (Nat × Exchange)}
    (h : RootClosed sql n o left o') : ∀ e ∈ left, e.1 = n := by
  cases h <;> simp

theorem leaves_closeRoot (sql : TransactionSql) (o : Outcome α) :
    (Transaction.closeRoot sql n o).Tracks (leaving (Store.written (β := β))) guards []
      fun γ' o' => RootClosed sql n o γ' o' := by
  cases o with
  | error e =>
    refine (leaves_rollBack sql.rollback).bind ?_
    rintro _ _ ⟨succeeded, rfl⟩
    exact .rolledBack rfl
  | ok a =>
    refine (leaves_shareScript sql.commit).bind ?_
    rintro _ (e | _) rfl
    · refine (leaves_rollBack sql.rollback).bind ?_
      rintro _ _ ⟨succeeded, rfl⟩
      exact .uncommitted rfl
    · exact .committed rfl

end Tracks

/-! ## Trails -/

section Trails

variable [Backend β] {w w' : Store (Journal β) × Nat} {es : List ((Nat × Exchange) × Nat)}

/-- A trail of one exchange. -/
theorem eq_singleton_of_map {x : Nat × Exchange} (h : es.map (·.1) = [x]) : ∃ place, es = [(x, place)] := by
  obtain ⟨e, rfl, rfl⟩ := List.map_eq_singleton_iff.1 h
  exact ⟨e.2, rfl⟩

/-- A script that is shared leaves one exchange. -/
theorem exchanged_of_script {n : Nat} {text : String} {u : Outcome Unit}
    (h : Trail Store.written (Connection.shareScript n text) w es (.done u) w') :
    ∃ place, es = [((n, ⟨.script text, u.isOk⟩), place)] :=
  eq_singleton_of_map (h.left Store.written_self (leaves_shareScript text))

/-- **A request through a client of a scope** leaves one exchange over the connection of the scope, unless
it is refused because a scope has ended. -/
theorem exchanged_of_trail {c : Client} {scope : Scope} (hscope : c.scope = some scope) {r : Request}
    {o : Outcome ResultSet} (h : Trail Store.written (c.run r).run w es (.done o) w') :
    (es = [] ∧ o = .error .scopeEnded) ∨ ∃ place, es = [((scope.connection, ⟨r, o.isOk⟩), place)] := by
  have hleaves : (c.run r : Work (Journal β) ResultSet).run.Tracks (leaving Store.written) [] [] fun γ' o =>
      (γ' = [] ∧ o = .error .scopeEnded) ∨ γ' = [(scope.connection, ⟨r, o.isOk⟩)] := by
    rw [run_scoped hscope]
    intro s
    refine ⟨[], does_of_entries rfl, ?_⟩
    dsimp only
    cases s.isOpen scope with
    | false => exact .inl ⟨rfl, rfl⟩
    | true => exact (leaves_share r).mono fun _ _ h => .inr h
  rcases h.left Store.written_self hleaves with ⟨hnone, ho⟩ | hone
  · exact .inl ⟨List.map_eq_nil_iff.1 hnone, ho⟩
  · exact .inr (eq_singleton_of_map hone)

/-- **A scope that is not given up** leaves what its operation does, and then what closes it. -/
theorem Trail.closing {scope : Scope} {rollback : String}
    {operation : Coroutine (Store (Journal β)) (Outcome α)}
    {close : Outcome α → Coroutine (Store (Journal β)) (Outcome α)}
    {R : Outcome α → List (Nat × Exchange) → Outcome α → Prop} {o : Outcome α}
    (hclose : ∀ o, (close o).Tracks (leaving Store.written) [] [] (R o))
    (h : Trail Store.written (Transaction.closing scope rollback operation close) w es (.done o) w') :
    ∃ o₁ es₁ w₁ es₂, Trail Store.written operation w es₁ (.done o₁) w₁ ∧ es = es₁ ++ es₂ ∧
      R o₁ (es₂.map (·.1)) o := by
  obtain ⟨o', body, w₁, last, hbody, hlast, rfl⟩ := Trail.guarded h
  obtain ⟨rfl, rfl⟩ := hlast.done Store.written_self
  obtain ⟨o₁, es₁, w₂, es₂, hop, hrest, rfl⟩ := Trail.bind hbody
  have hends : (Coroutine.step (fun s => ((), Store.endScope scope s)) fun _ => close o₁).Tracks
      (leaving Store.written) [] [] (R o₁) :=
    fun s => ⟨[], does_of_entries (s.entries_endScope scope), hclose o₁⟩
  exact ⟨o₁, es₁, w₂, es₂, hop, List.append_nil _, hrest.left Store.written_self hends⟩

/-- What a nested scope leaves: nothing if it is refused, its first statement if that fails, and
otherwise what its operation leaves between its statements. -/
inductive NestedTrail (c : Client) (parent : Scope) (operation : Client → Work (Journal β) α) :
    List ((Nat × Exchange) × Nat) → Outcome α → Prop
  | refused : NestedTrail c parent operation [] (.error .scopeEnded)
  | unopened {e : Error} {place : Nat} : NestedTrail c parent operation
      [((parent.connection, ⟨.script (c.settings.transactionSql.openSavepoint (parent.depth + 1)), false⟩),
        place)] (.error e)
  | opened {o : Outcome α} {place : Nat} {scope : Scope} {w w' : Store (Journal β) × Nat}
      {es last : List ((Nat × Exchange) × Nat)} {succeeded : Bool} :
      scope.depth = parent.depth + 1 → scope.connection = parent.connection →
      Trail Store.written (operation (c.inScope scope)).run w es (.done o) w' →
      last.map (·.1) = (if o.isOk then [] else [(parent.connection,
        ⟨.script (c.settings.transactionSql.undoSavepoint (parent.depth + 1)), succeeded⟩)]) →
      NestedTrail c parent operation
        (((parent.connection, ⟨.script (c.settings.transactionSql.openSavepoint (parent.depth + 1)), true⟩),
          place) :: (es ++ last)) o

/-- **The trail of a nested scope.** -/
theorem nested_of_trail {c : Client} {parent : Scope} (hscope : c.scope = some parent)
    {operation : Client → Work (Journal β) α} {o : Outcome α}
    (h : Trail Store.written (c.transact operation).run w es (.done o) w') :
    NestedTrail c parent operation es o := by
  rw [Client.transact, hscope] at h
  change Trail _ (c.transactNested parent operation).run _ _ _ _ at h
  rw [transactNested_eq] at h
  -- the trail is taken apart in the order of the code: the check, the savepoint, the mark, the rest
  obtain ⟨s, w₁, h⟩ := Trail.silent Store.written_self (fun _ => Store.written_self _) h
  dsimp only at h
  split at h
  case isFalse =>
    obtain ⟨rfl, rfl⟩ := Trail.done Store.written_self h
    exact .refused
  case isTrue =>
    obtain ⟨opened, es₁, w₂, es₂, hset, hrest, rfl⟩ := Trail.bind h
    obtain ⟨place, rfl⟩ := exchanged_of_script hset
    cases opened with
    | error e =>
      obtain ⟨rfl, rfl⟩ := Trail.done Store.written_self hrest
      exact .unopened
    | ok =>
      obtain ⟨s', w₃, hscope⟩ := Trail.silent Store.written_self (fun _ => Store.written_eq_nil rfl) hrest
      obtain ⟨o₁, es, w₄, last, hop, rfl, rfl, succeeded, hlast⟩ :=
        Trail.closing (fun o => leaves_closeNested _ o) hscope
      rw [List.singleton_append]
      refine .opened ?_ ?_ hop hlast
      · rfl
      · rfl

/-- What a root transaction leaves. -/
inductive RootTrail (c : Client) (operation : Client → Work (Journal β) α) :
    List ((Nat × Exchange) × Nat) → Outcome α → Prop
  | unconnected {e : Error} : RootTrail c operation [] (.error e)
  | unbegun {n place : Nat} {e : Error} : RootTrail c operation
      [((n, ⟨.script c.settings.transactionSql.begin, false⟩), place)] (.error e)
  | begun {n place : Nat} {scope : Scope} {w w' : Store (Journal β) × Nat}
      {es last : List ((Nat × Exchange) × Nat)} {o o' : Outcome α} :
      scope.depth = 0 → scope.connection = n →
      Trail Store.written (operation (c.inScope scope)).run w es (.done o) w' →
      RootClosed c.settings.transactionSql n o (last.map (·.1)) o' →
      RootTrail c operation
        (((n, ⟨.script c.settings.transactionSql.begin, true⟩), place) :: (es ++ last)) o'

/-- **The trail of a root transaction**, all of it over one connection. -/
theorem root_of_trail {c : Client} (hroot : c.scope = none) {operation : Client → Work (Journal β) α}
    {o : Outcome α} (h : Trail Store.written (c.transact operation).run w es (.done o) w') :
    RootTrail c operation es o := by
  rw [Client.transact, hroot] at h
  change Trail _ (c.transactRoot operation).run _ _ _ _ at h
  rw [transactRoot_eq] at h
  obtain ⟨s, w₁, h⟩ := Trail.silent Store.written_self
    (fun s => Store.written_eq_nil (s.entries_acquire _)) h
  split at h
  case h_1 =>
    obtain ⟨rfl, rfl⟩ := Trail.done Store.written_self h
    exact .unconnected
  case h_2 n _ =>
    -- what is sent is sent in the body: the guard only lets the connection go
    obtain ⟨o', es₁, w₂, es₂, hbody, hletGo, rfl⟩ := Trail.guarded h
    obtain ⟨s₁, w₃, hletGo⟩ := Trail.silent Store.written_self
      (fun s => Store.written_eq_nil (by rw [Store.backend_letGo])) hletGo
    obtain ⟨rfl, rfl⟩ := Trail.done Store.written_self hletGo
    rw [List.append_nil]
    obtain ⟨begun, es₁, w₄, es₂, hbegin, hrest, rfl⟩ := Trail.bind hbody
    obtain ⟨place, rfl⟩ := exchanged_of_script hbegin
    cases begun with
    | error e =>
      obtain ⟨rfl, rfl⟩ := Trail.done Store.written_self hrest
      exact .unbegun
    | ok =>
      obtain ⟨s', w₅, hscope⟩ := Trail.silent Store.written_self (fun _ => Store.written_eq_nil rfl) hrest
      obtain ⟨o₁, es, w₆, last, hop, rfl, hlast⟩ := Trail.closing (fun o => leaves_closeRoot _ o) hscope
      rw [List.singleton_append]
      refine .begun ?_ ?_ hop hlast
      · rfl
      · rfl

end Trails

end SqlClient
