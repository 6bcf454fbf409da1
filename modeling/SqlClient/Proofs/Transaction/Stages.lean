import SqlClient.Proofs.Coroutine.Protocol
import SqlClient.Proofs.Transaction.Assembly
/-!
# Transactions — stages

How far a future has come: whether it is in line for its connection, whether its operation runs, and
whether it closes its scope. `Act` says once what a future may do in a stage, in a poll and when it is
given up, and the code of statements, transactions and rescues keeps to it (`plays_run`,
`plays_transact`, `plays_rescue`).
-/

namespace SqlClient

open Coroutine

variable {β α : Type}

/-! ## Changes -/

/-- A change that is nobody's business: nothing is sent, and no operation is told anything. -/
structure Store.Quiet (s s' : Store (Watched β α)) : Prop extends Store.Elsewhere s s' where
  untold : s'.backend.decisions = s.backend.decisions
  sent : s.sent s' = []

/-- How far someone in line has come. -/
inductive Progress
  | waiting
  /-- It has just been seen that the ticket is served. -/
  | served
  | sent

/-- Where someone is who sends over a connection. -/
inductive Line
  | away
  | standing (connection ticket : Nat) (progress : Progress)

/-- Whether a future has still to open its scope, if it has one to open, or closes it. -/
inductive Part
  /-- The connection is the one that the future sends over, when it has one. -/
  | before (connection : Option Nat)
  | after (tx : Client)

/-- The connection that a future sends over. -/
def Part.connection? : Part → Option Nat
  | .before connection => connection
  | .after tx => tx.connection?

/-- How far a future has come. -/
inductive Stage
  | going (part : Part) (line : Line)
  /-- It has just been seen that the enclosing scopes are open. -/
  | admitted
  /-- The scope is there, and its operation is about to be called. -/
  | opened (scope : Scope)
  /-- The operation runs. -/
  | inside (place : Nat) (tx : Client)
  /-- The operation has just been told what to return. -/
  | told (place : Nat) (tx : Client)
  /-- The operation has just been left. -/
  | left (place : Nat) (tx : Client)

/-- The stages in which other futures may have their turns. -/
def Stage.Rests : Stage → Prop
  | .going _ .away | .going _ (.standing _ _ .waiting) | .going _ (.standing _ _ .sent) => True
  | .inside _ _ => True
  | _ => False

/-- The marks of the scopes that enclose someone. -/
def marksOf (scope? : Option Scope) : List Nat := (scope?.map (·.marks)).getD []

/-- What a future may do. It comes through a client of the scope, if there is one; if it may call an
operation it does so as `owner`; and `polled` says whether it is polled or given up. -/
inductive Act [Backend β] (scope? : Option Scope) (owner : Option Nat) (polled : Bool) :
    Acts (Store (Watched β α)) Stage
  | quiet {γ : Stage} {s s' : Store (Watched β α)} : s.Quiet s' → Act scope? owner polled γ s γ s'
  /-- Gets a connection of its own. -/
  | acquire {s s' : Store (Watched β α)} {n : Nat} : s.Quiet s' → n ≤ s'.attempts →
      Act scope? owner polled (.going (.before none) .away) s (.going (.before (some n)) .away) s'
  /-- Sees that no enclosing scope has ended. -/
  | letIn {s : Store (Watched β α)} {scope : Scope} : scope? = some scope → s.isOpen scope = true →
      Act scope? owner polled (.going (.before (some scope.connection)) .away) s .admitted s
  /-- Gets in line, through a client of a scope. -/
  | enqueue {s : Store (Watched β α)} {scope : Scope} : scope? = some scope →
      Act scope? owner polled .admitted s
        (.going (.before (some scope.connection))
          (.standing scope.connection (s.usageOf scope.connection).nextTicket .waiting))
        (s.takeTicket scope.connection).2
  /-- Gets in line by itself. -/
  | lineUp {s : Store (Watched β α)} {part : Part} {n : Nat} : part.connection? = some n →
      (scope? = none ∨ ∃ tx, part = .after tx) →
      Act scope? owner polled (.going part .away) s
        (.going part (.standing n (s.usageOf n).nextTicket .waiting)) (s.takeTicket n).2
  /-- Sees that its turn has come. -/
  | serve {s : Store (Watched β α)} {part : Part} {n ticket : Nat} : s.isServed n ticket = true →
      Act scope? owner polled (.going part (.standing n ticket .waiting)) s
        (.going part (.standing n ticket .served)) s
  | send {s : Store (Watched β α)} {part : Part} {n ticket : Nat} {r : Request} : polled = true →
      Act scope? owner polled (.going part (.standing n ticket .served)) s
        (.going part (.standing n ticket .sent)) (s.send n r).2
  | stepBack {s : Store (Watched β α)} {part : Part} {n ticket : Nat} {progress : Progress} :
      Act scope? owner polled (.going part (.standing n ticket progress)) s (.going part .away)
        (s.returnTicket n ticket)
  | opens {s : Store (Watched β α)} {n transactions : Nat} {scope : Scope} :
      scope.marks = marksOf scope? ++ [s.ended.length] → scope.connection = n →
      Act scope? owner polled (.going (.before (some n)) .away) s (.opened scope)
        { s.openMark.2 with transactions }
  | enter {s : Store (Watched β α)} {scope : Scope} {tx : Client} {number : Nat} : owner = some number →
      tx.scope = some scope →
      Act scope? owner polled (.opened scope) s (.inside s.backend.visits.length tx) (s.enter number tx).2
  | hear {s : Store (Watched β α)} {place : Nat} {tx : Client} : polled = true →
      (s.decision? place).isSome = true → Act scope? owner polled (.inside place tx) s (.told place tx) s
  | returns {s : Store (Watched β α)} {place : Nat} {tx : Client} {o : Outcome α} :
      Act scope? owner polled (.told place tx) s (.left place tx) (s.depart place (.returned o))
  | giveUp {s : Store (Watched β α)} {place : Nat} {tx : Client} : polled = false →
      Act scope? owner polled (.inside place tx) s (.left place tx) (s.depart place .givenUp)
  | finish {s : Store (Watched β α)} {place : Nat} {tx : Client} {scope : Scope} : tx.scope = some scope →
      Act scope? owner polled (.left place tx) s (.going (.after tx) .away) (s.endScope scope)
  /-- The scope has ended already. -/
  | finishAgain {s : Store (Watched β α)} {tx : Client} {scope : Scope} : tx.scope = some scope →
      Act scope? owner polled (.going (.after tx) .away) s (.going (.after tx) .away) (s.endScope scope)

variable {s : Store (Watched β α)}

/-! ## What is quiet -/

theorem quiet_of_log {s' : Store (Watched β α)} (hended : s'.ended = s.ended)
    (hvisits : s'.backend.visits = s.backend.visits)
    (hdecisions : s'.backend.decisions = s.backend.decisions) (hattempts : s.attempts ≤ s'.attempts)
    (hlines : ∀ n, s'.lineOf n = s.lineOf n ∨ s.attempts < n ∧ s'.ticketsOf n = [])
    {events : List Event} (hlog : s'.log = s.log ++ events) (hsent : events.filter Event.isSent = []) :
    s.Quiet s' where
  ended := hended
  visits := hvisits
  log := ⟨events, hlog.symm⟩
  attempts := hattempts
  lines := hlines
  decisions := by rw [hdecisions]
  untold := hdecisions
  sent := by rw [Store.sent, hlog, List.drop_left, hsent]

theorem quiet_receive [Backend β] (n : Nat) (r : Request) : s.Quiet (s.receive n r).2 :=
  quiet_of_log rfl rfl rfl (Nat.le_refl _) (fun _ => .inl rfl) (List.append_nil _).symm rfl

theorem quiet_finish (n : Nat) : s.Quiet (s.finish n) :=
  quiet_of_log rfl rfl rfl (Nat.le_refl _) (fun m => .inl (s.lineOf_finish n m)) (List.append_nil _).symm rfl

theorem quiet_hold (n : Nat) : s.Quiet (s.hold n) :=
  quiet_of_log rfl rfl rfl (Nat.le_refl _) (fun m => .inl (s.lineOf_hold n m)) (List.append_nil _).symm rfl

theorem quiet_letGo (n : Nat) : s.Quiet (s.letGo n) := by
  obtain ⟨events, hlog, hsent⟩ := s.log_letGo n
  have hrest : (s.letGo n).ended = s.ended ∧ (s.letGo n).attempts = s.attempts := by
    rw [Store.letGo]
    split <;> exact ⟨rfl, rfl⟩
  refine quiet_of_log hrest.1 ?_ ?_ (Nat.le_of_eq hrest.2.symm) (fun m => .inl (s.lineOf_letGo n m)) hlog hsent
  · rw [Store.backend_letGo]
  · rw [Store.backend_letGo]

theorem quiet_markBroken (n : Nat) : s.Quiet (s.markBroken n) :=
  quiet_of_log rfl rfl rfl (Nat.le_refl _) (fun m => .inl (s.lineOf_markBroken n m)) rfl rfl

theorem quiet_acquire [Backend β] (acquirer : Acquirer) : s.Quiet (s.acquire acquirer).2 := by
  have hlines := s.lineOf_acquire acquirer
  rw [Store.acquire] at hlines ⊢
  cases hconnect : Backend.connect (s.attempts + 1) s.backend with
  | mk refusal backend =>
    rw [hconnect] at hlines
    have hbackend : backend.visits = s.backend.visits ∧ backend.decisions = s.backend.decisions := by
      cases hconnect
      exact ⟨rfl, rfl⟩
    cases refusal with
    | some e => exact quiet_of_log rfl hbackend.1 hbackend.2 (Nat.le_succ _) hlines rfl rfl
    | none => exact quiet_of_log rfl hbackend.1 hbackend.2 (Nat.le_succ _) hlines rfl rfl

theorem quiet_stall : s.Quiet { s with stalled := true } :=
  quiet_of_log rfl rfl rfl (Nat.le_refl _) (fun _ => .inl rfl) (List.append_nil _).symm rfl

/-! ## Sending over a connection -/

variable [Backend β] {scope? : Option Scope} {owner : Option Nat} {leaves : Stage → Coroutine (Store (Watched β α)) Unit → Prop}

/-- The protocol of a future that comes through a client of a scope, or of none. -/
def rules (scope? : Option Scope) (owner : Option Nat)
    (leaves : Stage → Coroutine (Store (Watched β α)) Unit → Prop) :
    Protocol (Store (Watched β α)) Stage :=
  ⟨Act scope? owner true, Act scope? owner false, Stage.Rests, leaves⟩

variable {part : Part} {n ticket : Nat}

/-- Something quiet, followed by code that plays. -/
theorem plays_quiet {γ : Type} {ρ : Type} {stage : Stage} {f : Store (Watched β α) → ρ × Store (Watched β α)}
    {k : ρ → Coroutine (Store (Watched β α)) γ} {Q : Stage → γ → Prop} {D : Stage → Prop}
    (hquiet : ∀ s : Store (Watched β α), s.Quiet (f s).2) (hk : ∀ x, (k x).Plays (rules scope? owner leaves) stage Q D) :
    (Coroutine.step f k).Plays (rules scope? owner leaves) stage Q D := fun s =>
  ⟨stage, .single (.quiet (hquiet s)), hk _⟩

theorem plays_giveWay {stage : Stage} (hrests : stage.Rests) (turns : Nat) :
    (giveWay turns).Plays (rules (β := β) (α := α) scope? owner leaves) stage
      (fun stage' _ => stage' = stage) (fun stage' => stage' = stage) := by
  induction turns with
  | zero => rfl
  | succ turns ih => exact ⟨hrests, rfl, ih⟩

/-- Whoever is served sends a request and waits for its answer. -/
theorem plays_exchange (r : Request) :
    (Connection.exchange (β := Watched β α) n r).Plays (rules scope? owner leaves)
      (.going part (.standing n ticket .served))
      (fun stage _ => stage = .going part (.standing n ticket .sent))
      (fun stage => stage = .going part (.standing n ticket .sent)) := by
  intro s
  refine ⟨.going part (.standing n ticket .sent), .single (.send rfl), ?_⟩
  have hrests : (Stage.going part (.standing n ticket .sent)).Rests := trivial
  change Plays _ ((giveWay _).bind _) _ _ _
  refine (plays_giveWay hrests _).bind ?_
  rintro _ _ rfl
  refine plays_quiet (fun s => quiet_receive n r) fun response => ?_
  have hwait : (response.wait (Connection.stall (β := Watched β α))).Plays (rules scope? owner leaves)
      (.going part (.standing n ticket .sent))
      (fun stage _ => stage = .going part (.standing n ticket .sent))
      (fun stage => stage = .going part (.standing n ticket .sent)) := by
    cases response with
    | answer o => rfl
    | never =>
      refine plays_quiet (fun s => quiet_stall) fun _ => ⟨trivial, rfl, fun s hs => ?_⟩
      cases hs
  refine hwait.bind ?_
  rintro _ o rfl
  exact plays_quiet (fun s => quiet_finish n) fun _ => rfl

/-- Whoever may get in line does what it likes when it is served, and steps back. -/
theorem plays_inTurn {γ : Type} {stage : Stage} {body : Coroutine (Store (Watched β α)) γ} {R : γ → Prop}
    (hline : ∀ s : Store (Watched β α), (Act scope? owner true) stage s
      (.going part (.standing n (s.usageOf n).nextTicket .waiting)) (s.takeTicket n).2)
    (hbody : ∀ ticket, body.Plays (rules scope? owner leaves) (.going part (.standing n ticket .served))
      (fun stage a => (∃ progress, stage = .going part (.standing n ticket progress)) ∧ R a)
      (fun stage => ∃ progress, stage = .going part (.standing n ticket progress))) :
    (Connection.inTurn n body).Plays (rules scope? owner leaves) stage
      (fun stage a => stage = .going part .away ∧ R a) (fun stage => stage = .going part .away) := by
  intro s
  refine ⟨.going part (.standing n (s.usageOf n).nextTicket .waiting), .single (hline s), ?_⟩
  refine ⟨_, fun stage => ∃ progress, stage = .going part (.standing n (s.usageOf n).nextTicket progress),
    ⟨trivial, ⟨_, rfl⟩, fun s' hs' => ⟨_, .single (.serve hs'), hbody _⟩⟩, ?_, ?_⟩
  · rintro _ a ⟨⟨progress, rfl⟩, ha⟩ s'
    exact ⟨_, .single .stepBack, rfl, ha⟩
  · rintro _ ⟨progress, rfl⟩ s'
    exact ⟨_, .single .stepBack, rfl, fun t ht => by cases ht⟩

theorem plays_share {stage : Stage} (r : Request)
    (hline : ∀ s : Store (Watched β α), (Act scope? owner true) stage s
      (.going part (.standing n (s.usageOf n).nextTicket .waiting)) (s.takeTicket n).2) :
    (Connection.share (β := Watched β α) n r).Plays (rules scope? owner leaves) stage
      (fun stage _ => stage = .going part .away) (fun stage => stage = .going part .away) := by
  refine (plays_inTurn (R := fun _ => True) hline fun ticket => ?_).mono (fun _ _ h => h.1) fun _ h => h
  exact (plays_exchange r).mono (fun _ _ h => ⟨⟨_, h⟩, trivial⟩) fun _ h => ⟨_, h⟩

theorem plays_shareScript {stage : Stage} (sql : String)
    (hline : ∀ s : Store (Watched β α), (Act scope? owner true) stage s
      (.going part (.standing n (s.usageOf n).nextTicket .waiting)) (s.takeTicket n).2) :
    (Connection.shareScript (β := Watched β α) n sql).Plays (rules scope? owner leaves) stage
      (fun stage _ => stage = .going part .away) (fun stage => stage = .going part .away) :=
  (plays_share (.script sql) hline).bind fun _ _ h => h

theorem plays_markBroken {stage : Stage}
    (hline : ∀ s : Store (Watched β α), (Act scope? owner true) stage s
      (.going part (.standing n (s.usageOf n).nextTicket .waiting)) (s.takeTicket n).2) :
    (Connection.markBroken (β := Watched β α) n).Plays (rules scope? owner leaves) stage
      (fun stage _ => stage = .going part .away) (fun stage => stage = .going part .away) := by
  refine (plays_inTurn (R := fun _ => True) hline fun ticket => ?_).mono (fun _ _ h => h.1) fun _ h => h
  exact plays_quiet (fun s => quiet_markBroken n) fun _ => ⟨⟨_, rfl⟩, trivial⟩

/-- Letting go of a connection is nobody's business. -/
theorem plays_holding {γ : Type} {stage : Stage} {body : Coroutine (Store (Watched β α)) γ}
    {Q : Stage → γ → Prop} {D : Stage → Prop} (m : Nat)
    (hbody : body.Plays (rules scope? owner leaves) stage Q D) :
    (Connection.holding m body).Plays (rules scope? owner leaves) stage Q D := by
  refine ⟨Q, D, hbody, fun stage' a ha => plays_quiet (fun s => quiet_letGo m) fun _ => ha, ?_⟩
  exact fun stage' hD s => ⟨stage', .single (.quiet (quiet_letGo m)), hD, fun t ht => by cases ht⟩

/-! ## Statements -/

omit [Backend β] in
theorem run_scoped {σ : Type} [Backend σ] {c : Client} {scope : Scope} (hscope : c.scope = some scope)
    (r : Request) : (c.run r : Work σ ResultSet).run =
      .step (fun s => (s.isOpen scope, s)) fun isOpen =>
        if isOpen then Connection.share scope.connection r else .done (.error .scopeEnded) := by
  rw [Client.run, hscope]
  rfl

/-- **A statement through a client of a scope** gets in line if no enclosing scope has ended. -/
theorem plays_run {c : Client} {scope : Scope} (hscope : c.scope = some scope) (r : Request) :
    (c.run r : Work (Watched β α) ResultSet).run.Plays (rules (some scope) owner leaves)
      (.going (.before (some scope.connection)) .away)
      (fun stage _ => stage = .going (.before (some scope.connection)) .away)
      (fun stage => stage = .going (.before (some scope.connection)) .away) := by
  rw [run_scoped hscope]
  intro s
  dsimp only
  cases hopen : s.isOpen scope with
  | true => exact ⟨.admitted, .single (.letIn rfl hopen), plays_share r fun s => .enqueue rfl⟩
  | false => exact ⟨_, .refl, rfl⟩

/-! ## Transactions -/

section Closing

variable {tx : Client} (htx : tx.connection? = some n)

include htx

/-- Whoever closes a scope may get in line by itself. -/
theorem lineUp_after (s : Store (Watched β α)) : Act scope? owner true (.going (.after tx) .away) s
    (.going (.after tx) (.standing n (s.usageOf n).nextTicket .waiting)) (s.takeTicket n).2 :=
  .lineUp htx (.inr ⟨tx, rfl⟩)

theorem plays_rollBack (sql : String) :
    (Transaction.rollBack (β := Watched β α) n sql).Plays (rules scope? owner leaves)
      (.going (.after tx) .away) (fun stage _ => stage = .going (.after tx) .away)
      (fun stage => stage = .going (.after tx) .away) := by
  refine (plays_shareScript sql (lineUp_after htx)).bind ?_
  rintro _ (e | _) rfl
  · exact plays_markBroken (lineUp_after htx)
  · rfl

theorem plays_closeRoot (sql : TransactionSql) (o : Outcome α) :
    (Transaction.closeRoot (β := Watched β α) sql n o).Plays (rules scope? owner leaves)
      (.going (.after tx) .away) (fun stage _ => stage = .going (.after tx) .away)
      (fun stage => stage = .going (.after tx) .away) := by
  have hrollBack (e : Error) : ((Transaction.rollBack (β := Watched β α) n sql.rollback).bind fun _ =>
      .done (.error e : Outcome α)).Plays (rules scope? owner leaves)
        (.going (.after tx) .away) (fun stage _ => stage = .going (.after tx) .away)
        (fun stage => stage = .going (.after tx) .away) :=
    (plays_rollBack htx sql.rollback).bind fun _ _ h => h
  cases o with
  | error e => exact hrollBack e
  | ok a =>
    refine (plays_shareScript sql.commit (lineUp_after htx)).bind ?_
    rintro _ (e | _) rfl
    · exact hrollBack e
    · rfl

theorem plays_closeNested (undo : String) (o : Outcome α) :
    (Transaction.closeNested (β := Watched β α) n undo o).Plays (rules scope? owner leaves)
      (.going (.after tx) .away) (fun stage _ => stage = .going (.after tx) .away)
      (fun stage => stage = .going (.after tx) .away) := by
  cases o with
  | ok a => rfl
  | error e => exact (plays_rollBack htx undo).bind fun _ _ h => h

end Closing

/-- An operation that waits to be told what to return. -/
theorem plays_visit {tx : Client} {scope : Scope} (hscope : tx.scope = some scope) (number : Nat) :
    (visit number tx : Work (Watched β α) α).run.Plays (rules scope? (some number) leaves) (.opened scope)
      (fun stage _ => ∃ place, stage = .left place tx) (fun stage => ∃ place, stage = .left place tx) := by
  intro s
  refine ⟨.inside s.backend.visits.length tx, .single (.enter rfl hscope), ?_⟩
  refine ⟨fun stage _ => ∃ place, stage = .left place tx, fun stage => stage = .inside s.backend.visits.length tx,
    ⟨trivial, rfl, fun s' hs' => ⟨.told s.backend.visits.length tx, .single (.hear rfl hs'), fun s' => ?_⟩⟩,
    fun _ _ h => h, ?_⟩
  · exact ⟨.left s.backend.visits.length tx, .single .returns, _, rfl⟩
  · rintro _ rfl s'
    exact ⟨.left s.backend.visits.length tx, .single (.giveUp rfl), ⟨_, rfl⟩, fun t ht => by cases ht⟩

/-- A scope around its operation: it ends when the operation is left, and is closed or rescued. -/
theorem plays_closing {number : Nat} {c : Client} {scope : Scope} {rollback : String}
    {close : Outcome α → Coroutine (Store (Watched β α)) (Outcome α)}
    (hclose : ∀ o, (close o).Plays (rules scope? (some number) leaves) (.going (.after (c.inScope scope)) .away)
      (fun stage _ => stage = .going (.after (c.inScope scope)) .away)
      (fun stage => stage = .going (.after (c.inScope scope)) .away))
    (hleaves : leaves (.going (.after (c.inScope scope)) .away)
      (Transaction.rescue scope.connection rollback (scope.depth == 0))) :
    (Transaction.closing scope rollback (visit number (c.inScope scope) : Work (Watched β α) α).run
      close).Plays (rules scope? (some number) leaves) (.opened scope)
        (fun stage _ => stage = .going (.after (c.inScope scope)) .away)
        (fun stage => stage = .going (.after (c.inScope scope)) .away) := by
  -- returned from or dropped, the scope ends first; then it is closed, or left to its rescue
  have hscope : (c.inScope scope).scope = some scope := rfl
  refine ⟨fun stage _ => stage = .going (.after (c.inScope scope)) .away,
    fun stage => (∃ place, stage = .left place (c.inScope scope)) ∨
      stage = .going (.after (c.inScope scope)) .away, ?_, fun _ _ h => h, ?_⟩
  · refine Plays.bind ((plays_visit hscope number).mono (fun _ _ h => h) fun _ => .inl) ?_
    rintro _ o ⟨place, rfl⟩ s
    exact ⟨_, .single (.finish hscope), (hclose o).mono (fun _ _ h => h) fun _ => .inr⟩
  · have hhold (s : Store (Watched β α)) : Act scope? (some number) false (.going (.after (c.inScope scope)) .away)
        (s.endScope scope) (.going (.after (c.inScope scope)) .away)
        ((s.endScope scope).hold scope.connection) := .quiet (quiet_hold _)
    have hrescue : ∀ t ∈ some (Transaction.rescue scope.connection rollback (scope.depth == 0)),
        leaves (.going (.after (c.inScope scope)) .away) t := by
      rintro t ht
      cases ht
      exact hleaves
    rintro _ (⟨place, rfl⟩ | rfl) s
    · exact ⟨_, (Acts.Row.single (.finish hscope)).tail (hhold s), rfl, hrescue⟩
    · exact ⟨_, (Acts.Row.single (.finishAgain hscope)).tail (hhold s), rfl, hrescue⟩

/-- The protocol of a rescue, which comes through nobody. -/
def taskRules : Protocol (Store (Watched β α)) Stage := rules none none fun _ _ => False

theorem plays_rescue (n : Nat) (sql : String) (isRoot : Bool) :
    (Transaction.rescue (β := Watched β α) n sql isRoot).Plays taskRules (.going (.before (some n)) .away)
      (fun stage _ => stage.Rests) Stage.Rests := by
  have hline (s : Store (Watched β α)) : Act none none true (.going (.before (some n)) .away) s
      (.going (.before (some n)) (.standing n (s.usageOf n).nextTicket .waiting)) (s.takeTicket n).2 :=
    .lineUp rfl (.inl rfl)
  have hrests : (Stage.going (.before (some n)) .away).Rests := trivial
  refine plays_holding n ?_
  refine ((plays_shareScript sql hline).mono (fun _ _ h => h) ?_).bind ?_
  · rintro _ rfl
    exact hrests
  · rintro _ o rfl
    cases isRoot with
    | true =>
      refine (plays_markBroken hline).mono ?_ ?_
      · rintro _ _ rfl
        exact hrests
      · rintro _ rfl
        exact hrests
    | false => exact hrests

/-- What a future leaves behind when it has ended its scope: rescues. -/
def Rescues (stage : Stage) (t : Coroutine (Store (Watched β α)) Unit) : Prop :=
  ∃ tx n, stage = .going (.after tx) .away ∧ tx.connection? = some n ∧
    t.Plays taskRules (.going (.before (some n)) .away) (fun stage _ => stage.Rests) Stage.Rests

/-- The protocol of a future that comes through a client of a scope, or of none. -/
def futureRules (scope? : Option Scope) (owner : Option Nat) : Protocol (Store (Watched β α)) Stage :=
  rules scope? owner Rescues

omit [Backend β] in
theorem transactNested_eq {σ γ : Type} [Backend σ] (c : Client) (parent : Scope)
    (operation : Client → Work σ γ) : (c.transactNested parent operation).run =
      .step (fun s => (s.isOpen parent, s)) fun isOpen =>
        if isOpen then
          (Connection.shareScript parent.connection
            (c.settings.transactionSql.openSavepoint (parent.depth + 1))).bind fun
            | .error e => .done (.error e)
            | .ok () => .step (Store.openNested parent) fun scope =>
              Transaction.closing scope (c.settings.transactionSql.undoSavepoint (parent.depth + 1))
                (operation (c.inScope scope)).run
                (Transaction.closeNested parent.connection
                  (c.settings.transactionSql.undoSavepoint (parent.depth + 1)))
        else .done (.error .scopeEnded) := rfl

omit [Backend β] in
theorem transactRoot_eq {σ γ : Type} [Backend σ] (c : Client) (operation : Client → Work σ γ) :
    (c.transactRoot operation).run =
      .step (Store.acquire c.settings.transactionAcquirer) fun
        | .error e => .done (.error e)
        | .ok n => Connection.holding n <|
          (Connection.shareScript n c.settings.transactionSql.begin).bind fun
            | .error e => .done (.error e)
            | .ok () => .step (Store.openRoot n) fun scope =>
              Transaction.closing scope c.settings.transactionSql.rollback
                (operation (c.inScope scope)).run
                (Transaction.closeRoot c.settings.transactionSql n) := rfl

/-- A scope that has just been opened, around its operation. -/
theorem plays_scope {scope? : Option Scope} {number : Nat} {c : Client} {scope : Scope} {rollback : String}
    {close : Outcome α → Coroutine (Store (Watched β α)) (Outcome α)}
    (hclose : ∀ o, (close o).Plays (futureRules scope? (some number)) (.going (.after (c.inScope scope)) .away)
      (fun stage _ => stage = .going (.after (c.inScope scope)) .away)
      (fun stage => stage = .going (.after (c.inScope scope)) .away)) :
    (Transaction.closing scope rollback (visit number (c.inScope scope) : Work (Watched β α) α).run
      close).Plays (futureRules scope? (some number)) (.opened scope) (fun stage _ => stage.Rests) Stage.Rests := by
  refine (plays_closing hclose ⟨_, scope.connection, rfl, rfl, plays_rescue _ _ _⟩).mono ?_ ?_
  · rintro _ _ rfl
    trivial
  · rintro _ rfl
    trivial

theorem plays_transactNested (number : Nat) (c : Client) (parent : Scope) :
    (c.transactNested parent (visit (β := β) (α := α) number)).run.Plays (futureRules (some parent) (some number))
      (.going (.before (some parent.connection)) .away) (fun stage _ => stage.Rests) Stage.Rests := by
  have hrests : (Stage.going (.before (some parent.connection)) .away).Rests := trivial
  rw [transactNested_eq]
  intro s
  dsimp only
  cases hopen : s.isOpen parent with
  | false => exact ⟨_, .refl, hrests⟩
  | true =>
    refine ⟨.admitted, .single (.letIn rfl hopen), ?_⟩
    refine ((plays_shareScript _ fun s => .enqueue rfl).mono (fun _ _ h => h) ?_).bind ?_
    · rintro _ rfl
      exact hrests
    · rintro _ (e | _) rfl
      · exact hrests
      · intro s
        refine ⟨.opened (s.openNested parent).1, .single (.opens rfl rfl), plays_scope fun o => ?_⟩
        exact plays_closeNested rfl _ o

theorem acquire_le {acquirer : Acquirer} {n : Nat} (h : (s.acquire acquirer).1 = .ok n) :
    n ≤ (s.acquire acquirer).2.attempts := by
  rw [Store.acquire] at h ⊢
  cases hconnect : Backend.connect (s.attempts + 1) s.backend with
  | mk refusal backend =>
    rw [hconnect] at h
    cases refusal with
    | some e => cases h
    | none =>
      cases h
      exact Nat.le_refl _

theorem plays_transactRoot (number : Nat) (c : Client) :
    (c.transactRoot (visit (β := β) (α := α) number)).run.Plays (futureRules none (some number))
      (.going (.before none) .away) (fun stage _ => stage.Rests) Stage.Rests := by
  rw [transactRoot_eq]
  intro s
  have hquiet : s.Quiet (s.acquire c.settings.transactionAcquirer).2 := quiet_acquire _
  cases hacquired : (s.acquire c.settings.transactionAcquirer).1 with
  | error e => exact ⟨_, .single (.quiet hquiet), trivial⟩
  | ok n =>
    have hrests : (Stage.going (.before (some n)) .away).Rests := trivial
    refine ⟨.going (.before (some n)) .away, .single (.acquire hquiet (acquire_le hacquired)), ?_⟩
    refine plays_holding n (((plays_shareScript _ fun s => .lineUp rfl (.inl rfl)).mono (fun _ _ h => h)
      ?_).bind ?_)
    · rintro _ rfl
      exact hrests
    · rintro _ (e | _) rfl
      · exact hrests
      · intro s
        refine ⟨.opened (s.openRoot n).1, .single (.opens rfl rfl), plays_scope fun o => ?_⟩
        exact plays_closeRoot rfl _ o

/-- **A transaction through any client** opens its scope, calls the operation and closes the scope. -/
theorem plays_transact (number : Nat) (c : Client) :
    (c.transact (visit (β := β) (α := α) number)).run.Plays (futureRules c.scope (some number))
      (.going (.before c.connection?) .away) (fun stage _ => stage.Rests) Stage.Rests := by
  rw [Client.transact, Client.connection?]
  cases c.scope with
  | none => exact plays_transactRoot number c
  | some parent => exact plays_transactNested number c parent

end SqlClient
