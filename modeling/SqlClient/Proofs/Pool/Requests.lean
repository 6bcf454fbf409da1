import SqlClient.Pool.Scripted
import SqlClient.Proofs.Coroutine.Tracking
import SqlClient.Proofs.Pool.Lending
/-!
# Pools — requests on a connection that is out

The user of a connection runs requests on it one after another, polls each as he likes, and gives up
where it waits those that he does not need any more (`Checkout.Step`). What the pool knows of the
connection in the end is settled by the last of them: it is in flight exactly if that one was given up
(`Checkout.fitness_of_steps`). Then the connection is closed when it comes back, and nobody is handed it
again (`Checkout.closed_of_dropped`). A request that was given up earlier is forgotten once a later one has
finished (`handed_out_after_dropped`).
-/

namespace SqlClient

namespace Pool

open Coroutine

variable {β : Type} [PooledBackend β] {n : Nat} {p : Pool β} {r : Request}

/-! ## One request -/

omit [PooledBackend β] in
/-- The user of a connection changes what is known of it. -/
theorem Lent.changeOwn {c : PooledConnection} (h : Lent n (some c) p) (f : Fitness → Fitness) :
    Lent n (some { c with fitness := f c.fitness }) (p.changeFitness n f) := by
  refine ⟨h.numbered, ?_, h.used, h.off⟩
  have hnumber : ∀ c : PooledConnection,
      (if c.number = n then { c with fitness := f c.fitness } else c).number = c.number := by
    intro c
    split <;> rfl
  have hc : c.number = n := by
    have hin : c ∈ p.connections.filter fun c => c.number = n := by simp [h.entries]
    simpa using (List.mem_filter.1 hin).2
  simp only [Pool.changeFitness, List.filter_map, Function.comp_def, hnumber, h.entries]
  simp [hc]

/-- How the user of a connection is followed through a request: the stage says whether one is in flight,
which is when a request may be given up. -/
def tenant (n : Nat) : Tracking (Pool β) Bool where
  does inFlight p inFlight' p' := ∀ c : PooledConnection, Lent n (some c) p → c.fitness.inFlight = inFlight →
    Lent n (some { c with fitness := { c.fitness with inFlight := inFlight' } }) p'
  quits inFlight p p' ts := inFlight = true ∧ p' = p ∧ ts = []

theorem does_of_does {inFlight : Bool} {p' : Pool β} (h : Does n p p') :
    (tenant n).does inFlight p inFlight p' := by
  rintro c hc rfl
  exact h.lent hc

omit [PooledBackend β] in
theorem parts_inFlight : (tenant (β := β) n).Parts [] true := fun _ => ⟨rfl, rfl, rfl⟩

theorem tracks_exchange :
    (exchange (β := β) n r).Tracks (tenant n) [] true fun inFlight _ => inFlight = true := by
  refine fun p => ⟨true, does_of_does (.send n r), ?_⟩
  change Tracks _ ((giveWay _).bind _) _ _ _
  refine (tracks_giveWay parts_inFlight _).bind ?_
  rintro inFlight _ rfl
  refine fun p => ⟨true, does_of_does (.receive n r), ?_⟩
  cases (receive n r p).1 with
  | answer o => rfl
  | never => exact ⟨parts_inFlight, fun _ hready => by cases hready⟩

/-- **A request is in flight from its first move on until it has finished.** -/
theorem tracks_run (inFlight : Bool) :
    (run (β := β) n r).Tracks (tenant n) [] inFlight fun inFlight' _ => inFlight' = false := by
  refine fun p => ⟨true, fun c hc _ => hc.changeOwn .beginRequest, tracks_exchange.bind ?_⟩
  rintro inFlight' o rfl
  exact fun p => ⟨false, fun c hc _ => hc.changeOwn .finishRequest, rfl⟩

/-! ## A connection that is out -/

/-- How a request that was begun came to its end. -/
inductive Ending
  | finished (outcome : Outcome ResultSet)
  /-- It was given up before it finished. -/
  | dropped

/-- Whether the request was given up. -/
def Ending.isDropped : Ending → Bool
  | .finished _ => false
  | .dropped => true

/-- A connection that was handed out: the pool, the request that is under way on the connection, how those
before it ended, and whether the user said that it is broken. -/
structure Checkout (β : Type) where
  pool : Pool β
  request : Option (Coroutine (Pool β) (Outcome ResultSet))
  endings : List Ending
  marked : Bool

namespace Checkout

/-- Nothing was run on the connection yet. -/
def start (p : Pool β) : Checkout β := ⟨p, none, [], false⟩

/-- What may happen next to the connection `n`. A request begins with its first move. -/
inductive Step (n : Nat) : Checkout β → Checkout β → Prop
  | begin {r : Request} {p p' : Pool β} {c : Coroutine (Pool β) (Outcome ResultSet)} {es : List Ending}
      {marked : Bool} : Moves (run n r) p c p' [] → Step n ⟨p, none, es, marked⟩ ⟨p', some c, es, marked⟩
  | move {p p' : Pool β} {c c' : Coroutine (Pool β) (Outcome ResultSet)} {es : List Ending}
      {marked : Bool} : Moves c p c' p' [] → Step n ⟨p, some c, es, marked⟩ ⟨p', some c', es, marked⟩
  | finish {p : Pool β} {o : Outcome ResultSet} {es : List Ending} {marked : Bool} :
      Step n ⟨p, some (.done o), es, marked⟩ ⟨p, none, es ++ [.finished o], marked⟩
  | drop {p : Pool β} {c : Coroutine (Pool β) (Outcome ResultSet)} {es : List Ending} {marked : Bool} :
      c.Waits → Step n ⟨p, some c, es, marked⟩
        ⟨(c.drop (Turn.start p false)).state, none, es ++ [.dropped], marked⟩
  | mark {p : Pool β} {es : List Ending} {marked : Bool} :
      Step n ⟨p, none, es, marked⟩ ⟨p.changeFitness n .markBroken, none, es, true⟩
  | others {p p' : Pool β} {request : Option (Coroutine (Pool β) (Outcome ResultSet))} {es : List Ending}
      {marked : Bool} : Does n p p' → Step n ⟨p, request, es, marked⟩ ⟨p', request, es, marked⟩

variable {C C' : Checkout β} {before : PooledConnection}

/-- Whether the last request that was begun was given up; a connection may come out with one in flight. -/
def lastDropped (before : PooledConnection) (es : List Ending) : Bool :=
  (es.getLast?.map Ending.isDropped).getD before.fitness.inFlight

/-- What the pool knows of the connection, between requests and while one is under way. -/
structure Knows (n : Nat) (before : PooledConnection) (C : Checkout β) (c : PooledConnection) : Prop where
  lent : Lent n (some c) C.pool
  broken : c.fitness.broken = (before.fitness.broken || C.marked)
  opened : c.openedAt = before.openedAt
  inFlight : match C.request with
    | none => c.fitness.inFlight = lastDropped before C.endings
    | some code => code.Tracks (tenant n) [] c.fitness.inFlight fun inFlight _ => inFlight = false

omit [PooledBackend β] in
/-- A move of the request that is under way. -/
theorem knows_of_moves {code code' : Coroutine (Pool β) (Outcome ResultSet)} {p p' : Pool β}
    {c : PooledConnection} {es : List Ending} {marked : Bool} {ts : List (Coroutine (Pool β) Unit)}
    (htracks : code.Tracks (tenant n) [] c.fitness.inFlight fun inFlight _ => inFlight = false)
    (hlent : Lent n (some c) p) (hbroken : c.fitness.broken = (before.fitness.broken || marked))
    (hopened : c.openedAt = before.openedAt) (hm : Moves code p code' p' ts) :
    ∃ c', Knows n before ⟨p', some code', es, marked⟩ c' := by
  obtain ⟨-, inFlight, hdoes | ⟨rfl, rfl⟩, htracks'⟩ := htracks.moves hm
  · exact ⟨_, hdoes c hlent rfl, hbroken, hopened, htracks'⟩
  · exact ⟨c, hlent, hbroken, hopened, htracks'⟩

theorem Knows.step {c : PooledConnection} (h : Knows n before C c) (hstep : Step n C C') :
    ∃ c', Knows n before C' c' := by
  obtain ⟨hlent, hbroken, hopened, hinFlight⟩ := h
  cases hstep with
  | begin hm => exact knows_of_moves (tracks_run _) hlent hbroken hopened hm
  | move hm => exact knows_of_moves hinFlight hlent hbroken hopened hm
  | finish =>
    have hfinished : c.fitness.inFlight = false := hinFlight
    exact ⟨c, hlent, hbroken, hopened, by simpa [lastDropped, Ending.isDropped] using hfinished⟩
  | @drop p code es marked hwaits =>
    obtain ⟨hdropped, hsame, -⟩ := Tracks.drop (s := p) hinFlight hwaits false
    refine ⟨c, ?_, hbroken, hopened, by simpa [lastDropped, Ending.isDropped] using hdropped⟩
    rwa [hsame]
  | mark => exact ⟨_, hlent.changeOwn .markBroken, by simp [Fitness.markBroken], hopened, hinFlight⟩
  | others hdoes => exact ⟨c, hdoes.lent hlent, hbroken, hopened, hinFlight⟩

/-- **What the pool knows of a connection after any requests.** -/
theorem fitness_of_steps (hlent : Lent n (some before) p)
    (hsteps : Relation.ReflTransGen (Step n) (start p) C) : ∃ c, Knows n before C c := by
  induction hsteps with
  | refl => exact ⟨before, hlent, (Bool.or_false _).symm, rfl, rfl⟩
  | tail _ hstep ih =>
    obtain ⟨c, hknows⟩ := ih
    exact hknows.step hstep

/-- **The last request settles whether a connection is used again.** However its user has run requests,
and whoever else has used the pool meanwhile: when no request is under way the pool finds the connection
unfit exactly if the last one that was begun was given up, or someone said that it is broken, or the other
side is gone. If the last one was given up, the connection is closed when it comes back, and whoever asks
for a connection afterwards is handed another. -/
theorem settled_by_last_request (hlent : Lent n (some before) p)
    (hsteps : Relation.ReflTransGen (Step n) (start p) C) (hdone : C.request = none) :
    ∃ c : PooledConnection, (C.pool.connections.find? fun c => c.number = n) = some c ∧
      (∀ closed, c.fitness.isUnfit closed =
        (lastDropped before C.endings || (before.fitness.broken || C.marked) || closed)) ∧
      (lastDropped before C.endings = true →
        (C.pool.giveBack n).2.log = C.pool.log ++ [.closed n] ∧
        ∀ (tasks : List (Coroutine (Pool β) Unit)) (k : Nat) (ε : Type) (note : Pool β → Pool β → List ε)
          (es : List ε) (q : Ensemble (Pool β) (Outcome Nat)),
          (∀ t ∈ tasks, t.Obeys (lending n none) fun _ => True) →
          Ensemble.Runs (Ensemble.Goes (Does n)) note ⟨(C.pool.giveBack n).2, List.replicate k take,
            replenish (C.pool.giveBack n).1 :: tasks⟩ es q →
          ∀ taker ∈ q.callers, taker ≠ .done (.ok n)) := by
  obtain ⟨c, hlent', hbroken, -, hinFlight⟩ := fitness_of_steps hlent hsteps
  rw [hdone] at hinFlight
  have hunfit (closed : Bool) : c.fitness.isUnfit closed =
      (lastDropped before C.endings || (before.fitness.broken || C.marked) || closed) := by
    rw [Fitness.isUnfit, hinFlight, hbroken]
  refine ⟨c, hlent'.find?, hunfit, fun hdropped => ?_⟩
  have hclosed : C.pool.giveBack n = C.pool.discard n :=
    giveBack_of_isUnfit hlent'.find? fun closed => by simp [hunfit, hdropped]
  rw [hclosed]
  refine ⟨rfl, fun tasks k ε note es q htasks hruns taker htaker => ?_⟩
  refine ne_of_takers hlent'.close (List.forall_mem_cons.2 ⟨obeys_replenish _, htasks⟩) hruns htaker

end Checkout

/-- A pool with room for one connection. -/
def single : PoolSettings := ⟨0, 1, 600000, 150⟩

/-- The pool of one connection, which is out. -/
def allOut : Pool FaultyDatabase :=
  { start single ⟨[], [], []⟩ with attempts := 1, connections := [⟨1, 0, .fresh⟩] }

/-- A request that was given up is the last one: the connection is not handed to anybody, while two more
ask for one and a third would run a request. -/
theorem settled_endless : ∃ C : Checkout FaultyDatabase, ∃ c : PooledConnection,
    C.endings = [.dropped] ∧ (C.pool.connections.find? fun c => c.number = 1) = some c ∧
    c.fitness.isUnfit false = true ∧ (C.pool.giveBack 1).2.log = C.pool.log ++ [.closed 1] ∧
    ∀ (es : List PoolEvent) (q : Ensemble (Pool FaultyDatabase) (Outcome Nat)),
      Ensemble.Runs (Ensemble.Goes (Does 1)) (fun p p' => p'.log.drop p.log.length)
        ⟨(C.pool.giveBack 1).2, [take, take], [replenish (C.pool.giveBack 1).1, visit (.script "Q")]⟩ es q →
      ∀ taker ∈ q.callers, taker ≠ .done (.ok 1) := by
  have hlent : Lent 1 (some ⟨1, 0, .fresh⟩) allOut := ⟨by decide, by decide, by decide, by decide⟩
  -- the request is sent, is never answered, and is given up where it waits for the answer
  have hsteps : ∃ C : Checkout FaultyDatabase, Relation.ReflTransGen (Checkout.Step 1) (.start allOut) C ∧
      C.request = none ∧ C.endings = [.dropped] := by
    have hsent : Relation.ReflTransGen (Checkout.Step 1) (.start allOut) _ :=
      .tail (.single (.begin (r := .statement "HANG" []) .step)) (.move .step)
    exact ⟨_, (hsent.tail (.move .step)).tail (.drop trivial), rfl, rfl⟩
  obtain ⟨C, hsteps, hdone, hendings⟩ := hsteps
  obtain ⟨c, hfind, hunfit, hretired⟩ := Checkout.settled_by_last_request hlent hsteps hdone
  have hdropped : Checkout.lastDropped ⟨1, 0, .fresh⟩ C.endings = true := by rw [hendings]; rfl
  obtain ⟨hlog, hothers⟩ := hretired hdropped
  refine ⟨C, c, hendings, hfind, by rw [hunfit, hdropped]; rfl, hlog, fun es q hruns => ?_⟩
  refine hothers [visit (.script "Q")] 2 PoolEvent _ es q ?_ hruns
  exact List.forall_mem_singleton.2 (obeys_visit (by decide) _)

/-- **A request that was given up is forgotten** once a later one has finished: the connection comes back
and is handed to the next who asks, though nobody knows in which state the first request has left it. -/
theorem handed_out_after_dropped : ∃ started taken dropped ran back again : PoolReport,
    play single ⟨[], [], []⟩ [.take "a", .abandon "a" (.statement "HANG" []), .run "a" (.statement "Q" []),
      .release "a", .take "b"] = some (.played started [taken, dropped, ran, back, again]) ∧
    dropped.outcome = .ok (.finished false) ∧ dropped.log = [.statement 1 "HANG" []] ∧
    ran.log = [.statement 1 "Q" []] ∧ back.log = [] ∧ back.idle = 1 ∧
    again.outcome = .ok .nothing ∧ again.log = [.script 1 healthCheck] := by
  with_unfolding_all exact ⟨_, _, _, _, _, _, rfl, rfl, rfl, rfl, rfl, rfl, rfl, rfl⟩

end Pool

end SqlClient
