import SqlClient.Proofs.Resolver.Aside
import SqlClient.Proofs.Resolver.Simulation
/-!
# Resolvers — the effects of a step

What a step of the traffic does to the store, the ledger and the batches under way, whoever takes it:
most steps are `quiet`, and the others ask, give, drain the queue, hand a batch over, note what it
returns, or deliver it. The batch function is held to `Terms`: what it may rely on of the database,
what it may wait for, and what its answers are like.
-/

namespace SqlClient

namespace Resolver

open Coroutine

variable {β : Type}

/-! ## Terms -/

/-- What is known of a batch function. -/
structure Terms (β : Type) where
  /-- The clients that it is run with. -/
  serves : Client → Prop
  /-- What it relies on of the database, and keeps. -/
  relies : β → Prop
  /-- The conditions that it may wait for. -/
  waits : (Store (Observed β) → Bool) → Prop
  /-- What its answers to a client's inputs are like. -/
  returns : Client → List Input → List (Outcome Json) → Prop

/-- The rules for code that runs beside a resolver. -/
def rules (r : Resolver (Observed β)) (relies : β → Prop) (waits : (Store (Observed β) → Bool) → Prop) :
    Conduct (Store (Observed β)) :=
  ⟨fun s => relies s.backend.database, r.Aside, waits⟩

/-- The batch function keeps to its terms with every client that it serves: it does not touch what
belongs to the resolver, and its answers, if it returns, are as the terms say. -/
def Keeps (r : Resolver (Observed β)) (T : Terms β) : Prop :=
  ∀ client, T.serves client → ∀ inputs,
    (r.batch client inputs).Obeys (r.rules T.relies T.waits) (T.returns client inputs)

/-- What others may do: nothing that concerns the resolver, and nothing that the batch function
relies on not to happen. -/
def Beyond (r : Resolver (Observed β)) (T : Terms β) (s s' : Store (Observed β)) : Prop :=
  r.Aside s s' ∧ (T.relies s.backend.database → T.relies s'.backend.database)

/-- Time passes. -/
def Later (s s' : Store (Observed β)) : Prop :=
  ∃ now, s.clock.now ≤ now ∧ s' = { s with clock := { s.clock with now } }

/-- A condition that comes with time. -/
def Comes (ready : Store (Observed β) → Bool) : Prop :=
  ∀ s, ∃ s', Relation.ReflTransGen Later s s' ∧ ready s' = true

variable {r : Resolver (Observed β)} {T : Terms β} {s s' : Store (Observed β)}
  {ts : List (Coroutine (Store (Observed β)) Unit)}

theorem comes_hasCome (moment : Nat) : Comes (β := β) (Store.hasCome moment) := fun s =>
  ⟨_, .single ⟨max s.clock.now moment, Nat.le_max_left _ _, rfl⟩, by
    simp [Store.hasCome, Clock.hasCome]⟩

/-- Who obeys the rules leaves alone what belongs to the resolver. -/
theorem aside_of_shifts {α : Type} {waits : (Store (Observed β) → Bool) → Prop} {c c' : Coroutine (Store (Observed β)) α}
    {Q : α → Prop} (hshift : Shifts c s c' s' ts) (hdb : T.relies s.backend.database)
    (hc : c.Obeys (r.rules T.relies waits) Q) :
    r.Aside s s' ∧ T.relies s'.backend.database ∧ c'.Obeys (r.rules T.relies waits) Q ∧
      ∀ t ∈ ts, t.Obeys (r.rules T.relies waits) (fun _ => True) := by
  obtain ⟨hmay, hdb', hc', hts⟩ := hshift.obeys hdb hc
  exact ⟨aside_of_reflTransGen hmay, hdb', hc', hts⟩

/-- A flush waits for nothing but time before it takes the requests out. -/
theorem obeys_gather (r : Resolver (Observed β)) (relies : β → Prop) :
    r.gather.Obeys (r.rules relies Comes) (fun _ => True) := by
  rw [gather]
  split
  case h_1 ms _ =>
    refine fun s hs => ⟨⟨rfl, List.prefix_refl _, fun _ _ _ _ h => h, Nat.le_refl _, Nat.le_refl _, rfl⟩,
      hs, ?_⟩
    exact ⟨comes_hasCome _, trivial⟩
  case h_2 => trivial

/-! ## Batches under way -/

/-- A call of the batch function whose answers have not been delivered. -/
structure OpenCall where
  place : Nat
  requests : List PendingRequest
  /-- What it has returned, if it has. -/
  answers : Option (List (Outcome Json))

namespace Batch

/-- The batch, if it has not been handed to the batch function. -/
def unhanded : Batch β → List (List PendingRequest)
  | ⟨requests, .ready⟩ | ⟨requests, .calling⟩ => [requests]
  | _ => []

/-- The call of the batch, if it has been made and its answers have not been delivered. -/
def openCalls : Batch β → List OpenCall
  | ⟨requests, .running place _⟩ => [⟨place, requests, none⟩]
  | ⟨requests, .leaving place answers⟩ | ⟨requests, .delivering place answers⟩ =>
    [⟨place, requests, some answers⟩]
  | _ => []

/-- The batch function has kept to its terms. -/
def Conforms (r : Resolver (Observed β)) (T : Terms β) : Batch β → Prop
  | ⟨first :: others, .running _ rest⟩ =>
    rest.Obeys (r.rules T.relies T.waits) (T.returns first.client ((first :: others).map (·.input)))
  | ⟨first :: others, .leaving _ answers⟩ | ⟨first :: others, .delivering _ answers⟩ =>
    T.returns first.client ((first :: others).map (·.input)) answers
  | ⟨[], .running _ _⟩ | ⟨[], .leaving _ _⟩ | ⟨[], .delivering _ _⟩ => False
  | _ => True

end Batch

namespace Task

/-- The batches of a task. -/
def batches : Task β → List (Batch β)
  | .serving batches => batches
  | _ => []

@[simp] theorem batches_serving (batches : List (Batch β)) : (serving batches).batches = batches := rfl

/-- Whether a task is a flush that has not taken the requests out of the queue. -/
def isGathering : Task β → Bool
  | .gathering _ => true
  | _ => false

/-- A task keeps to the terms. -/
def Conforms (r : Resolver (Observed β)) (T : Terms β) : Task β → Prop
  | .gathering rest => rest.Obeys (r.rules T.relies Comes) (fun _ => True)
  | .serving batches => ∀ b ∈ batches, b.Conforms r T
  | .other rest => ∃ waits, rest.Obeys (r.rules T.relies waits) (fun _ => True)

end Task

/-- Whether a call is about to start a flush. -/
def CallStage.isLaunching : CallStage → Bool
  | .launching _ _ _ => true
  | _ => false

namespace Traffic

/-- The batches that have not been handed to the batch function. -/
def unhanded (A : Traffic β) : List (List PendingRequest) :=
  A.tasks.flatMap fun t => t.batches.flatMap Batch.unhanded

/-- The calls of the batch function whose answers have not been delivered. -/
def openCalls (A : Traffic β) : List OpenCall :=
  A.tasks.flatMap fun t => t.batches.flatMap Batch.openCalls

/-- The flushes that have not taken the requests out of the queue, and those about to be started. -/
def flushes (A : Traffic β) : Nat :=
  A.tasks.countP Task.isGathering + A.calls.countP (·.2.isLaunching)

/-- What the batches of the tasks have, a batch of some flush has. -/
theorem exists_batch {A : Traffic β} {γ : Type} {f : Batch β → List γ} {x : γ}
    (h : x ∈ A.tasks.flatMap fun t => t.batches.flatMap f) :
    ∃ bs b, .serving bs ∈ A.tasks ∧ b ∈ bs ∧ x ∈ f b := by
  obtain ⟨t, ht, h⟩ := List.mem_flatMap.1 h
  obtain ⟨b, hb, hx⟩ := List.mem_flatMap.1 h
  cases t with
  | serving bs => exact ⟨bs, b, ht, hb, hx⟩
  | gathering rest => cases hb
  | other rest => cases hb

/-- Everything that runs keeps to the terms. -/
structure Conforms (r : Resolver (Observed β)) (T : Terms β) (A : Traffic β) : Prop where
  database : T.relies A.world.store.backend.database
  tasks : ∀ t ∈ A.tasks, t.Conforms r T

end Traffic

theorem conforms_others {waits : (Store (Observed β) → Bool) → Prop}
    (h : ∀ t ∈ ts, t.Obeys (r.rules T.relies waits) (fun _ => True)) :
    ∀ t ∈ ts.map (Task.other (β := β)), t.Conforms r T := by
  intro t ht
  obtain ⟨c, hc, rfl⟩ := List.mem_map.1 ht
  exact ⟨waits, h c hc⟩

@[simp] theorem flatMap_batches_others {γ : Type} (f : Batch β → List γ)
    (ts : List (Coroutine (Store (Observed β)) Unit)) :
    (ts.map (Task.other (β := β))).flatMap (fun t => t.batches.flatMap f) = [] := by
  induction ts with
  | nil => rfl
  | cons t ts ih => exact ih

@[simp] theorem countP_isGathering_others (ts : List (Coroutine (Store (Observed β)) Unit)) :
    (ts.map (Task.other (β := β))).countP Task.isGathering = 0 := by
  rw [List.countP_map]
  exact List.countP_eq_zero.2 fun _ _ => Bool.false_ne_true

/-! ## Effects -/

/-- What a step does, whoever takes it. -/
inductive Effect (r : Resolver (Observed β)) (T : Terms β) (A A' : Traffic β) : Prop
  /-- Nothing that concerns the resolver. -/
  | quiet :
      r.Aside A.world.store A'.world.store → A'.world.ledger = A.world.ledger →
      A'.unhanded = A.unhanded → A'.openCalls = A.openCalls → A'.flushes = A.flushes → Effect r T A A'
  /-- A request joins the queue, and if it is the first one a flush is about to be started. -/
  | ask {client : Client} {input : Input} {key : CacheKey} :
      r.key client input = .ok key → A'.world.store = (r.enqueue client input key A.world.store).2 →
      A'.world.ledger = { A.world.ledger with
        asked := A.world.ledger.asked ++ [⟨client, input, A.world.store.slots.length⟩] } →
      A'.unhanded = A.unhanded → A'.openCalls = A.openCalls →
      A'.flushes = A.flushes + (if (A.world.store.queue r.queue).flushScheduled then 0 else 1) →
      Effect r T A A'
  /-- An answer is given. -/
  | give {owner : Client} {input : Input} {value : Json} {key : CacheKey} :
      r.key owner input = .ok key → A'.world.store = r.give owner key value A.world.store →
      A'.world.ledger = { A.world.ledger with
        given := A.world.ledger.given ++ [⟨owner, input, value, A.world.store.slots.length⟩] } →
      A'.unhanded = A.unhanded → A'.openCalls = A.openCalls → A'.flushes = A.flushes → Effect r T A A'
  /-- A flush takes the requests out of the queue. -/
  | drain :
      A'.world.store = (r.drain A.world.store).2 → A'.world.ledger = A.world.ledger →
      A'.unhanded.Perm (r.batchesOf (A.world.store.queue r.queue).items ++ A.unhanded) →
      A'.openCalls = A.openCalls → A.flushes = A'.flushes + 1 → Effect r T A A'
  /-- A batch is handed to the batch function. -/
  | hand {first : PendingRequest} {others : List PendingRequest} :
      A'.world.store =
        (A.world.store.noteCall first.client ((first :: others).map (·.input))).2 →
      A'.world.ledger =
        { A.world.ledger with handed := A.world.ledger.handed ++ [first :: others] } →
      A.unhanded.Perm ((first :: others) :: A'.unhanded) →
      A'.openCalls.Perm
        (⟨A.world.store.backend.batches.length, first :: others, none⟩ :: A.openCalls) →
      A'.flushes = A.flushes → Effect r T A A'
  /-- The batch function returns. -/
  | answer {place : Nat} {first : PendingRequest} {others : List PendingRequest}
      {answers : List (Outcome Json)} {rest : List OpenCall} :
      T.returns first.client ((first :: others).map (·.input)) answers →
      A'.world.store = A.world.store.noteReturn place answers →
      A'.world.ledger = A.world.ledger → A'.unhanded = A.unhanded →
      A.openCalls.Perm (⟨place, first :: others, none⟩ :: rest) →
      A'.openCalls.Perm (⟨place, first :: others, some answers⟩ :: rest) →
      A'.flushes = A.flushes → Effect r T A A'
  /-- The answers are delivered. -/
  | deliver {place : Nat} {requests : List PendingRequest} {answers : List (Outcome Json)} :
      A'.world.store = r.deliverTo requests answers A.world.store →
      A'.world.ledger = A.world.ledger → A'.unhanded = A.unhanded →
      A.openCalls.Perm (⟨place, requests, some answers⟩ :: A'.openCalls) →
      A'.flushes = A.flushes → Effect r T A A'

section Step

variable {W W' : World β} {calls : List (Call × CallStage)} {l l' ts : List (Task β)}

theorem conforms_append {t t' : Task β} (h : ∀ u ∈ l ++ t :: l', u.Conforms r T) (ht' : t'.Conforms r T)
    (hts : ∀ u ∈ ts, u.Conforms r T) : ∀ u ∈ l ++ t' :: l' ++ ts, u.Conforms r T := by
  intro u hu
  simp only [List.mem_append, List.mem_cons] at hu
  rcases hu with (hu | rfl | hu) | hu
  · exact h u (by simp [hu])
  · exact ht'
  · exact h u (by simp [hu])
  · exact hts u hu

/-- The step of a call that starts no task and concerns nobody else. -/
theorem effect_of_call_aside {call : Call} {stage stage' : CallStage} {m m' : List (Call × CallStage)}
    {tasks : List (Task β)} (haside : r.Aside W.store W'.store) (hledger : W'.ledger = W.ledger)
    (hlaunching : stage'.isLaunching = stage.isLaunching) :
    Effect r T ⟨W, m ++ (call, stage) :: m', tasks⟩ ⟨W', m ++ (call, stage') :: m', tasks ++ []⟩ := by
  refine .quiet haside hledger ?_ ?_ ?_
  · simp [Traffic.unhanded]
  · simp [Traffic.openCalls]
  · simp [Traffic.flushes, List.countP_cons, hlaunching]

/-- The step of a call has one effect. -/
theorem effect_of_callStep {call : Call} {stage stage' : CallStage} {m m' : List (Call × CallStage)}
    {tasks : List (Task β)} (hstep : CallStep r W call stage W' stage' ts)
    (h : Traffic.Conforms r T ⟨W, m ++ (call, stage) :: m', tasks⟩) :
    Effect r T ⟨W, m ++ (call, stage) :: m', tasks⟩ ⟨W', m ++ (call, stage') :: m', tasks ++ ts⟩ ∧
      Traffic.Conforms r T ⟨W', m ++ (call, stage') :: m', tasks ++ ts⟩ := by
  obtain ⟨hdb, htasks⟩ := h
  cases hstep with
  | hit hkey hlookup => exact ⟨effect_of_call_aside .refl rfl rfl, hdb, by simpa using htasks⟩
  | miss hkey hlookup =>
    refine ⟨.ask hkey rfl rfl ?_ ?_ ?_, ?_, by simpa using htasks⟩
    · simp [Traffic.unhanded]
    · simp [Traffic.openCalls]
    -- the call launches a flush iff none is scheduled yet
    · simp only [Traffic.flushes, CallStage.ofTicket, schedules_enqueue]
      cases (Store.queue r.queue _).flushScheduled
      · simp [CallStage.isLaunching]
        omega
      · simp [CallStage.isLaunching]
    · simpa using hdb
  | launch =>
    refine ⟨.quiet .refl rfl ?_ ?_ ?_, hdb, ?_⟩
    · simp [Traffic.unhanded, Task.batches]
    · simp [Traffic.openCalls, Task.batches]
    · simp [Traffic.flushes, CallStage.isLaunching, Task.isGathering]
      omega
    · intro t ht
      rcases List.mem_append.1 ht with ht | ht
      · exact htasks t ht
      · rw [List.mem_singleton.1 ht]
        exact obeys_gather r T.relies
  | wake hready => exact ⟨effect_of_call_aside .refl rfl rfl, hdb, by simpa using htasks⟩
  | collect =>
    exact ⟨effect_of_call_aside aside_collect rfl rfl, by simpa using hdb, by simpa using htasks⟩
  | populate hkey =>
    refine ⟨.give hkey rfl rfl ?_ ?_ ?_, hdb, by simpa using htasks⟩
    · simp [Traffic.unhanded]
    · simp [Traffic.openCalls]
    · simp [Traffic.flushes, CallStage.isLaunching]
  | invalidate hkey =>
    exact ⟨effect_of_call_aside aside_invalidate rfl rfl, hdb, by simpa using htasks⟩

/-- What a batch stands for comes out of the whole. -/
theorem perm_flatMap_batches {γ : Type} (f : Batch β → List γ) (l l' : List (Task β))
    (bs bs' : List (Batch β)) (b : Batch β) :
    ((l ++ .serving (bs ++ b :: bs') :: l').flatMap fun t => t.batches.flatMap f).Perm
      (f b ++ (l ++ .serving (bs ++ bs') :: l').flatMap fun t => t.batches.flatMap f) := by
  simp only [List.flatMap_append, List.flatMap_cons, Task.batches_serving, List.append_assoc]
  exact (List.perm_append_comm_assoc ..).append_left _ |>.trans (List.perm_append_comm_assoc ..)

/-- A batch is no flush that has yet to take the requests out of the queue, and starts none. -/
theorem flushes_of_batch (W W' : World β) {b b' : Batch β} {bs bs' : List (Batch β)}
    (hts : ∀ t ∈ ts, t.isGathering = false) :
    Traffic.flushes ⟨W', calls, l ++ .serving (bs ++ b' :: bs') :: l' ++ ts⟩ =
      Traffic.flushes ⟨W, calls, l ++ .serving (bs ++ b :: bs') :: l'⟩ := by
  have hnone : ts.countP Task.isGathering = 0 := List.countP_eq_zero.2 fun t ht => by simp [hts t ht]
  simp [Traffic.flushes, Task.isGathering, hnone]

/-- The step of a batch that goes on as it was, as far as the resolver is concerned. -/
theorem effect_of_batch_aside {b b' : Batch β} {bs bs' : List (Batch β)}
    (us : List (Coroutine (Store (Observed β)) Unit)) (haside : r.Aside W.store W'.store)
    (hledger : W'.ledger = W.ledger) (hunhanded : b'.unhanded = b.unhanded)
    (hopen : b'.openCalls = b.openCalls) :
    Effect r T ⟨W, calls, l ++ .serving (bs ++ b :: bs') :: l'⟩
      ⟨W', calls, l ++ .serving (bs ++ b' :: bs') :: l' ++ us.map .other⟩ := by
  refine .quiet haside hledger ?_ ?_ (flushes_of_batch W W' fun t ht => ?_)
  · simp [Traffic.unhanded, Task.batches, hunhanded]
  · simp [Traffic.openCalls, Task.batches, hopen]
  · obtain ⟨c, -, rfl⟩ := List.mem_map.1 ht
    rfl

/-- The step of a batch has one effect. -/
theorem effect_of_batchStep (hkeeps : r.Keeps T) {b b' : Batch β} {bs bs' : List (Batch β)}
    (hstep : BatchStep r W b W' b' ts)
    (h : Traffic.Conforms r T ⟨W, calls, l ++ .serving (bs ++ b :: bs') :: l'⟩)
    (hserves : ∀ requests ∈ Traffic.unhanded ⟨W, calls, l ++ .serving (bs ++ b :: bs') :: l'⟩,
      ∀ x ∈ requests, T.serves x.client) :
    Effect r T ⟨W, calls, l ++ .serving (bs ++ b :: bs') :: l'⟩
        ⟨W', calls, l ++ .serving (bs ++ b' :: bs') :: l' ++ ts⟩ ∧
      Traffic.Conforms r T ⟨W', calls, l ++ .serving (bs ++ b' :: bs') :: l' ++ ts⟩ := by
  obtain ⟨hdb, htasks⟩ := h
  have hb : ∀ d ∈ bs ++ b :: bs', d.Conforms r T := htasks (.serving _) (by simp)
  have hown : b.Conforms r T := hb b (by simp)
  have hkept (hb' : b'.Conforms r T) (hts : ∀ u ∈ ts, u.Conforms r T) :
      ∀ u ∈ l ++ .serving (bs ++ b' :: bs') :: l' ++ ts, u.Conforms r T := by
    refine conforms_append htasks ?_ hts
    intro d hd
    simp only [List.mem_append, List.mem_cons] at hd
    rcases hd with hd | rfl | hd
    · exact hb d (by simp [hd])
    · exact hb'
    · exact hb d (by simp [hd])
  -- what concerns the resolver is this batch, and what the others stand for
  have hunhanded := perm_flatMap_batches Batch.unhanded l l' bs bs' b
  have hunhanded' := perm_flatMap_batches Batch.unhanded l l' bs bs' b'
  have hopen := perm_flatMap_batches Batch.openCalls l l' bs bs' b
  have hopen' := perm_flatMap_batches Batch.openCalls l l' bs bs' b'
  cases hstep with
  | @takeOver s L first others =>
    have hdesk := sameDesk_takeOver first (first :: others) s
    refine ⟨effect_of_batch_aside [] (aside_of_sameDesk hdesk) rfl rfl rfl, ?_,
      hkept trivial (by simp)⟩
    rwa [hdesk.backend]
  | @hand s L first others =>
    have hmem : first :: others ∈ Traffic.unhanded
        ⟨⟨s, L⟩, calls, l ++ .serving (bs ++ ⟨first :: others, .calling⟩ :: bs') :: l'⟩ :=
      hunhanded.mem_iff.2 (List.mem_cons_self ..)
    have hfirst := hserves _ hmem first (List.mem_cons_self ..)
    refine ⟨.hand rfl rfl ?_ ?_ ?_, hdb, hkept (hkeeps _ hfirst _) (by simp)⟩
    · rw [List.append_nil]
      exact hunhanded.trans (.cons _ hunhanded'.symm)
    · rw [List.append_nil]
      exact hopen'.trans (.cons _ hopen.symm)
    · exact flushes_of_batch _ _ (List.forall_mem_nil _)
  | @run s s' L requests place c c' us hshift =>
    cases requests with
    | nil => exact hown.elim
    | cons first others =>
      obtain ⟨haside, hdb', hc', hus⟩ := aside_of_shifts hshift hdb hown
      exact ⟨effect_of_batch_aside us haside rfl rfl rfl, hdb', hkept hc' (conforms_others hus)⟩
  | @answer s L requests place answers =>
    cases requests with
    | nil => exact hown.elim
    | cons first others =>
      refine ⟨.answer hown rfl rfl ?_ hopen ?_ ?_, hdb, hkept hown (by simp)⟩
      · simp [Traffic.unhanded, Task.batches, Batch.unhanded]
      · rw [List.append_nil]
        exact hopen'
      · exact flushes_of_batch _ _ (List.forall_mem_nil _)
  | @leave s L first others place answers =>
    have hdesk := s.sameDesk_letGoFor first.client
    refine ⟨effect_of_batch_aside [] (aside_of_sameDesk hdesk) rfl rfl rfl, ?_,
      hkept hown (by simp)⟩
    rwa [hdesk.backend]
  | @deliver s L requests place answers =>
    refine ⟨@Effect.deliver _ _ _ _ _ place requests answers rfl rfl ?_ ?_ ?_, by simpa using hdb,
      hkept ?_ (by simp)⟩
    · simp [Traffic.unhanded, Task.batches, Batch.unhanded]
    · rw [List.append_nil]
      exact hopen.trans (.cons _ hopen'.symm)
    · exact flushes_of_batch _ _ (List.forall_mem_nil _)
    · cases requests <;> trivial

theorem flatMap_unhanded_ready (batches : List (List PendingRequest)) :
    (batches.map (Batch.mk (β := β) · .ready)).flatMap Batch.unhanded = batches := by
  induction batches with
  | nil => rfl
  | cons requests batches ih => exact congrArg (requests :: ·) ih

theorem flatMap_openCalls_ready (batches : List (List PendingRequest)) :
    (batches.map (Batch.mk (β := β) · .ready)).flatMap Batch.openCalls = [] := by
  induction batches with
  | nil => rfl
  | cons requests batches ih => exact ih

/-- The step of a task has one effect. -/
theorem effect_of_taskStep (hkeeps : r.Keeps T) {t t' : Task β} (hstep : TaskStep r W t W' t' ts)
    (h : Traffic.Conforms r T ⟨W, calls, l ++ t :: l'⟩)
    (hserves : ∀ requests ∈ Traffic.unhanded ⟨W, calls, l ++ t :: l'⟩,
      ∀ x ∈ requests, T.serves x.client) :
    Effect r T ⟨W, calls, l ++ t :: l'⟩ ⟨W', calls, l ++ t' :: l' ++ ts⟩ ∧
      Traffic.Conforms r T ⟨W', calls, l ++ t' :: l' ++ ts⟩ := by
  cases hstep with
  | gather hshift =>
    obtain ⟨hdb, htasks⟩ := h
    obtain ⟨haside, hdb', hc', hus⟩ := aside_of_shifts hshift hdb (htasks (.gathering _) (by simp))
    refine ⟨.quiet haside rfl ?_ ?_ ?_, hdb', conforms_append htasks hc' (conforms_others hus)⟩
    · simp [Traffic.unhanded, Task.batches]
    · simp [Traffic.openCalls, Task.batches]
    · simp [Traffic.flushes, Task.isGathering, List.countP_cons]
  | drain =>
    obtain ⟨hdb, htasks⟩ := h
    refine ⟨.drain rfl rfl ?_ ?_ ?_, hdb, conforms_append htasks ?_ (by simp)⟩
    · simp only [Traffic.unhanded, List.flatMap_append, List.flatMap_cons, Task.batches_serving,
        flatMap_unhanded_ready, List.append_nil]
      exact List.perm_append_comm_assoc ..
    · simp [Traffic.openCalls, Task.batches, flatMap_openCalls_ready]
    · simp [Traffic.flushes, Task.isGathering, List.countP_cons]
      omega
    · intro b hb
      obtain ⟨requests, -, rfl⟩ := List.mem_map.1 hb
      cases requests <;> trivial
  | serve hb => exact effect_of_batchStep hkeeps hb h hserves
  | @other s s' L c c' us hshift =>
    obtain ⟨hdb, htasks⟩ := h
    obtain ⟨waits, hc⟩ : Task.Conforms r T (.other c) := htasks (.other c) (by simp)
    obtain ⟨haside, hdb', hc', hus⟩ := aside_of_shifts hshift hdb hc
    refine ⟨.quiet haside rfl ?_ ?_ ?_, hdb', conforms_append htasks ⟨waits, hc'⟩ (conforms_others hus)⟩
    · simp [Traffic.unhanded, Task.batches]
    · simp [Traffic.openCalls, Task.batches]
    · simp [Traffic.flushes, Task.isGathering]

end Step

/-- **Every step has one effect**, and what runs keeps to the terms. -/
theorem Traffic.Steps.effect {A A' : Traffic β} (hkeeps : r.Keeps T) (h : A.Conforms r T)
    (hserves : ∀ requests ∈ A.unhanded, ∀ x ∈ requests, T.serves x.client)
    (hstep : Steps r (r.Beyond T) A A') : Effect r T A A' ∧ A'.Conforms r T := by
  cases hstep with
  | call hstep => exact effect_of_callStep hstep h
  | task hstep => exact effect_of_taskStep hkeeps hstep h hserves
  | others hothers => exact ⟨.quiet hothers.1 rfl rfl rfl rfl, hothers.2 h.database, h.tasks⟩
  | still => exact ⟨.quiet .refl rfl rfl rfl rfl, h⟩

end Resolver

end SqlClient
