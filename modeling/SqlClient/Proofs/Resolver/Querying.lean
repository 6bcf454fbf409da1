import SqlClient.Proofs.Client.Order
import SqlClient.Proofs.Resolver.Effects
/-!
# Resolvers — queries of batches

A batch function may run its queries through clients outside transactions. Each query has a
connection of its own, so it waits for nobody and does not concern the resolver (`obeys_run`). Inside a
transaction it may have to wait, but it touches no more (`obeys_run_wire`).
-/

namespace SqlClient

namespace Resolver

open Coroutine

variable {β : Type} [Backend β] {r : Resolver (Observed β)} {s s' : Store (Observed β)}

/-! ## Connections -/

/-- A change of the store that only connections and the database take part in. -/
structure AtWire (s s' : Store (Observed β)) : Prop where
  caches : s'.caches = s.caches
  queues : s'.queues = s.queues
  slots : s'.slots = s.slots
  clock : s'.clock = s.clock
  batches : s'.backend.batches = s.backend.batches

omit [Backend β] in
theorem AtWire.aside (h : AtWire s s') : r.Aside s s' := by
  refine ⟨by rw [h.queues], by simp [h.slots], fun n key slot _ hserves => ?_, by rw [h.caches], ?_,
    h.batches⟩
  · rwa [Store.Serves, Store.cache, h.caches] at hserves
  · rw [Store.now, Store.now, h.clock]

/-- What a query relies on: the database grants every connection, and answers the query on it with an
outcome as `Q` says. -/
structure Answering (relies : β → Prop) (request : Request) (Q : Outcome ResultSet → Prop) : Prop where
  connect : ∀ n (db : β), relies db →
    (Backend.connect n db).1 = none ∧ relies (Backend.connect n db).2
  respond : ∀ n (db : β), relies db → relies (Backend.respond n request db).2 ∧
    ∃ o, (Backend.respond n request db).1 = .answer o ∧ Q o

variable {relies : β → Prop} {request : Request} {Q : Outcome ResultSet → Prop}

theorem acquire_eq (acquirer : Acquirer) (s : Store (Observed β))
    (h : (Backend.connect (s.attempts + 1) s.backend.database).1 = none) :
    s.acquire acquirer = (.ok (s.attempts + 1),
      (Store.setUsage { s with
        backend := { s.backend with
          database := (Backend.connect (s.attempts + 1) s.backend.database).2 }
        attempts := s.attempts + 1 } (s.attempts + 1) { Usage.none with holders := 1 }).note
          (.acquired acquirer (s.attempts + 1))) := by
  have hconnect : Backend.connect (s.attempts + 1) s.backend =
      (none, { s.backend with
        database := (Backend.connect (s.attempts + 1) s.backend.database).2 }) := by
    rw [← h]
    rfl
  simp only [Store.acquire, hconnect]

theorem obeys_exchange (h : Answering relies request Q) (n : Nat) :
    (Connection.exchange (β := Observed β) n request).Obeys (r.rules relies Comes) Q := by
  intro s hs
  refine ⟨AtWire.aside ⟨rfl, rfl, rfl, rfl, rfl⟩, hs, (obeys_giveWay _).bind fun _ _ s hs => ?_⟩
  obtain ⟨hrelies, o, hanswer, ho⟩ := h.respond n s.backend.database hs
  refine ⟨AtWire.aside ⟨rfl, rfl, rfl, rfl, rfl⟩, hrelies, ?_⟩
  have hresponse : (Store.receive n request s).1 = .answer o := hanswer
  rw [hresponse]
  exact fun s hs => ⟨AtWire.aside ⟨rfl, rfl, rfl, rfl, rfl⟩, hs, ho⟩

omit [Backend β] in
theorem atWire_letGo (s : Store (Observed β)) (n : Nat) : AtWire s (s.letGo n) := by
  have hsame := s.sameDesk_letGo n
  exact ⟨hsame.caches, hsame.queues, hsame.slots, hsame.clock, by rw [hsame.backend]⟩

/-- **A query through a client outside transactions** does not concern the resolver, and has an
outcome that the database gives it. -/
theorem obeys_run (h : Answering relies request Q) {c : Client} (hscope : c.scope = none) :
    (c.run request).run.Obeys (r.rules relies Comes) Q := by
  rw [Client.run, hscope]
  intro s hs
  obtain ⟨hgranted, hrelies⟩ := h.connect (s.attempts + 1) s.backend.database hs
  rw [acquire_eq .general s hgranted]
  refine ⟨AtWire.aside ⟨rfl, rfl, rfl, rfl, rfl⟩, hrelies, ?_⟩
  have hletGo (s' : Store (Observed β)) (hs' : relies s'.backend.database) :
      r.Aside s' (s'.letGo (s.attempts + 1)) ∧ relies (s'.letGo (s.attempts + 1)).backend.database :=
    ⟨(atWire_letGo s' _).aside, by rwa [(s'.sameDesk_letGo _).backend]⟩
  refine ⟨hletGo, Q, obeys_exchange h _, fun o ho s' hs' => ?_⟩
  exact ⟨(hletGo s' hs').1, (hletGo s' hs').2, ho⟩

/-! ## Queries through any client -/

theorem atWire_acquire (acquirer : Acquirer) (s : Store (Observed β)) :
    AtWire s (s.acquire acquirer).2 := by
  rw [Store.acquire]
  dsimp only
  split <;> exact ⟨rfl, rfl, rfl, rfl, rfl⟩

section Wire

variable {R : Conduct (Store (Observed β))}
  (hmay : ∀ s s', R.holds s → AtWire s s' → R.may s s' ∧ R.holds s')
  (hwaits : ∀ ready, R.waits ready)

include hmay hwaits

theorem obeys_exchange_wire (n : Nat) (request : Request) :
    (Connection.exchange (β := Observed β) n request).Obeys R (fun _ => True) := by
  have hfinish (outcome : Outcome ResultSet) :
      (Coroutine.step (fun s => ((), Store.finish n s)) fun _ => .done outcome).Obeys R (fun _ => True) := by
    intro s hs
    obtain ⟨hfinished, hs'⟩ := hmay s (s.finish n) hs ⟨rfl, rfl, rfl, rfl, rfl⟩
    exact ⟨hfinished, hs', trivial⟩
  intro s hs
  obtain ⟨hsent, hs'⟩ := hmay s (s.send n request).2 hs ⟨rfl, rfl, rfl, rfl, rfl⟩
  refine ⟨hsent, hs', (obeys_giveWay _).bind fun _ _ s hs => ?_⟩
  obtain ⟨hreceived, hs'⟩ := hmay s (s.receive n request).2 hs ⟨rfl, rfl, rfl, rfl, rfl⟩
  refine ⟨hreceived, hs', ?_⟩
  cases (s.receive n request).1 with
  | answer outcome => exact hfinish outcome
  | never =>
    intro s hs
    obtain ⟨hstalled, hs'⟩ := hmay s { s with stalled := true } hs ⟨rfl, rfl, rfl, rfl, rfl⟩
    exact ⟨hstalled, hs', hwaits _, hfinish _⟩

theorem obeys_share_wire (n : Nat) (request : Request) :
    (Connection.share (β := Observed β) n request).Obeys R (fun _ => True) := by
  intro s hs
  obtain ⟨htaken, hs'⟩ := hmay s (s.takeTicket n).2 hs ⟨rfl, rfl, rfl, rfl, rfl⟩
  have hreturn (ticket : Nat) (s : Store (Observed β)) (hs : R.holds s) :=
    hmay s (s.returnTicket n ticket) hs ⟨rfl, rfl, rfl, rfl, rfl⟩
  refine ⟨htaken, hs', hreturn _, _, ⟨hwaits _, obeys_exchange_wire hmay hwaits n request⟩,
    fun o _ s hs => ?_⟩
  exact ⟨(hreturn _ s hs).1, (hreturn _ s hs).2, trivial⟩

/-- **A query through any client** touches connections and the database, and nothing else. -/
theorem obeys_run_wire (c : Client) (request : Request) :
    (c.run request : Work (Observed β) ResultSet).run.Obeys R (fun _ => True) := by
  rw [Client.run]
  cases c.scope with
  | none =>
    intro s hs
    obtain ⟨hacquired, hs'⟩ := hmay s (s.acquire .general).2 hs (atWire_acquire .general s)
    refine ⟨hacquired, hs', ?_⟩
    cases (s.acquire .general).1 with
    | error e => trivial
    | ok n =>
      have hletGo (s : Store (Observed β)) (hs : R.holds s) := hmay s (s.letGo n) hs (atWire_letGo s n)
      refine ⟨hletGo, _, obeys_exchange_wire hmay hwaits n request, fun o _ s hs => ?_⟩
      exact ⟨(hletGo s hs).1, (hletGo s hs).2, trivial⟩
  | some scope =>
    intro s hs
    obtain ⟨hread, -⟩ := hmay s s hs ⟨rfl, rfl, rfl, rfl, rfl⟩
    refine ⟨hread, hs, ?_⟩
    change (if s.isOpen scope then Connection.share scope.connection request
      else .done (.error .scopeEnded)).Obeys R (fun _ => True)
    split
    · exact obeys_share_wire hmay hwaits scope.connection request
    · trivial

end Wire

omit [Backend β] in
/-- A batch that encodes its inputs and runs one query does no more than the query. -/
theorem obeys_query {R : Conduct (Store (Observed β))} {shape : Shape}
    {query : Client → List Json → Work (Observed β) ResultSet}
    {answers : List Input → List Row → List (Outcome Json)} {client : Client} {inputs : List Input}
    (hquery : ∀ encoded, (query client encoded).run.Obeys R (fun _ => True)) :
    (Batch.query shape query answers client inputs).Obeys R (fun _ => True) := by
  rw [Batch.query]
  split
  · trivial
  · refine (hquery _).bind fun o _ => ?_
    cases o <;> trivial

end Resolver

end SqlClient
