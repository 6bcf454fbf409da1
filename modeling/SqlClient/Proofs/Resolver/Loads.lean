import SqlClient.Proofs.Resolver.Batching
import SqlClient.Proofs.Resolver.Departures
import SqlClient.Proofs.Resolver.Sharing
import SqlClient.Transaction.Run
/-!
# Resolvers — through whose client a batch runs

A flush takes a load of requests out of the queue, and those of one root transaction share batches, each of
which runs with the client of its first request. The scopes of the others are not looked at. So a request
runs as its own caller said if the load has requests of one scope for each root transaction (`Uniform`), and
the end of another scope does it no harm if that scope is one around its own (`through_of_runs`). But
a savepoint that has ended fails requests of the transaction around it that come after its own
(`ended_savepoint_fails_transaction`).
-/

namespace SqlClient

namespace BatchQueue

variable {α κ : Type} [DecidableEq κ]

theorem chunks_length {items : List α} (h : items ≠ []) : chunks items.length items = [items] := by
  have hpos := List.length_pos_iff.2 h
  rw [chunks, dif_neg h, Nat.max_eq_left hpos, List.take_length, List.drop_length, chunks, dif_pos rfl]

/-- Without a limit, all items of a key are one batch. -/
theorem whole_of_mem_batches {key : α → κ} {items b : List α} (h : b ∈ batches key none items) {x : α}
    (hx : x ∈ b) : b = items.filter fun item => key item = key x := by
  obtain ⟨g, hg, hb⟩ := List.mem_flatMap.1 h
  obtain ⟨k, -, rfl⟩ := List.mem_map.1 hg
  have hne : (items.filter fun item => key item = k) ≠ [] := by
    intro hnil
    rw [hnil, chunks, dif_pos rfl] at hb
    cases hb
  rw [Option.getD_none, chunks_length hne] at hb
  obtain rfl := List.mem_singleton.1 hb
  have hkey : key x = k := by simpa using (List.mem_filter.1 hx).2
  rw [hkey]

end BatchQueue

namespace Client

variable {β : Type}

/-- Neither the scope of a client nor one around it has ended. -/
def isOpen (c : Client) (s : Store β) : Bool :=
  match c.scope with
  | none => true
  | some scope => s.isOpen scope

/-- The scope of a client is that of another one or a scope around it. -/
def Encloses (c d : Client) : Prop :=
  ∀ scope, c.scope = some scope → ∃ scope', d.scope = some scope' ∧ scope.marks <+: scope'.marks

/-- Where a scope is open, those around it are. -/
theorem Encloses.isOpen {c d : Client} (h : c.Encloses d) {s : Store β} (hd : d.isOpen s = true) :
    c.isOpen s = true := by
  rw [Client.isOpen]
  cases hc : c.scope with
  | none => rfl
  | some scope =>
    obtain ⟨scope', hd', hmarks⟩ := h scope hc
    rw [Client.isOpen, hd'] at hd
    exact List.all_eq_true.2 fun mark hmark => List.all_eq_true.1 hd mark (hmarks.subset hmark)

/-- Clients of one root transaction share its connection. -/
def Coherent (serves : Client → Prop) : Prop :=
  ∀ c d, serves c → serves d → c.transaction? = d.transaction? → c.connection? = d.connection?

variable [Backend β]

/-- The first step of a statement in an open scope: it goes on to the connection. -/
theorem moves_run_iff {c : Client} {scope : Scope} (hscope : c.scope = some scope) {request : Request}
    {s s' : Store β} {rest : Coroutine (Store β) (Outcome ResultSet)} {ts : List (Coroutine (Store β) Unit)}
    (hopen : s.isOpen scope = true) : Coroutine.Moves (c.run request).run s rest s' ts ↔
      rest = Connection.share scope.connection request ∧ s' = s ∧ ts = [] := by
  have hrun : (c.run request : Work β ResultSet).run = .step (fun s => (s.isOpen scope, s)) fun isOpen =>
      if isOpen then Connection.share scope.connection request else .done (.error .scopeEnded) := by
    rw [Client.run, hscope]
    rfl
  have hrest : (if s.isOpen scope then Connection.share scope.connection request
      else .done (.error .scopeEnded) : Coroutine (Store β) (Outcome ResultSet)) =
        Connection.share scope.connection request := if_pos hopen
  rw [hrun]
  constructor
  · intro hmoves
    cases hmoves
    exact ⟨hrest, rfl, rfl⟩
  · rintro ⟨rfl, rfl, rfl⟩
    have hmoves : Coroutine.Moves (.step (fun s => (s.isOpen scope, s)) fun isOpen =>
        if isOpen then Connection.share scope.connection request else .done (.error .scopeEnded)) s'
        (if s'.isOpen scope then Connection.share scope.connection request
          else .done (.error .scopeEnded)) s' [] := .step
    rwa [hrest] at hmoves

/-- A statement through a client goes the way that it would go through another one. -/
def RunsAs (c d : Client) (s : Store β) : Prop :=
  ∀ (request : Request) (rest : Coroutine (Store β) (Outcome ResultSet)) (s' : Store β)
    (ts : List (Coroutine (Store β) Unit)),
    Coroutine.Moves (c.run request).run s rest s' ts ↔ Coroutine.Moves (d.run request).run s rest s' ts

/-- A statement through a client of a scope around an open one is not refused. -/
theorem Encloses.runsAs {c d : Client} (h : c.Encloses d) (htransaction : c.transaction? = d.transaction?)
    (hconnection : c.connection? = d.connection?) {s : Store β} (hd : d.isOpen s = true) :
    c.RunsAs d s := by
  intro request rest s' ts
  cases hc : c.scope with
  | none =>
    have hnone : d.scope = none := by simpa [transaction?, hc] using htransaction.symm
    rw [Client.run, Client.run, hc, hnone]
  | some scope =>
    obtain ⟨scope', hscope', -⟩ := h scope hc
    have hopen : s.isOpen scope = true := by simpa [Client.isOpen, hc] using h.isOpen hd
    have hopen' : s.isOpen scope' = true := by simpa [Client.isOpen, hscope'] using hd
    have hsame : scope.connection = scope'.connection := by
      simpa [connection?, hc, hscope'] using hconnection
    rw [moves_run_iff hc hopen, moves_run_iff hscope' hopen', hsame]

theorem run_withCache (c : Client) (cache : Nat) (request : Request) :
    ((c.withCache cache).run request : Work β ResultSet) = c.run request := rfl

end Client

namespace Resolver

open Coroutine Ensemble

variable {β : Type} {r : Resolver (Observed β)} {T : Terms β} {A A' : Traffic β} {s : Store (Observed β)}
  {calls : List Call} {p q : Ensemble (Store (Observed β)) (Outcome (Option Json))}
  {es : List PendingRequest}

/-! ## Loads -/

/-- `loads` are the requests that the flushes have taken so far, each flush a load: the others are in the
queue, and every batch was cut out of one load. -/
structure Loaded (r : Resolver (Observed β)) (loads : List (List PendingRequest)) (A : Traffic β) :
    Prop where
  asked : A.world.ledger.asked = loads.flatten ++ A.queued r
  batches : ∀ b ∈ A.world.ledger.handed ++ A.unhanded, ∃ load ∈ loads, b ∈ r.batchesOf load

variable {loads : List (List PendingRequest)}

theorem Loaded.of_same (h : Loaded r loads A) (hasked : A'.world.ledger.asked = A.world.ledger.asked)
    (hhanded : A'.world.ledger.handed = A.world.ledger.handed) (hunhanded : A'.unhanded = A.unhanded)
    (hqueue : A'.world.store.queue r.queue = A.world.store.queue r.queue) : Loaded r loads A' := by
  constructor
  case asked => rw [hasked, Traffic.queued, hqueue]; exact h.asked
  case batches => rw [hhanded, hunhanded]; exact h.batches

/-- A flush adds a load, and no other step does. -/
theorem Effect.loaded (he : Effect r T A A') (hs : Scheduled r A) (h : Loaded r loads A) :
    ∃ loads', Loaded r loads' A' := by
  cases he with
  | quiet haside hledger hunhanded _ _ =>
    exact ⟨loads, h.of_same (by rw [hledger]) (by rw [hledger]) hunhanded haside.queue_eq⟩
  | ask _ hstore hledger hunhanded _ _ =>
    refine ⟨loads, ?_, ?_⟩
    · rw [hledger, h.asked, Traffic.queued, Traffic.queued, hstore, queue_enqueue hs.range,
        List.append_assoc]
    · rw [hledger, hunhanded]
      exact h.batches
  | give _ hstore hledger hunhanded _ _ =>
    exact ⟨loads, h.of_same (by rw [hledger]) (by rw [hledger]) hunhanded (by rw [hstore]; rfl)⟩
  | drain hstore hledger hunhanded _ _ =>
    -- what the flush takes out of the queue is one more load
    refine ⟨loads ++ [A.queued r], ?_, fun b hb => ?_⟩
    · have hempty : A'.queued r = [] := by
        rw [Traffic.queued, hstore, queue_drain hs.range]
        rfl
      rw [hledger, h.asked, hempty, List.flatten_append, List.flatten_singleton, List.append_nil]
    · rw [hledger] at hb
      have hkept (hb : b ∈ A.world.ledger.handed ++ A.unhanded) :
          ∃ load ∈ loads ++ [A.queued r], b ∈ r.batchesOf load := by
        obtain ⟨load, hload, hcut⟩ := h.batches b hb
        exact ⟨load, List.mem_append_left _ hload, hcut⟩
      rcases List.mem_append.1 hb with hb | hb
      · exact hkept (List.mem_append_left _ hb)
      · rcases List.mem_append.1 (hunhanded.subset hb) with hb | hb
        · exact ⟨A.queued r, List.mem_append_right _ (List.mem_singleton_self _), hb⟩
        · exact hkept (List.mem_append_right _ hb)
  | hand hstore hledger hunhanded _ _ =>
    refine ⟨loads, ?_, fun b hb => h.batches b ?_⟩
    · rw [hledger, Traffic.queued, hstore]
      exact h.asked
    · simp only [hledger, List.mem_append, hunhanded.mem_iff, List.mem_cons, List.not_mem_nil, or_false]
        at hb ⊢
      tauto
  | answer _ hstore hledger hunhanded _ _ _ =>
    exact ⟨loads, h.of_same (by rw [hledger]) (by rw [hledger]) hunhanded (by rw [hstore]; rfl)⟩
  | deliver hstore hledger hunhanded _ _ =>
    refine ⟨loads, h.of_same (by rw [hledger]) (by rw [hledger]) hunhanded ?_⟩
    rw [hstore, Store.queue, queues_deliverTo]
    rfl

theorem loaded_of_runs (hkeeps : r.Keeps T) (hfresh : Fresh r s) (hrelies : T.relies s.backend.database)
    (hserves : ∀ call ∈ calls, T.serves call.client)
    (hrun : Runs (Goes (r.Beyond T)) r.joined (r.outset s calls) es q) :
    ∃ A loads, Books r T es q A ∧ Loaded r loads A ∧ Sourced r A ∧ A.calls.map Prod.fst = calls := by
  refine hrun.keeps (I := fun es q => ∃ A loads, Books r T es q A ∧ Loaded r loads A ∧ Sourced r A ∧
    A.calls.map Prod.fst = calls) ⟨.outset s calls, [], books_outset hfresh hrelies hserves,
      ⟨?_, List.forall_mem_nil _⟩, sourced_outset hfresh calls, ?_⟩ ?_
  · have hqueue : s.queue r.queue = .empty := by
      rw [Store.queue, List.getD_eq_getElem?_getD, hfresh.queue]
      rfl
    exact (congrArg BatchQueue.items hqueue).symm
  · simp [Traffic.outset, Function.comp_def]
  · rintro es p q ⟨A, loads, hbooks, hloaded, hsourced, hcalls⟩ hgo
    obtain ⟨A', hstep, hbooks'⟩ := hbooks.goes hkeeps hgo
    obtain ⟨he, -⟩ := hbooks.effect hkeeps hstep
    obtain ⟨loads', hloaded'⟩ := he.loaded hbooks.scheduled hloaded
    exact ⟨A', loads', hbooks', hloaded', hstep.sourced he hbooks.scheduled hbooks.unanswered hsourced,
      hstep.calls.1.trans hcalls⟩

/-! ## The client of a batch -/

/-- How the call of a batch function at a place in the record came about: a flush took a load of requests
that had joined the queue one after another, the batch was cut out of it, and the batch function was called
with the client of its first request. Each request has the answer of its own place as soon as it has one. -/
structure Gathered (r : Resolver (Observed β)) (calls : List Call) (es : List PendingRequest)
    (s : Store (Observed β)) (place : Nat) (h : Handed) (load requests : List PendingRequest) : Prop where
  named : ∀ x ∈ es, .resolve x.client x.input ∈ calls
  taken : load <:+: es
  cut : requests ∈ r.batchesOf load
  first : requests.head?.map (·.client) = some h.client
  inputs : h.inputs = requests.map (·.input)
  together : ∀ x ∈ requests, h.client.transaction? = x.client.transaction?
  whole : r.limit = none → requests = load.filter fun x => x.client.transaction? = h.client.transaction?
  answered : (∀ x ∈ requests, s.slots[x.slot]? = some none) ∨ HasAnswered r s place requests

/-- The batch runs with the client of one of its requests. -/
theorem Gathered.mem_first {place : Nat} {h : Handed} {load requests : List PendingRequest}
    (hgathered : Gathered r calls es s place h load requests) : ∃ x ∈ requests, h.client = x.client := by
  obtain ⟨x, hx, hclient⟩ := Option.map_eq_some_iff.1 hgathered.first
  exact ⟨x, List.mem_of_mem_head? hx, hclient.symm⟩

theorem Gathered.mem_load {place : Nat} {h : Handed} {load requests : List PendingRequest}
    (hgathered : Gathered r calls es s place h load requests) {x : PendingRequest} (hx : x ∈ requests) :
    x ∈ load :=
  (BatchQueue.cut_of_mem_batches hgathered.cut).ordered.subset hx

/-- The books tell how every call in the record came about. -/
theorem Books.gathered (hbooks : Books r T es q A) (hloaded : Loaded r loads A) (hsourced : Sourced r A)
    (hcalls : A.calls.map Prod.fst = calls) {place : Nat} {h : Handed}
    (hh : q.state.backend.batches[place]? = some h) :
    ∃ load requests, Gathered r calls es q.state place h load requests := by
  have hbatching := hbooks.batching
  rw [hbooks.shows.store] at hh
  have hplace : place < A.world.ledger.handed.length :=
    hbooks.recorded.length ▸ (List.getElem?_eq_some_iff.1 hh).1
  obtain ⟨requests, hrequests⟩ : ∃ requests, A.world.ledger.handed[place]? = some requests :=
    ⟨_, List.getElem?_eq_getElem hplace⟩
  have htells := hbooks.recorded.batches place requests h hrequests hh
  obtain ⟨load, hload, hcut⟩ :=
    hloaded.batches requests (List.mem_append_left _ (List.mem_of_getElem? hrequests))
  obtain ⟨x, hx, hclient⟩ := Option.map_eq_some_iff.1 htells.client
  -- a batch is cut where the transaction changes
  have htogether : ∀ y ∈ requests, h.client.transaction? = y.client.transaction? := fun y hy =>
    hclient ▸ (BatchQueue.cut_of_mem_batches hcut).together x (List.mem_of_mem_head? hx) y hy
  refine ⟨load, requests, ?_, ?_, hcut, htells.client, htells.inputs, htogether, fun hlimit => ?_,
    hbatching.answered place requests hrequests⟩
  · rw [← hbooks.asked, ← hcalls]
    exact hsourced.asked
  · obtain ⟨before, after, rfl⟩ := List.append_of_mem hload
    rw [← hbooks.asked, hloaded.asked]
    exact ⟨before.flatten, after.flatten ++ A.queued r, by simp⟩
  · rw [batchesOf, hlimit] at hcut
    rw [htogether x (List.mem_of_mem_head? hx)]
    exact BatchQueue.whole_of_mem_batches hcut (List.mem_of_mem_head? hx)

/-- Scopes may end at any time. -/
theorem beyond_endScope (r : Resolver (Observed β)) (T : Terms β) (scope : Scope) (s : Store (Observed β)) :
    r.Beyond T s (s.endScope scope) := by
  rw [Store.endScope]
  split
  · exact ⟨⟨rfl, List.prefix_refl _, fun _ _ _ _ h => h, Nat.le_refl _, Nat.le_refl _, rfl⟩, id⟩
  · exact ⟨.refl, id⟩

/-- The requests of a root transaction, and those of none, come through one scope each and with the
settings of one program. -/
def Uniform (load : List PendingRequest) : Prop :=
  ∀ x ∈ load, ∀ y ∈ load, x.client.transaction? = y.client.transaction? →
    x.client.scope = y.client.scope ∧ x.client.settings = y.client.settings

variable [Backend β]

/-- **Through whose client a batch runs.** Calls through clients of any scopes, in any interleaving with
flushes, with callers that are given up, with scopes that end and with anything else that others do. The
requests of a batch are of one root transaction, or of none, so that they go over the connection that their
callers named; and a request is not refused while its own scope is open if the scope of the first request
in the batch is around it. If the requests that a flush takes at once come through one scope for each root
transaction, the batch runs through the very client of each of its requests, but for its cache. -/
theorem through_of_runs (hkeeps : r.Keeps T) (hfresh : Fresh r s) (hrelies : T.relies s.backend.database)
    (calls : List Call) (hserves : ∀ call ∈ calls, T.serves call.client)
    (hrun : Runs (Proceeds (r.Beyond T)) r.joined (r.outset s calls) es q) {place : Nat} {h : Handed}
    (hh : q.state.backend.batches[place]? = some h) :
    ∃ load requests, Gathered r calls es q.state place h load requests ∧
      (Client.Coherent T.serves → ∀ x ∈ requests, h.client.connection? = x.client.connection? ∧
        (h.client.Encloses x.client → ∀ s : Store (Observed β), x.client.isOpen s = true →
          h.client.RunsAs x.client s)) ∧
      (Uniform load → ∀ x ∈ requests, h.client = x.client.withCache h.client.cache ∧
        ∀ request, (h.client.run request : Work (Observed β) ResultSet) = x.client.run request) := by
  -- callers that are given up change nothing, so they may as well have stayed
  obtain ⟨q', -, hmirrors, hruns, -⟩ := runs_of_departing
    (books_outset (T := T) hfresh hrelies hserves).shows (.refl _) hrun
  obtain ⟨A, loads, hbooks, hloaded, hsourced, hcalls⟩ := loaded_of_runs hkeeps hfresh hrelies hserves hruns
  rw [← hmirrors.state] at hh ⊢
  obtain ⟨load, requests, hgathered⟩ := hbooks.gathered hloaded hsourced hcalls hh
  have hserved : ∀ x ∈ requests, T.serves x.client := fun x hx =>
    hserves _ (hgathered.named x (hgathered.taken.subset (hgathered.mem_load hx)))
  obtain ⟨first, hfirst, hclient⟩ := hgathered.mem_first
  refine ⟨load, requests, hgathered, fun hcoherent x hx => ?_, fun huniform x hx => ?_⟩
  · have htransaction := hgathered.together x hx
    have hconnection : h.client.connection? = x.client.connection? :=
      hclient ▸ hcoherent _ _ (hserved first hfirst) (hserved x hx) (hclient ▸ htransaction)
    exact ⟨hconnection, fun hencloses s hopen => hencloses.runsAs htransaction hconnection hopen⟩
  · obtain ⟨hscope, hsettings⟩ := huniform first (hgathered.mem_load hfirst) x (hgathered.mem_load hx)
      (hclient ▸ hgathered.together x hx)
    rw [← hclient] at hscope hsettings
    have hsame : h.client = x.client.withCache h.client.cache := by
      rw [Client.withCache, ← hscope, ← hsettings]
    refine ⟨hsame, fun request => ?_⟩
    rw [hsame]
    exact x.client.run_withCache _ request

/-! ### Scopes of one transaction -/

/-- A client in a root transaction. -/
def rootClient : Client := plainClient.inScope ⟨1, 1, 0, [0]⟩

/-- A client in a savepoint of it. -/
def savepointClient : Client := plainClient.inScope ⟨1, 1, 1, [0, 1]⟩

/-- A request of the root transaction, and then one of its savepoint. -/
def scopedCalls : List Call :=
  [.resolve rootClient (.ok (.string "a")), .resolve savepointClient (.ok (.string "b"))]

/-- What batches may do that run with clients of the two scopes. -/
def scopedTerms : Terms Mirror := { Terms.free with serves := (· ∈ [rootClient, savepointClient]) }

theorem keeps_scopedTerms : mirrored.Keeps scopedTerms := by
  intro client _ inputs
  change (Batch.positional .any .any askMirror client inputs).Obeys (mirrored.rules _ _) fun _ => True
  rw [Batch.positional]
  exact obeys_query fun encoded => obeys_run_wire (fun _ _ _ hwire => ⟨hwire.aside, trivial⟩)
    (fun _ => trivial) client _

/-- Both scopes are open. -/
def scopedStore : Store (Observed Mirror) := { mirrorStore with ended := [false, false] }

theorem run_scopedCalls :
    ((all (scopedCalls.map (Call.run mirrored.observed))).run scopedStore).map
        (fun o => (o.1, o.2.backend.batches.map fun h => (h.client.scope, h.inputs))) =
      some (["a", "b"].map fun text => .ok (some (.object [("value", .string text)])),
        [(rootClient.scope, [.ok (.string "a"), .ok (.string "b")])]) := by
  with_unfolding_all rfl

/-- The two requests share a batch, which runs with the client of the root transaction: the request of
the savepoint goes over its own connection, and is not refused while the savepoint is open. -/
theorem through_scopedCalls :
    mirrored.Keeps scopedTerms ∧ Fresh mirrored scopedStore ∧ Client.Coherent scopedTerms.serves ∧
    (∀ call ∈ scopedCalls, scopedTerms.serves call.client) ∧ ∃ es q h load requests,
      Runs (Proceeds (mirrored.Beyond scopedTerms)) mirrored.joined
        (mirrored.outset scopedStore scopedCalls) es q ∧
      q.state.backend.batches[0]? = some h ∧ h.client.scope = rootClient.scope ∧
      Gathered mirrored scopedCalls es q.state 0 h load requests ∧
      requests.map (·.input) = [.ok (.string "a"), .ok (.string "b")] ∧
      ∀ x ∈ requests, ∀ s : Store (Observed Mirror), x.client.isOpen s = true →
        h.client.RunsAs x.client s := by
  have hfresh : Fresh mirrored scopedStore :=
    ⟨fresh_mirrorStore.queue, fresh_mirrorStore.cache, fresh_mirrorStore.batches⟩
  have hcoherent : Client.Coherent scopedTerms.serves := by
    intro c d hc hd _
    simp only [scopedTerms, List.mem_cons, List.not_mem_nil, or_false] at hc hd
    rcases hc with rfl | rfl <;> rcases hd with rfl | rfl <;> rfl
  have hserves : ∀ call ∈ scopedCalls, scopedTerms.serves call.client := by
    intro call hcall
    simp only [scopedCalls, List.mem_cons, List.not_mem_nil, or_false] at hcall
    rcases hcall with rfl | rfl <;> simp [scopedTerms, Call.client]
  obtain ⟨⟨outcomes, s'⟩, hrun, hlast⟩ := Option.map_eq_some_iff.1 run_scopedCalls
  obtain ⟨-, hbatches⟩ := Prod.mk.inj hlast
  have hall : ∃ es tasks, Runs (Goes (mirrored.Beyond scopedTerms)) mirrored.joined
      (mirrored.outset scopedStore scopedCalls) es ⟨s', outcomes.map .done, tasks⟩ :=
    runs_of_run orderly_mirrored hrun
  obtain ⟨es, tasks, hruns⟩ := hall
  obtain ⟨h, hh, hrecorded⟩ := List.map_eq_singleton_iff.1 hbatches
  obtain ⟨hscope, hinputs⟩ := Prod.mk.inj hrecorded
  have hget : s'.backend.batches[0]? = some h := by rw [hh]; rfl
  obtain ⟨load, requests, hgathered, hthrough, -⟩ := through_of_runs keeps_scopedTerms hfresh trivial
    scopedCalls hserves (proceeds_of_runs hruns) hget
  refine ⟨keeps_scopedTerms, hfresh, hcoherent, hserves, es, _, h, load, requests,
    proceeds_of_runs hruns, hget, hscope, hgathered, hgathered.inputs ▸ hinputs, fun x hx s hopen => ?_⟩
  refine (hthrough hcoherent x hx).2 (fun scope hc => ?_) s hopen
  -- the scope of the root transaction is around both scopes
  obtain rfl : scope = ⟨1, 1, 0, [0]⟩ := Option.some.inj (hc.symm.trans hscope)
  have hasked := hgathered.named x (hgathered.taken.subset (hgathered.mem_load hx))
  simp only [scopedCalls, List.mem_cons, List.not_mem_nil, or_false, Call.resolve.injEq] at hasked
  rcases hasked with ⟨hclient, -⟩ | ⟨hclient, -⟩
  · exact ⟨⟨1, 1, 0, [0]⟩, by rw [hclient]; rfl, List.prefix_refl _⟩
  · exact ⟨⟨1, 1, 1, [0, 1]⟩, by rw [hclient]; rfl, List.prefix_append [0] [1]⟩

/-- A savepoint whose operation is given up while its request is in the queue, and then a request of the
transaction around it. The transaction hands on what that one is answered. -/
def savepointGivenUp : Work (Observed Mirror) (Outcome Json) :=
  plainClient.transact fun root => .mk do
    let _ ← giveUpWhen (fun _ => true) (root.transact fun savepoint =>
      mirrored.observed.resolveIn savepoint (.ok (.string "a"))).run
    let answer ← (mirrored.observed.resolveIn root (.ok (.string "b"))).run
    return .ok answer

/-- **A savepoint that has ended fails requests of the transaction around it.** Both requests are in one
batch, which runs with the client of the savepoint: no query reaches the connection, and the request of
the transaction fails because a scope has ended, though its own is open and is committed after it. -/
theorem ended_savepoint_fails_transaction : ∃ s', savepointGivenUp.run.run mirrorStore =
      some (.ok (.error .scopeEnded), s') ∧
    s'.backend.batches.map (fun h => (h.client.scope.map (·.depth), h.inputs)) =
      [(some 1, [.ok (.string "a"), .ok (.string "b")])] ∧
    s'.log = [.acquired .general 1, .script 1 "BEGIN", .script 1 "SAVEPOINT sqlfx1",
      .script 1 "ROLLBACK TO SAVEPOINT sqlfx1", .script 1 "COMMIT", .released 1] := by
  with_unfolding_all exact ⟨_, rfl, rfl, rfl⟩

end Resolver

end SqlClient
