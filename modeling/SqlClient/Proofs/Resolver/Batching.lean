import SqlClient.Proofs.Coroutine.Progress
import SqlClient.Proofs.Resolver.Books
/-!
# Resolvers — batching

What the batch queue of a resolver does with the requests that join it, in every interleaving of calls
with its flushes (`batching_of_runs`): one flush is outstanding exactly when the queue says so, every
request gets into exactly one batch, every batch is cut as the resolver's limit and the requests'
transactions say, and every request is answered once, from its own place in what its batch returned.
-/

namespace SqlClient

namespace Resolver

open Coroutine Ensemble

variable {β : Type} {r : Resolver (Observed β)} {T : Terms β} {A : Traffic β}
  {s : Store (Observed β)} {p q : Ensemble (Store (Observed β)) (Outcome (Option Json))}
  {asked es : List PendingRequest}

/-- The record and the slots say of a batch that it has returned and each of its requests has its
answer. -/
def HasAnswered (r : Resolver (Observed β)) (s : Store (Observed β)) (place : Nat)
    (requests : List PendingRequest) : Prop :=
  ∃ answers, answersAt s place = some answers ∧ Answered r requests answers s

/-- What has become of the requests `asked` that have joined the queue of a resolver, in the order in
which they came. -/
structure Batching (r : Resolver (Observed β)) (asked : List PendingRequest)
    (p : Ensemble (Store (Observed β)) (Outcome (Option Json))) (A : Traffic β) : Prop where
  shows : A.Shows r p
  /-- One flush is outstanding if the queue says that one is scheduled, and none otherwise. -/
  flush : A.flushes = if (p.state.queue r.queue).flushScheduled then 1 else 0
  waiting : (p.state.queue r.queue).items ≠ [] → (p.state.queue r.queue).flushScheduled = true
  /-- Every request is in the queue, in a batch that is about to be handed over, or in one that has
  been, and in no two of them. -/
  requests : asked.Perm
    (A.world.ledger.handed.flatten ++ (A.unhanded.flatten ++ (p.state.queue r.queue).items))
  distinct : (asked.map (·.slot)).Nodup
  /-- The batches are the pieces that the queue was cut into, and they are no more than requests. -/
  batches : ∀ b ∈ A.world.ledger.handed ++ A.unhanded,
    BatchQueue.Cut (·.client.transaction?) r.limit asked b
  finite : (A.world.ledger.handed ++ A.unhanded).length ≤ asked.length
  /-- The batches handed over are those that the batch function was called with. -/
  handed : p.state.backend.batches.map (fun h => (some h.client, h.inputs)) =
    A.world.ledger.handed.map fun b => (b.head?.map (·.client), b.map (·.input))
  /-- Requests have no answer until their batch has returned, and then each has that of its place. -/
  unhanded : ∀ x ∈ A.unhanded.flatten ++ (p.state.queue r.queue).items,
    p.state.slots[x.slot]? = some none
  answered : ∀ (place : Nat) requests, A.world.ledger.handed[place]? = some requests →
    (∀ x ∈ requests, p.state.slots[x.slot]? = some none) ∨ HasAnswered r p.state place requests

theorem length_le_length_flatten {α : Type} {ls : List (List α)} (h : ∀ l ∈ ls, l ≠ []) :
    ls.length ≤ ls.flatten.length := by
  induction ls with
  | nil => exact Nat.le_refl _
  | cons l ls ih =>
    have hpos := List.length_pos_iff.2 (h l (List.mem_cons_self ..))
    have := ih fun l hl => h l (List.mem_cons_of_mem _ hl)
    simp only [List.length_cons, List.flatten_cons, List.length_append]
    omega

/-- The books tell what has become of the requests. -/
theorem Books.batching (h : Books r T asked p A) : Batching r asked p A := by
  obtain ⟨hshows, rfl, -, -, -, hscheduled, haccounted, hrecorded, hunanswered, hdelivered⟩ := h
  refine ⟨hshows, ?_, ?_, ?_, haccounted.distinct, haccounted.batches, ?_, ?_, ?_, ?_⟩
  · rw [hshows.store]
    exact hscheduled.flushes
  · rw [hshows.store]
    exact hscheduled.items
  · rw [hshows.store]
    exact haccounted.requests
  · -- every batch has a request, so there are as many of these at least
    refine (length_le_length_flatten fun b hb => (haccounted.batches b hb).nonempty).trans ?_
    rw [haccounted.requests.length_eq, List.flatten_append, ← List.append_assoc]
    simp
  · refine List.ext_getElem ?_ fun i hi hi' => ?_
    · rw [hshows.store]
      simp [hrecorded.length]
    · simp only [List.length_map] at hi hi'
      have htells := hrecorded.batches i _ _ (List.getElem?_eq_getElem hi')
        (List.getElem?_eq_getElem (hrecorded.length ▸ hi'))
      simp only [List.getElem_map, hshows.store, htells.client, htells.inputs]
  · rw [hshows.store]
    exact fun x hx => hunanswered.empty x (List.mem_append_right _ hx)
  · rw [hshows.store]
    intro place requests hrequests
    rcases hdelivered.served hrecorded hrequests with ⟨o, ho, -, rfl⟩ | ⟨answers, hanswers, hanswered⟩
    · exact .inl fun x hx =>
        hunanswered.empty x (List.mem_append_left _ (List.mem_flatMap.2 ⟨o, ho, hx⟩))
    · exact .inr ⟨answers, hanswers, hanswered⟩

/-- The request has been handed over, and if its batch has returned, it has its answer. -/
def Served (r : Resolver (Observed β)) (x : PendingRequest) (asked : List PendingRequest)
    (p : Ensemble (Store (Observed β)) (Outcome (Option Json))) : Prop :=
  ∃ A, Batching r asked p A ∧ ∃ (place : Nat) (requests : List PendingRequest),
    A.world.ledger.handed[place]? = some requests ∧ x ∈ requests ∧
    (answersAt p.state place = none ∨ HasAnswered r p.state place requests)

/-- Whoever has joined the queue is served, or somebody can go on. -/
theorem Books.served (h : Books r T asked p A) {x : PendingRequest} (hx : x ∈ asked) :
    Served r x asked p ∨ CanGo p := by
  have hscheduled := h.scheduled
  cases h.whereabouts hx with
  | @serving o ho hplace hanswers hx =>
    cases hdone : o.answers with
    | none =>
      refine .inl ⟨A, h.batching, o.place, _, hplace, hx, .inl ?_⟩
      rw [h.shows.store, hanswers, hdone]
    | some answers =>
      exact .inr (canGo_of_returned h.shows ho (by simp [hdone]) (List.ne_nil_of_mem hx))
  | @answered place requests answers hplace hx hanswers hanswered =>
    refine .inl ⟨A, h.batching, place, requests, hplace, hx, .inr ?_⟩
    rw [h.shows.store]
    exact ⟨answers, hanswers, hanswered⟩
  | unhanded hcut hx => exact .inr (canGo_of_unhanded h.shows hcut (List.ne_nil_of_mem hx))
  | queued hx =>
    exact .inr (canGo_of_scheduled h.shows h.conforms hscheduled
      (hscheduled.items (List.ne_nil_of_mem hx)))

/-- **Batching.** A resolver that keeps to its terms, and calls through it in any interleaving with its
flushes, its batches and anything that others do beyond it. At every point the requests that have
joined the queue are where `Batching` says; what is in a slot stays there, so that none is answered
twice; and every one of them comes to be handed over, and to be answered once its batch has
returned. -/
theorem batching_of_runs (hkeeps : r.Keeps T) (hfresh : Fresh r s)
    (hrelies : T.relies s.backend.database) (calls : List Call)
    (hserves : ∀ call ∈ calls, T.serves call.client)
    (hrun : Runs (Goes (r.Beyond T)) r.joined (r.outset s calls) es q) :
    (∃ A, Batching r es q A) ∧
      (∀ fs q', Runs (Goes (r.Beyond T)) r.joined q fs q' → Stays q.state q'.state) ∧
      ∀ x ∈ es, Inevitable (r.Beyond T) Later r.joined (Served r x) es q := by
  obtain ⟨A, hbooks⟩ := books_of_runs hkeeps (books_outset hfresh hrelies hserves) hrun
  rw [List.nil_append] at hbooks
  refine ⟨⟨A, hbooks.batching⟩, fun fs q' hrun' => stays_of_runs hkeeps hbooks hrun', fun x hx => ?_⟩
  refine inevitable_of_progress (I := fun es p => x ∈ es ∧ ∃ A, Books r T es p A) ?_ ?_ ⟨hx, A, hbooks⟩
  · rintro es p q ⟨hx, A, h⟩ hgo
    obtain ⟨A', -, h'⟩ := h.goes hkeeps hgo
    exact ⟨List.mem_append_left _ hx, A', h'⟩
  · rintro es p ⟨hx, A, h⟩
    exact h.served hx

/-- Four calls, two of them with the same input. -/
def fourCalls : List Call := ["a", "b", "a", "c"].map fun text => .resolve plainClient (.ok (.string text))

theorem run_fourCalls :
    ((all (fourCalls.map (Call.run echo.observed))).run quietStore).map
        (fun o => (o.1, o.2.backend.batches.map (·.inputs))) =
      some (["a", "b", "a", "c"].map fun text => .ok (some (.string text)),
        [[.ok (.string "a"), .ok (.string "b")], [.ok (.string "c")]]) := by
  with_unfolding_all rfl

/-- The four calls ask for three answers, which take two batches. -/
theorem batching_fourCalls :
    echo.Keeps .free ∧ Fresh echo quietStore ∧ ∃ es q,
      Runs (Goes (echo.Beyond .free)) echo.joined (echo.outset quietStore fourCalls) es q ∧
      q.callers = (["a", "b", "a", "c"].map fun text => .done (.ok (some (.string text)))) ∧
      q.state.backend.batches.map (·.inputs) =
        [[.ok (.string "a"), .ok (.string "b")], [.ok (.string "c")]] ∧
      (∃ A, Batching echo es q A) ∧
      (∀ fs q', Runs (Goes (echo.Beyond .free)) echo.joined q fs q' → Stays q.state q'.state) ∧
      ∀ x ∈ es, Inevitable (echo.Beyond .free) Later echo.joined (Served echo x) es q := by
  have hkeeps : echo.Keeps .free := fun _ _ _ => trivial
  obtain ⟨⟨outcomes, s'⟩, hrun, hlast⟩ := Option.map_eq_some_iff.1 run_fourCalls
  obtain ⟨houtcomes, hbatches⟩ := Prod.mk.inj hlast
  have hall : ∃ es tasks, Runs (Goes (echo.Beyond .free)) echo.joined
      (echo.outset quietStore fourCalls) es ⟨s', outcomes.map .done, tasks⟩ :=
    runs_of_run (r := echo) (fun _ _ => trivial) hrun
  obtain ⟨es, tasks, hruns⟩ := hall
  refine ⟨hkeeps, fresh_quietStore, es, _, hruns, ?_, hbatches,
    batching_of_runs hkeeps fresh_quietStore trivial fourCalls (fun _ _ => trivial) hruns⟩
  rw [show outcomes = _ from houtcomes]
  rfl

end Resolver

end SqlClient
