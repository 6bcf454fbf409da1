import SqlClient.Proofs.Resolver.Sources
/-!
# Resolvers — isolation

Calls through clients of any transactions and of none share one resolver and its caches. What a call
returns comes from a batch that ran with a client of its own root transaction, or was given through
one (`isolated_of_runs`): the root transaction is part of every cache key and decides which requests
go together.
-/

namespace SqlClient

namespace Resolver

open Coroutine Ensemble

variable {β : Type} {r : Resolver (Observed β)} {T : Terms β} {s : Store (Observed β)}
  {p q : Ensemble (Store (Observed β)) (Outcome (Option Json))} {es : List PendingRequest}

/-- A batch that was run for clients of a root transaction, or of none, has returned an answer for an
input. -/
def FromBatch (s : Store (Observed β)) (transaction : Option Nat) (input : Input)
    (answer : Outcome Json) : Prop :=
  ∃ h ∈ s.backend.batches, h.client.transaction? = transaction ∧
    ∃ (i : Nat) (input' : Input) (answers : List (Outcome Json)), h.inputs[i]? = some input' ∧
      Schema.key input' = Schema.key input ∧ h.answers = some answers ∧
      resultAt h.inputs.length answers i = some answer

/-- An answer for an input was given, by a call that has returned, through a client of a root
transaction, or of none. -/
def FromGift (calls : List Call) (p : Ensemble (Store (Observed β)) (Outcome (Option Json)))
    (transaction : Option Nat) (input : Input) (answer : Outcome Json) : Prop :=
  ∃ (i : Nat) (owner : Client) (input' : Input) (value : Json),
    calls[i]? = some (.populate owner input' value) ∧ p.callers[i]? = some (.done (.ok none)) ∧
    owner.transaction? = transaction ∧ Schema.key input' = Schema.key input ∧ answer = .ok value

/-- What a request through a client returns stays within the client's root transaction, or outside of
all: its input cannot be written, or its answer is that of a batch that was run for a client of the
same transaction, or was given through one. -/
def Confined (calls : List Call) (p : Ensemble (Store (Observed β)) (Outcome (Option Json)))
    (client : Client) (input : Input) (o : Outcome (Option Json)) : Prop :=
  (∃ e, Schema.key input = .error e ∧ o = .error e) ∨
    ∃ answer, o = answer.map some ∧ (FromBatch p.state client.transaction? input answer ∨
      FromGift calls p client.transaction? input answer)

/-- **Isolation.** Any calls through a resolver, by clients of any transactions and of none, in any
interleaving: no answer crosses the boundary of a root transaction, in either direction. -/
theorem isolated_of_runs (hkeeps : r.Keeps T) (hfresh : Fresh r s)
    (hrelies : T.relies s.backend.database) (calls : List Call)
    (hserves : ∀ call ∈ calls, T.serves call.client)
    (hrun : Runs (Goes (r.Beyond T)) r.joined (r.outset s calls) es q) {i : Nat} {client : Client}
    {input : Input} {o : Outcome (Option Json)} (hcall : calls[i]? = some (.resolve client input))
    (hdone : q.callers[i]? = some (.done o)) : Confined calls q client input o := by
  obtain ⟨A, hbooks, hsourced, rfl⟩ := sourced_of_runs hkeeps hfresh hrelies hserves hrun
  rcases result_of_done hbooks.shows hsourced hcall hdone with ⟨e, hkey, rfl⟩ |
    ⟨key, slot, a, hkey, hholds, hslot, rfl⟩
  · refine .inl ⟨e, ?_, rfl⟩
    rw [Resolver.key] at hkey
    cases htext : Schema.key input with
    | error e' => rw [htext] at hkey; cases hkey; rfl
    | ok text => rw [htext] at hkey; cases hkey
  · obtain ⟨-, htransaction, htext⟩ := tag_of_key hkey
    rcases hholds with ⟨x, hx, rfl, hkey'⟩ | ⟨g, hg, rfl, hkey'⟩
    · -- the slot was opened for a request, which went into a batch with others of its transaction
      obtain ⟨-, htransaction', htext'⟩ := tag_of_key hkey'
      obtain ⟨place, requests, j, answers, answer, hplace, hj, hanswers, hanswer, rfl⟩ :=
        hbooks.answer_of_asked (hbooks.asked ▸ hx) hslot
      refine .inr ⟨answer, conclude_map r answer, .inl ?_⟩
      obtain ⟨h, hh, hreturned⟩ := Option.bind_eq_some_iff.1 hanswers
      rw [hbooks.shows.store] at hh
      obtain ⟨hclient, hinputs, -⟩ := hbooks.recorded.batches place requests h hplace hh
      have hcut := hbooks.accounted.batches requests
        (List.mem_append_left _ (List.mem_of_getElem? hplace))
      obtain ⟨first, others, rfl⟩ := List.exists_cons_of_ne_nil hcut.nonempty
      have hfirst : first.client = h.client := by simpa using hclient
      refine ⟨h, ?_, ?_, j, x.input, answers, ?_, htext'.trans htext.symm, hreturned, ?_⟩
      · rw [hbooks.shows.store]
        exact List.mem_of_getElem? hh
      · -- a batch is cut out of the requests of one transaction
        rw [← hfirst, hcut.together first (List.mem_cons_self ..) x (List.mem_of_getElem? hj),
          ← htransaction', htransaction]
      · rw [hinputs, List.getElem?_map, hj]
        rfl
      · rw [hinputs, List.length_map]
        exact hanswer
    · -- it was opened for a gift
      obtain ⟨-, htransaction', htext'⟩ := tag_of_key hkey'
      have hgiven := hbooks.delivered.given g hg
      rw [hbooks.shows.store, hgiven] at hslot
      cases hslot
      refine .inr ⟨.ok g.value, conclude_map r (.ok g.value), .inr ?_⟩
      obtain ⟨j, hj⟩ := List.mem_iff_getElem?.1 (hsourced.given g hg)
      refine ⟨j, g.owner, g.input, g.value, ?_, ?_, htransaction'.symm.trans htransaction,
        htext'.trans htext.symm, rfl⟩
      · rw [List.getElem?_map, hj]
        rfl
      · rw [hbooks.shows.calls, List.getElem?_map, hj]
        rfl

/-- A client of a root transaction. -/
def memberClient (transaction : Nat) : Client :=
  plainClient.inScope ⟨transaction, transaction, 0, [transaction]⟩

/-- The same two inputs inside a transaction and outside. The transaction has an answer for the second
one, which is forgotten outside. -/
def mixedCalls : List Call :=
  [.populate (memberClient 1) (.ok (.string "b")) (.bool true), .invalidate plainClient (.ok (.string "b")),
    .resolve (memberClient 1) (.ok (.string "a")), .resolve plainClient (.ok (.string "a")),
    .resolve (memberClient 1) (.ok (.string "b")), .resolve plainClient (.ok (.string "b"))]

/-- What the calls return. -/
def mixedOutcomes : List (Outcome (Option Json)) :=
  [.ok none, .ok none, .ok (some (.string "a")), .ok (some (.string "a")), .ok (some (.bool true)),
    .ok (some (.string "b"))]

theorem run_mixedCalls :
    ((all (mixedCalls.map (Call.run echo.observed))).run quietStore).map
        (fun o => (o.1, o.2.backend.batches.map fun h => (h.client.transaction?, h.inputs))) =
      some (mixedOutcomes, [(some 1, [.ok (.string "a")]),
        (none, [.ok (.string "a"), .ok (.string "b")])]) := by
  with_unfolding_all rfl

/-- The batches of `mixedCalls` keep the transaction apart, and what was given inside it is returned
inside only. -/
theorem isolated_mixedCalls :
    echo.Keeps .free ∧ Fresh echo quietStore ∧ ∃ es q,
      Runs (Goes (echo.Beyond .free)) echo.joined (echo.outset quietStore mixedCalls) es q ∧
      mixedCalls[4]? = some (.resolve (memberClient 1) (.ok (.string "b"))) ∧
      q.callers = mixedOutcomes.map .done ∧
      Confined mixedCalls q (memberClient 1) (.ok (.string "b")) (.ok (some (.bool true))) := by
  have hkeeps : echo.Keeps .free := fun _ _ _ => trivial
  obtain ⟨⟨outcomes, s'⟩, hrun, hlast⟩ := Option.map_eq_some_iff.1 run_mixedCalls
  obtain ⟨rfl, -⟩ := Prod.mk.inj hlast
  have hall : ∃ es tasks, Runs (Goes (echo.Beyond .free)) echo.joined
      (echo.outset quietStore mixedCalls) es ⟨s', mixedOutcomes.map .done, tasks⟩ :=
    runs_of_run (r := echo) (fun _ _ => trivial) hrun
  obtain ⟨es, tasks, hruns⟩ := hall
  exact ⟨hkeeps, fresh_quietStore, es, _, hruns, rfl, rfl,
    isolated_of_runs (i := 4) hkeeps fresh_quietStore trivial mixedCalls (fun _ _ => trivial) hruns rfl rfl⟩

end Resolver

end SqlClient
