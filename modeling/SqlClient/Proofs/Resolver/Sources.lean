import SqlClient.Proofs.Resolver.Books
/-!
# Resolvers — where answers come from

Every slot that a cache keeps under a key, and every slot that a call waits for, was opened for a
request or a gift of that key (`Sourced`), and what a call returns is what its slot holds. Who asked
and who gave is one of the calls.
-/

namespace SqlClient

namespace Resolver

open Coroutine Ensemble

variable {β : Type} {r : Resolver (Observed β)} {T : Terms β} {A A' : Traffic β}
  {s s' : Store (Observed β)} {L L' : Ledger} {key : CacheKey} {slot : Nat} {calls : List Call}

/-! ## Slots and keys -/

/-- A slot was opened for a request or a gift of a key. -/
def Ledger.Holds (L : Ledger) (r : Resolver (Observed β)) (key : CacheKey) (slot : Nat) : Prop :=
  (∃ q ∈ L.asked, q.slot = slot ∧ r.key q.client q.input = .ok key) ∨
    ∃ g ∈ L.given, g.slot = slot ∧ r.key g.owner g.input = .ok key

/-- Nothing is struck from a ledger. -/
def Ledger.Grows (L L' : Ledger) : Prop := L.asked ⊆ L'.asked ∧ L.given ⊆ L'.given

theorem Ledger.Holds.mono (h : L.Holds r key slot) (hgrows : L.Grows L') : L'.Holds r key slot := by
  rcases h with ⟨q, hq, h⟩ | ⟨g, hg, h⟩
  · exact .inl ⟨q, hgrows.1 hq, h⟩
  · exact .inr ⟨g, hgrows.2 hg, h⟩

theorem Effect.grows (he : Effect r T A A') : A.world.ledger.Grows A'.world.ledger := by
  cases he with
  | quiet _ hledger _ _ _ | drain _ hledger _ _ _ | answer _ _ hledger _ _ _ _
  | deliver _ hledger _ _ _ =>
    rw [hledger]
    exact ⟨List.Subset.refl _, List.Subset.refl _⟩
  | ask _ _ hledger _ _ _ =>
    rw [hledger]
    exact ⟨List.subset_append_left _ _, List.Subset.refl _⟩
  | give _ _ hledger _ _ _ =>
    rw [hledger]
    exact ⟨List.Subset.refl _, List.subset_append_left _ _⟩
  | hand _ hledger _ _ _ =>
    rw [hledger]
    exact ⟨List.Subset.refl _, List.Subset.refl _⟩

theorem tag_of_key {client : Client} {input : Input} (h : r.key client input = .ok key) :
    key.tag = r.tag ∧ key.transaction = client.transaction? ∧ Schema.key input = .ok key.input := by
  rw [Resolver.key] at h
  cases htext : Schema.key input with
  | error e => rw [htext] at h; cases h
  | ok text =>
    rw [htext] at h
    cases h
    exact ⟨rfl, rfl, rfl⟩

/-! ## Caches -/

/-- Every slot that a cache keeps under a key of the resolver was opened for that key. -/
def CachesSourced (r : Resolver (Observed β)) (A : Traffic β) : Prop :=
  ∀ n key slot, key.tag = r.tag → A.world.store.Serves n key slot → A.world.ledger.Holds r key slot

theorem Effect.cachesSourced (he : Effect r T A A') (h : CachesSourced r A) : CachesSourced r A' := by
  intro n key slot htag hserves
  have hbefore (hs : A.world.store.Serves n key slot) : A'.world.ledger.Holds r key slot :=
    (h n key slot htag hs).mono he.grows
  cases he with
  | quiet haside _ _ _ _ => exact hbefore (haside.serves n key slot htag hserves)
  | ask hkey hstore hledger _ _ _ =>
    rw [hstore] at hserves
    rcases serves_enqueue hserves with hs | ⟨rfl, rfl⟩
    · exact hbefore hs
    · rw [hledger]
      exact .inl ⟨_, List.mem_append_right _ (List.mem_singleton_self _), rfl, hkey⟩
  | give hkey hstore hledger _ _ _ =>
    rw [hstore] at hserves
    rcases serves_give hserves with hs | ⟨rfl, rfl⟩
    · exact hbefore hs
    · rw [hledger]
      exact .inr ⟨_, List.mem_append_right _ (List.mem_singleton_self _), rfl, hkey⟩
  | drain hstore _ _ _ _ => rw [hstore] at hserves; exact hbefore hserves
  | hand hstore _ _ _ _ => rw [hstore] at hserves; exact hbefore hserves
  | answer _ hstore _ _ _ _ _ => rw [hstore] at hserves; exact hbefore hserves
  | @deliver place requests answers hstore _ _ _ _ =>
    obtain ⟨slots, hslots⟩ := deliverTo_eq r requests answers A.world.store
    rw [hstore, hslots] at hserves
    exact hbefore hserves

/-! ## Calls -/

/-- Where a call stands: it waits for a slot that was opened for its key, or has read one. -/
def CallStage.Sourced (r : Resolver (Observed β)) (W : World β) (call : Call) : CallStage → Prop
  | .asked => True
  | .launching client key ticket | .waiting client key ticket =>
    ∃ input, call = .resolve client input ∧ r.key client input = .ok key ∧
      W.ledger.Holds r key ticket.slot
  | .collecting client key ticket =>
    ∃ input, call = .resolve client input ∧ r.key client input = .ok key ∧
      W.ledger.Holds r key ticket.slot ∧ ∃ o, W.store.slots[ticket.slot]? = some (some o)
  | .returned result =>
    ∀ client input, call = .resolve client input → ∃ key slot o, r.key client input = .ok key ∧
      W.ledger.Holds r key slot ∧ W.store.slots[slot]? = some (some o) ∧ result = conclude r o

theorem CallStage.Sourced.mono {W W' : World β} {call : Call} {stage : CallStage}
    (h : stage.Sourced r W call) (hgrows : W.ledger.Grows W'.ledger)
    (hstays : Stays W.store W'.store) : stage.Sourced r W' call := by
  cases stage with
  | asked => trivial
  | launching client key ticket | waiting client key ticket =>
    obtain ⟨input, hcall, hkey, hholds⟩ := h
    exact ⟨input, hcall, hkey, hholds.mono hgrows⟩
  | collecting client key ticket =>
    obtain ⟨input, hcall, hkey, hholds, o, ho⟩ := h
    exact ⟨input, hcall, hkey, hholds.mono hgrows, o, hstays _ _ ho⟩
  | returned result =>
    intro client input hcall
    obtain ⟨key, slot, o, hkey, hholds, ho, hresult⟩ := h client input hcall
    exact ⟨key, slot, o, hkey, hholds.mono hgrows, hstays _ _ ho, hresult⟩

/-- A call reads what its slot holds. -/
theorem collect_eq {client : Client} {ticket : Ticket} {o : Outcome Answer}
    (h : s.slots[ticket.slot]? = some (some o)) : (collect client key ticket s).1 = o := by
  have hslot : (s.changeCache client.cache (·.complete key ticket.id s.now)).slot? ticket.slot = some o := by
    change (s.slots[ticket.slot]?).join = some o
    rw [h]
    rfl
  rw [collect, hslot]
  cases o <;> rfl

theorem CallStep.sourced {W W' : World β} {call : Call} {stage stage' : CallStage}
    {ts : List (Task β)} (hstep : CallStep r W call stage W' stage' ts)
    (hcaches : ∀ n key slot, key.tag = r.tag → W.store.Serves n key slot → W.ledger.Holds r key slot)
    (hgrows : W.ledger.Grows W'.ledger) (hstays : Stays W.store W'.store)
    (h : stage.Sourced r W call) : stage'.Sourced r W' call := by
  cases hstep with
  | @hit _ client input key e hkey hlookup =>
    -- what the cache serves was put there for a request or a gift
    have hserves : W.store.Serves client.cache key e.slot :=
      ⟨e, RequestCache.mem_of_lookup? hlookup, rfl⟩
    exact ⟨input, rfl, hkey, hcaches _ _ _ (tag_of_key hkey).1 hserves⟩
  | @miss s L client input key hkey hlookup =>
    have hholds : Ledger.Holds { L with asked := L.asked ++ [⟨client, input, s.slots.length⟩] } r key
        (r.enqueue client input key s).1.slot :=
      .inl ⟨_, List.mem_append_right _ (List.mem_singleton_self _), rfl, hkey⟩
    rw [CallStage.ofTicket]
    split
    · exact ⟨input, rfl, hkey, hholds⟩
    · exact ⟨input, rfl, hkey, hholds⟩
  | launch => exact h
  | wake hready =>
    obtain ⟨input, hcall, hkey, hholds⟩ := h
    obtain ⟨o, ho⟩ := Option.isSome_iff_exists.1 hready
    exact ⟨input, hcall, hkey, hholds, o, Option.join_eq_some_iff.1 ho⟩
  | collect =>
    obtain ⟨input, rfl, hkey, hholds, o, ho⟩ := h
    intro client' input' hcall
    cases hcall
    exact ⟨_, _, o, hkey, hholds, hstays _ _ ho, by rw [collect_eq ho]⟩
  | populate _ | invalidate _ =>
    intro client input hcall
    cases hcall

/-- A call that has returned does nothing more. -/
theorem Traffic.Steps.returned {others : Store (Observed β) → Store (Observed β) → Prop}
    (hstep : Steps r others A A') {call : Call} {o : Outcome (Option Json)}
    (h : (call, .returned o) ∈ A.calls) : (call, .returned o) ∈ A'.calls := by
  cases hstep with
  | @call W W' call' stage stage' l l' tasks ts hcall =>
    simp only [List.mem_append, List.mem_cons] at h ⊢
    rcases h with h | heq | h
    · exact .inl h
    · cases heq
      cases hcall
    · exact .inr (.inr h)
  | task _ | others _ | still => exact h

/-! ## Requests and gifts -/

/-- Where everything comes from: caches and calls know slots that were opened for their keys, requests
are those of calls, and gifts those of calls that have given them. -/
structure Sourced (r : Resolver (Observed β)) (A : Traffic β) : Prop where
  caches : CachesSourced r A
  calls : ∀ call stage, (call, stage) ∈ A.calls → CallStage.Sourced r A.world call stage
  asked : ∀ q ∈ A.world.ledger.asked, .resolve q.client q.input ∈ A.calls.map Prod.fst
  given : ∀ g ∈ A.world.ledger.given,
    (.populate g.owner g.input g.value, .returned (.ok none)) ∈ A.calls

theorem Traffic.Steps.sourced {others : Store (Observed β) → Store (Observed β) → Prop}
    (hstep : Steps r others A A') (he : Effect r T A A') (hs : Scheduled r A) (hu : Unanswered r A)
    (h : Sourced r A) : Sourced r A' := by
  obtain ⟨hsame, hcalls⟩ := hstep.calls
  have hgiven : ∀ g ∈ A'.world.ledger.given, g ∈ A.world.ledger.given ∨
      (.populate g.owner g.input g.value, .returned (.ok none)) ∈ A'.calls := by
    intro g hg
    cases hstep with
    | call hcall => exact (hcall.entries.2 g hg).imp_right fun heq => by simp [heq.1, heq.2]
    | task htask => exact .inl (htask.entries.2 ▸ hg)
    | others _ | still => exact .inl hg
  refine ⟨he.cachesSourced h.caches, fun call stage' hmem => ?_, ?_, fun g hg => ?_⟩
  · rcases hcalls call stage' hmem with hmem | ⟨stage, ts, hmem, hcall⟩
    · exact (h.calls call stage' hmem).mono he.grows (he.stays hs hu)
    · exact hcall.sourced h.caches he.grows (he.stays hs hu) (h.calls call stage hmem)
  · rw [hsame]
    exact fun x hx => (hstep.asked hx).elim (h.asked x) id
  · exact (hgiven g hg).elim (fun hg => hstep.returned (h.given g hg)) id

theorem sourced_outset (hfresh : Fresh r s) (calls : List Call) : Sourced r (.outset s calls) := by
  constructor
  case caches => exact fun n key slot htag hserves => absurd hserves (hfresh.cache n key slot htag)
  case calls =>
    intro call stage hmem
    obtain ⟨call, -, heq⟩ := List.mem_map.1 hmem
    cases heq
    trivial
  case asked => exact List.forall_mem_nil _
  case given => exact List.forall_mem_nil _

/-! ## Answers -/

variable {p q : Ensemble (Store (Observed β)) (Outcome (Option Json))} {asked es : List PendingRequest}

/-- The resolver makes of an answer what it has been told. -/
theorem conclude_map (r : Resolver (Observed β)) (a : Outcome Json) :
    CallStage.conclude r (a.map fun value => ⟨r.answer, value⟩) = a.map some := by
  cases a with
  | error e => rfl
  | ok value =>
    change ((if r.answer == r.answer then .ok value else .error _ : Outcome Json)).map some = _
    rw [beq_self_eq_true, if_pos rfl]

/-- **Where everything comes from is known on every interleaving.** -/
theorem sourced_of_runs (hkeeps : r.Keeps T) (hfresh : Fresh r s) (hrelies : T.relies s.backend.database)
    (hserves : ∀ call ∈ calls, T.serves call.client)
    (hrun : Runs (Goes (r.Beyond T)) r.joined (r.outset s calls) es q) :
    ∃ A, Books r T es q A ∧ Sourced r A ∧ A.calls.map Prod.fst = calls := by
  refine hrun.keeps (I := fun es q => ∃ A, Books r T es q A ∧ Sourced r A ∧ A.calls.map Prod.fst = calls)
    ⟨.outset s calls, books_outset hfresh hrelies hserves, sourced_outset hfresh calls, ?_⟩ ?_
  · simp [Traffic.outset, Function.comp_def]
  · rintro es q q' ⟨A, h, hsourced, hcalls⟩ hgo
    obtain ⟨A', hstep, h'⟩ := h.goes hkeeps hgo
    obtain ⟨he, -⟩ := h.effect hkeeps hstep
    exact ⟨A', h', hstep.sourced he h.scheduled h.unanswered hsourced, hstep.calls.1.trans hcalls⟩

/-- The request of a slot that has an answer is in a batch that has returned, and the answer is the
one at its place. -/
theorem Books.answer_of_asked (h : Books r T asked p A) {x : PendingRequest} (hx : x ∈ asked)
    {o : Outcome Answer} (hslot : p.state.slots[x.slot]? = some (some o)) :
    ∃ (place : Nat) (requests : List PendingRequest) (i : Nat) (answers : List (Outcome Json))
      (a : Outcome Json), A.world.ledger.handed[place]? = some requests ∧ requests[i]? = some x ∧
      answersAt p.state place = some answers ∧ resultAt requests.length answers i = some a ∧
      o = a.map fun value => ⟨r.answer, value⟩ := by
  rw [h.shows.store] at hslot ⊢
  have hfilled (hpending : x ∈ A.pending r) : False := by
    rw [h.unanswered.empty x hpending] at hslot
    cases hslot
  cases h.whereabouts hx with
  | serving ho _ _ hx =>
    exact (hfilled (List.mem_append_left _ (List.mem_flatMap.2 ⟨_, ho, hx⟩))).elim
  | @answered place requests answers hplace hx hanswers hanswered =>
    obtain ⟨i, hi⟩ := List.mem_iff_getElem?.1 hx
    obtain ⟨a, ha, hsame⟩ := hanswered i x hi
    refine ⟨place, requests, i, answers, a, hplace, hi, hanswers, ha, ?_⟩
    exact Option.some.inj (Option.some.inj (hslot.symm.trans hsame))
  | unhanded hcut hx =>
    exact (hfilled (List.mem_append_right _ (List.mem_append_left _ (List.mem_flatten.2 ⟨_, hcut, hx⟩)))).elim
  | queued hx => exact (hfilled (List.mem_append_right _ (List.mem_append_right _ hx))).elim

/-- A request that has returned has found no key, or returns what its slot holds. -/
theorem result_of_done (hshows : A.Shows r p) (h : Sourced r A) {i : Nat} {client : Client}
    {input : Input} {o : Outcome (Option Json)}
    (hcall : (A.calls.map Prod.fst)[i]? = some (.resolve client input))
    (hdone : p.callers[i]? = some (.done o)) :
    (∃ e, r.key client input = .error e ∧ o = .error e) ∨
      ∃ key slot a, r.key client input = .ok key ∧ A.world.ledger.Holds r key slot ∧
        p.state.slots[slot]? = some (some a) ∧ o = CallStage.conclude r a := by
  rcases hshows.returned_of_done hcall hdone with hnokey | hreturned
  · exact .inl hnokey
  obtain ⟨key, slot, a, hkey, hholds, hslot, rfl⟩ := h.calls _ _ hreturned client input rfl
  exact .inr ⟨key, slot, a, hkey, hholds, by rw [hshows.store]; exact hslot, rfl⟩

end Resolver

end SqlClient
