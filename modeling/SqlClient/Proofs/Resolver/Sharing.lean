import SqlClient.Proofs.Json.Texts
import SqlClient.Proofs.Lists
import SqlClient.Proofs.Resolver.Batching
import SqlClient.Proofs.Resolver.Querying
import SqlClient.Proofs.Resolver.Retention
import SqlClient.Proofs.Resolver.Sources
/-!
# Resolvers — shared queries

Calls through one client share a positional resolver whose query answers each request by itself. In
every interleaving each call receives the decoded row of its own input, and as long as the cache
loses nothing, equal inputs are queried once (`shared_of_runs`).
-/

namespace SqlClient

namespace Resolver

open Coroutine Ensemble

variable {β : Type} {r : Resolver (Observed β)} {T : Terms β} {s : Store (Observed β)}

/-! ## Queries that answer by request -/

/-- What the answer to an input is, if `rowOf` is the row of a request. -/
def answerOf (request row : Shape) (rowOf : Json → Row) (input : Input) : Outcome Json :=
  (Schema.encode request input).bind fun j => Schema.decodeRow row (rowOf j)

/-- The resolver is positional, and its query through a client returns one row for each request, which
depends on that request alone. -/
structure Pointwise (r : Resolver (Observed β)) (request row : Shape) (client : Client)
    (relies : β → Prop) (rowOf : Json → Row) : Prop where
  query : ∃ run, r.batch = Batch.positional request row run ∧ ∀ requests,
    (run client requests).run.Obeys (r.rules relies Comes) fun o =>
      ∃ result, o = .ok result ∧ result.toRows = requests.map rowOf

/-- What is known of the batch function of such a resolver. -/
def Terms.pointwise (request row : Shape) (client : Client) (relies : β → Prop) (rowOf : Json → Row) :
    Terms β :=
  ⟨(· = client), relies, Comes, fun _ inputs answers => (∀ x ∈ inputs, ∃ j, Schema.encode request x = .ok j) →
    answers = inputs.map (answerOf request row rowOf)⟩

theorem keeps_pointwise {request row : Shape} {client : Client} {relies : β → Prop}
    {rowOf : Json → Row} (h : Pointwise r request row client relies rowOf) :
    r.Keeps (.pointwise request row client relies rowOf) := by
  obtain ⟨run, hbatch, hrun⟩ := h.query
  rintro _ rfl inputs
  rw [hbatch, Batch.positional, Batch.query]
  -- inputs that do not all encode are none that the terms speak of
  cases hencoded : Answers.encodeAll (Schema.encode request) inputs with
  | error e =>
    obtain ⟨before, x, after, rfl, -, hfails⟩ := mapM_eq_error_iff.1 hencoded
    intro hencodes
    obtain ⟨j, hj⟩ := hencodes x (by simp)
    rw [hfails] at hj
    cases hj
  | ok encoded =>
    refine (hrun encoded).bind fun o ho => ?_
    obtain ⟨result, rfl, hrows⟩ := ho
    intro _
    have hinputs := mapM_eq_ok_iff.1 hencoded
    have hlength : inputs.length = encoded.length := by simpa using congrArg List.length hinputs
    calc Answers.positional (Schema.decodeRow row) inputs.length result.toRows
      _ = (encoded.map rowOf).map (Schema.decodeRow row) := by
        rw [Answers.positional, hrows, if_pos (by rw [List.length_map, hlength])]
      _ = (encoded.map .ok).map fun o => Except.bind o fun j => Schema.decodeRow row (rowOf j) := by
        rw [List.map_map, List.map_map]
        rfl
      _ = inputs.map (answerOf request row rowOf) := by
        rw [← hinputs, List.map_map]
        rfl

/-! ## What calls receive -/

section Receive

variable {request row : Shape} {relies : β → Prop} {rowOf : Json → Row} {c : Client}
  {inputs : List Input} {asked : List PendingRequest} {A A' : Traffic β}
  {p q : Ensemble (Store (Observed β)) (Outcome (Option Json))}

/-- The traffic of calls through one client, by the books. -/
structure Sharing (r : Resolver (Observed β)) (request row : Shape) (relies : β → Prop)
    (rowOf : Json → Row) (c : Client) (inputs : List Input) (asked : List PendingRequest)
    (p : Ensemble (Store (Observed β)) (Outcome (Option Json))) (A : Traffic β) : Prop where
  books : Books r (.pointwise request row c relies rowOf) asked p A
  sourced : Sourced r A
  calls : A.calls.map Prod.fst = inputs.map (.resolve c)

theorem key_of_encode {x : Input} {j : Json} (h : Schema.encode request x = .ok j) :
    ∃ key, r.key c x = .ok key := by
  cases x with
  | error why => cases h
  | ok document => exact ⟨_, rfl⟩

/-- Whatever is asked for is one of the inputs. -/
theorem Sharing.origin (h : Sharing r request row relies rowOf c inputs asked p A) {x : PendingRequest}
    (hx : x ∈ asked) : x.client = c ∧ x.input ∈ inputs := by
  have hmem := h.sourced.asked x (h.books.asked ▸ hx)
  rw [h.calls] at hmem
  obtain ⟨input, hinput, heq⟩ := List.mem_map.1 hmem
  cases heq
  exact ⟨rfl, hinput⟩

/-- Every slot that was opened for a key was opened for a request, since nothing is given. -/
theorem Sharing.opener (h : Sharing r request row relies rowOf c inputs asked p A) {key : CacheKey}
    {slot : Nat} (hholds : A.world.ledger.Holds r key slot) :
    ∃ x ∈ asked, x.slot = slot ∧ x.input ∈ inputs ∧ r.key c x.input = .ok key := by
  rcases hholds with ⟨x, hx, hslot, hkey⟩ | ⟨g, hg, -, -⟩
  · rw [h.books.asked] at hx
    obtain ⟨rfl, hinput⟩ := h.origin hx
    exact ⟨x, hx, hslot, hinput, hkey⟩
  · have hmem := List.mem_map_of_mem (f := Prod.fst) (h.sourced.given g hg)
    rw [h.calls] at hmem
    obtain ⟨input, -, heq⟩ := List.mem_map.1 hmem
    cases heq

/-- Every slot that was opened for a key holds what its row decodes to. -/
theorem Sharing.content (h : Sharing r request row relies rowOf c inputs asked p A)
    (hencodes : ∀ x ∈ inputs, ∃ j, Schema.encode request x = .ok j) {key : CacheKey} {slot : Nat}
    {o : Outcome Answer} (hholds : A.world.ledger.Holds r key slot)
    (hslot : p.state.slots[slot]? = some (some o)) :
    ∃ x ∈ inputs, r.key c x = .ok key ∧
      o = (answerOf request row rowOf x).map fun value => ⟨r.answer, value⟩ := by
  obtain ⟨x, hx, rfl, hinput, hkey⟩ := h.opener hholds
  obtain ⟨place, requests, i, answers, a, hplace, hi, hanswers, ha, rfl⟩ :=
    h.books.answer_of_asked hx hslot
  obtain ⟨handed, hhanded, hreturned⟩ := Option.bind_eq_some_iff.1 hanswers
  rw [h.books.shows.store] at hhanded
  obtain ⟨-, hinputs, hterms⟩ := h.books.recorded.batches place requests handed hplace hhanded
  have hcut := h.books.accounted.batches requests
    (List.mem_append_left _ (List.mem_of_getElem? hplace))
  have hall : ∀ y ∈ handed.inputs, ∃ j, Schema.encode request y = .ok j := by
    rw [hinputs]
    intro y hy
    obtain ⟨x', hx', rfl⟩ := List.mem_map.1 hy
    exact hencodes _ (h.origin (h.books.asked ▸ hcut.ordered.subset hx')).2
  obtain rfl := hterms answers hreturned hall
  rw [resultAt, hinputs, if_pos (by simp), List.getElem?_map, List.getElem?_map, hi] at ha
  cases ha
  exact ⟨x.input, hinput, hkey, rfl⟩

/-- A call that has returned had a key, and returns what a slot of that key holds. -/
theorem Sharing.result (h : Sharing r request row relies rowOf c inputs asked p A)
    (hencodes : ∀ x ∈ inputs, ∃ j, Schema.encode request x = .ok j) {i : Nat} {x : Input}
    {o : Outcome (Option Json)} (hx : inputs[i]? = some x) (hdone : p.callers[i]? = some (.done o)) :
    ∃ key slot a, r.key c x = .ok key ∧ A.world.ledger.Holds r key slot ∧
      p.state.slots[slot]? = some (some a) ∧ o = CallStage.conclude r a := by
  have hcall : (A.calls.map Prod.fst)[i]? = some (.resolve c x) := by
    rw [h.calls, List.getElem?_map, hx]
    rfl
  refine (result_of_done h.books.shows h.sourced hcall hdone).resolve_left fun ⟨e, hkey, _⟩ => ?_
  obtain ⟨j, hj⟩ := hencodes x (List.mem_of_getElem? hx)
  obtain ⟨key, hok⟩ := @key_of_encode _ r _ c _ _ hj
  rw [hok] at hkey
  cases hkey

/-- **Each call receives the decoded row of its own input.** -/
theorem Sharing.received (h : Sharing r request row relies rowOf c inputs asked p A)
    (hencodes : ∀ x ∈ inputs, ∃ j, Schema.encode request x = .ok j)
    (hcanonical : ∀ x ∈ inputs, ∀ y ∈ inputs, Schema.key x = Schema.key y → x = y) {i : Nat} {x : Input}
    {o : Outcome (Option Json)} (hx : inputs[i]? = some x) (hdone : p.callers[i]? = some (.done o)) :
    o = (answerOf request row rowOf x).map some := by
  obtain ⟨key, slot, a, hkey, hholds, hslot, rfl⟩ := h.result hencodes hx hdone
  obtain ⟨y, hy, hkey', rfl⟩ := h.content hencodes hholds hslot
  have hsame : Schema.key y = Schema.key x := (tag_of_key hkey').2.2.trans (tag_of_key hkey).2.2.symm
  rw [hcanonical y hy x (List.mem_of_getElem? hx) hsame]
  exact conclude_map r _

/-- As long as some call has not returned, somebody can go on. -/
theorem Sharing.canGo (h : Sharing r request row relies rowOf c inputs asked p A)
    (hencodes : ∀ x ∈ inputs, ∃ j, Schema.encode request x = .ok j) {call : Call} {stage : CallStage}
    (hmem : (call, stage) ∈ A.calls) (hstage : ∀ o, stage ≠ .returned o) : CanGo p := by
  have hshows := h.books.shows
  have hcall := List.mem_map_of_mem (f := Prod.fst) hmem
  rw [h.calls] at hcall
  obtain ⟨x, hx, rfl⟩ := List.mem_map.1 hcall
  cases stage with
  | asked =>
    obtain ⟨j, hj⟩ := hencodes x hx
    obtain ⟨key, hkey⟩ := @key_of_encode _ r.observed _ c _ _ hj
    refine canGo_of_call hshows .refl hmem ?_
    rw [CallStage.code, run_resolve hkey]
    exact ⟨_, _, _, .step⟩
  | launching client key ticket => exact canGo_of_call hshows .refl hmem ⟨_, _, _, .spawn⟩
  | collecting client key ticket => exact canGo_of_call hshows .refl hmem ⟨_, _, _, .step⟩
  | returned o => exact absurd rfl (hstage o)
  | waiting client key ticket =>
    cases hslot : p.state.slot? ticket.slot with
    | some o =>
      exact canGo_of_call hshows .refl hmem ⟨_, _, _, .await (by simp [hslot])⟩
    | none =>
      obtain ⟨-, -, -, hholds⟩ := h.sourced.calls _ _ hmem
      obtain ⟨y, hy, hticket, -⟩ := h.opener hholds
      exact h.books.canGo (fun _ h => h) hy (hticket ▸ hslot)

/-- **Every call has received its row, or somebody can go on.** -/
theorem Sharing.progress (h : Sharing r request row relies rowOf c inputs asked p A)
    (hencodes : ∀ x ∈ inputs, ∃ j, Schema.encode request x = .ok j)
    (hcanonical : ∀ x ∈ inputs, ∀ y ∈ inputs, Schema.key x = Schema.key y → x = y) :
    (∀ (i : Nat) x, inputs[i]? = some x →
      p.callers[i]? = some (.done ((answerOf request row rowOf x).map some))) ∨ CanGo p := by
  by_cases hall : ∃ call stage, (call, stage) ∈ A.calls ∧ ∀ o, stage ≠ .returned o
  · obtain ⟨call, stage, hmem, hstage⟩ := hall
    exact .inr (h.canGo hencodes hmem hstage)
  · refine .inl fun i x hx => ?_
    have hcall : (A.calls.map Prod.fst)[i]? = some (.resolve c x) := by
      rw [h.calls, List.getElem?_map, hx]
      rfl
    rw [List.getElem?_map] at hcall
    obtain ⟨⟨call, stage⟩, hi, -⟩ := Option.map_eq_some_iff.1 hcall
    obtain ⟨o, rfl⟩ : ∃ o, stage = .returned o := by
      by_contra hne
      exact hall ⟨call, stage, List.mem_of_getElem? hi, fun o ho => hne ⟨o, ho⟩⟩
    have hdone : p.callers[i]? = some (.done o) := by
      rw [h.books.shows.calls, List.getElem?_map, hi]
      rfl
    rw [hdone, h.received hencodes hcanonical hx hdone]

/-! ## What is queried once -/

/-- A step makes the cache of a client lose no key of the resolver, other than by a call that clears
its key away: nobody else removes one, none runs out of its time, and none makes room for another. -/
def Spares (r : Resolver (Observed β)) (c : Client)
    (p q : Ensemble (Store (Observed β)) (Outcome (Option Json))) : Prop :=
  ∀ key, key.tag = r.tag → p.state.Knows c.cache key → q.state.Knows c.cache key ∨
    q.callers ≠ p.callers ∧ q.state.slots.length = p.state.slots.length ∧
      ¬ q.state.Lists c.cache key

/-- Whether two inputs are the same once they are written. -/
def sameText (x y : Input) : Bool := Schema.key y = Schema.key x

/-- An input whose row decodes has been asked for once at most, and is known from then on. -/
def AskedOnce (r : Resolver (Observed β)) (c : Client) (asked : List PendingRequest)
    (s : Store (Observed β)) (x : Input) : Prop :=
  asked.countP (sameText x ·.input) ≤ 1 ∧
    (0 < asked.countP (sameText x ·.input) → ∀ key, r.key c x = .ok key → s.Knows c.cache key)

theorem Effect.caches_length (he : Effect r T A A') :
    A.world.store.caches.length ≤ A'.world.store.caches.length := by
  cases he with
  | quiet haside _ _ _ _ => exact haside.caches
  | ask _ hstore _ _ _ _ => simp [hstore]
  | give _ hstore _ _ _ _ => simp [hstore, Resolver.give, Store.openSlot, Store.changeCache]
  | drain hstore _ _ _ _ => rw [hstore]; exact Nat.le_refl _
  | hand hstore _ _ _ _ => rw [hstore]; exact Nat.le_refl _
  | answer _ hstore _ _ _ _ _ => rw [hstore]; exact Nat.le_refl _
  | @deliver place requests answers hstore _ _ _ _ =>
    obtain ⟨slots, hslots⟩ := deliverTo_eq r requests answers A.world.store
    rw [hstore, hslots]

/-- A step that joins nothing to the queue keeps an input asked once, if its key stays known. -/
theorem AskedOnce.of_knows {s s' : Store (Observed β)} {x : Input} (h : AskedOnce r c asked s x)
    (hknows : ∀ key, r.key c x = .ok key → s.Knows c.cache key → s'.Knows c.cache key) :
    AskedOnce r c asked s' x :=
  ⟨h.1, fun hpos key hkey => hknows key hkey (h.2 hpos key hkey)⟩

/-- A request whose key is not known may ask for an input that nobody has asked for, and keeps the
others asked once if it leaves their keys known. -/
theorem AskedOnce.ask {s : Store (Observed β)} {x y : Input} {key : CacheKey} {slot : Nat}
    (h : AskedOnce r c asked s x) (hkey : r.key c y = .ok key)
    (hlookup : (s.cache c.cache).lookup? key s.now = none) (hcache : c.cache < s.caches.length)
    (hkept : ∀ k, r.key c x = .ok k → s.Knows c.cache k → (r.enqueue c y key s).2.Knows c.cache k) :
    AskedOnce r c (asked ++ [⟨c, y, slot⟩]) (r.enqueue c y key s).2 x := by
  have hcount : (asked ++ [(⟨c, y, slot⟩ : PendingRequest)]).countP (sameText x ·.input) =
      asked.countP (sameText x ·.input) + if sameText x y then 1 else 0 := by
    rw [List.countP_append, List.countP_singleton]
  by_cases hsame : Schema.key y = Schema.key x
  · -- the key of the new request was not known, so nobody had asked for it
    have hkeys : r.key c x = .ok key := by rwa [Resolver.key, ← hsame]
    have hnone : asked.countP (sameText x ·.input) = 0 := by
      by_contra hpos
      have hknows := h.2 (Nat.pos_of_ne_zero hpos) key hkeys
      rw [Store.Knows, hlookup] at hknows
      cases hknows
    refine ⟨?_, fun _ k hk => ?_⟩
    · rw [hcount, hnone]
      split <;> omega
    · obtain rfl : key = k := Except.ok.inj (hkeys.symm.trans hk)
      exact knows_enqueue hcache
  · have hsame' : sameText x y = false := by simpa [sameText] using hsame
    rw [hsame', if_neg Bool.false_ne_true, Nat.add_zero] at hcount
    refine ⟨hcount ▸ h.1, fun hpos k hk => hkept k hk ?_⟩
    rw [hcount] at hpos
    exact h.2 hpos k hk

/-- **Every step of a sparing interleaving keeps an input asked once.** -/
theorem Sharing.askedOnce (h : Sharing r request row relies rowOf c inputs asked p A)
    {asked' : List PendingRequest}
    (h' : Sharing r request row relies rowOf c inputs asked' q A')
    (hstep : Traffic.Steps r (r.Beyond (.pointwise request row c relies rowOf)) A A')
    (hspares : Spares r c p q) (hcache : c.cache < p.state.caches.length)
    (hencodes : ∀ x ∈ inputs, ∃ j, Schema.encode request x = .ok j)
    (hcanonical : ∀ x ∈ inputs, ∀ y ∈ inputs, Schema.key x = Schema.key y → x = y) {x : Input}
    (hx : x ∈ inputs) {value : Json} (hdecodes : answerOf request row rowOf x = .ok value)
    (hone : AskedOnce r c asked p.state x) : AskedOnce r c asked' q.state x := by
  have hstore := h.books.shows.store
  have hstore' := h'.books.shows.store
  have hasked := h.books.asked
  have hasked' := h'.books.asked
  -- nobody but a call may clear a key away
  have hcallers (hsame : A'.calls = A.calls) (hledger : A'.world.ledger.asked = A.world.ledger.asked) :
      AskedOnce r c asked' q.state x := by
    rw [← hasked', hledger, hasked]
    refine hone.of_knows fun key hkey hknows => ?_
    refine (hspares key (tag_of_key hkey).1 hknows).resolve_right fun ⟨hne, _, _⟩ => hne ?_
    rw [h.books.shows.calls, h'.books.shows.calls, hsame]
  -- a call clears away no key whose entry it leaves there
  have hentries (hledger : A'.world.ledger.asked = A.world.ledger.asked)
      (hentry : ∀ key, r.key c x = .ok key →
        (A'.world.store.Lists c.cache key ↔ A.world.store.Lists c.cache key)) :
      AskedOnce r c asked' q.state x := by
    rw [← hasked', hledger, hasked]
    refine hone.of_knows fun key hkey hknows => ?_
    refine (hspares key (tag_of_key hkey).1 hknows).resolve_right fun ⟨_, _, hnone⟩ => hnone ?_
    rw [hstore', hentry key hkey, ← hstore]
    exact hknows.lists
  cases hstep with
  | task htask => exact hcallers rfl htask.entries.1
  | others _ => exact hcallers rfl rfl
  | still => exact hcallers rfl rfl
  | @call W W' call stage stage' l l' tasks ts hcall =>
    have hmem : (call, stage) ∈ l ++ (call, stage) :: l' := by simp
    obtain ⟨y, hy, hown⟩ : ∃ y ∈ inputs, Call.resolve c y = call := by
      have hcalls := List.mem_map_of_mem (f := Prod.fst) hmem
      rw [h.calls] at hcalls
      exact List.mem_map.1 hcalls
    have hsourced := h.sourced.calls _ _ hmem
    cases hcall with
    | hit _ _ => exact hentries rfl fun _ _ => .rfl
    | launch => exact hentries rfl fun _ _ => .rfl
    | wake _ => exact hentries rfl fun _ _ => .rfl
    | populate _ => cases hown
    | invalidate _ => cases hown
    | @miss s L client input key hkey hlookup =>
      cases hown
      obtain rfl : L.asked = asked := hasked
      rw [← hasked', hstore']
      rw [hstore] at hone hcache
      refine hone.ask hkey hlookup hcache fun k hk hknows => ?_
      have hkept := hspares k (tag_of_key hk).1
      rw [hstore, hstore', slots_enqueue] at hkept
      exact (hkept hknows).resolve_right fun ⟨_, hslots, _⟩ => by simp at hslots
    | @collect s L call client key ticket =>
      subst hown
      obtain ⟨input, hown, hkey, hholds, o, ho⟩ := hsourced
      cases hown
      refine hentries rfl fun k hk => listed_collect ?_
      by_cases hsame : k = key
      · -- the answer that is collected is that of an input that decodes
        subst hsame
        obtain ⟨z, hz, hkey', rfl⟩ := h.content hencodes hholds (by rw [hstore]; exact ho)
        have htext : Schema.key z = Schema.key x :=
          (tag_of_key hkey').2.2.trans (tag_of_key hk).2.2.symm
        rw [hcanonical z hz x hx htext, hdecodes] at ho
        exact .inr ⟨_, congrArg Option.join ho⟩
      · exact .inl hsame

/-- How often an input has been handed to the batch function, in whatever batch. -/
def timesHanded (s : Store (Observed β)) (x : Input) : Nat :=
  (s.backend.batches.flatMap (·.inputs)).countP (sameText x)

theorem Sharing.timesHanded_eq (h : Sharing r request row relies rowOf c inputs asked p A) (x : Input) :
    timesHanded p.state x = A.world.ledger.handed.flatten.countP (sameText x ·.input) := by
  rw [timesHanded, h.books.shows.store, List.flatMap, h.books.recorded.inputs_eq, ← List.map_flatten,
    List.countP_map]
  rfl

/-- What has been asked for once is handed over once at most. -/
theorem Sharing.timesHanded_le (h : Sharing r request row relies rowOf c inputs asked p A) {x : Input}
    (hone : AskedOnce r c asked p.state x) : timesHanded p.state x ≤ 1 := by
  have hcount := (h.books.accounted.requests.countP_eq (sameText x ·.input)).symm
  rw [h.books.asked, List.countP_append, ← h.timesHanded_eq] at hcount
  have := hone.1
  omega

/-- What a call has returned was handed over. -/
theorem Sharing.timesHanded_pos (h : Sharing r request row relies rowOf c inputs asked p A)
    (hencodes : ∀ x ∈ inputs, ∃ j, Schema.encode request x = .ok j) {i : Nat} {x : Input}
    {o : Outcome (Option Json)} (hx : inputs[i]? = some x) (hdone : p.callers[i]? = some (.done o)) :
    0 < timesHanded p.state x := by
  obtain ⟨key, slot, a, hkey, hholds, hslot, -⟩ := h.result hencodes hx hdone
  obtain ⟨y, hy, rfl, -, hkey'⟩ := h.opener hholds
  obtain ⟨place, requests, j, answers, a, hplace, hj, -⟩ := h.books.answer_of_asked hy hslot
  rw [h.timesHanded_eq, List.countP_pos_iff]
  refine ⟨y, List.mem_flatten.2 ⟨requests, List.mem_of_getElem? hplace, List.mem_of_getElem? hj⟩, ?_⟩
  simpa [sameText] using (tag_of_key hkey').2.2.trans (tag_of_key hkey).2.2.symm

theorem sharing_outset (hfresh : Fresh r s) (hrelies : relies s.backend.database) (c : Client)
    (inputs : List Input) :
    Sharing r request row relies rowOf c inputs [] (r.outset s (inputs.map (.resolve c)))
      (.outset s (inputs.map (.resolve c))) := by
  refine ⟨books_outset hfresh hrelies fun call hcall => ?_, sourced_outset hfresh _, ?_⟩
  · obtain ⟨input, -, rfl⟩ := List.mem_map.1 hcall
    rfl
  · simp [Traffic.outset, Function.comp_def]

theorem Sharing.goes (hpointwise : Pointwise r request row c relies rowOf)
    (h : Sharing r request row relies rowOf c inputs asked p A)
    (hgo : Goes (r.Beyond (.pointwise request row c relies rowOf)) p q) :
    ∃ A', Traffic.Steps r (r.Beyond (.pointwise request row c relies rowOf)) A A' ∧
      Effect r (.pointwise request row c relies rowOf) A A' ∧
      Sharing r request row relies rowOf c inputs (asked ++ r.joined p.state q.state) q A' := by
  have hkeeps := keeps_pointwise hpointwise
  obtain ⟨A', hstep, hbooks⟩ := h.books.goes hkeeps hgo
  obtain ⟨he, -⟩ := h.books.effect hkeeps hstep
  exact ⟨A', hstep, he, hbooks, hstep.sourced he h.books.scheduled h.books.unanswered h.sourced,
    hstep.calls.1.trans h.calls⟩

end Receive

/-- **Sharing.** Any number of calls through one client to a positional resolver whose query answers
pointwise, with inputs that all encode and whose numbers are finite, in any interleaving with its
flushes and with what others do beyond it. Each call receives the decoded row of its own input, and
every call comes to return. As long as the cache loses no key that is not cleared away by a call, an
input whose row decodes is handed to the query once, however many calls there are for it. -/
theorem shared_of_runs {request row : Shape} {relies : β → Prop} {rowOf : Json → Row}
    (c : Client) (hpointwise : Pointwise r request row c relies rowOf) (hfresh : Fresh r s)
    (hrelies : relies s.backend.database) (hcache : c.cache < s.caches.length)
    (inputs : List Input) (hencodes : ∀ x ∈ inputs, ∃ j, Schema.encode request x = .ok j)
    (hfinite : ∀ j, .ok j ∈ inputs → j.Finite) :
    (∀ es q, Runs (Goes (r.Beyond (.pointwise request row c relies rowOf))) r.joined
        (r.outset s (inputs.map (.resolve c))) es q →
      (∀ (i : Nat) x o, inputs[i]? = some x → q.callers[i]? = some (.done o) →
        o = (answerOf request row rowOf x).map some) ∧
      Inevitable (r.Beyond (.pointwise request row c relies rowOf)) Later r.joined
        (fun _ p => ∀ (i : Nat) x, inputs[i]? = some x →
          p.callers[i]? = some (.done ((answerOf request row rowOf x).map some))) es q) ∧
    ∀ es q, Runs (fun p q => Goes (r.Beyond (.pointwise request row c relies rowOf)) p q ∧ r.Spares c p q)
        r.joined (r.outset s (inputs.map (.resolve c))) es q →
      ∀ x ∈ inputs, (∃ value, answerOf request row rowOf x = .ok value) →
        timesHanded q.state x ≤ 1 ∧ ∀ (i : Nat) o, inputs[i]? = some x →
          q.callers[i]? = some (.done o) → timesHanded q.state x = 1 := by
  -- documents with one text are one document, if their numbers are finite
  have hcanonical : ∀ x ∈ inputs, ∀ y ∈ inputs, Schema.key x = Schema.key y → x = y :=
    fun x hx y hy => Schema.eq_of_key_eq (fun j hj => hfinite j (hj ▸ hx)) fun j hj => hfinite j (hj ▸ hy)
  have hstart := @sharing_outset _ r _ request row relies rowOf hfresh hrelies c inputs
  refine ⟨fun es q hrun => ?_, fun es q hrun x hx ⟨value, hvalue⟩ => ?_⟩
  · have hkept : ∃ A, Sharing r request row relies rowOf c inputs es q A :=
      hrun.keeps (I := fun es q => ∃ A, Sharing r request row relies rowOf c inputs es q A) ⟨_, hstart⟩
        fun es p q ⟨A, h⟩ hgo =>
          let ⟨A', _, _, h'⟩ := h.goes hpointwise hgo
          ⟨A', h'⟩
    obtain ⟨A, h⟩ := hkept
    refine ⟨fun i x o hx hdone => h.received hencodes hcanonical hx hdone, ?_⟩
    refine inevitable_of_progress
      (I := fun es p => ∃ A, Sharing r request row relies rowOf c inputs es p A) ?_ ?_ ⟨A, h⟩
    · rintro es p q ⟨A, h⟩ hgo
      obtain ⟨A', -, -, h'⟩ := h.goes hpointwise hgo
      exact ⟨A', h'⟩
    · rintro es p ⟨A, h⟩
      exact h.progress hencodes hcanonical
  · have hkept := hrun.keeps
      (I := fun es q => (∃ A, Sharing r request row relies rowOf c inputs es q A) ∧
        c.cache < q.state.caches.length ∧ AskedOnce r c es q.state x)
      ⟨⟨_, hstart⟩, hcache, ⟨by simp, fun hpos => by simp at hpos⟩⟩
      fun es p q ⟨⟨A, h⟩, hcache, hone⟩ ⟨hgo, hspares⟩ => by
        obtain ⟨A', hstep, he, h'⟩ := h.goes hpointwise hgo
        refine ⟨⟨A', h'⟩, ?_, h.askedOnce h' hstep hspares hcache hencodes hcanonical hx hvalue hone⟩
        rw [h.books.shows.store] at hcache
        rw [h'.books.shows.store]
        exact hcache.trans_le he.caches_length
    obtain ⟨⟨A, h⟩, -, hone⟩ := hkept
    refine ⟨h.timesHanded_le hone, fun i o hi hdone => ?_⟩
    have hpos := h.timesHanded_pos hencodes hi hdone
    have hle := h.timesHanded_le hone
    omega

/-! ### A database that returns what it is given -/

/-- A database in which a statement returns its bound values, a row each. -/
structure Mirror

instance : Backend Mirror where
  connect _ m := (none, m)
  respond _ r m := (.answer (.ok (.ofRows ["value"] (r.params.map fun v => [v]))), m)

/-- The row of a request. -/
def mirrorRow (request : Json) : Row := ⟨["value"], [.json request]⟩

/-- Asks the mirror for a batch of requests, with one statement. -/
def askMirror (c : Client) (requests : List Json) : Work (Observed Mirror) ResultSet :=
  c.runRaw "SELECT value" (requests.map .json)

/-- Answers every input with its row, at most two at a time. -/
def mirrored : Resolver (Observed Mirror) :=
  ⟨"mirror", plainClient, 0, none, some 2, .any, Batch.positional .any .any askMirror⟩

theorem pointwise_mirrored : Pointwise mirrored .any .any plainClient (fun _ => True) mirrorRow := by
  refine ⟨askMirror, rfl, fun requests => ?_⟩
  have hrows : (ResultSet.ofRows ["value"] ((requests.map Value.json).map fun v => [v])).toRows =
      requests.map mirrorRow := by
    simp [ResultSet.toRows, ResultSet.ofRows, mirrorRow]
  have hanswering : Answering (fun _ : Mirror => True) (.statement "SELECT value" (requests.map .json))
      fun o => ∃ result, o = .ok result ∧ result.toRows = requests.map mirrorRow :=
    ⟨fun _ _ _ => ⟨rfl, trivial⟩, fun _ _ _ => ⟨trivial, _, rfl, _, rfl, hrows⟩⟩
  exact obeys_run (c := plainClient) hanswering rfl

/-- The store of a program on a mirror, with an empty queue. -/
def mirrorStore : Store (Observed Mirror) := { Store.start ⟨⟨⟩, []⟩ .default with queues := [.empty] }

theorem fresh_mirrorStore : Fresh mirrored mirrorStore := fresh_start Mirror.mk rfl

theorem orderly_mirrored (c : Client) (inputs : List Input) : (mirrored.batch c inputs).Orderly := by
  change (Batch.positional .any .any askMirror c inputs).Orderly
  rw [Batch.positional, Batch.query]
  split
  · trivial
  · refine Orderly.bind (orderly_query c _) fun o => ?_
    cases o <;> trivial

/-- Four inputs, two of them the same. -/
def fourInputs : List Input := ["a", "b", "a", "c"].map fun text => .ok (.string text)

theorem run_mirrored :
    ((all ((fourInputs.map (.resolve plainClient)).map (Call.run mirrored.observed))).run mirrorStore).map
        (fun o => (o.1, o.2.backend.batches.map (·.inputs))) =
      some (["a", "b", "a", "c"].map fun text => .ok (some (.object [("value", .string text)])),
        [[.ok (.string "a"), .ok (.string "b")], [.ok (.string "c")]]) := by
  with_unfolding_all rfl

/-- Each of the four calls receives the row of its own input, and the input that two of them share is
queried once. -/
theorem shared_fourCalls :
    Pointwise mirrored .any .any plainClient (fun _ => True) mirrorRow ∧ Fresh mirrored mirrorStore ∧
    plainClient.cache < mirrorStore.caches.length ∧
    (∀ x ∈ fourInputs, ∃ j, Schema.encode .any x = .ok j) ∧
    (∀ j, .ok j ∈ fourInputs → j.Finite) ∧
    ∃ es q, Runs (Goes (mirrored.Beyond (.pointwise .any .any plainClient (fun _ => True) mirrorRow)))
        mirrored.joined (mirrored.outset mirrorStore (fourInputs.map (.resolve plainClient))) es q ∧
      q.callers = (["a", "b", "a", "c"].map fun text =>
        .done (.ok (some (.object [("value", .string text)])))) ∧
      timesHanded q.state (.ok (.string "a")) = 1 ∧
      ∀ (i : Nat) x o, fourInputs[i]? = some x → q.callers[i]? = some (.done o) →
        o = (answerOf .any .any mirrorRow x).map some := by
  obtain ⟨⟨outcomes, s'⟩, hrun, hlast⟩ := Option.map_eq_some_iff.1 run_mirrored
  obtain ⟨houtcomes, hbatches⟩ := Prod.mk.inj hlast
  have hall : ∃ es tasks, Runs (Goes (mirrored.Beyond
        (.pointwise .any .any plainClient (fun _ => True) mirrorRow))) mirrored.joined
      (mirrored.outset mirrorStore (fourInputs.map (.resolve plainClient))) es
        ⟨s', outcomes.map .done, tasks⟩ :=
    runs_of_run orderly_mirrored hrun
  obtain ⟨es, tasks, hruns⟩ := hall
  have hcache : plainClient.cache < mirrorStore.caches.length := Nat.zero_lt_one
  have hencodes : ∀ x ∈ fourInputs, ∃ j, Schema.encode .any x = .ok j := by
    intro x hx
    obtain ⟨text, -, rfl⟩ := List.mem_map.1 hx
    exact ⟨_, rfl⟩
  have hfinite : ∀ j, .ok j ∈ fourInputs → j.Finite := by
    intro j hj
    obtain ⟨text, -, heq⟩ := List.mem_map.1 hj
    cases heq
    trivial
  -- the run has shown the outcomes and the batches, the rest is the theorem
  refine ⟨pointwise_mirrored, fresh_mirrorStore, hcache, hencodes, hfinite, es, _, hruns, ?_, ?_, ?_⟩
  · rw [show outcomes = _ from houtcomes]
    rfl
  · have hinputs : s'.backend.batches.flatMap (·.inputs) =
        [.ok (.string "a"), .ok (.string "b"), .ok (.string "c")] := by
      rw [List.flatMap_def, show s'.backend.batches.map (·.inputs) = _ from hbatches]
      rfl
    rw [timesHanded, hinputs]
    decide
  · exact ((shared_of_runs plainClient pointwise_mirrored fresh_mirrorStore trivial hcache fourInputs
      hencodes hfinite).1 es _ hruns).1

end Resolver

end SqlClient
