import SqlClient.Proofs.RequestCache.History
import SqlClient.Proofs.Resolver.Querying
import SqlClient.Proofs.Resolver.Sources
/-!
# Resolvers — the entries of caches

What the steps of calls and flushes do to the entries that caches have for a resolver: an entry stays as
it is, is completed once, or is new and has a slot of its own (`Origin`). So a slot is never written down
twice, and whoever waits for one knows the entry that has it (`Filed`).
-/

namespace SqlClient

variable {β : Type}

namespace Store

variable {s : Store β} {n m : Nat} {key : CacheKey} {e : CacheEntry Nat}

/-- A cache has an entry under a key, whether it still answers it or not. -/
def Files (s : Store β) (n : Nat) (key : CacheKey) (e : CacheEntry Nat) : Prop :=
  (s.cache n).entries.lookup key = some e

/-- Only caches that exist have entries. -/
theorem Files.lt (h : s.Files n key e) : n < s.caches.length := by
  by_contra hn
  rw [Files, cache, List.getD_eq_getElem?_getD, List.getElem?_eq_none (Nat.le_of_not_lt hn)] at h
  cases h

theorem Files.of_caches {s' : Store β} (h : s'.Files n key e) (hcaches : s'.caches = s.caches) :
    s.Files n key e := by
  rwa [Files, cache, hcaches] at h

theorem cache_changeCache_self {f : RequestCache CacheKey Nat → RequestCache CacheKey Nat}
    (hm : m < s.caches.length) : (s.changeCache m f).cache m = f (s.cache m) := by
  simp [cache, changeCache, List.getD_eq_getElem?_getD, hm]

@[simp] theorem length_changeCache {f : RequestCache CacheKey Nat → RequestCache CacheKey Nat} :
    (s.changeCache m f).caches.length = s.caches.length := List.length_modify ..

/-- An entry after a change of one cache was there, or is one of the cache that was changed. -/
theorem Files.of_changeCache {f : RequestCache CacheKey Nat → RequestCache CacheKey Nat}
    (h : (s.changeCache m f).Files n key e) :
    n ≠ m ∧ s.Files n key e ∨ n = m ∧ (f (s.cache m)).entries.lookup key = some e := by
  by_cases hn : n = m
  · subst hn
    have hlt := h.lt
    rw [length_changeCache] at hlt
    rw [Files, cache_changeCache_self hlt] at h
    exact .inr ⟨rfl, h⟩
  · refine .inl ⟨hn, ?_⟩
    rcases s.cache_changeCache m n f with hsame | ⟨hnm, -⟩
    · rwa [Files, hsame] at h
    · exact absurd hnm hn

/-- The time to live of a cache is not affected by a change that leaves it alone. -/
theorem ttl_changeCache {f : RequestCache CacheKey Nat → RequestCache CacheKey Nat}
    (hf : ∀ c, (f c).ttl = c.ttl) : ((s.changeCache m f).cache n).ttl = (s.cache n).ttl := by
  rcases s.cache_changeCache m n f with hsame | ⟨-, hsame⟩
  · rw [hsame]
  · rw [hsame, hf]

end Store

namespace Resolver

open Coroutine Ensemble

variable {r : Resolver (Observed β)} {T : Terms β} {A A' : Traffic β} {s s' s₁ : Store (Observed β)}

/-! ## What others do to entries -/

/-- A change of the store that writes nothing under the tag of the resolver, though it may remove what is
written there, and that leaves the times to live as they are. -/
structure Thins (r : Resolver (Observed β)) (s s' : Store (Observed β)) : Prop where
  entries : ∀ n key e, key.tag = r.tag → s'.Files n key e → s.Files n key e
  ttl : ∀ n < s.caches.length, (s'.cache n).ttl = (s.cache n).ttl
  caches : s.caches.length ≤ s'.caches.length

theorem thins_of_caches (h : s'.caches = s.caches) : r.Thins s s' :=
  ⟨fun _ _ _ _ hfiles => hfiles.of_caches h, fun n _ => by rw [Store.cache, Store.cache, h], by rw [h]⟩

theorem Thins.trans (h : r.Thins s s₁) (h' : r.Thins s₁ s') : r.Thins s s' :=
  ⟨fun n key e htag hfiles => h.entries n key e htag (h'.entries n key e htag hfiles),
    fun n hn => (h'.ttl n (hn.trans_le h.caches)).trans (h.ttl n hn), h.caches.trans h'.caches⟩

/-- The conduct of code that may wait for anything and do anything but write under the tag of the
resolver. -/
def thinning (r : Resolver (Observed β)) : Conduct (Store (Observed β)) :=
  ⟨fun _ => True, r.Thins, fun _ => True⟩

theorem thins_of_reflTransGen (h : Relation.ReflTransGen r.Thins s s') : r.Thins s s' := by
  induction h with
  | refl => exact thins_of_caches rfl
  | tail _ hstep ih => exact ih.trans hstep

theorem thins_of_shifts {α : Type} {c c' : Coroutine (Store (Observed β)) α} {Q : α → Prop}
    {ts : List (Coroutine (Store (Observed β)) Unit)} (hshift : Shifts c s c' s' ts)
    (hc : c.Obeys r.thinning Q) : r.Thins s s' ∧ c'.Obeys r.thinning Q ∧
      ∀ t ∈ ts, t.Obeys r.thinning fun _ => True := by
  obtain ⟨hmay, -, hc', hts⟩ := hshift.obeys trivial hc
  exact ⟨thins_of_reflTransGen hmay, hc', hts⟩

/-- A query writes nothing under the tag. -/
theorem thinning_run [Backend β] (c : Client) (request : Request) :
    (c.run request : Work (Observed β) ResultSet).run.Obeys r.thinning fun _ => True :=
  obeys_run_wire (fun _ _ _ h => ⟨thins_of_caches h.caches, trivial⟩) (fun _ => trivial) c request

theorem thinning_gather (r : Resolver (Observed β)) : r.gather.Obeys r.thinning fun _ => True := by
  rw [gather]
  split
  · exact fun s _ => ⟨thins_of_caches rfl, trivial, trivial, trivial⟩
  · trivial

/-- The code that is still to run in a task, besides the resolver's own, writes nothing under the tag. -/
def Task.Thinning (r : Resolver (Observed β)) : Task β → Prop
  | .gathering rest | .other rest => rest.Obeys r.thinning fun _ => True
  | .serving batches => ∀ b ∈ batches, ∀ place rest, b.stage = .running place rest →
    rest.Obeys r.thinning fun _ => True

theorem thinning_others {ts : List (Coroutine (Store (Observed β)) Unit)}
    (h : ∀ t ∈ ts, t.Obeys r.thinning fun _ => True) : ∀ t ∈ ts.map (Task.other (β := β)), t.Thinning r := by
  intro t ht
  obtain ⟨c, hc, rfl⟩ := List.mem_map.1 ht
  exact h c hc

section Tasks

variable {W W' : World β} {ts : List (Task β)}
  (hbatch : ∀ client inputs, (r.batch client inputs).Obeys r.thinning fun _ => True)

include hbatch

theorem BatchStep.thins {b b' : Batch β} (hstep : BatchStep r W b W' b' ts)
    (hb : ∀ place rest, b.stage = .running place rest → rest.Obeys r.thinning fun _ => True) :
    r.Thins W.store W'.store ∧
      (∀ place rest, b'.stage = .running place rest → rest.Obeys r.thinning fun _ => True) ∧
      ∀ t ∈ ts, t.Thinning r := by
  cases hstep with
  | takeOver => exact ⟨thins_of_caches (sameDesk_takeOver _ _ _).caches, nofun, List.forall_mem_nil _⟩
  | @hand s L first others =>
    refine ⟨thins_of_caches rfl, ?_, List.forall_mem_nil _⟩
    intro place rest hstage
    cases hstage
    exact hbatch _ _
  | run hshift =>
    obtain ⟨hthins, hc', hts⟩ := thins_of_shifts hshift (hb _ _ rfl)
    refine ⟨hthins, ?_, thinning_others hts⟩
    intro place rest hstage
    cases hstage
    exact hc'
  | answer => exact ⟨thins_of_caches rfl, nofun, List.forall_mem_nil _⟩
  | leave => exact ⟨thins_of_caches (Store.sameDesk_letGoFor _ _).caches, nofun, List.forall_mem_nil _⟩
  | @deliver s L requests place answers =>
    obtain ⟨slots, hslots⟩ := deliverTo_eq r requests answers s
    exact ⟨thins_of_caches (by rw [hslots]), nofun, List.forall_mem_nil _⟩

/-- No step of a task writes under the tag. -/
theorem TaskStep.thins {t t' : Task β} (hstep : TaskStep r W t W' t' ts) (ht : t.Thinning r) :
    r.Thins W.store W'.store ∧ t'.Thinning r ∧ ∀ u ∈ ts, u.Thinning r := by
  cases hstep with
  | gather hshift =>
    obtain ⟨hthins, hc', hts⟩ := thins_of_shifts hshift ht
    exact ⟨hthins, hc', thinning_others hts⟩
  | drain =>
    refine ⟨thins_of_caches rfl, ?_, List.forall_mem_nil _⟩
    intro b hb place rest hstage
    obtain ⟨requests, -, rfl⟩ := List.mem_map.1 hb
    cases hstage
  | @serve W W' bs bs' b b' ts hb =>
    obtain ⟨hthins, hb', hts⟩ := hb.thins hbatch (ht b (by simp))
    refine ⟨hthins, ?_, hts⟩
    intro d hd
    rcases List.mem_append.1 hd with hd | hd
    · exact ht d (List.mem_append_left _ hd)
    · rcases List.mem_cons.1 hd with rfl | hd
      · exact hb'
      · exact ht d (by simp [hd])
  | other hshift =>
    obtain ⟨hthins, hc', hts⟩ := thins_of_shifts hshift ht
    exact ⟨hthins, hc', thinning_others hts⟩

end Tasks

/-! ## What a step does to entries -/

/-- Where an entry comes from that a cache has under a key after a step: it was there, it was completed by
the step, or it is the one that the step has written, with a new slot. -/
inductive Origin (s s' : Store (Observed β)) (n₀ : Nat) (key₀ : CacheKey) (n : Nat) (key : CacheKey)
    (e : CacheEntry Nat) : Prop
  | kept : s.Files n key e → Origin s s' n₀ key₀ n key e
  | completed {e₀ : CacheEntry Nat} : s.Files n key e₀ → e₀.completed = none →
      e = { e₀ with completed := some s.now } → Origin s s' n₀ key₀ n key e
  | written : n = n₀ → key = key₀ → e.slot = s.slots.length → s.slots.length < s'.slots.length →
      (e.completed = none ∨ e.completed = some s.now) → Origin s s' n₀ key₀ n key e

/-- What a step does to the entries under the tag of the resolver. -/
structure Refiles (r : Resolver (Observed β)) (s s' : Store (Observed β)) (n₀ : Nat) (key₀ : CacheKey) :
    Prop where
  origin : ∀ n key e, key.tag = r.tag → s'.Files n key e → Origin s s' n₀ key₀ n key e
  ttl : ∀ n < s.caches.length, (s'.cache n).ttl = (s.cache n).ttl
  slots : s.slots.length ≤ s'.slots.length
  clock : s.now ≤ s'.now

/-- Slots are added and the clock runs on. -/
theorem Effect.mono (he : Effect r T A A') :
    A.world.store.slots.length ≤ A'.world.store.slots.length ∧ A.world.store.now ≤ A'.world.store.now := by
  cases he with
  | quiet haside _ _ _ _ => exact ⟨haside.slots.length_le, haside.clock⟩
  | ask _ hstore _ _ _ _ =>
    rw [hstore, Store.now, Store.now]
    simp
  | give _ hstore _ _ _ _ =>
    rw [hstore]
    exact ⟨by simp, Nat.le_refl _⟩
  | drain hstore _ _ _ _ => rw [hstore]; exact ⟨Nat.le_refl _, Nat.le_refl _⟩
  | hand hstore _ _ _ _ => rw [hstore]; exact ⟨Nat.le_refl _, Nat.le_refl _⟩
  | answer _ hstore _ _ _ _ _ => rw [hstore]; exact ⟨Nat.le_refl _, Nat.le_refl _⟩
  | @deliver place requests answers hstore _ _ _ _ =>
    obtain ⟨slots, hslots⟩ := deliverTo_eq r requests answers A.world.store
    rw [hstore, length_slots_deliverTo]
    refine ⟨Nat.le_refl _, ?_⟩
    rw [hslots]
    exact Nat.le_refl _

/-- An entry after completions was there, or has just been completed. -/
theorem origin_complete {m id : Nat} {key key₀ k : CacheKey} {n n₀ : Nat} {e : CacheEntry Nat}
    (h : (s.changeCache m (·.complete key id s.now)).Files n k e) : Origin s s' n₀ key₀ n k e := by
  rcases h.of_changeCache with ⟨-, h⟩ | ⟨rfl, h⟩
  · exact .kept h
  · rw [RequestCache.entry_complete] at h
    obtain ⟨e₀, he₀, heq⟩ := Option.map_eq_some_iff.1 h
    split at heq
    · rename_i hcond
      refine .completed he₀ ?_ heq.symm
      simpa [CacheEntry.isComplete] using hcond.2.2
    · exact .kept (heq ▸ he₀)

theorem files_of_evictFailed {m id : Nat} {key k : CacheKey} {n : Nat} {e : CacheEntry Nat}
    (h : (s.changeCache m (·.evictFailed key id)).Files n k e) : s.Files n k e := by
  rcases h.of_changeCache with ⟨-, h⟩ | ⟨rfl, h⟩
  · exact h
  · rw [RequestCache.entry_evictFailed] at h
    split at h
    · exact (Option.filter_eq_some_iff.1 h).1
    · exact h

/-- An entry after a slot was collected was there, or was completed by that. -/
theorem origin_collect {client : Client} {key key₀ k : CacheKey} {ticket : Ticket} {n n₀ : Nat}
    {e : CacheEntry Nat} (h : (collect client key ticket s).2.Files n k e) :
    Origin s s' n₀ key₀ n k e := by
  rw [collect] at h
  split at h
  · exact origin_complete h
  · exact origin_complete (files_of_evictFailed h)
  · exact origin_complete (files_of_evictFailed h)

theorem ttl_collect {client : Client} {key : CacheKey} {ticket : Ticket} {n : Nat} :
    ((collect client key ticket s).2.cache n).ttl = (s.cache n).ttl := by
  have hcomplete : ((s.changeCache client.cache (·.complete key ticket.id s.now)).cache n).ttl =
      (s.cache n).ttl := Store.ttl_changeCache fun _ => rfl
  have hevict (s : Store (Observed β)) :
      ((s.changeCache client.cache (·.evictFailed key ticket.id)).cache n).ttl = (s.cache n).ttl := by
    refine Store.ttl_changeCache fun c => ?_
    rw [RequestCache.evictFailed]
    split <;> rfl
  rw [collect]
  split
  · exact hcomplete
  · exact (hevict _).trans hcomplete
  · exact (hevict _).trans hcomplete

/-- Joining the queue writes one entry, that of the ticket, with a new slot. -/
theorem files_enqueue {client : Client} {input : Input} {key k : CacheKey} {n : Nat} {e : CacheEntry Nat}
    (h : (r.enqueue client input key s).2.Files n k e) :
    s.Files n k e ∨ n = client.cache ∧ k = key ∧
      e = ⟨(r.enqueue client input key s).1.id, s.slots.length, none⟩ := by
  have hid : (r.enqueue client input key s).1.id = (s.cache client.cache).lastId + 1 := by
    change (((s.openSlot none).2.holdFor client).cache client.cache).lastId + 1 = _
    rw [Store.cache, (sameDesk_opened s client).caches]
    rfl
  rw [Store.Files, Store.cache, caches_enqueue] at h
  rcases s.cache_set client.cache n ((s.cache client.cache).insert key s.slots.length none).2 with
    hsame | ⟨rfl, hsame⟩
  · rw [Store.cache] at hsame
    rw [hsame] at h
    exact .inl h
  · rw [Store.cache] at hsame
    rw [hsame] at h
    exact (RequestCache.lookup_of_lookup_insert h).imp_right fun hwritten => ⟨rfl, by rwa [hid]⟩

theorem origin_enqueue {client : Client} {input : Input} {key k : CacheKey} {n : Nat} {e : CacheEntry Nat}
    (h : (r.enqueue client input key s).2.Files n k e) :
    Origin s (r.enqueue client input key s).2 client.cache key n k e := by
  rcases files_enqueue h with hkept | ⟨rfl, rfl, rfl⟩
  · exact .kept hkept
  · exact .written rfl rfl rfl (by simp) (.inl rfl)

theorem ttl_enqueue {client : Client} {input : Input} {key : CacheKey} {n : Nat} :
    ((r.enqueue client input key s).2.cache n).ttl = (s.cache n).ttl := by
  rw [Store.cache, caches_enqueue]
  rcases s.cache_set client.cache n ((s.cache client.cache).insert key s.slots.length none).2 with
    hsame | ⟨rfl, hsame⟩
  · exact congrArg RequestCache.ttl hsame
  · exact (congrArg RequestCache.ttl hsame).trans RequestCache.ttl_insert

/-- So does giving an answer. -/
theorem origin_give {owner : Client} {value : Json} {key k : CacheKey} {n : Nat} {e : CacheEntry Nat}
    (h : (r.give owner key value s).Files n k e) :
    Origin s (r.give owner key value s) owner.cache key n k e := by
  rcases Store.Files.of_changeCache h with ⟨-, hkept⟩ | ⟨rfl, hwritten⟩
  · exact .kept hkept
  · rcases RequestCache.lookup_of_lookup_insert hwritten with hkept | ⟨rfl, rfl⟩
    · exact .kept hkept
    · exact .written rfl rfl rfl (by simp) (.inr rfl)

theorem files_of_invalidate {m n : Nat} {key k : CacheKey} {e : CacheEntry Nat}
    (h : (s.changeCache m (·.invalidate key)).Files n k e) : s.Files n k e := by
  rcases h.of_changeCache with ⟨-, hkept⟩ | ⟨rfl, hkept⟩
  · exact hkept
  · rw [RequestCache.entry_invalidate] at hkept
    split at hkept
    · cases hkept
    · exact hkept

/-- **What the step of a call does to entries.** -/
theorem CallStep.refiles {W W' : World β} {call : Call} {stage stage' : CallStage} {ts : List (Task β)}
    (hstep : CallStep r W call stage W' stage' ts) : ∃ n₀ key₀,
      (∀ n key e, W'.store.Files n key e → Origin W.store W'.store n₀ key₀ n key e) ∧
        ∀ n, (W'.store.cache n).ttl = (W.store.cache n).ttl := by
  cases hstep with
  | hit _ _ | launch | wake _ => exact ⟨0, ⟨"", none, ""⟩, fun _ _ _ => .kept, fun _ => rfl⟩
  | miss _ _ => exact ⟨_, _, fun _ _ _ => origin_enqueue, fun _ => ttl_enqueue⟩
  | collect => exact ⟨0, ⟨"", none, ""⟩, fun _ _ _ => origin_collect, fun _ => ttl_collect⟩
  | populate _ =>
    exact ⟨_, _, fun _ _ _ => origin_give, fun _ => Store.ttl_changeCache fun _ => RequestCache.ttl_insert⟩
  | invalidate _ =>
    exact ⟨0, ⟨"", none, ""⟩, fun _ _ _ h => .kept (files_of_invalidate h),
      fun _ => Store.ttl_changeCache fun _ => rfl⟩

/-- What others may do besides: nothing that concerns the resolver, and no entry under its tag. -/
def Apart (r : Resolver (Observed β)) (T : Terms β) (s s' : Store (Observed β)) : Prop :=
  r.Beyond T s s' ∧ r.Thins s s'

theorem Traffic.Steps.mono {others others' : Store (Observed β) → Store (Observed β) → Prop}
    (h : ∀ s s', others s s' → others' s s') (hstep : Steps r others A A') : Steps r others' A A' := by
  cases hstep with
  | call hcall => exact .call hcall
  | task htask => exact .task htask
  | others hothers => exact .others (h _ _ hothers)
  | still => exact .still

theorem Thins.origin (h : r.Thins s s') {n n₀ : Nat} {key key₀ : CacheKey} {e : CacheEntry Nat}
    (htag : key.tag = r.tag) (hfiles : s'.Files n key e) : Origin s s' n₀ key₀ n key e :=
  .kept (h.entries n key e htag hfiles)

theorem CallStep.thinning {W W' : World β} {call : Call} {stage stage' : CallStage} {ts : List (Task β)}
    (hstep : CallStep r W call stage W' stage' ts) : ∀ t ∈ ts, t.Thinning r := by
  cases hstep with
  | launch => exact List.forall_mem_singleton.2 (thinning_gather r)
  | _ => exact List.forall_mem_nil _

/-- **What a step does to entries**, whoever takes it. -/
theorem Traffic.Steps.refiles
    (hbatch : ∀ client inputs, (r.batch client inputs).Obeys r.thinning fun _ => True)
    (hstep : Steps r (r.Apart T) A A') (he : Effect r T A A') (htasks : ∀ t ∈ A.tasks, t.Thinning r) :
    (∃ n₀ key₀, r.Refiles A.world.store A'.world.store n₀ key₀) ∧ ∀ t ∈ A'.tasks, t.Thinning r := by
  obtain ⟨hslots, hclock⟩ := he.mono
  have hthin (h : r.Thins A.world.store A'.world.store) :
      ∃ n₀ key₀, r.Refiles A.world.store A'.world.store n₀ key₀ :=
    ⟨0, ⟨"", none, ""⟩, fun _ _ _ => h.origin, h.ttl, hslots, hclock⟩
  cases hstep with
  | call hcall =>
    obtain ⟨n₀, key₀, horigin, httl⟩ := hcall.refiles
    refine ⟨⟨n₀, key₀, fun n key e _ => horigin n key e, fun n _ => httl n, hslots, hclock⟩, ?_⟩
    intro t ht
    exact (List.mem_append.1 ht).elim (htasks t) (hcall.thinning t)
  | @task W W' calls t t' l l' ts htask =>
    obtain ⟨hthins, ht', hts⟩ := htask.thins hbatch (htasks t (by simp))
    refine ⟨hthin hthins, fun u hu => ?_⟩
    simp only [List.mem_append, List.mem_cons] at hu
    rcases hu with (hu | rfl | hu) | hu
    · exact htasks u (by simp [hu])
    · exact ht'
    · exact htasks u (by simp [hu])
    · exact hts u hu
  | others hothers => exact ⟨hthin hothers.2, htasks⟩
  | still => exact ⟨hthin (thins_of_caches rfl), htasks⟩

/-! ## Entries and tickets -/

variable {n₀ : Nat} {key₀ : CacheKey}

/-- An entry has the slot and the id of one that was there, or is the one that was written. -/
theorem Origin.before {n : Nat} {key : CacheKey} {e : CacheEntry Nat} (h : Origin s s' n₀ key₀ n key e) :
    (∃ e₀, s.Files n key e₀ ∧ e₀.slot = e.slot ∧ e₀.id = e.id) ∨
      n = n₀ ∧ key = key₀ ∧ e.slot = s.slots.length ∧ s.slots.length < s'.slots.length := by
  cases h with
  | kept h => exact .inl ⟨e, h, rfl, rfl⟩
  | completed h _ heq => exact .inl ⟨_, h, by rw [heq], by rw [heq]⟩
  | written hn hkey hslot hlt _ => exact .inr ⟨hn, hkey, hslot, hlt⟩

/-- The entries under the tag of the resolver: each has a slot of its own, and was completed in the past
if it was. -/
structure Filed (r : Resolver (Observed β)) (s : Store (Observed β)) : Prop where
  bounded : ∀ n key e, key.tag = r.tag → s.Files n key e → e.slot < s.slots.length
  distinct : ∀ n key e n' key' e', key.tag = r.tag → key'.tag = r.tag → s.Files n key e →
    s.Files n' key' e' → e.slot = e'.slot → n = n' ∧ key = key'
  past : ∀ n key e t, key.tag = r.tag → s.Files n key e → e.completed = some t → t ≤ s.now

theorem Refiles.filed (h : r.Refiles s s' n₀ key₀) (hfiled : Filed r s) : Filed r s' := by
  constructor
  case bounded =>
    intro n key e htag hfiles
    rcases (h.origin n key e htag hfiles).before with ⟨e₀, he₀, hslot, -⟩ | ⟨-, -, hslot, hlt⟩
    · exact hslot ▸ (hfiled.bounded n key e₀ htag he₀).trans_le h.slots
    · exact hslot ▸ hlt
  case distinct =>
    intro n key e n' key' e' htag htag' hfiles hfiles' heq
    -- only one key is written in a step, and its slot is newer than all slots before
    rcases (h.origin n key e htag hfiles).before with ⟨e₀, he₀, hslot, -⟩ | ⟨hn, hkey, hslot, -⟩ <;>
      rcases (h.origin n' key' e' htag' hfiles').before with
        ⟨e₀', he₀', hslot', -⟩ | ⟨hn', hkey', hslot', -⟩
    · exact hfiled.distinct n key e₀ n' key' e₀' htag htag' he₀ he₀' (by omega)
    · have := hfiled.bounded n key e₀ htag he₀
      omega
    · have := hfiled.bounded n' key' e₀' htag' he₀'
      omega
    · exact ⟨hn.trans hn'.symm, hkey.trans hkey'.symm⟩
  case past =>
    intro n key e t htag hfiles ht
    have hclock := h.clock
    cases h.origin n key e htag hfiles with
    | kept hkept => exact (hfiled.past n key e t htag hkept ht).trans hclock
    | completed _ _ heq =>
      rw [heq] at ht
      cases ht
      exact hclock
    | written _ _ _ _ hcompleted =>
      rcases hcompleted with hnone | hsome
      · rw [hnone] at ht
        cases ht
      · rw [hsome] at ht
        cases ht
        exact hclock

theorem filed_of_fresh (hfresh : Fresh r s) : Filed r s := by
  have hnone (n : Nat) (key : CacheKey) (e : CacheEntry Nat) (htag : key.tag = r.tag) : ¬ s.Files n key e := by
    intro hfiles
    obtain ⟨l, l', hl, -⟩ := List.lookup_eq_some_iff.1 hfiles
    exact hfresh.cache n key e.slot htag ⟨e, by rw [hl]; simp, rfl⟩
  exact ⟨fun n key e htag h => absurd h (hnone n key e htag),
    fun n key e _ _ _ htag _ h => absurd h (hnone n key e htag),
    fun n key e _ htag h => absurd h (hnone n key e htag)⟩

/-- A ticket names the entry that has its slot, if there is one. -/
structure Named (r : Resolver (Observed β)) (s : Store (Observed β)) (client : Client) (key : CacheKey)
    (ticket : Ticket) : Prop where
  slot : ticket.slot < s.slots.length
  entry : ∀ n k e, k.tag = r.tag → s.Files n k e → e.slot = ticket.slot →
    n = client.cache ∧ k = key ∧ e.id = ticket.id

theorem Refiles.named (h : r.Refiles s s' n₀ key₀) {client : Client} {key : CacheKey} {ticket : Ticket}
    (hnamed : Named r s client key ticket) : Named r s' client key ticket := by
  refine ⟨hnamed.slot.trans_le h.slots, fun n k e htag hfiles hslot => ?_⟩
  rcases (h.origin n k e htag hfiles).before with ⟨e₀, he₀, hslot₀, hid⟩ | ⟨-, -, hnew, -⟩
  · exact hid ▸ hnamed.entry n k e₀ htag he₀ (hslot₀.trans hslot)
  · have := hnamed.slot
    omega

end Resolver

end SqlClient
