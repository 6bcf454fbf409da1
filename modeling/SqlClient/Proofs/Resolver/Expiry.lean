import SqlClient.Proofs.Resolver.Filing
/-!
# Resolvers — answers that are no longer given

When a caller has collected the answer in a slot, the cache entry with that slot is complete, or gone if
the answer is a failure (`settled_collect`). From then on no step makes it pending again. So as soon as the
answer is a failure or older than the time to live, no request is answered from the slot (`Stale.slot_ne`).
-/

namespace SqlClient

namespace Resolver

open Coroutine Ensemble

variable {β : Type} {r : Resolver (Observed β)} {T : Terms β} {A A' : Traffic β}
  {s s' : Store (Observed β)} {n₀ : Nat} {key₀ : CacheKey}

/-! ## Answers that have been collected -/

/-- The entry with a slot, if there is one, is in a certain cache, was completed until a moment, and the
answer in the slot is no failure. -/
structure Settled (r : Resolver (Observed β)) (s : Store (Observed β)) (place slot : Nat)
    (a : Outcome Answer) (moment : Nat) : Prop where
  bounded : slot < s.slots.length
  entry : ∀ n key e, key.tag = r.tag → s.Files n key e → e.slot = slot →
    n = place ∧ (∃ answer, a = .ok answer) ∧ ∃ t ≤ moment, e.completed = some t

variable {place slot moment : Nat} {a : Outcome Answer}

theorem Settled.mono (h : Settled r s place slot a moment) {later : Nat} (hle : moment ≤ later) :
    Settled r s place slot a later := by
  refine ⟨h.bounded, fun n key e htag hfiles hslot => ?_⟩
  obtain ⟨hn, hok, t, ht, hcompleted⟩ := h.entry n key e htag hfiles hslot
  exact ⟨hn, hok, t, ht.trans hle, hcompleted⟩

/-- What is settled stays settled. -/
theorem Refiles.settled (hre : r.Refiles s s' n₀ key₀) (h : Settled r s place slot a moment) :
    Settled r s' place slot a moment := by
  refine ⟨h.bounded.trans_le hre.slots, fun n key e htag hfiles hslot => ?_⟩
  cases hre.origin n key e htag hfiles with
  | kept hkept => exact h.entry n key e htag hkept hslot
  | @completed e₀ he₀ hpending heq =>
    -- an entry that is complete is not completed again
    have hslot₀ : e₀.slot = slot := by rw [← hslot, heq]
    obtain ⟨-, -, t, -, hcompleted⟩ := h.entry n key e₀ htag he₀ hslot₀
    rw [hpending] at hcompleted
    cases hcompleted
  | written _ _ hnew _ _ =>
    have := h.bounded
    omega

/-- The entry of a completed write is complete. -/
theorem completed_of_complete {m id : Nat} {key : CacheKey} {e : CacheEntry Nat} (hfiled : Filed r s)
    (htag : key.tag = r.tag) (h : (s.changeCache m (·.complete key id s.now)).Files m key e) (hid : e.id = id) :
    ∃ t ≤ s.now, e.completed = some t := by
  rcases h.of_changeCache with ⟨hne, -⟩ | ⟨-, h⟩
  · exact absurd rfl hne
  rw [RequestCache.entry_complete] at h
  obtain ⟨e₀, he₀, heq⟩ := Option.map_eq_some_iff.1 h
  split at heq
  · exact ⟨s.now, Nat.le_refl _, by rw [← heq]⟩
  · rename_i hcond
    obtain rfl := heq
    cases hcompleted : e₀.completed with
    | none => exact absurd ⟨rfl, hid, by simp [CacheEntry.isComplete, hcompleted]⟩ hcond
    | some t => exact ⟨t, hfiled.past m key e₀ t htag he₀ hcompleted, rfl⟩

/-- **Who collects an answer settles its slot.** -/
theorem settled_collect {client : Client} {key : CacheKey} {ticket : Ticket} (hfiled : Filed r s)
    (hnamed : Named r s client key ticket) (ha : s.slots[ticket.slot]? = some (some a)) :
    Settled r (collect client key ticket s).2 client.cache ticket.slot a s.now := by
  have hslots : ticket.slot < (collect client key ticket s).2.slots.length :=
    hnamed.slot.trans_le (aside_collect (r := r)).slots.length_le
  refine ⟨hslots, fun n k e htag hfiles hslot => ?_⟩
  have hbefore : Origin s s 0 ⟨"", none, ""⟩ n k e := origin_collect hfiles
  obtain ⟨e₀, he₀, hslot₀, hid⟩ : ∃ e₀, s.Files n k e₀ ∧ e₀.slot = e.slot ∧ e₀.id = e.id :=
    hbefore.before.resolve_right fun ⟨_, _, _, hlt⟩ => lt_irrefl _ hlt
  obtain ⟨rfl, rfl, hticket⟩ := hnamed.entry n k e₀ htag he₀ (hslot₀.trans hslot)
  have hread : (s.changeCache client.cache (·.complete k ticket.id s.now)).slot? ticket.slot = some a := by
    change (s.slots[ticket.slot]?).join = some a
    rw [ha]
    rfl
  rw [collect, hread] at hfiles
  cases a with
  | ok answer =>
    exact ⟨rfl, ⟨answer, rfl⟩, completed_of_complete hfiled htag hfiles (hid.symm.trans hticket)⟩
  | error failure =>
    -- the write of the ticket has just been removed
    rcases Store.Files.of_changeCache hfiles with ⟨hne, -⟩ | ⟨-, hremoved⟩
    · exact absurd rfl hne
    · rw [RequestCache.entry_evictFailed, if_pos rfl] at hremoved
      have hother := (Option.filter_eq_some_iff.1 hremoved).2
      exact absurd (hid.symm.trans hticket) (by simpa using hother)

/-! ## Calls -/

/-- Where a call stands: its ticket names the entry that has its slot, and if it has returned, the slot that
it was answered from is settled. -/
def CallStage.Files (r : Resolver (Observed β)) (s : Store (Observed β)) (call : Call) : CallStage → Prop
  | .asked => True
  | .launching client key ticket | .waiting client key ticket | .collecting client key ticket =>
    Named r s client key ticket
  | .returned result => ∀ client input, call = .resolve client input →
    ∃ key slot a, r.key client input = .ok key ∧ s.slots[slot]? = some (some a) ∧
      result = conclude r a ∧ Settled r s client.cache slot a s.now

theorem CallStage.Files.later {call : Call} {stage : CallStage} (h : stage.Files r s call)
    (hre : r.Refiles s s' n₀ key₀) (hstays : Stays s s') : stage.Files r s' call := by
  cases stage with
  | asked => trivial
  | launching client key ticket | waiting client key ticket | collecting client key ticket =>
    exact hre.named h
  | returned result =>
    intro client input hcall
    obtain ⟨key, slot, a, hkey, hslot, hresult, hsettled⟩ := h client input hcall
    exact ⟨key, slot, a, hkey, hstays _ _ hslot, hresult, (hre.settled hsettled).mono hre.clock⟩

/-- A call that finds an entry has a ticket that names it. -/
theorem named_of_lookup? {client : Client} {key : CacheKey} {e : CacheEntry Nat} (hfiled : Filed r s)
    (htag : key.tag = r.tag) (hlookup : (s.cache client.cache).lookup? key s.now = some e) :
    Named r s client key ⟨e.id, e.slot, false⟩ := by
  have hfiles : s.Files client.cache key e := (RequestCache.lookup?_eq_some_iff.1 hlookup).1
  refine ⟨hfiled.bounded _ _ _ htag hfiles, fun n k e' htag' hfiles' hslot => ?_⟩
  obtain ⟨rfl, rfl⟩ := hfiled.distinct n k e' _ _ e htag' htag hfiles' hfiles hslot
  obtain rfl : e' = e := Option.some.inj (hfiles'.symm.trans hfiles)
  exact ⟨rfl, rfl, rfl⟩

/-- A call that joins the queue has a ticket that names its entry. -/
theorem named_enqueue {client : Client} {input : Input} {key : CacheKey} (hfiled : Filed r s) :
    Named r (r.enqueue client input key s).2 client key (r.enqueue client input key s).1 := by
  refine ⟨by simp, fun n k e htag hfiles hslot => ?_⟩
  rw [slot_enqueue] at hslot
  rcases files_enqueue hfiles with hkept | ⟨rfl, rfl, rfl⟩
  · exact absurd hslot (hfiled.bounded n k e htag hkept).ne
  · exact ⟨rfl, rfl, rfl⟩

theorem CallStep.files {W W' : World β} {call : Call} {stage stage' : CallStage} {ts : List (Task β)}
    (hstep : CallStep r W call stage W' stage' ts) (hre : r.Refiles W.store W'.store n₀ key₀)
    (hstays : Stays W.store W'.store) (hfiled : Filed r W.store) (hsourced : stage.Sourced r W call)
    (h : stage.Files r W.store call) : stage'.Files r W'.store call := by
  cases hstep with
  | hit hkey hlookup => exact named_of_lookup? hfiled (tag_of_key hkey).1 hlookup
  | @miss s L client input key hkey hlookup =>
    rw [CallStage.ofTicket]
    split
    · exact named_enqueue hfiled
    · exact named_enqueue hfiled
  | launch => exact h
  | wake _ => exact h
  | @collect s L call client key ticket =>
    obtain ⟨input, rfl, hkey, -, a, ha⟩ := hsourced
    intro client' input' hcall
    cases hcall
    refine ⟨key, ticket.slot, a, hkey, hstays _ _ ha, by rw [collect_eq ha], ?_⟩
    exact (settled_collect hfiled h ha).mono hre.clock
  | populate _ | invalidate _ =>
    intro client input hcall
    cases hcall

/-! ## Answers that are too old -/

/-- The entry with a slot, if there is one, has expired. -/
structure Stale (r : Resolver (Observed β)) (s : Store (Observed β)) (slot : Nat) : Prop where
  bounded : slot < s.slots.length
  entry : ∀ n key e, key.tag = r.tag → s.Files n key e → e.slot = slot →
    e.isExpired (s.cache n).ttl s.now = true

theorem isExpired_iff {e : CacheEntry Nat} {ttl now : Nat} :
    e.isExpired ttl now = true ↔ ∃ t, e.completed = some t ∧ t + ttl ≤ now := by
  rw [CacheEntry.isExpired]
  cases e.completed <;> simp

/-- What has expired does not come back. -/
theorem Refiles.stale (hre : r.Refiles s s' n₀ key₀) (h : Stale r s slot) : Stale r s' slot := by
  refine ⟨h.bounded.trans_le hre.slots, fun n key e htag hfiles hslot => ?_⟩
  cases hre.origin n key e htag hfiles with
  | kept hkept =>
    obtain ⟨t, hcompleted, hold⟩ := isExpired_iff.1 (h.entry n key e htag hkept hslot)
    rw [hre.ttl n hkept.lt]
    exact isExpired_iff.2 ⟨t, hcompleted, hold.trans hre.clock⟩
  | @completed e₀ he₀ hpending heq =>
    have hslot₀ : e₀.slot = slot := by rw [← hslot, heq]
    obtain ⟨t, hcompleted, -⟩ := isExpired_iff.1 (h.entry n key e₀ htag he₀ hslot₀)
    rw [hpending] at hcompleted
    cases hcompleted
  | written _ _ hnew _ _ =>
    have := h.bounded
    omega

/-- A failure is stale once it is settled, and a success when the time to live has passed. -/
theorem Settled.stale (h : Settled r s place slot a moment)
    (hold : (∃ e, a = .error e) ∨ moment + (s.cache place).ttl ≤ s.now) : Stale r s slot := by
  refine ⟨h.bounded, fun n key e htag hfiles hslot => ?_⟩
  obtain ⟨rfl, ⟨answer, rfl⟩, t, ht, hcompleted⟩ := h.entry n key e htag hfiles hslot
  rcases hold with ⟨e, herror⟩ | hold
  · cases herror
  · exact isExpired_iff.2 ⟨t, hcompleted, (Nat.add_le_add_right ht _).trans hold⟩

/-- **A request is never answered from a stale slot**, -/
theorem Stale.slot_ne (h : Stale r s slot) {client : Client} {input : Input} {key : CacheKey}
    (htag : key.tag = r.tag) : (r.lookupOrEnqueue client input key s).1.slot ≠ slot := by
  rw [lookupOrEnqueue]
  cases hlookup : (s.cache client.cache).lookup? key s.now with
  | some e =>
    rintro rfl
    obtain ⟨hfiles, hexpired⟩ := Option.filter_eq_some_iff.1 hlookup
    rw [h.entry client.cache key e htag hfiles rfl] at hexpired
    cases hexpired
  | none => exact h.bounded.ne'

/-- and if it finds no other it starts work of its own. -/
theorem Stale.joined (h : Stale r s slot) {client : Client} {input : Input} {key : CacheKey}
    (htag : key.tag = r.tag) (hrange : r.queue < s.queues.length)
    (honly : ∀ e, s.Files client.cache key e → e.slot = slot) :
    r.joined s (r.lookupOrEnqueue client input key s).2 = [⟨client, input, s.slots.length⟩] := by
  have hnone : (s.cache client.cache).lookup? key s.now = none := by
    cases hlookup : (s.cache client.cache).lookup? key s.now with
    | some e =>
      obtain ⟨hfiles, hexpired⟩ := Option.filter_eq_some_iff.1 hlookup
      rw [h.entry client.cache key e htag hfiles (honly e hfiles)] at hexpired
      cases hexpired
    | none => rfl
  rw [lookupOrEnqueue, hnone, Resolver.joined]
  change ((r.enqueue client input key s).2.queue r.queue).items.drop _ = _
  rw [queue_enqueue hrange, List.drop_left]

end Resolver

end SqlClient
