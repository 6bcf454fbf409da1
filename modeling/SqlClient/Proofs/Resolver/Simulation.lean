import Mathlib.Data.List.Forall2
import SqlClient.Proofs.Resolver.Traffic
/-!
# Resolvers — ensembles as traffic

Every step of an ensemble of calls and flushes is a step of the traffic that describes it, so what
the steps of traffic keep, every interleaving keeps (`runs_shows`).
-/

namespace SqlClient

namespace Resolver

open Coroutine

variable {β : Type}

/-! ## Members -/

variable {r : Resolver (Observed β)} {s s' : Store (Observed β)} {L : Ledger}
  {ts : List (Coroutine (Store (Observed β)) Unit)}

/-- **What a member does shows in the traffic**: what describes it, `x` in the world `W`, takes a step
or stays as it is, and then fits the member again. The tasks that the member starts are described as
well. -/
def ShowsIn {γ : Type _} (r : Resolver (Observed β)) (W : World β) (x : γ)
    (Step : World β → γ → List (Task β) → Prop) (Fits : γ → Prop) (s' : Store (Observed β))
    (ts : List (Coroutine (Store (Observed β)) Unit)) : Prop :=
  ∃ W' x' started, W'.store = s' ∧ Fits x' ∧ List.Forall₂ (Task.Does r) started ts ∧
    (Step W' x' started ∨ W' = W ∧ x' = x ∧ started = [])

section

variable {γ : Type _} {W W' : World β} {x x' : γ} {Step : World β → γ → List (Task β) → Prop}
  {Fits : γ → Prop} {started : List (Task β)}

/-- The member has yet to go on, or has come to an end. -/
theorem showsIn_still (hs : s' = W.store) (hts : ts = []) (hfits : Fits x) :
    ShowsIn r W x Step Fits s' ts :=
  ⟨W, x, [], hs.symm, hfits, hts ▸ .nil, .inr ⟨rfl, rfl, rfl⟩⟩

theorem showsIn_step (hstep : Step W' x' started) (hfits : Fits x')
    (hstarted : List.Forall₂ (Task.Does r) started ts) : ShowsIn r W x Step Fits W'.store ts :=
  ⟨W', x', started, rfl, hfits, hstarted, .inl hstep⟩

end

/-- What a call does is a step of the traffic, or nothing. -/
theorem callStep_of_shifts {call : Call} {stage : CallStage}
    {c' : Coroutine (Store (Observed β)) (Outcome (Option Json))}
    (h : Shifts (stage.code r.observed call) s c' s' ts) :
    ShowsIn r ⟨s, L⟩ stage (CallStep r ⟨s, L⟩ call stage)
      (fun stage' => c' = stage'.code r.observed call) s' ts := by
  -- a call that has come to an end
  have hdone {o : Outcome (Option Json)} (hcode : stage.code r.observed call = .done o) :
      ShowsIn r ⟨s, L⟩ stage (CallStep r ⟨s, L⟩ call stage)
        (fun stage' => c' = stage'.code r.observed call) s' ts := by
    rw [hcode] at h
    obtain ⟨hc, hs, hts⟩ := shifts_done h
    exact showsIn_still hs hts (hc.trans hcode.symm)
  cases stage with
  | asked =>
    cases call with
    | resolve client input =>
      cases hkey : r.key client input with
      | error e => exact hdone (run_resolve_error hkey)
      | ok key =>
        have hcode : CallStage.asked.code r.observed (.resolve client input) = _ := run_resolve hkey
        rw [hcode] at h
        obtain ⟨rfl, ⟨hc, hs⟩ | ⟨rfl, rfl⟩⟩ := shifts_step h
        · exact showsIn_still hs rfl (hc.trans hcode.symm)
        · cases hlookup : (s.cache client.cache).lookup? key s.now with
          | some e =>
            have hfound : r.observed.lookupOrEnqueue client input key s = (⟨e.id, e.slot, false⟩, s) := by
              simp only [lookupOrEnqueue, hlookup]
            rw [hfound]
            exact showsIn_step (CallStep.hit hkey hlookup) rfl .nil
          | none =>
            have hopened : r.observed.lookupOrEnqueue client input key s =
                r.enqueue client input key s := by
              simp only [lookupOrEnqueue, hlookup]
              rfl
            rw [hopened]
            exact showsIn_step (CallStep.miss hkey hlookup) rfl .nil
    | populate owner input value =>
      cases hkey : r.key owner input with
      | error e => exact hdone (run_populate_error hkey)
      | ok key =>
        have hcode : CallStage.asked.code r.observed (.populate owner input value) = _ :=
          run_populate hkey
        rw [hcode] at h
        obtain ⟨rfl, ⟨hc, hs⟩ | ⟨rfl, rfl⟩⟩ := shifts_step h
        · exact showsIn_still hs rfl (hc.trans hcode.symm)
        · exact showsIn_step (CallStep.populate hkey) rfl .nil
    | invalidate owner input =>
      cases hkey : r.key owner input with
      | error e => exact hdone (run_invalidate_error hkey)
      | ok key =>
        have hcode : CallStage.asked.code r.observed (.invalidate owner input) = _ :=
          run_invalidate hkey
        rw [hcode] at h
        obtain ⟨rfl, ⟨hc, hs⟩ | ⟨rfl, rfl⟩⟩ := shifts_step h
        · exact showsIn_still hs rfl (hc.trans hcode.symm)
        · exact showsIn_step (CallStep.invalidate hkey) rfl .nil
  | launching client key ticket =>
    obtain ⟨rfl, ⟨hc, hts⟩ | ⟨rfl, rfl⟩⟩ := shifts_spawn h
    · exact showsIn_still rfl hts hc
    · exact showsIn_step CallStep.launch rfl (.cons (flush_eq r.observed) .nil)
  | waiting client key ticket =>
    obtain ⟨rfl, rfl, hc | ⟨rfl, hready⟩⟩ := shifts_await h
    · exact showsIn_still rfl rfl hc
    · exact showsIn_step (CallStep.wake hready) rfl .nil
  | collecting client key ticket =>
    obtain ⟨rfl, ⟨hc, hs⟩ | ⟨rfl, rfl⟩⟩ := shifts_step h
    · exact showsIn_still hs rfl hc
    · exact showsIn_step CallStep.collect rfl .nil
  | returned result => exact hdone rfl

/-- Tasks that a batch function starts are filed as such. -/
theorem does_others (r : Resolver (Observed β)) (ts : List (Coroutine (Store (Observed β)) Unit)) :
    List.Forall₂ (Task.Does r) (ts.map .other) ts := by
  induction ts with
  | nil => exact .nil
  | cons t ts ih => exact .cons rfl ih

/-- What a batch does is a step of the traffic, or nothing. -/
theorem batchStep_of_shifts {b : Batch β} {c' : Coroutine (Store (Observed β)) Unit}
    (h : Shifts (b.code r) s c' s' ts) :
    ShowsIn r ⟨s, L⟩ b (BatchStep r ⟨s, L⟩ b) (fun b' => c' = b'.code r) s' ts := by
  obtain ⟨requests, stage⟩ := b
  cases requests with
  | nil =>
    obtain ⟨hc, hs, hts⟩ := shifts_done h
    exact showsIn_still hs hts hc
  | cons first others =>
    cases stage with
    | ready =>
      obtain ⟨rfl, ⟨hc, hs⟩ | ⟨rfl, rfl⟩⟩ := shifts_step h
      · exact showsIn_still hs rfl hc
      · exact showsIn_step BatchStep.takeOver rfl .nil
    | calling =>
      obtain ⟨rfl, ⟨hc, hs⟩ | ⟨rfl, rfl⟩⟩ := shifts_step h
      · exact showsIn_still hs rfl hc
      · exact showsIn_step BatchStep.hand rfl .nil
    | running place rest =>
      -- a batch that has been handed over does what its function does, and then notes it
      rcases shifts_bind h with ⟨d, hd, rfl⟩ | ⟨answers, hd, h⟩
      · rcases shifts_bind hd with ⟨rest', hrest, rfl⟩ | ⟨answers, rfl, hfinish⟩
        · exact showsIn_step (BatchStep.run hrest) rfl (does_others r ts)
        · obtain ⟨rfl, ⟨rfl, hs⟩ | ⟨rfl, rfl⟩⟩ := shifts_step hfinish
          · exact showsIn_still hs rfl rfl
          · exact showsIn_step BatchStep.answer rfl .nil
      · cases rest with
        | done => cases hd
        | _ => cases hd
    | leaving place answers =>
      obtain ⟨rfl, ⟨hc, hs⟩ | ⟨rfl, rfl⟩⟩ := shifts_step h
      · exact showsIn_still hs rfl hc
      · exact showsIn_step BatchStep.leave rfl .nil
    | delivering place answers =>
      obtain ⟨rfl, ⟨hc, hs⟩ | ⟨rfl, rfl⟩⟩ := shifts_step h
      · exact showsIn_still hs rfl hc
      · exact showsIn_step BatchStep.deliver rfl .nil
    | delivered =>
      obtain ⟨hc, hs, hts⟩ := shifts_done h
      exact showsIn_still hs hts hc

theorem map_code_ready (r : Resolver (Observed β)) (batches : List (List PendingRequest)) :
    (batches.map (⟨·, .ready⟩)).map (Batch.code r) = batches.map r.observed.runBatch := by
  rw [List.map_map]
  refine List.map_congr_left fun requests _ => ?_
  cases requests <;> rfl

/-- What a task does is a step of the traffic, or nothing that shows. -/
theorem taskStep_of_shifts {t : Task β} {c c' : Coroutine (Store (Observed β)) Unit}
    (ht : t.Does r c) (h : Shifts c s c' s' ts) :
    ShowsIn r ⟨s, L⟩ t (TaskStep r ⟨s, L⟩ t) (·.Does r c') s' ts := by
  cases t with
  | gathering rest =>
    subst ht
    rcases shifts_bind h with ⟨rest', hrest, rfl⟩ | ⟨u, rfl, h⟩
    · exact showsIn_step (TaskStep.gather hrest) rfl (does_others r ts)
    · obtain ⟨rfl, ⟨rfl, rfl⟩ | ⟨rfl, rfl⟩⟩ := shifts_step h
      · exact showsIn_still rfl rfl rfl
      · refine showsIn_step TaskStep.drain ⟨_, ?_, rfl⟩ .nil
        rw [map_code_ready]
        exact beside_all _
  | serving batches =>
    obtain ⟨rest, hrest, rfl⟩ := ht
    rcases shifts_bind h with ⟨rest', hshift, rfl⟩ | ⟨u, rfl, h⟩
    · -- the batches of a flush run side by side: one of them moves, or they are joined
      rcases hrest.shifts hshift with ⟨l, d, d', l', hsplit, hd, hbeside⟩ | ⟨rfl, rfl, hbeside⟩
      · obtain ⟨bs, bs₂, hbs, rfl, h₂⟩ := List.map_eq_append_iff.1 hsplit
        obtain ⟨b, bs', rfl, rfl, rfl⟩ := List.map_eq_cons_iff.1 h₂
        subst hbs
        obtain ⟨W', b', started, hstore, hcode, hstarted, hstep⟩ := @batchStep_of_shifts _ _ _ _ L _ _ _ hd
        refine ⟨W', .serving (bs ++ b' :: bs'), started, hstore, ⟨rest', ?_, rfl⟩, hstarted, ?_⟩
        · simpa [← hcode] using hbeside
        · rcases hstep with hstep | ⟨rfl, rfl, rfl⟩
          · exact .inl (.serve hstep)
          · exact .inr ⟨rfl, rfl, rfl⟩
      · exact showsIn_still rfl rfl ⟨rest', hbeside, rfl⟩
    · obtain ⟨rfl, rfl, rfl⟩ := shifts_done h
      exact showsIn_still rfl rfl ⟨_, hrest, rfl⟩
  | other rest =>
    subst ht
    exact showsIn_step (TaskStep.other h) rfl (does_others r ts)

/-! ## Ensembles -/

variable {p q : Ensemble (Store (Observed β)) (Outcome (Option Json))}

/-- The members of a list that correspond to the parts of another. -/
theorem forall₂_append_cons {γ δ : Type 1} {R : γ → δ → Prop} {xs : List γ} {l l' : List δ}
    {c : δ} (h : List.Forall₂ R xs (l ++ c :: l')) :
    ∃ m x m', xs = m ++ x :: m' ∧ List.Forall₂ R m l ∧ R x c ∧ List.Forall₂ R m' l' := by
  induction l generalizing xs with
  | nil =>
    cases h with
    | cons hx hm => exact ⟨[], _, _, rfl, .nil, hx, hm⟩
  | cons d l ih =>
    cases h with
    | cons hd h =>
      obtain ⟨m, x, m', rfl, hm, hx, hm'⟩ := ih h
      exact ⟨_ :: m, x, m', rfl, .cons hd hm, hx, hm'⟩

/-- **Every step of the ensemble is one of the traffic.** -/
theorem Traffic.Shows.goes {others : Store (Observed β) → Store (Observed β) → Prop} {A : Traffic β}
    (h : A.Shows r p) (hgo : Ensemble.Goes others p q) :
    ∃ A', Traffic.Steps r others A A' ∧ A'.Shows r q := by
  obtain ⟨⟨s, L⟩, calls, tasks⟩ := A
  obtain ⟨hstore, hcalls, htasks⟩ := h
  dsimp only at hstore hcalls htasks
  -- whoever moves is described at the same place of the traffic
  rcases Ensemble.goes_cases hgo with ⟨l, c, c', l', ts, hp, hshift, hq, hqtasks⟩ |
    ⟨l, c, c', l', ts, hp, hshift, hq, hqtasks⟩ | ⟨hothers, hq, hqtasks⟩
  · rw [hcalls] at hp
    obtain ⟨xs, ys, rfl, rfl, hys⟩ := List.map_eq_append_iff.1 hp
    obtain ⟨⟨call, stage⟩, xs', rfl, rfl, rfl⟩ := List.map_eq_cons_iff.1 hys
    rw [hstore] at hshift
    obtain ⟨W', stage', started, hW', hcode, hstarted, hstep⟩ := @callStep_of_shifts _ _ _ _ L _ _ _ _ hshift
    refine ⟨⟨W', xs ++ (call, stage') :: xs', tasks ++ started⟩, ?_, hW'.symm, ?_, ?_⟩
    · rcases hstep with hstep | ⟨rfl, rfl, rfl⟩
      · exact .call hstep
      · rw [List.append_nil]
        exact .still
    · rw [hq, hcode]
      simp
    · rw [hqtasks]
      exact List.rel_append htasks hstarted
  · rw [hp] at htasks
    obtain ⟨xs, t, xs', rfl, hxs, ht, hxs'⟩ := forall₂_append_cons htasks
    rw [hstore] at hshift
    obtain ⟨W', t', started, hW', ht', hstarted, hstep⟩ := @taskStep_of_shifts _ _ _ _ L _ _ _ _ ht hshift
    refine ⟨⟨W', calls, xs ++ t' :: xs' ++ started⟩, ?_, hW'.symm, hq.trans hcalls, ?_⟩
    · rcases hstep with hstep | ⟨rfl, rfl, rfl⟩
      · exact .task hstep
      · rw [List.append_nil]
        exact .still
    · rw [hqtasks]
      exact List.rel_append (List.rel_append hxs (.cons ht' hxs')) hstarted
  · exact ⟨⟨⟨q.state, L⟩, calls, tasks⟩, .others (hstore ▸ hothers), rfl, hq.trans hcalls,
      hqtasks ▸ htasks⟩

end Resolver

end SqlClient
