import SqlClient.Proofs.Coroutine.Protocol
import SqlClient.Proofs.Resolver.Books
/-!
# Resolvers — callers that give up

A caller that waits for its answer may be given up. It leaves nothing behind but its request, which stays
in the queue or in its batch, so to everyone else it is a caller that never goes on: an interleaving in
which callers are given up is one in which they are not, but for those callers themselves
(`runs_of_departing`).
-/

namespace SqlClient

namespace Coroutine

variable {σ α : Type}

/-- What is left of a caller that was given up: it never goes on. -/
def givenUp (c : Coroutine σ α) : Coroutine σ α := .await (fun _ => false) c

theorem shifts_givenUp {c d : Coroutine σ α} {s s' : σ} {ts : List (Coroutine σ Unit)}
    (h : Shifts c.givenUp s d s' ts) : d = c.givenUp ∧ s' = s ∧ ts = [] := by
  obtain ⟨hts, hs, hd | ⟨-, hready⟩⟩ := shifts_await h
  · exact ⟨hd, hs, hts⟩
  · cases hready

namespace Ensemble

/-- A caller is given up where it waits, with all its guards. -/
inductive Departs : Ensemble σ α → Ensemble σ α → Prop
  | caller {s : σ} {l r : List (Coroutine σ α)} {c : Coroutine σ α} {tasks : List (Coroutine σ Unit)} :
      c.Waits → Departs ⟨s, l ++ c :: r, tasks⟩
        ⟨(c.drop (Turn.start s false)).state, l ++ c.givenUp :: r,
          tasks ++ (c.drop (Turn.start s false)).spawned⟩

/-- A step of an interleaving, in which callers may be given up. -/
def Proceeds (others : σ → σ → Prop) (p q : Ensemble σ α) : Prop := Goes others p q ∨ Departs p q

/-- Nobody has to be given up. -/
theorem proceeds_of_runs {ε : Type} {others : σ → σ → Prop} {note : σ → σ → List ε}
    {p q : Ensemble σ α} {es : List ε} (hrun : Runs (Goes others) note p es q) : Runs (Proceeds others) note p es q := by
  induction hrun with
  | refl => exact .refl
  | tail _ hgo ih => exact ih.tail (.inl hgo)

/-- What a step leaves of a caller. -/
theorem Proceeds.caller {others : σ → σ → Prop} {p q : Ensemble σ α} (h : Proceeds others p q) {i : Nat}
    {c : Coroutine σ α} (hi : p.callers[i]? = some c) :
    ∃ c', q.callers[i]? = some c' ∧ (c' = c ∨ (∃ ts, Shifts c p.state c' q.state ts) ∨ ∃ d, c' = givenUp d) := by
  have hsplit (l r : List (Coroutine σ α)) (b b' : Coroutine σ α) (hcallers : p.callers = l ++ b :: r)
      (hcallers' : q.callers = l ++ b' :: r) : q.callers[i]? = some c ∨ b = c ∧ q.callers[i]? = some b' := by
    rw [hcallers] at hi
    rw [hcallers']
    -- the caller stands before the one that moves, is that one, or stands behind it
    rcases lt_trichotomy i l.length with hlt | rfl | hgt
    · rw [List.getElem?_append_left hlt] at hi ⊢
      exact .inl hi
    · rw [List.getElem?_append_right (Nat.le_refl _), Nat.sub_self] at hi ⊢
      exact .inr ⟨Option.some.inj hi, rfl⟩
    · obtain ⟨k, rfl⟩ := Nat.exists_eq_add_of_lt hgt
      rw [List.getElem?_append_right (by omega), show l.length + k + 1 - l.length = k + 1 by omega,
        List.getElem?_cons_succ] at hi ⊢
      exact .inl hi
  rcases h with hgo | hdeparts
  · rcases goes_cases hgo with ⟨l, b, b', r, ts, hcallers, hshifts, hcallers', -⟩ | ⟨-, -, -, -, -, -, -, hsame, -⟩ |
      ⟨-, hsame, -⟩
    · rcases hsplit l r b b' hcallers hcallers' with hsame | ⟨rfl, hb'⟩
      · exact ⟨c, hsame, .inl rfl⟩
      · exact ⟨b', hb', .inr (.inl ⟨ts, hshifts⟩)⟩
    · exact ⟨c, hsame ▸ hi, .inl rfl⟩
    · exact ⟨c, hsame ▸ hi, .inl rfl⟩
  · cases hdeparts with
    | @caller s l r b tasks _ =>
      rcases hsplit l r b b.givenUp rfl rfl with hsame | ⟨-, hb'⟩
      · exact ⟨c, hsame, .inl rfl⟩
      · exact ⟨_, hb', .inr (.inr ⟨b, rfl⟩)⟩

/-- The same ensemble, but for callers that were given up in the first. -/
structure Mirrors (p p' : Ensemble σ α) : Prop where
  state : p'.state = p.state
  tasks : p'.tasks = p.tasks
  callers : List.Forall₂ (fun c c' => c = c' ∨ ∃ d, c = givenUp d) p.callers p'.callers

variable {others : σ → σ → Prop} {p p' q : Ensemble σ α}

theorem Mirrors.refl (p : Ensemble σ α) : Mirrors p p :=
  ⟨rfl, rfl, List.forall₂_same.2 fun _ _ => .inl rfl⟩

/-- A caller that finishes was not given up. -/
theorem Mirrors.done (h : Mirrors p p') {i : Nat} {a : α} (hdone : p.callers[i]? = some (.done a)) :
    p'.callers[i]? = some (.done a) := by
  obtain ⟨hi, hget⟩ := List.getElem?_eq_some_iff.1 hdone
  have hi' : i < p'.callers.length := h.callers.length_eq ▸ hi
  rcases h.callers.get hi hi' with hsame | ⟨d, hgivenUp⟩
  · exact List.getElem?_eq_some_iff.2 ⟨hi', hsame.symm.trans hget⟩
  · cases hgivenUp.symm.trans hget

/-- The places of a caller in an ensemble and in one that mirrors it. -/
theorem Mirrors.split {s : σ} {l r callers' : List (Coroutine σ α)} {c : Coroutine σ α}
    {tasks tasks' : List (Coroutine σ Unit)} {s' : σ}
    (h : Mirrors ⟨s, l ++ c :: r, tasks⟩ ⟨s', callers', tasks'⟩) :
    ∃ l' c' r', callers' = l' ++ c' :: r' ∧ (c = c' ∨ ∃ d, c = givenUp d) ∧
      ∀ b b' t us, (b = b' ∨ ∃ d, b = givenUp d) →
        Mirrors ⟨t, l ++ b :: r, us⟩ ⟨t, l' ++ b' :: r', us⟩ := by
  obtain ⟨l', c', r', rfl, hl, hc, hr⟩ := Resolver.forall₂_append_cons h.callers.flip
  exact ⟨l', c', r', rfl, hc, fun b b' t us hb =>
    ⟨rfl, rfl, List.rel_append hl.flip (.cons hb hr.flip)⟩⟩

/-- **A step in which a caller may be given up** is a step of the callers that were not, or none, if giving
a caller up changes nothing. -/
theorem Proceeds.mirrors (hproceeds : Proceeds others p q) (h : Mirrors p p')
    (hdrop : ∀ c ∈ p'.callers, c.Waits → ∀ w, c.drop w = w) :
    ∃ q', (Goes others p' q' ∨ q' = p' ∧ q.state = p.state) ∧ Mirrors q q' := by
  obtain ⟨s, callers, tasks⟩ := p
  obtain ⟨s', callers', tasks'⟩ := p'
  obtain ⟨hstate, htasks, -⟩ := id h
  dsimp only at hstate htasks
  subst hstate htasks
  rcases hproceeds with hgo | hdeparts
  · obtain ⟨t, qcallers, qtasks⟩ := q
    rcases goes_cases hgo with ⟨l, c, c', r, ts, hcallers, hshifts, hqcallers, hqtasks⟩ |
      ⟨l, c, c', r, ts, htasks, hshifts, hqcallers, hqtasks⟩ | ⟨hother, hqcallers, hqtasks⟩
    · dsimp only at hcallers hshifts hqcallers hqtasks
      subst hcallers hqcallers hqtasks
      obtain ⟨l', b, r', rfl, hb, hmirrors⟩ := h.split
      -- whoever was given up does nothing any more
      rcases hb with rfl | ⟨d, rfl⟩
      · exact ⟨_, .inl (goes_caller hshifts), hmirrors _ _ _ _ (.inl rfl)⟩
      · obtain ⟨rfl, rfl, rfl⟩ := shifts_givenUp hshifts
        rw [List.append_nil]
        exact ⟨_, .inr ⟨rfl, rfl⟩, h⟩
    · dsimp only at htasks hshifts hqcallers hqtasks
      subst htasks hqcallers hqtasks
      exact ⟨_, .inl (goes_task hshifts), rfl, rfl, h.callers⟩
    · dsimp only at hother hqcallers hqtasks
      subst hqcallers hqtasks
      exact ⟨⟨t, callers', _⟩, .inl (.inr (.others hother)), rfl, rfl, h.callers⟩
  · cases hdeparts with
    | @caller s l r c tasks hwaits =>
      obtain ⟨l', b, r', rfl, hb, hmirrors⟩ := h.split
      have hstays : ∀ w, c.drop w = w := by
        rcases hb with rfl | ⟨d, rfl⟩
        · exact hdrop _ (List.mem_append_right _ List.mem_cons_self) hwaits
        · exact fun _ => rfl
      rw [hstays, Turn.start, List.append_nil]
      exact ⟨_, .inr ⟨rfl, rfl⟩, hmirrors _ _ _ _ (.inr ⟨c, rfl⟩)⟩

end Ensemble

end Coroutine

namespace Resolver

open Coroutine Ensemble

variable {β : Type} {r : Resolver (Observed β)} {A : Traffic β}
  {others : Store (Observed β) → Store (Observed β) → Prop}
  {p p' q : Ensemble (Store (Observed β)) (Outcome (Option Json))} {es : List PendingRequest}

/-- A call has no guards. -/
theorem drop_code (r : Resolver β) (call : Call) (stage : CallStage) (w : Turn (Store β)) :
    (stage.code r call).drop w = w := by
  cases stage with
  | asked =>
    cases call with
    | resolve client input =>
      cases hkey : r.key client input with
      | error e => exact congrArg (drop · w) (run_resolve_error hkey)
      | ok key => exact congrArg (drop · w) (run_resolve hkey)
    | populate owner input value =>
      cases hkey : r.key owner input with
      | error e => exact congrArg (drop · w) (run_populate_error hkey)
      | ok key => exact congrArg (drop · w) (run_populate hkey)
    | invalidate owner input =>
      cases hkey : r.key owner input with
      | error e => exact congrArg (drop · w) (run_invalidate_error hkey)
      | ok key => exact congrArg (drop · w) (run_invalidate hkey)
  | _ => rfl

/-- **Calls that are given up** leave the others an interleaving in which nobody is. -/
theorem runs_of_departing (hshows : A.Shows r p') (h : Mirrors p p')
    (hrun : Runs (Proceeds others) r.joined p es q) :
    ∃ (q' : _) (A' : Traffic β), Mirrors q q' ∧ Runs (Goes others) r.joined p' es q' ∧ A'.Shows r q' := by
  induction hrun with
  | refl => exact ⟨p', A, h, .refl, hshows⟩
  | @tail q₁ q₂ es _ hgo ih =>
    obtain ⟨q', A', hmirrors, hruns, hshows'⟩ := ih
    have hdrop : ∀ c ∈ q'.callers, c.Waits → ∀ w, c.drop w = w := by
      rw [hshows'.calls]
      rintro _ hc - w
      obtain ⟨call, -, rfl⟩ := List.mem_map.1 hc
      exact drop_code r.observed call.1 call.2 w
    obtain ⟨q'', hgoes | ⟨rfl, hstate⟩, hmirrors'⟩ := hgo.mirrors hmirrors hdrop
    · obtain ⟨A'', -, hshows''⟩ := hshows'.goes hgoes
      refine ⟨q'', A'', hmirrors', ?_, hshows''⟩
      rw [← hmirrors.state, ← hmirrors'.state]
      exact hruns.tail hgoes
    · refine ⟨q'', A', hmirrors', ?_, hshows'⟩
      rw [hstate, joined_of_same rfl, List.append_nil]
      exact hruns

end Resolver

end SqlClient
