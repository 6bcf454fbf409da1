import SqlClient.Proofs.Coroutine.Interleaving
/-!
# Coroutines — conduct among others

Code whose text is left open, such as the batch function of a resolver, takes part in an ensemble
under a `Conduct`: what it may rely on, which changes of the state it may make, and which conditions
it may wait for. `Obeys` reads this off the code, however it depends on what it finds, and every move
keeps it (`Moves.obeys`).
-/

namespace SqlClient

namespace Coroutine

/-- Rules for a member of an ensemble. -/
structure Conduct (σ : Type) where
  /-- What holds of the state whenever the member goes on; the member keeps it. -/
  holds : σ → Prop
  /-- The changes that the member may make. -/
  may : σ → σ → Prop
  /-- The conditions that it may wait for. -/
  waits : (σ → Bool) → Prop

variable {σ : Type} {R : Conduct σ}

/-- `c.Obeys R Q`: as long as the state is as `R` says, the coroutine does only what `R` allows, and
so do the tasks that it starts; if it finishes, its result satisfies `Q`. -/
def Obeys (R : Conduct σ) : {α : Type} → Coroutine σ α → (α → Prop) → Prop
  | _, .done a, Q => Q a
  | _, .step f k, Q =>
    ∀ s, R.holds s → R.may s (f s).2 ∧ R.holds (f s).2 ∧ (k (f s).1).Obeys R Q
  | _, .await ready k, Q => R.waits ready ∧ k.Obeys R Q
  | _, .pause _ k, Q => k.Obeys R Q
  | _, .settle k, Q => k.Obeys R Q
  | _, .both l r k, Q =>
    ∃ P P', l.Obeys R P ∧ r.Obeys R P' ∧ ∀ x y, P x → P' y → (k x y).Obeys R Q
  | _, .crowd members _ k, Q =>
    ∃ P : Fin _ → _ → Prop, (∀ i, (members i).Obeys R (P i)) ∧
      ∀ xs, (∀ i, P i (xs i)) → (k (List.ofFn xs)).Obeys R Q
  | _, .guarded cleanup none body k, Q =>
    (∀ s, R.holds s → R.may s (cleanup s) ∧ R.holds (cleanup s)) ∧
      ∃ P, body.Obeys R P ∧ ∀ x, P x → (k x).Obeys R Q
  | _, .guarded cleanup (some rescue) body k, Q =>
    (∀ s, R.holds s → R.may s (cleanup s) ∧ R.holds (cleanup s)) ∧
      rescue.Obeys R (fun _ => True) ∧ ∃ P, body.Obeys R P ∧ ∀ x, P x → (k x).Obeys R Q
  | _, .race _ takeDown body k, Q =>
    (∀ s, R.holds s → R.may s (takeDown s) ∧ R.holds (takeDown s)) ∧
      ∃ P, body.Obeys R P ∧ (∀ x, P x → (k (some x)).Obeys R Q) ∧ (k none).Obeys R Q
  | _, .spawn task k, Q => task.Obeys R (fun _ => True) ∧ k.Obeys R Q
termination_by structural _ c => c

variable {α β : Type} {c c' : Coroutine σ α} {Q : α → Prop} {Q' : β → Prop}

/-! ## Sequencing -/

/-- Code that obeys, followed by code that obeys from every result the first can have. -/
theorem Obeys.bind : ∀ {α β : Type} {c : Coroutine σ α} {f : α → Coroutine σ β} {Q : α → Prop}
    {Q' : β → Prop}, c.Obeys R Q → (∀ a, Q a → (f a).Obeys R Q') → (c.bind f).Obeys R Q'
  | _, _, .done a, _, _, _, h, hf => hf a h
  | _, _, .step _ _, _, _, _, h, hf => fun s hs =>
    ⟨(h s hs).1, (h s hs).2.1, (h s hs).2.2.bind hf⟩
  | _, _, .await _ _, _, _, _, h, hf => ⟨h.1, h.2.bind hf⟩
  | _, _, .pause _ k, _, _, _, h, hf => bind (c := k) h hf
  | _, _, .settle k, _, _, _, h, hf => bind (c := k) h hf
  | _, _, .both _ _ _, _, _, _, h, hf =>
    let ⟨P, P', hl, hr, hk⟩ := h
    ⟨P, P', hl, hr, fun x y hx hy => (hk x y hx hy).bind hf⟩
  | _, _, .crowd _ _ _, _, _, _, h, hf =>
    let ⟨P, hm, hk⟩ := h
    ⟨P, hm, fun xs hxs => (hk xs hxs).bind hf⟩
  | _, _, .guarded _ none _ _, _, _, _, h, hf =>
    let ⟨hc, P, hbody, hk⟩ := h
    ⟨hc, P, hbody, fun x hx => (hk x hx).bind hf⟩
  | _, _, .guarded _ (some _) _ _, _, _, _, h, hf =>
    let ⟨hc, ht, P, hbody, hk⟩ := h
    ⟨hc, ht, P, hbody, fun x hx => (hk x hx).bind hf⟩
  | _, _, .race _ _ _ _, _, _, _, h, hf =>
    let ⟨ht, P, hbody, hk, hnone⟩ := h
    ⟨ht, P, hbody, fun x hx => (hk x hx).bind hf, hnone.bind hf⟩
  | _, _, .spawn _ _, _, _, _, h, hf => ⟨h.1, h.2.bind hf⟩

theorem obeys_giveWay (n : Nat) : (giveWay n).Obeys R (fun _ => True) := by
  induction n with
  | zero => trivial
  | succ n ih => exact ih

/-! ## Moves -/

/-- Giving up code that obeys changes the state as it may, and its rescues obey. -/
theorem Obeys.drop : ∀ {α : Type} {c : Coroutine σ α} {Q : α → Prop} (w : Turn σ), c.Obeys R Q →
    R.holds w.state → Relation.ReflTransGen R.may w.state (c.drop w).state ∧
      R.holds (c.drop w).state ∧
      ∀ t ∈ (c.drop w).spawned, t ∈ w.spawned ∨ t.Obeys R (fun _ => True)
  | _, .both l r _, _, w, h, hs => by
    obtain ⟨P, P', hl, hr, -⟩ := h
    obtain ⟨hmay, hs, ht⟩ := hl.drop w hs
    obtain ⟨hmay', hs', ht'⟩ := hr.drop (l.drop w) hs
    refine ⟨hmay.trans hmay', hs', fun t h => ?_⟩
    exact (ht' t h).elim (ht t) .inr
  | _, .crowd members order _, _, w, h, hs => by
    obtain ⟨P, hm, -⟩ := h
    rw [Coroutine.drop]
    -- the members are given up one after another, each in the state the last one left
    induction order with
    | nil => exact ⟨.refl, hs, fun t h => .inl h⟩
    | cons i order ih =>
      obtain ⟨hmay, hs, ht⟩ := ih
      obtain ⟨hmay', hs', ht'⟩ := (hm i).drop _ hs
      refine ⟨hmay.trans hmay', hs', fun t h => ?_⟩
      exact (ht' t h).elim (ht t) .inr
  | _, .guarded cleanup none body _, _, w, h, hs => by
    obtain ⟨hc, P, hbody, -⟩ := h
    obtain ⟨hmay, hs, ht⟩ := hbody.drop w hs
    refine ⟨hmay.tail (hc _ hs).1, (hc _ hs).2, fun t h => ht t ?_⟩
    simpa [Coroutine.drop] using h
  | _, .guarded cleanup (some rescue) body _, _, w, h, hs => by
    obtain ⟨hc, hrescue, P, hbody, -⟩ := h
    obtain ⟨hmay, hs, ht⟩ := hbody.drop w hs
    refine ⟨hmay.tail (hc _ hs).1, (hc _ hs).2, fun t h => ?_⟩
    rcases List.mem_append.1 h with h | h
    · exact ht t h
    · rw [Option.toList_some, List.mem_singleton] at h
      exact .inr (h ▸ hrescue)
  | _, .race _ _ body _, _, w, h, hs => by
    obtain ⟨-, P, hbody, -⟩ := h
    exact hbody.drop w hs
  | _, .done _, _, _, _, hs | _, .step _ _, _, _, _, hs | _, .await _ _, _, _, _, hs
  | _, .pause _ _, _, _, _, hs | _, .settle _, _, _, _, hs | _, .spawn _ _, _, _, _, hs =>
    ⟨.refl, hs, fun _ h => .inl h⟩

/-- **Every move of code that obeys is as it may be**, and what is left of it and the tasks that it
starts obey. -/
theorem Moves.obeys {s s' : σ} {ts : List (Coroutine σ Unit)} (h : Moves c s c' s' ts)
    (hs : R.holds s) {Q : α → Prop} (hc : c.Obeys R Q) :
    Relation.ReflTransGen R.may s s' ∧ R.holds s' ∧ c'.Obeys R Q ∧
      ∀ t ∈ ts, t.Obeys R (fun _ => True) := by
  induction h with
  | step => exact ⟨.single (hc _ hs).1, (hc _ hs).2.1, (hc _ hs).2.2, by simp⟩
  | await _ => exact ⟨.refl, hs, hc.2, by simp⟩
  | pause | resume | settle => exact ⟨.refl, hs, hc, by simp⟩
  | left _ ih =>
    obtain ⟨P, P', hl, hr, hk⟩ := hc
    obtain ⟨hmay, hs', hl', ht⟩ := ih hs hl
    exact ⟨hmay, hs', ⟨P, P', hl', hr, hk⟩, ht⟩
  | right _ ih =>
    obtain ⟨P, P', hl, hr, hk⟩ := hc
    obtain ⟨hmay, hs', hr', ht⟩ := ih hs hr
    exact ⟨hmay, hs', ⟨P, P', hl, hr', hk⟩, ht⟩
  | joined =>
    obtain ⟨P, P', hl, hr, hk⟩ := hc
    exact ⟨.refl, hs, hk _ _ hl hr, by simp⟩
  | member _ ih =>
    obtain ⟨P, hm, hk⟩ := hc
    obtain ⟨hmay, hs', hi, ht⟩ := ih hs (hm _)
    refine ⟨hmay, hs', ⟨P, fun j => ?_, hk⟩, ht⟩
    rw [Function.update_apply]
    split
    case isTrue hj => exact hj ▸ hi
    case isFalse => exact hm j
  | gathered hall =>
    obtain ⟨P, hm, hk⟩ := hc
    refine ⟨.refl, hs, hk _ fun i => ?_, by simp⟩
    have hi := hm i
    rwa [hall i] at hi
  | @inside _ _ _ rescue _ _ _ _ _ _ _ ih =>
    cases rescue with
    | none =>
      obtain ⟨hclean, P, hbody, hk⟩ := hc
      obtain ⟨hmay, hs', hbody', ht⟩ := ih hs hbody
      exact ⟨hmay, hs', ⟨hclean, P, hbody', hk⟩, ht⟩
    | some t =>
      obtain ⟨hclean, hrescue, P, hbody, hk⟩ := hc
      obtain ⟨hmay, hs', hbody', ht⟩ := ih hs hbody
      exact ⟨hmay, hs', ⟨hclean, hrescue, P, hbody', hk⟩, ht⟩
  | @leave _ _ _ rescue =>
    cases rescue with
    | none =>
      obtain ⟨-, P, hbody, hk⟩ := hc
      exact ⟨.refl, hs, hk _ hbody, by simp⟩
    | some t =>
      obtain ⟨-, -, P, hbody, hk⟩ := hc
      exact ⟨.refl, hs, hk _ hbody, by simp⟩
  | racing _ ih =>
    obtain ⟨htake, P, hbody, hk, hnone⟩ := hc
    obtain ⟨hmay, hs', hbody', ht⟩ := ih hs hbody
    exact ⟨hmay, hs', ⟨htake, P, hbody', hk, hnone⟩, ht⟩
  | won =>
    obtain ⟨-, P, hbody, hk, -⟩ := hc
    exact ⟨.refl, hs, hk _ hbody, by simp⟩
  | lost _ _ =>
    -- the body is taken down before it is dropped
    obtain ⟨htake, P, hbody, -, hnone⟩ := hc
    obtain ⟨hmay, hs'⟩ := htake _ hs
    obtain ⟨hmay', hs', ht⟩ := hbody.drop (Turn.start _ false) hs'
    refine ⟨.head hmay hmay', hs', hnone, fun t h => ?_⟩
    exact (ht t h).elim (fun h => by cases h) id
  | spawn => exact ⟨.refl, hs, hc.2, by simpa using hc.1⟩

/-- The order within a crowd is nobody's business. -/
theorem Reordered.obeys (h : Reordered c c') {Q : α → Prop} (hc : c.Obeys R Q) : c'.Obeys R Q := by
  induction h with
  | refl => exact hc
  | order _ => exact hc
  | member _ ih =>
    obtain ⟨P, hm, hk⟩ := hc
    refine ⟨P, fun j => ?_, hk⟩
    rw [Function.update_apply]
    split
    case isTrue hj => exact hj ▸ ih (hm _)
    case isFalse => exact hm j
  | left _ ih =>
    obtain ⟨P, P', hl, hr, hk⟩ := hc
    exact ⟨P, P', ih hl, hr, hk⟩
  | right _ ih =>
    obtain ⟨P, P', hl, hr, hk⟩ := hc
    exact ⟨P, P', hl, ih hr, hk⟩
  | @inside _ _ _ rescue _ _ _ _ ih =>
    cases rescue with
    | none =>
      obtain ⟨hclean, P, hbody, hk⟩ := hc
      exact ⟨hclean, P, ih hbody, hk⟩
    | some t =>
      obtain ⟨hclean, hrescue, P, hbody, hk⟩ := hc
      exact ⟨hclean, hrescue, P, ih hbody, hk⟩
  | racing _ ih =>
    obtain ⟨htake, P, hbody, hk, hnone⟩ := hc
    exact ⟨htake, P, ih hbody, hk, hnone⟩

theorem Shifts.obeys {s s' : σ} {ts : List (Coroutine σ Unit)} (h : Shifts c s c' s' ts)
    (hs : R.holds s) {Q : α → Prop} (hc : c.Obeys R Q) :
    Relation.ReflTransGen R.may s s' ∧ R.holds s' ∧ c'.Obeys R Q ∧
      ∀ t ∈ ts, t.Obeys R (fun _ => True) := by
  rcases h with hm | ⟨hr, rfl, rfl⟩
  · exact hm.obeys hs hc
  · exact ⟨.refl, hs, hr.obeys hc, by simp⟩

/-- **What everyone in an ensemble keeps, every interleaving keeps**, and everyone goes on to obey. -/
theorem Ensemble.obeys_of_runs {ε : Type} {others : σ → σ → Prop} {note : σ → σ → List ε}
    {p q : Ensemble σ α} {es : List ε} {Q : α → Prop} (h : Ensemble.Runs (Ensemble.Goes others) note p es q)
    (hothers : ∀ s s', R.holds s → others s s' → R.holds s') (hs : R.holds p.state)
    (hcallers : ∀ c ∈ p.callers, c.Obeys R Q) (htasks : ∀ t ∈ p.tasks, t.Obeys R fun _ => True) :
    R.holds q.state ∧ (∀ c ∈ q.callers, c.Obeys R Q) ∧ ∀ t ∈ q.tasks, t.Obeys R fun _ => True := by
  refine h.preserves (J := fun q => R.holds q.state ∧ (∀ c ∈ q.callers, c.Obeys R Q) ∧
    ∀ t ∈ q.tasks, t.Obeys R fun _ => True) ⟨hs, hcallers, htasks⟩ ?_
  rintro ⟨s, callers, tasks⟩ ⟨s', callers', tasks'⟩ ⟨hs, hcallers, htasks⟩ hgo
  -- whoever goes keeps what it obeys, and the others are as they were
  rcases Ensemble.goes_cases hgo with ⟨l, c, c', r, ts, rfl, hshifts, rfl, rfl⟩ |
    ⟨l, c, c', r, ts, rfl, hshifts, rfl, rfl⟩ | ⟨hother, rfl, rfl⟩
  · obtain ⟨-, hs', hc', hts⟩ := hshifts.obeys hs (hcallers c (by simp))
    refine ⟨hs', fun d hd => ?_, fun t ht => (List.mem_append.1 ht).elim (htasks t) (hts t)⟩
    rcases List.mem_append.1 hd with hd | hd
    · exact hcallers d (List.mem_append_left _ hd)
    · rcases List.mem_cons.1 hd with rfl | hd
      · exact hc'
      · exact hcallers d (by simp [hd])
  · obtain ⟨-, hs', hc', hts⟩ := hshifts.obeys hs (htasks c (by simp))
    refine ⟨hs', hcallers, fun d hd => ?_⟩
    rcases List.mem_append.1 hd with hd | hd
    · rcases List.mem_append.1 hd with hd | hd
      · exact htasks d (List.mem_append_left _ hd)
      · rcases List.mem_cons.1 hd with rfl | hd
        · exact hc'
        · exact htasks d (by simp [hd])
    · exact hts d hd
  · exact ⟨hothers _ _ hs hother, hcallers, htasks⟩

/-! ## Going on -/

/-- What goes on whenever a part of it does, and also when that part has finished, goes on if the part
does so until it has finished. -/
theorem goes_on_with {time : σ → σ → Prop} {c : Coroutine σ α} {part : Coroutine σ β} {s : σ}
    (hpart : part.result? = none →
      ∃ s₁ part' s' ts, Relation.ReflTransGen time s s₁ ∧ Moves part s₁ part' s' ts)
    (hwith : ∀ {s₁ part' s' ts}, Moves part s₁ part' s' ts → ∃ c', Moves c s₁ c' s' ts)
    (hdone : ∀ x, part = .done x →
      ∃ s₁ c' s' ts, Relation.ReflTransGen time s s₁ ∧ Moves c s₁ c' s' ts) :
    ∃ s₁ c' s' ts, Relation.ReflTransGen time s s₁ ∧ Moves c s₁ c' s' ts := by
  cases hresult : part.result? with
  | none =>
    obtain ⟨s₁, part', s', ts, htime, hmove⟩ := hpart hresult
    obtain ⟨c', hmove⟩ := hwith hmove
    exact ⟨s₁, c', s', ts, htime, hmove⟩
  | some x => exact hdone x (eq_done_of_result? hresult)

/-- Code that waits only for what comes with time goes on, at once or after some time. -/
theorem Obeys.goes_on {time : σ → σ → Prop}
    (hwaits : ∀ ready, R.waits ready → ∀ s, ∃ s', Relation.ReflTransGen time s s' ∧ ready s' = true) :
    ∀ {α : Type} {c : Coroutine σ α} {Q : α → Prop}, c.Obeys R Q → ∀ s, c.result? = none →
      ∃ s₁ c' s' ts, Relation.ReflTransGen time s s₁ ∧ Moves c s₁ c' s' ts
  | _, .done _, _, _, _, hrun => by cases hrun
  | _, .step _ _, _, _, s, _ => ⟨s, _, _, _, .refl, .step⟩
  | _, .await ready _, _, h, s, _ => by
    obtain ⟨s₁, htime, hready⟩ := hwaits ready h.1 s
    exact ⟨s₁, _, _, _, htime, .await hready⟩
  | _, .pause true _, _, _, s, _ => ⟨s, _, _, _, .refl, .resume⟩
  | _, .pause false _, _, _, s, _ => ⟨s, _, _, _, .refl, .pause⟩
  | _, .settle _, _, _, s, _ => ⟨s, _, _, _, .refl, .settle⟩
  | _, .both l r k, _, h, s, _ => by
    obtain ⟨P, P', hl, hr, -⟩ := h
    -- the side on the left goes on, or else the other one, or both have finished
    refine goes_on_with (hl.goes_on hwaits s) (fun hmove => ⟨_, .left hmove⟩) ?_
    rintro x rfl
    refine goes_on_with (hr.goes_on hwaits s) (fun hmove => ⟨_, .right hmove⟩) ?_
    rintro y rfl
    exact ⟨s, _, _, _, .refl, .joined⟩
  | _, .crowd members order k, _, h, s, _ => by
    obtain ⟨P, hm, -⟩ := h
    -- some member has not finished, or there is nothing left but to gather the results
    by_cases hall : ∃ i, (members i).result? = none
    · obtain ⟨i, hi⟩ := hall
      obtain ⟨s₁, c', s', ts, htime, hmove⟩ := (hm i).goes_on hwaits s hi
      exact ⟨s₁, _, s', ts, htime, .member hmove⟩
    · obtain ⟨xs, hxs⟩ := eq_done_of_all_result? fun i hi => hall ⟨i, hi⟩
      exact ⟨s, _, _, _, .refl, .gathered hxs⟩
  | _, .guarded _ none body k, _, h, s, _ => by
    obtain ⟨-, P, hbody, -⟩ := h
    refine goes_on_with (hbody.goes_on hwaits s) (fun hmove => ⟨_, .inside hmove⟩) ?_
    rintro x rfl
    exact ⟨s, _, _, _, .refl, .leave⟩
  | _, .guarded _ (some _) body k, _, h, s, _ => by
    obtain ⟨-, -, P, hbody, -⟩ := h
    refine goes_on_with (hbody.goes_on hwaits s) (fun hmove => ⟨_, .inside hmove⟩) ?_
    rintro x rfl
    exact ⟨s, _, _, _, .refl, .leave⟩
  | _, .race _ _ body _, _, h, s, _ => by
    obtain ⟨-, P, hbody, -⟩ := h
    refine goes_on_with (hbody.goes_on hwaits s) (fun hmove => ⟨_, .racing hmove⟩) ?_
    rintro x rfl
    exact ⟨s, _, _, _, .refl, .won⟩
  | _, .spawn _ _, _, _, s, _ => ⟨s, _, _, _, .refl, .spawn⟩

end Coroutine

end SqlClient
