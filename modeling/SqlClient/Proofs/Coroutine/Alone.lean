import SqlClient.Coroutine.Scheduler
/-!
# Coroutines — running alone

A coroutine with nobody beside it and no background tasks meets only its own changes of the state.
`CompletesIn` is that run as a relation, indexed by how often the coroutine gives way on the way,
and `Completes` forgets the index. Runs compose along `bind` and pass through guards, which do
nothing unless a body is given up. `finishesAlone_of_completes` carries the relation into the
scheduler: with enough fuel for the rounds, the run of the scheduler is that run.
-/

namespace SqlClient

namespace Coroutine

variable {σ : Type}

/-- `CompletesIn n c s a s'`: alone from the state `s`, the coroutine `c` finishes with `a` in the
state `s'` and gives way `n` times before that. -/
inductive CompletesIn : {α : Type} → Nat → Coroutine σ α → σ → α → σ → Prop
  | done {α : Type} {a : α} {s : σ} : CompletesIn 0 (.done a) s a s
  | step {α ρ : Type} {n : Nat} {f : σ → ρ × σ} {k : ρ → Coroutine σ α} {s s' : σ} {a : α} :
      CompletesIn n (k (f s).1) (f s).2 a s' → CompletesIn n (.step f k) s a s'
  /-- Alone, a condition either holds at once or never. -/
  | await {α : Type} {n : Nat} {ready : σ → Bool} {k : Coroutine σ α} {s s' : σ} {a : α} :
      ready s = true → CompletesIn n k s a s' → CompletesIn n (.await ready k) s a s'
  | pause {α : Type} {n : Nat} {k : Coroutine σ α} {s s' : σ} {a : α} :
      CompletesIn n k s a s' → CompletesIn (n + 1) (.pause false k) s a s'
  | resume {α : Type} {n : Nat} {k : Coroutine σ α} {s s' : σ} {a : α} :
      CompletesIn n k s a s' → CompletesIn n (.pause true k) s a s'
  | guarded {α β : Type} {m n : Nat} {cleanup : σ → σ} {rescue : Option (Coroutine σ Unit)}
      {body : Coroutine σ β} {k : β → Coroutine σ α} {s s₁ s' : σ} {x : β} {a : α} :
      CompletesIn m body s x s₁ → CompletesIn n (k x) s₁ a s' →
      CompletesIn (m + n) (.guarded cleanup rescue body k) s a s'

/-- Alone, the coroutine finishes, however often it gives way. -/
def Completes {α : Type} (c : Coroutine σ α) (s : σ) (a : α) (s' : σ) : Prop :=
  ∃ n, CompletesIn n c s a s'

variable {α β : Type} {c : Coroutine σ α} {s s₁ s' : σ} {a : α} {b : β}

/-! ## Sequencing -/

theorem CompletesIn.bind {m n : Nat} {f : α → Coroutine σ β} (hc : CompletesIn m c s a s₁)
    (hf : CompletesIn n (f a) s₁ b s') : CompletesIn (m + n) (c.bind f) s b s' := by
  induction hc with
  | done => rw [Nat.zero_add]; exact hf
  | step _ ih => exact .step (ih hf)
  | await hready _ ih => exact .await hready (ih hf)
  | pause _ ih => rw [Nat.add_right_comm]; exact .pause (ih hf)
  | resume _ ih => exact .resume (ih hf)
  | guarded hbody _ _ ih => rw [Nat.add_assoc]; exact .guarded hbody (ih hf)

namespace Completes

theorem pure : Completes (σ := σ) (Pure.pure a) s a s :=
  ⟨0, .done⟩

/-- **Runs compose.** -/
theorem bind {f : α → Coroutine σ β} (hc : Completes c s a s₁) (hf : Completes (f a) s₁ b s') :
    Completes (c >>= f) s b s' := by
  obtain ⟨m, hm⟩ := hc
  obtain ⟨n, hn⟩ := hf
  exact ⟨m + n, hm.bind hn⟩

theorem perform {ρ : Type} (f : σ → ρ × σ) : Completes (perform f) s (f s).1 (f s).2 :=
  ⟨0, .step .done⟩

theorem change (f : σ → σ) : Completes (change f) s () (f s) :=
  perform _

theorem inspect {ρ : Type} (f : σ → ρ) : Completes (inspect f) s (f s) s :=
  perform _

theorem waitFor {ready : σ → Bool} (h : ready s = true) : Completes (waitFor ready) s () s :=
  ⟨0, .await h .done⟩

theorem giveWay (n : Nat) : Completes (giveWay n) s () s := by
  induction n with
  | zero => exact pure
  | succ n ih =>
    obtain ⟨m, hm⟩ := ih
    exact ⟨m + 1, .pause hm⟩

/-- A guard shows only when its body is given up, and nobody gives up a body that finishes. -/
theorem guarded {cleanup : σ → σ} {rescue : Option (Coroutine σ Unit)} {k : α → Coroutine σ β}
    (hc : Completes c s a s₁) (hk : Completes (k a) s₁ b s') :
    Completes (.guarded cleanup rescue c k) s b s' := by
  obtain ⟨m, hm⟩ := hc
  obtain ⟨n, hn⟩ := hk
  exact ⟨m + n, .guarded hm hn⟩

theorem ensuring {cleanup : σ → σ} (hc : Completes c s a s₁) :
    Completes (ensuring cleanup c) s a (cleanup s₁) :=
  guarded hc ⟨0, .step .done⟩

end Completes

/-! ## Into the scheduler -/

/-- A run that never gives way is over within one turn, which starts no background task. -/
theorem CompletesIn.poll_zero {n : Nat} (h : CompletesIn n c s a s') (hn : n = 0) :
    ∀ w : Turn σ, w.state = s → c.poll w = (.done a, { w with state := s' }) := by
  induction h with
  | done => rintro w rfl; rw [poll]
  | step _ ih =>
    rintro w rfl
    rw [poll, ih hn _ rfl]
  | await hready _ ih =>
    rintro w rfl
    rw [poll, if_pos hready, ih hn _ rfl]
  | pause => omega
  | resume _ ih =>
    rintro w rfl
    rw [poll, ih hn _ rfl]
  | guarded _ _ ihbody ih =>
    rintro w rfl
    rw [poll, ihbody (by omega) w rfl]
    exact ih (by omega) _ rfl

/-- A turn of a run that gives way ends where it first does, and the rest of the run gives way once
less often. -/
theorem CompletesIn.poll_succ {n : Nat} (h : CompletesIn n c s a s') {m : Nat} (hn : n = m + 1) :
    ∀ w : Turn σ, w.state = s → ∃ c' s₁, c.poll w = (c', { w with state := s₁, gaveWay := true }) ∧
      c'.result? = none ∧ CompletesIn m c' s₁ a s' := by
  induction h generalizing m with
  | done => omega
  | step _ ih =>
    rintro w rfl
    rw [poll]
    exact ih hn _ rfl
  | await hready _ ih =>
    rintro w rfl
    rw [poll, if_pos hready]
    exact ih hn w rfl
  | pause hk _ =>
    rintro w rfl
    obtain rfl := Nat.succ.inj hn
    exact ⟨_, w.state, rfl, rfl, .resume hk⟩
  | resume _ ih =>
    rintro w rfl
    rw [poll]
    exact ih hn w rfl
  | @guarded _ _ mb nk cleanup rescue _ k _ _ _ _ _ hbody hk ihbody ih =>
    rintro w rfl
    rw [poll]
    -- the body gives way before what follows it does
    cases mb with
    | zero =>
      rw [hbody.poll_zero rfl w rfl]
      exact ih (by omega) { w with state := _ } rfl
    | succ mb =>
      obtain ⟨body', s₁, hpoll, hresult, hrest⟩ := ihbody rfl w rfl
      rw [hpoll]
      refine ⟨.guarded cleanup rescue body' k, s₁, ?_, rfl, ?_⟩
      · cases body' with
        | done => cases hresult
        | _ => rfl
      · rw [show m = mb + nk by omega]
        exact .guarded hrest hk

variable [Clocked σ]

/-- Without background tasks the scheduler takes a lone coroutine to its result, one round for each
time it gives way and one more. -/
theorem rounds_of_completesIn {n fuel : Nat} (h : CompletesIn n c s a s') (hfuel : n < fuel) :
    Tasks.rounds fuel c ⟨s, [], [], []⟩ = some (a, ⟨s', [], [], []⟩) := by
  induction n generalizing c s fuel with
  | zero =>
    obtain ⟨fuel, rfl⟩ : ∃ f, fuel = f + 1 := ⟨fuel - 1, by omega⟩
    rw [Tasks.rounds, h.poll_zero rfl _ rfl]
    rfl
  | succ n ih =>
    obtain ⟨fuel, rfl⟩ : ∃ f, fuel = f + 1 := ⟨fuel - 1, by omega⟩
    obtain ⟨c', s₁, hpoll, hresult, hrest⟩ := h.poll_succ rfl (Turn.start s false) rfl
    have hround : Tasks.rounds (fuel + 1) c ⟨s, [], [], []⟩ =
        Tasks.rounds fuel c' ⟨s₁, [], [], []⟩ := by
      rw [Tasks.rounds]
      simp only [Tasks.isBusy, List.append_nil, List.isEmpty_nil, Bool.not_true, Bool.or_self, hpoll]
      cases c' with
      | done => cases hresult
      | _ => rfl
    rw [hround]
    exact ih hrest (by omega)

/-- The scheduler takes the coroutine alone from `s` to the result `a` and the state `s'`, whatever
number of rounds it is allowed beyond some bound. -/
def FinishesAlone {α : Type} (c : Coroutine σ α) (s : σ) (a : α) (s' : σ) : Prop :=
  ∃ turns, ∀ fuel, turns < fuel →
    Tasks.rounds fuel c ⟨s, [], [], []⟩ = some (a, ⟨s', [], [], []⟩)

/-- **A run alone is the run of the scheduler.** -/
theorem finishesAlone_of_completes (h : Completes c s a s') : FinishesAlone c s a s' := by
  obtain ⟨n, hn⟩ := h
  exact ⟨n, fun _ hfuel => rounds_of_completesIn hn hfuel⟩

/-- A coroutine that is taken to a result alone is taken to no other. -/
theorem FinishesAlone.unique {a' : α} {s'' : σ} (h : FinishesAlone c s a s')
    (h' : FinishesAlone c s a' s'') : a' = a ∧ s'' = s' := by
  obtain ⟨turns, hturns⟩ := h
  obtain ⟨turns', hturns'⟩ := h'
  have hboth := (hturns' (turns + turns' + 1) (by omega)).symm.trans
    (hturns (turns + turns' + 1) (by omega))
  simpa using hboth

end Coroutine

end SqlClient
