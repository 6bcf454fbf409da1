import SqlClient.Proofs.Coroutine.Beside
import SqlClient.Proofs.Coroutine.Tracking
/-!
# Coroutines — trails

What a coroutine leaves behind among others that may do anything to the state in between. Whatever is
left has a place, and places are given out in the order in which things come, to all that are under
way. So the trails of parts that come one after the other follow each other (`Trail.bind`), and those
of members that run side by side are what the whole has left, in another order (`Trail.beside`). Code
that is followed has left what its stage says (`Trail.tracks`).
-/

namespace SqlClient

namespace Coroutine

variable {σ ι α β : Type}

/-- `Trail note c w es c' w'`: the coroutine `c` comes from the state `w.1` to the state `w'.1`, where
`c'` is left of it, and others may change the state in any way between its steps. `es` is what `note`
says of its own steps, with places from `w.2` on and before `w'.2`. -/
inductive Trail (note : σ → σ → List ι) (c : Coroutine σ α) (w : σ × Nat) :
    List (ι × Nat) → Coroutine σ α → σ × Nat → Prop
  | refl : Trail note c w [] c w
  | own {es : List (ι × Nat)} {c' c'' : Coroutine σ α} {s s' : σ} {n : Nat} {ts : List (Coroutine σ Unit)} :
      Trail note c w es c' (s, n) → Shifts c' s c'' s' ts →
      Trail note c w (es ++ (note s s').zipIdx n) c'' (s', n + (note s s').length)
  | others {es : List (ι × Nat)} {c' : Coroutine σ α} {s s' : σ} {n n' : Nat} :
      Trail note c w es c' (s, n) → n ≤ n' → Trail note c w es c' (s', n')

variable {note : σ → σ → List ι} {c : Coroutine σ α} {w w' : σ × Nat} {es : List (ι × Nat)} {a : α}

/-- **Places are given out in order.** -/
theorem Trail.places {c' : Coroutine σ α} (h : Trail note c w es c' w') :
    w.2 ≤ w'.2 ∧ es.Pairwise (·.2 < ·.2) ∧ ∀ e ∈ es, w.2 ≤ e.2 ∧ e.2 < w'.2 := by
  induction h with
  | refl => exact ⟨Nat.le_refl _, .nil, List.forall_mem_nil _⟩
  | @own es _ _ s s' n _ _ _ ih =>
    obtain ⟨hle, hes, hwithin⟩ := ih
    have hnew : ∀ e ∈ (note s s').zipIdx n, n ≤ e.2 ∧ e.2 < n + (note s s').length := by
      intro e he
      have := List.mem_zipIdx he
      omega
    refine ⟨Nat.le_trans hle (Nat.le_add_right _ _), ?_, fun e he => ?_⟩
    · refine List.pairwise_append.2 ⟨hes, ?_, fun e he e' he' => ?_⟩
      · rw [← List.pairwise_map, List.zipIdx_map_snd]
        exact List.pairwise_lt_range'
      · exact Nat.lt_of_lt_of_le (hwithin e he).2 (hnew e' he').1
    · rcases List.mem_append.1 he with he | he
      · exact ⟨(hwithin e he).1, Nat.lt_of_lt_of_le (hwithin e he).2 (Nat.le_add_right _ _)⟩
      · exact ⟨Nat.le_trans hle (hnew e he).1, (hnew e he).2⟩
  | others _ hle ih =>
    exact ⟨Nat.le_trans ih.1 hle, ih.2.1, fun e he =>
      ⟨(ih.2.2 e he).1, Nat.lt_of_lt_of_le (ih.2.2 e he).2 hle⟩⟩

/-! ## One after the other -/

/-- The trail of code that goes on with other code. -/
theorem Trail.cases_bind {c : Coroutine σ β} {f : β → Coroutine σ α} {d : Coroutine σ α}
    (h : Trail note (c.bind f) w es d w') :
    (∃ c', Trail note c w es c' w' ∧ d = c'.bind f) ∨
      ∃ b es₁ w₁ es₂, Trail note c w es₁ (.done b) w₁ ∧ Trail note (f b) w₁ es₂ d w' ∧ es = es₁ ++ es₂ := by
  induction h with
  | refl => exact .inl ⟨c, .refl, rfl⟩
  | own _ hshifts ih =>
    rcases ih with ⟨c', hc, rfl⟩ | ⟨b, es₁, w₁, es₂, hc, hf, rfl⟩
    · rcases shifts_bind hshifts with ⟨c'', hc', rfl⟩ | ⟨b, rfl, hf⟩
      · exact .inl ⟨c'', hc.own hc', rfl⟩
      · exact .inr ⟨b, _, _, _, hc, .own .refl hf, rfl⟩
    · exact .inr ⟨b, es₁, w₁, _, hc, hf.own hshifts, List.append_assoc _ _ _⟩
  | others _ hle ih =>
    rcases ih with ⟨c', hc, rfl⟩ | ⟨b, es₁, w₁, es₂, hc, hf, rfl⟩
    · exact .inl ⟨c', hc.others hle, rfl⟩
    · exact .inr ⟨b, es₁, w₁, es₂, hc, hf.others hle, rfl⟩

/-- Code that goes on is done only after its first part. -/
theorem done_of_bind_eq_done {c : Coroutine σ β} {f : β → Coroutine σ α}
    (h : c.bind f = .done a) : ∃ b, c = .done b := by
  cases c with
  | done b => exact ⟨b, rfl⟩
  | _ => cases h

/-- **Trails follow each other** as the parts of the code do. -/
theorem Trail.bind {c : Coroutine σ β} {f : β → Coroutine σ α}
    (h : Trail note (c.bind f) w es (.done a) w') :
    ∃ b es₁ w₁ es₂, Trail note c w es₁ (.done b) w₁ ∧ Trail note (f b) w₁ es₂ (.done a) w' ∧
      es = es₁ ++ es₂ := by
  rcases h.cases_bind with ⟨c', hc, hd⟩ | hparts
  · obtain ⟨b, rfl⟩ := done_of_bind_eq_done hd.symm
    have hf : f b = .done a := hd.symm
    exact ⟨b, es, w', [], hc, hf ▸ .refl, (List.append_nil _).symm⟩
  · exact hparts

/-- A step of guarded code is one of its body, or leaves it. -/
theorem shifts_guarded {cleanup : σ → σ} {rescue : Option (Coroutine σ Unit)} {body : Coroutine σ β}
    {k : β → Coroutine σ α} {d : Coroutine σ α} {s s' : σ} {ts : List (Coroutine σ Unit)}
    (h : Shifts (.guarded cleanup rescue body k) s d s' ts) :
    (∃ body', Shifts body s body' s' ts ∧ d = .guarded cleanup rescue body' k) ∨
      ∃ b, body = .done b ∧ d = k b ∧ s' = s := by
  rcases h with hm | ⟨hr, rfl, rfl⟩
  · cases hm with
    | inside hbody => exact .inl ⟨_, .inl hbody, rfl⟩
    | leave => exact .inr ⟨_, rfl, rfl, rfl⟩
  · cases hr with
    | refl => exact .inl ⟨body, .inr ⟨.refl, rfl, rfl⟩, rfl⟩
    | inside hbody => exact .inl ⟨_, .inr ⟨hbody, rfl, rfl⟩, rfl⟩

/-- The trail of guarded code that is not given up. -/
theorem Trail.cases_guarded {cleanup : σ → σ} {rescue : Option (Coroutine σ Unit)} {body : Coroutine σ β}
    {k : β → Coroutine σ α} {d : Coroutine σ α} (h : Trail note (.guarded cleanup rescue body k) w es d w') :
    (∃ body', Trail note body w es body' w' ∧ d = .guarded cleanup rescue body' k) ∨
      ∃ b es₁ w₁ es₂, Trail note body w es₁ (.done b) w₁ ∧ Trail note (k b) w₁ es₂ d w' ∧
        es = es₁ ++ es₂ := by
  induction h with
  | refl => exact .inl ⟨body, .refl, rfl⟩
  | own _ hshifts ih =>
    rcases ih with ⟨body', hbody, rfl⟩ | ⟨b, es₁, w₁, es₂, hbody, hk, rfl⟩
    · rcases shifts_guarded hshifts with ⟨body'', hbody', rfl⟩ | ⟨b, rfl, rfl, rfl⟩
      · exact .inl ⟨body'', hbody.own hbody', rfl⟩
      · -- leaving the body counts as a step of the body
        exact .inr ⟨b, _, _, [], hbody.own (.inr ⟨.refl, rfl, rfl⟩), .refl, (List.append_nil _).symm⟩
    · exact .inr ⟨b, es₁, w₁, _, hbody, hk.own hshifts, List.append_assoc _ _ _⟩
  | others _ hle ih =>
    rcases ih with ⟨body', hbody, rfl⟩ | ⟨b, es₁, w₁, es₂, hbody, hk, rfl⟩
    · exact .inl ⟨body', hbody.others hle, rfl⟩
    · exact .inr ⟨b, es₁, w₁, es₂, hbody, hk.others hle, rfl⟩

/-- The trail of guarded code that finishes is that of its body and of what follows. -/
theorem Trail.guarded {cleanup : σ → σ} {rescue : Option (Coroutine σ Unit)} {body : Coroutine σ β}
    {k : β → Coroutine σ α} (h : Trail note (.guarded cleanup rescue body k) w es (.done a) w') :
    ∃ b es₁ w₁ es₂, Trail note body w es₁ (.done b) w₁ ∧ Trail note (k b) w₁ es₂ (.done a) w' ∧
      es = es₁ ++ es₂ := by
  rcases h.cases_guarded with ⟨_, -, hd⟩ | hparts
  · cases hd
  · exact hparts

/-! ## Code that is followed -/

/-- Rules that let code do anything; its stage is what it has left so far. -/
def leaving (note : σ → σ → List ι) : Tracking σ (List ι) where
  does γ s γ' s' := γ' = γ ++ note s s'
  quits _ _ _ _ := True

section Still

variable (hstill : ∀ s, note s s = [])

include hstill

/-- **Code that is followed has left what its stage says.** -/
theorem Trail.tracks {c' : Coroutine σ α} {γ : List ι} {Q : List ι → α → Prop}
    (h : Trail note c w es c' w') (hc : c.Tracks (leaving note) [] γ Q) :
    c'.Tracks (leaving note) [] (γ ++ es.map (·.1)) Q := by
  induction h with
  | refl => simpa using hc
  | @own es _ _ s s' n _ _ hshifts ih =>
    obtain ⟨-, γ', hdoes, hc'⟩ := ih.shifts hshifts
    have hγ' : γ' = γ ++ (es ++ (note s s').zipIdx n).map (·.1) := by
      rw [List.map_append, List.zipIdx_map_fst, ← List.append_assoc]
      rcases hdoes with hnotes | ⟨rfl, rfl⟩
      · exact hnotes
      · rw [hstill, List.append_nil]
    exact hγ' ▸ hc'
  | others _ _ ih => exact ih

/-- What code that has finished has left. -/
theorem Trail.left {Q : List ι → α → Prop} (h : Trail note c w es (.done a) w')
    (hc : c.Tracks (leaving note) [] [] Q) : Q (es.map (·.1)) a :=
  h.tracks hstill hc

/-- Code that has finished stays as it is and leaves nothing. -/
theorem Trail.of_done {b : α} {d : Coroutine σ α} (h : Trail note (.done b) w es d w') :
    d = .done b ∧ es = [] := by
  induction h with
  | refl => exact ⟨rfl, rfl⟩
  | own _ hshifts ih =>
    obtain ⟨rfl, rfl⟩ := ih
    obtain ⟨hd, rfl, -⟩ := shifts_done hshifts
    exact ⟨hd, by simp [hstill]⟩
  | others _ _ ih => exact ih

theorem Trail.done {b : α} (h : Trail note (.done b) w es (.done a) w') : es = [] ∧ a = b := by
  obtain ⟨hdone, hes⟩ := h.of_done hstill
  exact ⟨hes, Coroutine.done.inj hdone⟩

/-- A change of the state of which nothing is noted leaves the trail to what follows. -/
theorem Trail.silent {ρ : Type} {f : σ → ρ × σ} {k : ρ → Coroutine σ α} (hf : ∀ s, note s (f s).2 = [])
    (h : Trail note (.step f k) w es (.done a) w') : ∃ s w₁, Trail note (k (f s).1) w₁ es (.done a) w' := by
  obtain ⟨b, es₁, w₁, es₂, hperform, hk, rfl⟩ := Trail.bind (c := perform f) (f := k) h
  obtain ⟨hnone, s, rfl⟩ := hperform.left hstill (Q := fun γ' b => γ' = [] ∧ ∃ s, b = (f s).1)
    fun s => ⟨[], (hf s).symm, rfl, s, rfl⟩
  rw [List.map_eq_nil_iff.1 hnone]
  exact ⟨s, w₁, hk⟩

end Still

/-! ## Side by side -/

/-- The trails of members that run side by side, each among the others. -/
inductive Trails (note : σ → σ → List ι) (w w' : σ × Nat) :
    List (Coroutine σ α) → List (List (ι × Nat)) → List (Coroutine σ α) → Prop
  | nil : Trails note w w' [] [] []
  | cons {c c' : Coroutine σ α} {es : List (ι × Nat)} {cs cs' : List (Coroutine σ α)}
      {ess : List (List (ι × Nat))} : Trail note c w es c' w' → Trails note w w' cs ess cs' →
      Trails note w w' (c :: cs) (es :: ess) (c' :: cs')

namespace Trails

variable {cs cs' : List (Coroutine σ α)} {ess : List (List (ι × Nat))} {s s' : σ} {n n' : Nat}

theorem refl (cs : List (Coroutine σ α)) : Trails note w w cs (cs.map fun _ => []) cs := by
  induction cs with
  | nil => exact .nil
  | cons c cs ih => exact .cons .refl ih

theorem others (h : Trails note w (s, n) cs ess cs') (hle : n ≤ n') : Trails note w (s', n') cs ess cs' := by
  induction h with
  | nil => exact .nil
  | cons hc _ ih => exact .cons (hc.others hle) ih

/-- One member takes a step. -/
theorem own {l r : List (Coroutine σ α)} {d d' : Coroutine σ α} {ts : List (Coroutine σ Unit)}
    (h : Trails note w (s, n) cs ess (l ++ d :: r)) (hshifts : Shifts d s d' s' ts) :
    ∃ ess', Trails note w (s', n + (note s s').length) cs ess' (l ++ d' :: r) ∧
      ess'.flatten.Perm (ess.flatten ++ (note s s').zipIdx n) := by
  have hle : n ≤ n + (note s s').length := Nat.le_add_right _ _
  induction l generalizing cs ess with
  | nil =>
    cases h with
    | @cons _ _ es _ _ ess hd hrest =>
      refine ⟨(es ++ (note s s').zipIdx n) :: ess, .cons (hd.own hshifts) (hrest.others hle), ?_⟩
      have hswap : ((note s s').zipIdx n ++ ess.flatten).Perm (ess.flatten ++ (note s s').zipIdx n) :=
        List.perm_append_comm
      simpa using hswap.append_left es
  | cons b l ih =>
    cases h with
    | @cons _ _ es _ _ ess hb hrest =>
      obtain ⟨ess', hrest', hperm⟩ := ih hrest
      refine ⟨es :: ess', .cons (hb.others hle) hrest', ?_⟩
      simpa using hperm.append_left es

/-- Members that have all finished. -/
theorem ofFn {n : Nat} {members : Fin n → Coroutine σ α} {as : List α}
    (h : Trails note w w' (List.ofFn members) ess (as.map .done)) :
    ∃ (results : Fin n → α) (trail : Fin n → List (ι × Nat)), as = List.ofFn results ∧
      ess = List.ofFn trail ∧ ∀ i, Trail note (members i) w (trail i) (.done (results i)) w' := by
  induction n generalizing ess as with
  | zero =>
    rw [List.ofFn_zero] at h
    cases as with
    | nil =>
      cases h
      exact ⟨Fin.elim0, Fin.elim0, by simp, by simp, fun i => i.elim0⟩
    | cons => cases h
  | succ n ih =>
    rw [List.ofFn_succ] at h
    cases as with
    | nil => cases h
    | cons a as =>
      cases h with
      | @cons _ _ es _ _ ess hfirst hrest =>
        obtain ⟨results, trail, rfl, rfl, hall⟩ := ih hrest
        refine ⟨Fin.cons a results, Fin.cons es trail, by simp, by simp, Fin.cases hfirst hall⟩

end Trails

/-- **The trail of a whole is those of its members** together. -/
theorem Trail.beside (hstill : ∀ s, note s s = []) {cs : List (Coroutine σ β)}
    {c c' : Coroutine σ (List β)} (h : Trail note c w es c' w') (hbeside : Beside cs c) :
    ∃ ess cs', Trails note w w' cs ess cs' ∧ Beside cs' c' ∧ ess.flatten.Perm es := by
  induction h with
  | refl => exact ⟨_, cs, .refl cs, hbeside, by simp⟩
  | @own es _ _ s s' n _ _ hshifts ih =>
    obtain ⟨ess, cs', htrails, hbeside', hperm⟩ := ih
    rcases hbeside'.shifts hshifts with ⟨l, d, d', r, rfl, hd, hb⟩ | ⟨rfl, -, hb⟩
    · obtain ⟨ess', htrails', hperm'⟩ := htrails.own hd
      exact ⟨ess', _, htrails', hb, hperm'.trans (hperm.append_right _)⟩
    · -- a step that only joins results leaves nothing
      rw [hstill]
      exact ⟨ess, cs', htrails, hb, by simpa using hperm⟩
  | others _ hle ih =>
    obtain ⟨ess, cs', htrails, hbeside', hperm⟩ := ih
    exact ⟨ess, cs', htrails.others hle, hbeside', hperm⟩

/-! ## Trails of programs -/

/-- A caller of an ensemble leaves a trail: the tasks are among the others. -/
theorem Ensemble.trail_of_runs {ε : Type} {others : σ → σ → Prop} {seen : σ → σ → List ε} {fs : List ε} {s : σ}
    {tasks : List (Coroutine σ Unit)} {q : Ensemble σ α}
    (h : Runs (Goes others) seen ⟨s, [c], tasks⟩ fs q) (n : Nat) :
    ∃ c' es n', q.callers = [c'] ∧ Trail note c (s, n) es c' (q.state, n') := by
  induction h with
  | refl => exact ⟨c, [], n, rfl, .refl⟩
  | tail _ hgo ih =>
    obtain ⟨c', es, n', hcallers, htrail⟩ := ih
    rcases goes_cases hgo with
      ⟨l, d, d', rest, ts, hq, hshifts, hr, -⟩ | ⟨_, _, _, _, _, -, -, hr, -⟩ | ⟨-, hr, -⟩
    · rw [hcallers] at hq
      obtain ⟨rfl, rfl, rfl⟩ : l = [] ∧ c' = d ∧ rest = [] := by
        cases l <;> simp_all
      exact ⟨d', _, _, hr, htrail.own hshifts⟩
    · exact ⟨c', es, n', hr.trans hcallers, htrail.others (Nat.le_refl n')⟩
    · exact ⟨c', es, n', hr.trans hcallers, htrail.others (Nat.le_refl n')⟩

/-- **What a program runs leaves a trail.** -/
theorem trail_of_run [Clocked σ] {s s' : σ} (h : c.run s = some (a, s')) (hc : c.Orderly) :
    ∃ es n, Trail note c (s, 0) es (.done a) (s', n) := by
  have hinterleaving : ∃ (fs : List ι) (q : Ensemble σ α),
      Ensemble.Runs (Ensemble.Goes Tasks.Passes) note ⟨s, [c], []⟩ fs q ∧ q.callers = [.done a] ∧
        q.state = s' := runs_of_run h hc
  obtain ⟨fs, q, hruns, hcallers, rfl⟩ := hinterleaving
  obtain ⟨c', es, n, hone, htrail⟩ := Ensemble.trail_of_runs hruns 0
  obtain rfl : c' = .done a := List.singleton_inj.1 (hone.symm.trans hcallers)
  exact ⟨es, n, htrail⟩

/-! ## Trails that are computed -/

/-- The next move of a coroutine. Where it has two sides, a path says which of them moves, `true` for the
right one; the sides are joined where the path ends. -/
def next? {α : Type} : Coroutine σ α → List Bool → σ → Option (Coroutine σ α × σ)
  | .step f k, _, s => some (k (f s).1, (f s).2)
  | .await ready k, _, s => if ready s then some (k, s) else none
  | .pause true k, _, s => some (k, s)
  | .pause false k, _, s => some (.pause true k, s)
  | .both l r k, false :: path, s => (l.next? path s).map fun next => (.both next.1 r k, next.2)
  | .both l r k, true :: path, s => (r.next? path s).map fun next => (.both l next.1 k, next.2)
  | .both (.done x) (.done y) k, [], s => some (k x y, s)
  | .guarded _ _ (.done x) k, _, s => some (k x, s)
  | .guarded cleanup rescue body k, path, s =>
    (body.next? path s).map fun next => (.guarded cleanup rescue next.1 k, next.2)
  | _, _, _ => none
termination_by structural c => c

theorem moves_of_next? {c : Coroutine σ α} {path : List Bool} {s : σ} {next : Coroutine σ α × σ}
    (h : c.next? path s = some next) : Moves c s next.1 next.2 [] := by
  fun_induction next? c path s with
  | case1 =>
    cases h
    exact .step
  | case2 _ _ _ _ _ hready =>
    cases h
    exact .await hready
  | case4 =>
    cases h
    exact .resume
  | case5 =>
    cases h
    exact .pause
  | case6 _ _ _ _ _ _ _ _ ih =>
    obtain ⟨next', hnext, rfl⟩ := Option.map_eq_some_iff.1 h
    exact .left (ih hnext)
  | case7 _ _ _ _ _ _ _ _ ih =>
    obtain ⟨next', hnext, rfl⟩ := Option.map_eq_some_iff.1 h
    exact .right (ih hnext)
  | case8 =>
    cases h
    exact .joined
  | case9 =>
    cases h
    exact .leave
  | case10 _ _ _ _ _ _ _ _ _ ih =>
    obtain ⟨next', hnext, rfl⟩ := Option.map_eq_some_iff.1 h
    exact .inside (ih hnext)
  | case3 | case11 => cases h

/-- Follows a coroutine that nobody else comes in between, with one path for each move. -/
def follow (note : σ → σ → List ι) (c : Coroutine σ α) :
    List (List Bool) → σ × Nat → Option (List (ι × Nat) × Coroutine σ α × (σ × Nat))
  | [], w => some ([], c, w)
  | path :: paths, w => (c.next? path w.1).bind fun next =>
    (next.1.follow note paths (next.2, w.2 + (note w.1 next.2).length)).map fun rest =>
      ((note w.1 next.2).zipIdx w.2 ++ rest.1, rest.2)

/-- A trail that goes on. -/
theorem Trail.trans {c₁ c' : Coroutine σ α} {w₁ : σ × Nat} {es' : List (ι × Nat)} (h : Trail note c w es c₁ w₁)
    (h' : Trail note c₁ w₁ es' c' w') : Trail note c w (es ++ es') c' w' := by
  induction h' with
  | refl => simpa using h
  | own _ hshifts ih => simpa using ih.own hshifts
  | others _ hle ih => exact ih.others hle

/-- **What is followed is a trail.** -/
theorem trail_of_follow {c c' : Coroutine σ α} {paths : List (List Bool)}
    (h : c.follow note paths w = some (es, c', w')) : Trail note c w es c' w' := by
  induction paths generalizing c w es with
  | nil =>
    cases h
    exact .refl
  | cons path paths ih =>
    obtain ⟨next, hnext, hrest⟩ := Option.bind_eq_some_iff.1 h
    obtain ⟨⟨es', rest⟩, hfollow, heq⟩ := Option.map_eq_some_iff.1 hrest
    obtain ⟨rfl, rfl⟩ := Prod.mk.inj heq
    exact (Trail.own .refl (.inl (moves_of_next? hnext))).trans (ih hfollow)

end Coroutine

end SqlClient
