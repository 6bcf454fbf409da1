import Mathlib.Data.List.OfFn
import SqlClient.Coroutine.Scheduler
import SqlClient.Proofs.Coroutine.Interleaving
/-!
# Coroutines — turns as moves

A turn is moves in a row (`travels_poll`), and the rounds of the scheduler are an interleaving of
its main coroutine and its tasks (`runs_of_rounds`). What holds of every interleaving therefore
holds of what the scheduler does.
-/

namespace SqlClient

namespace Coroutine

variable {σ : Type}

/-! ## Turns -/

/-- `Travels c s c' s' ts`: moves in a row lead from `c` and the state `s` to `c'` and `s'` and start
the tasks `ts`; on the way crowds may be put in another order. -/
inductive Travels : {α : Type} → Coroutine σ α → σ → Coroutine σ α → σ → List (Coroutine σ Unit) → Prop
  | refl {α : Type} {c : Coroutine σ α} {s : σ} : Travels c s c s []
  | move {α : Type} {c c₁ c' : Coroutine σ α} {s s₁ s' : σ} {ts ts' : List (Coroutine σ Unit)} :
      Moves c s c₁ s₁ ts → Travels c₁ s₁ c' s' ts' → Travels c s c' s' (ts ++ ts')
  | reorder {α : Type} {c c₁ c' : Coroutine σ α} {s s' : σ} {ts : List (Coroutine σ Unit)} :
      Reordered c c₁ → Travels c₁ s c' s' ts → Travels c s c' s' ts

namespace Travels

variable {α β γ : Type} {c c₁ c' : Coroutine σ α} {s s₁ s' : σ} {ts ts' : List (Coroutine σ Unit)}

theorem single (h : Moves c s c' s' ts) : Travels c s c' s' ts := by
  simpa using Travels.move h .refl

theorem trans (h : Travels c s c₁ s₁ ts) (h' : Travels c₁ s₁ c' s' ts') :
    Travels c s c' s' (ts ++ ts') := by
  induction h with
  | refl => exact h'
  | move hm _ ih => rw [List.append_assoc]; exact .move hm (ih h')
  | reorder hr _ ih => exact .reorder hr (ih h')

/-- Whatever stands around a coroutine and lets its moves through lets it travel. -/
theorem through {f : Coroutine σ α → Coroutine σ β}
    (hmove : ∀ {c s c' s' ts}, Moves c s c' s' ts → Moves (f c) s (f c') s' ts)
    (hreorder : ∀ {c c'}, Reordered c c' → Reordered (f c) (f c'))
    (h : Travels c s c' s' ts) : Travels (f c) s (f c') s' ts := by
  induction h with
  | refl => exact .refl
  | move hm _ ih => exact .move (hmove hm) ih
  | reorder hr _ ih => exact .reorder (hreorder hr) ih

theorem member {n : Nat} {members : Fin n → Coroutine σ β} {order : List (Fin n)}
    {k : List β → Coroutine σ α} {i : Fin n} {d : Coroutine σ β} (h : Travels (members i) s d s' ts) :
    Travels (.crowd members order k) s (.crowd (Function.update members i d) order k) s' ts := by
  generalize hc : members i = c at h
  induction h generalizing members with
  | refl => subst hc; rw [Function.update_eq_self]; exact .refl
  | move hm _ ih =>
    subst hc
    refine .move (.member hm) ?_
    have h := @ih (Function.update members i _) (Function.update_self ..)
    rwa [Function.update_idem] at h
  | reorder hr _ ih =>
    subst hc
    refine .reorder (.member hr) ?_
    have h := @ih (Function.update members i _) (Function.update_self ..)
    rwa [Function.update_idem] at h

end Travels

/-- What giving a coroutine up does to the state and which rescues it starts do not depend on the
rest of the turn. -/
theorem drop_eq : ∀ {α : Type} (c : Coroutine σ α) (w : Turn σ),
    c.drop w = { w with
      state := (c.drop (Turn.start w.state false)).state
      spawned := w.spawned ++ (c.drop (Turn.start w.state false)).spawned }
  | _, .both l r _, w => by
    simp only [drop]
    rw [drop_eq l w, drop_eq r _, drop_eq r (l.drop (Turn.start w.state false))]
    simp [List.append_assoc]
  | _, .crowd members order _, w => by
    simp only [drop]
    induction order with
    | nil => simp [Turn.start]
    | cons i order ih =>
      rw [List.foldr_cons, List.foldr_cons, drop_eq (members i) _,
        drop_eq (members i) (List.foldr _ (Turn.start w.state false) order), ih]
      simp [List.append_assoc]
  | _, .guarded _ _ body _, w => by
    simp only [drop]
    rw [drop_eq body w]
    simp [List.append_assoc]
  | _, .race _ _ body _, w => by
    simp only [drop]
    exact drop_eq body w
  | _, .done _, _ | _, .step _ _, _ | _, .await _ _, _
  | _, .pause _ _, _ | _, .settle _, _ | _, .spawn _ _, _ => by
    simp [drop, Turn.start]

/-- What part of a turn does: the coroutine travels, and the tasks that it starts on the way come
after those that the turn has started before. -/
def PollTravels {α : Type} (c : Coroutine σ α) (w : Turn σ) (c' : Coroutine σ α) (w' : Turn σ) : Prop :=
  ∃ ts, Travels c w.state c' w'.state ts ∧ w'.spawned = w.spawned ++ ts

namespace PollTravels

variable {α β : Type} {c c₁ c' : Coroutine σ α} {w w₁ w' : Turn σ}

theorem through {f : Coroutine σ α → Coroutine σ β}
    (h : PollTravels c w c' w')
    (hmove : ∀ {c s c' s' ts}, Moves c s c' s' ts → Moves (f c) s (f c') s' ts)
    (hreorder : ∀ {c c'}, Reordered c c' → Reordered (f c) (f c')) :
    PollTravels (f c) w (f c') w' := by
  obtain ⟨ts, ht, hs⟩ := h
  exact ⟨ts, ht.through hmove hreorder, hs⟩

theorem refl (hstate : w'.state = w.state) (hspawned : w'.spawned = w.spawned) :
    PollTravels c w c w' :=
  ⟨[], hstate ▸ .refl, by rw [hspawned, List.append_nil]⟩

theorem trans (h : PollTravels c w c₁ w₁) (h' : PollTravels c₁ w₁ c' w') : PollTravels c w c' w' := by
  obtain ⟨ts, ht, hs⟩ := h
  obtain ⟨ts', ht', hs'⟩ := h'
  exact ⟨_, ht.trans ht', by rw [hs', hs, List.append_assoc]⟩

theorem move {ts : List (Coroutine σ Unit)} (hm : Moves c w.state c₁ w₁.state ts)
    (hs : w₁.spawned = w.spawned ++ ts) : PollTravels c w c₁ w₁ :=
  ⟨ts, .single hm, hs⟩

/-- A move that starts no task. -/
theorem silent (hm : Moves c w.state c₁ w₁.state []) (hs : w₁.spawned = w.spawned) :
    PollTravels c w c₁ w₁ :=
  .move hm (by rw [hs, List.append_nil])

theorem lost {signal : σ → Bool} {takeDown : σ → σ} {k : Option α → Coroutine σ β}
    (hsignal : signal w.state = true) (hresult : c.result? = none) :
    PollTravels (.race signal takeDown c k) w (k none) (c.drop { w with state := takeDown w.state }) := by
  rw [drop_eq]
  exact .move (.lost hsignal hresult) rfl

end PollTravels

/-! ## Orderly crowds -/

/-- Nobody has two places in the order of a crowd, now or later. -/
def Orderly {α : Type} : Coroutine σ α → Prop
  | .done _ => True
  | .step _ k => ∀ r, (k r).Orderly
  | .await _ k | .pause _ k | .settle k => k.Orderly
  | .both l r k => l.Orderly ∧ r.Orderly ∧ ∀ x y, (k x y).Orderly
  | .crowd members order k => order.Nodup ∧ (∀ i, (members i).Orderly) ∧ ∀ xs, (k xs).Orderly
  | .guarded _ none body k => body.Orderly ∧ ∀ x, (k x).Orderly
  | .guarded _ (some t) body k => t.Orderly ∧ body.Orderly ∧ ∀ x, (k x).Orderly
  | .race _ _ body k => body.Orderly ∧ ∀ x, (k x).Orderly
  | .spawn task k => task.Orderly ∧ k.Orderly
termination_by structural c => c

/-- The tasks that are started when an orderly coroutine is given up are orderly. -/
theorem orderly_of_mem_drop : ∀ {α : Type} (c : Coroutine σ α) (w : Turn σ), c.Orderly →
    ∀ t ∈ (c.drop w).spawned, t ∈ w.spawned ∨ t.Orderly
  | _, .both l r k, w, h, t, ht => by
    obtain ⟨hl, hr, -⟩ : l.Orderly ∧ r.Orderly ∧ ∀ x y, (k x y).Orderly := h
    rcases orderly_of_mem_drop r _ hr t ht with ht | ht
    · exact orderly_of_mem_drop l w hl t ht
    · exact .inr ht
  | _, .crowd members order k, w, h, t, ht => by
    obtain ⟨-, hm, -⟩ : order.Nodup ∧ (∀ i, (members i).Orderly) ∧ ∀ xs, (k xs).Orderly := h
    rw [drop] at ht
    induction order with
    | nil => exact .inl ht
    | cons i order ih =>
      rcases orderly_of_mem_drop (members i) _ (hm i) t ht with ht | ht
      · exact ih ht
      · exact .inr ht
  | _, .guarded _ none body k, w, h, t, ht => by
    obtain ⟨hbody, -⟩ : body.Orderly ∧ ∀ x, (k x).Orderly := h
    exact orderly_of_mem_drop body w hbody t (by simpa [drop] using ht)
  | _, .guarded _ (some u) body k, w, h, t, ht => by
    obtain ⟨hu, hbody, -⟩ : u.Orderly ∧ body.Orderly ∧ ∀ x, (k x).Orderly := h
    rcases List.mem_append.1 ht with ht | ht
    · exact orderly_of_mem_drop body w hbody t ht
    · rw [Option.toList_some, List.mem_singleton] at ht
      exact .inr (ht ▸ hu)
  | _, .race _ _ body k, w, h, t, ht => by
    obtain ⟨hbody, -⟩ : body.Orderly ∧ ∀ x, (k x).Orderly := h
    exact orderly_of_mem_drop body w hbody t ht
  | _, .done _, _, _, _, ht | _, .step _ _, _, _, _, ht | _, .await _ _, _, _, _, ht
  | _, .pause _ _, _, _, _, ht | _, .settle _, _, _, _, ht | _, .spawn _ _, _, _, _, ht => .inl ht

theorem Moves.orderly {α : Type} {c c' : Coroutine σ α} {s s' : σ} {ts : List (Coroutine σ Unit)}
    (h : Moves c s c' s' ts) : c.Orderly → c'.Orderly ∧ ∀ t ∈ ts, t.Orderly := by
  induction h with
  | step => exact fun h => ⟨h _, by simp⟩
  | await _ | pause | resume | settle => exact fun h => ⟨h, by simp⟩
  | left _ ih => exact fun ⟨hl, hr, hk⟩ => ⟨⟨(ih hl).1, hr, hk⟩, (ih hl).2⟩
  | right _ ih => exact fun ⟨hl, hr, hk⟩ => ⟨⟨hl, (ih hr).1, hk⟩, (ih hr).2⟩
  | joined => exact fun ⟨_, _, hk⟩ => ⟨hk _ _, by simp⟩
  | member _ ih =>
    refine fun ⟨hnodup, hm, hk⟩ => ⟨⟨hnodup, fun j => ?_, hk⟩, (ih (hm _)).2⟩
    rw [Function.update_apply]
    split
    · exact (ih (hm _)).1
    · exact hm j
  | gathered _ => exact fun ⟨_, _, hk⟩ => ⟨hk _, by simp⟩
  | @inside _ _ _ rescue _ _ _ _ _ _ _ ih =>
    cases rescue with
    | none => exact fun ⟨hbody, hk⟩ => ⟨⟨(ih hbody).1, hk⟩, (ih hbody).2⟩
    | some t => exact fun ⟨ht, hbody, hk⟩ => ⟨⟨ht, (ih hbody).1, hk⟩, (ih hbody).2⟩
  | @leave _ _ _ rescue =>
    cases rescue with
    | none => exact fun ⟨_, hk⟩ => ⟨hk _, by simp⟩
    | some t => exact fun ⟨_, _, hk⟩ => ⟨hk _, by simp⟩
  | racing _ ih => exact fun ⟨hbody, hk⟩ => ⟨⟨(ih hbody).1, hk⟩, (ih hbody).2⟩
  | won => exact fun ⟨_, hk⟩ => ⟨hk _, by simp⟩
  | lost _ _ =>
    -- all that is left of the body is the rescues that giving it up has started
    refine fun ⟨hbody, hk⟩ => ⟨hk _, fun t ht => ?_⟩
    simpa [Turn.start] using orderly_of_mem_drop _ _ hbody t ht
  | spawn => exact fun ⟨ht, hk⟩ => ⟨hk, by simpa using ht⟩

theorem Reordered.orderly {α : Type} {c c' : Coroutine σ α} (h : Reordered c c') :
    c.Orderly → c'.Orderly := by
  induction h with
  | refl => exact id
  | order hperm => exact fun ⟨hnodup, hm, hk⟩ => ⟨hperm.nodup_iff.2 hnodup, hm, hk⟩
  | member _ ih =>
    refine fun ⟨hnodup, hm, hk⟩ => ⟨hnodup, fun j => ?_, hk⟩
    rw [Function.update_apply]
    split
    · exact ih (hm _)
    · exact hm j
  | left _ ih => exact fun ⟨hl, hr, hk⟩ => ⟨ih hl, hr, hk⟩
  | right _ ih => exact fun ⟨hl, hr, hk⟩ => ⟨hl, ih hr, hk⟩
  | @inside _ _ _ rescue _ _ _ _ ih =>
    cases rescue with
    | none => exact fun ⟨hbody, hk⟩ => ⟨ih hbody, hk⟩
    | some t => exact fun ⟨ht, hbody, hk⟩ => ⟨ht, ih hbody, hk⟩
  | racing _ ih => exact fun ⟨hbody, hk⟩ => ⟨ih hbody, hk⟩

theorem Travels.orderly {α : Type} {c c' : Coroutine σ α} {s s' : σ} {ts : List (Coroutine σ Unit)}
    (h : Travels c s c' s' ts) : c.Orderly → c'.Orderly ∧ ∀ t ∈ ts, t.Orderly := by
  induction h with
  | refl => exact fun h => ⟨h, by simp⟩
  | move hm _ ih =>
    intro h
    obtain ⟨h₁, hts⟩ := hm.orderly h
    obtain ⟨h', hts'⟩ := ih h₁
    exact ⟨h', fun t ht => (List.mem_append.1 ht).elim (hts t) (hts' t)⟩
  | reorder hr _ ih => exact fun h => ih (hr.orderly h)

theorem Orderly.bind : ∀ {α β : Type} {c : Coroutine σ α} {f : α → Coroutine σ β}, c.Orderly →
    (∀ a, (f a).Orderly) → (c.bind f).Orderly
  | _, _, .done a, _, _, hf => hf a
  | _, _, .step _ _, _, h, hf => fun r => (h r).bind hf
  | _, _, .await _ k, _, h, hf | _, _, .pause _ k, _, h, hf | _, _, .settle k, _, h, hf =>
    bind (c := k) h hf
  | _, _, .both _ _ _, _, h, hf => ⟨h.1, h.2.1, fun x y => (h.2.2 x y).bind hf⟩
  | _, _, .crowd _ _ _, _, h, hf => ⟨h.1, h.2.1, fun xs => (h.2.2 xs).bind hf⟩
  | _, _, .guarded _ none _ _, _, h, hf => ⟨h.1, fun x => (h.2 x).bind hf⟩
  | _, _, .guarded _ (some _) _ _, _, h, hf => ⟨h.1, h.2.1, fun x => (h.2.2 x).bind hf⟩
  | _, _, .race _ _ _ _, _, h, hf => ⟨h.1, fun x => (h.2 x).bind hf⟩
  | _, _, .spawn _ _, _, h, hf => ⟨h.1, h.2.bind hf⟩

/-- Coroutines that are run side by side begin in order. -/
theorem orderly_all {α : Type} {cs : List (Coroutine σ α)} (h : ∀ c ∈ cs, c.Orderly) :
    (all cs).Orderly := by
  rw [all]
  split
  · induction cs with
    | nil => trivial
    | cons c cs ih =>
      refine ⟨h c (List.mem_cons_self ..), ih (fun d hd => h d (List.mem_cons_of_mem _ hd)) ?_,
        fun _ _ => trivial⟩
      simp only [List.length_cons] at *
      omega
  · exact ⟨List.nodup_finRange _, fun i => h _ (List.get_mem ..), fun _ => trivial⟩

/-! ## A turn -/

section Visits

variable {α β : Type} {n : Nat} {members : Fin n → Coroutine σ β}

/-- What the members of a crowd do in one turn, they do one after another. -/
theorem travels_visits
    (hpoll : ∀ i w, PollTravels (members i) w ((members i).poll w).1 ((members i).poll w).2)
    (order : List (Fin n)) (k : List β → Coroutine σ α) {todo : List (Fin n)} (hnodup : todo.Nodup)
    (t : CrowdTurn σ β n)
    (htodo : ∀ i ∈ todo, t.members.get i = members i) :
    PollTravels (.crowd t.members.get order k) t.turn
      (.crowd (todo.foldl (CrowdTurn.visit fun i w => (members i).poll w) t).members.get order k)
      (todo.foldl (CrowdTurn.visit fun i w => (members i).poll w) t).turn := by
  induction todo generalizing t with
  | nil => exact .refl rfl rfl
  | cons i todo ih =>
    obtain ⟨hi, hnodup⟩ := List.nodup_cons.1 hnodup
    obtain ⟨ts, ht, hs⟩ := hpoll i { t.turn with gaveWay := false }
    -- a visit replaces the one that is visited and leaves the others as they are
    have hvisit : (CrowdTurn.visit (fun i w => (members i).poll w) t i).members.get =
        Function.update t.members.get i ((members i).poll { t.turn with gaveWay := false }).1 := by
      funext j
      change (t.members.set i _ i.2)[j] = _
      rw [Fin.getElem_fin, Vector.getElem_set, Function.update_apply]
      simp only [Fin.ext_iff, eq_comm]
      rfl
    refine PollTravels.trans ⟨ts, ?_, ?_⟩
      (ih hnodup (CrowdTurn.visit (fun i w => (members i).poll w) t i) ?_)
    · rw [hvisit]
      refine Travels.member ?_
      rw [htodo i (List.mem_cons_self ..)]
      exact ht
    · exact hs
    · -- nobody is visited twice, so those still to come are as they were at first
      intro j hj
      rw [hvisit, Function.update_of_ne (by rintro rfl; exact hi hj)]
      exact htodo j (List.mem_cons_of_mem _ hj)

theorem get_ofFn {τ : Type 1} (f : Fin n → τ) : (Vector.ofFn f).get = f :=
  funext fun i => Vector.getElem_ofFn i.2

theorem toList_eq_ofFn {τ : Type 1} (v : Vector τ n) : v.toList = List.ofFn v.get := by
  refine List.ext_getElem (by simp) fun i h h' => ?_
  simp [Vector.get]

/-- A crowd all of whose members have finished has their results. -/
theorem results_of_mapM {members : Fin n → Coroutine σ β} {xs : List β}
    (h : (List.ofFn members).mapM result? = some xs) :
    ∃ results, (∀ i, members i = .done (results i)) ∧ List.ofFn results = xs := by
  induction n generalizing xs with
  | zero =>
    obtain rfl : [] = xs := by simpa using h
    exact ⟨Fin.elim0, fun i => i.elim0, rfl⟩
  | succ n ih =>
    rw [List.ofFn_succ, List.mapM_cons] at h
    obtain ⟨x, hx, h⟩ := Option.bind_eq_some_iff.1 h
    obtain ⟨ys, hys, h⟩ := Option.bind_eq_some_iff.1 h
    obtain rfl : x :: ys = xs := by simpa using h
    obtain ⟨results, hresults, rfl⟩ := ih hys
    exact ⟨Fin.cases x results, Fin.cases (eq_done_of_result? hx) hresults, by simp⟩

/-- The new order of a crowd has the members that were visited. -/
theorem perm_visits (poll : Fin n → Turn σ → Coroutine σ β × Turn σ) (todo : List (Fin n))
    (t : CrowdTurn σ β n) :
    ((todo.foldl (CrowdTurn.visit poll) t).others.reverse ++
      (todo.foldl (CrowdTurn.visit poll) t).resting).Perm (t.others.reverse ++ t.resting ++ todo) := by
  induction todo generalizing t with
  | nil => simp
  | cons i todo ih =>
    refine (ih _).trans ?_
    simp only [CrowdTurn.visit]
    split
    · rw [List.append_assoc, List.append_assoc]
      exact List.Perm.append_left _ List.perm_middle.symm
    · rw [List.reverse_cons, List.append_assoc, List.append_assoc, List.append_assoc,
        List.singleton_append]
      exact List.Perm.append_left _ List.perm_middle.symm

end Visits

/-- **A turn is moves in a row.** -/
theorem travels_poll : ∀ {α : Type} (c : Coroutine σ α) (w : Turn σ), c.Orderly →
    PollTravels c w (c.poll w).1 (c.poll w).2
  | _, .done _, w, _ => .refl rfl rfl
  | _, .step f k, w, h => by
    have hmove : PollTravels (.step f k) w (k (f w.state).1) { w with state := (f w.state).2 } :=
      .silent .step rfl
    exact hmove.trans (travels_poll (k (f w.state).1) _ (h _))
  | _, .await ready k, w, h => by
    rw [poll]
    split
    case isTrue hready => exact (PollTravels.silent (.await hready) rfl).trans (travels_poll k w h)
    case isFalse => exact .refl rfl rfl
  | _, .pause true k, w, h => by
    rw [poll]
    exact (PollTravels.silent .resume rfl).trans (travels_poll k w h)
  | _, .pause false k, w, _ => .silent .pause rfl
  | _, .settle k, w, h => by
    rw [poll]
    split
    · exact .refl rfl rfl
    · exact (PollTravels.silent .settle rfl).trans (travels_poll k w h)
  | _, .both l r k, w, h => by
    obtain ⟨hl, hr, hk⟩ : l.Orderly ∧ r.Orderly ∧ ∀ x y, (k x y).Orderly := h
    -- the right-hand side has its turn in what the left-hand side has made of it
    have htwo : PollTravels (.both l r k) w (.both (l.poll w).1 (r.poll (l.poll w).2).1 k)
        (r.poll (l.poll w).2).2 :=
      ((travels_poll l w hl).through .left .left).trans
        ((travels_poll r _ hr).through .right .right)
    rw [poll]
    generalize hl' : l.poll w = p at htwo
    obtain ⟨l', w₁⟩ := p
    generalize hr' : r.poll w₁ = q at htwo
    obtain ⟨r', w₂⟩ := q
    dsimp only at htwo ⊢
    rw [hr']
    dsimp only
    split
    case h_1 x y => exact (htwo.trans (.silent .joined rfl)).trans (travels_poll (k x y) w₂ (hk x y))
    case h_2 => exact htwo
  | _, .crowd members order k, w, h => by
    obtain ⟨hnodup, hm, hk⟩ : order.Nodup ∧ (∀ i, (members i).Orderly) ∧ ∀ xs, (k xs).Orderly := h
    have hall := travels_visits (fun i w => travels_poll (members i) w (hm i)) order k hnodup
      ⟨.ofFn members, [], [], w⟩
      fun i _ => Vector.getElem_ofFn i.2
    have hperm := perm_visits (fun i w => (members i).poll w) order
      ⟨.ofFn members, [], [], w⟩
    rw [poll]
    generalize order.foldl (CrowdTurn.visit fun i w => (members i).poll w) _ = t at hall hperm
    have htravel : PollTravels (.crowd members order k) w (.crowd t.members.get order k) t.turn := by
      rwa [get_ofFn] at hall
    split
    case h_1 xs hxs =>
      rw [toList_eq_ofFn] at hxs
      obtain ⟨results, hresults, rfl⟩ := results_of_mapM hxs
      exact (htravel.trans (.silent (.gathered hresults) rfl)).trans (travels_poll (k _) _ (hk _))
    case h_2 =>
      obtain ⟨ts, ht, hs⟩ := htravel
      have hreorder : Reordered (.crowd t.members.get order k)
          (.crowd (fun i => t.members.get i) (t.others.reverse ++ t.resting) k) :=
        .order (by simpa using hperm)
      refine ⟨ts, ?_, hs⟩
      simpa using ht.trans (.reorder hreorder .refl)
  | _, .guarded cleanup rescue body k, w, h => by
    obtain ⟨hbody, hk⟩ : body.Orderly ∧ ∀ x, (k x).Orderly := by
      cases rescue with
      | none => exact h
      | some t => exact h.2
    have hin : PollTravels (.guarded cleanup rescue body k) w
        (.guarded cleanup rescue (body.poll w).1 k) (body.poll w).2 :=
      (travels_poll body w hbody).through .inside .inside
    rw [poll]
    generalize body.poll w = p at hin
    obtain ⟨body', w₁⟩ := p
    dsimp only at hin ⊢
    cases body' with
    | done x => exact (hin.trans (.silent .leave rfl)).trans (travels_poll (k x) w₁ (hk x))
    | _ => exact hin
  | _, .race signal takeDown body k, w, h => by
    obtain ⟨hbody, hk⟩ : body.Orderly ∧ ∀ x, (k x).Orderly := h
    have hin : PollTravels (.race signal takeDown body k) w
        (.race signal takeDown (body.poll w).1 k) (body.poll w).2 :=
      (travels_poll body w hbody).through .racing .racing
    rw [poll]
    generalize body.poll w = p at hin
    obtain ⟨body', w₁⟩ := p
    dsimp only at hin ⊢
    -- the signal is looked at only when the body has had its turn and has not finished
    have hrest (hresult : body'.result? = none) : PollTravels (.race signal takeDown body k) w
        (if signal w₁.state then (k none).poll (body'.drop { w₁ with state := takeDown w₁.state })
          else (.race signal takeDown body' k, w₁)).1
        (if signal w₁.state then (k none).poll (body'.drop { w₁ with state := takeDown w₁.state })
          else (.race signal takeDown body' k, w₁)).2 := by
      split
      case isTrue hsignal =>
        exact (hin.trans (.lost hsignal hresult)).trans (travels_poll (k none) _ (hk none))
      case isFalse => exact hin
    cases body' with
    | done x => exact (hin.trans (.silent .won rfl)).trans (travels_poll (k (some x)) w₁ (hk _))
    | _ => exact hrest rfl
  | _, .spawn task k, w, h => by
    have hmove : PollTravels (.spawn task k) w k { w with spawned := w.spawned ++ [task] } :=
      .move .spawn rfl
    exact hmove.trans (travels_poll k _ h.2)

/-! ## Rounds -/

namespace Ensemble

variable {α ε : Type} {go : Ensemble σ α → Ensemble σ α → Prop} {others : σ → σ → Prop}
  {note : σ → σ → List ε} {p q r : Ensemble σ α} {es fs : List ε}

theorem Runs.trans (h : Runs go note p es q) (h' : Runs go note q fs r) :
    Runs go note p (es ++ fs) r := by
  induction h' with
  | refl => simpa using h
  | tail _ hgo ih => rw [← List.append_assoc]; exact .tail ih hgo

theorem Runs.head (hgo : go p q) (h : Runs go note q es r) :
    Runs go note p (note p.state q.state ++ es) r := by
  simpa using (Runs.refl.tail hgo).trans h

/-- A member of the ensemble that travels is an interleaving in which nobody else moves. `place` puts
the member and the tasks that it has started so far into the ensemble. -/
theorem runs_of_travels {γ : Type} (place : σ → Coroutine σ γ → List (Coroutine σ Unit) → Ensemble σ α)
    (hmove : ∀ {c s c' s' ts us}, Moves c s c' s' ts →
      Advances (place s c us) (place s' c' (us ++ ts)))
    (hreorder : ∀ {c c' s us}, Reordered c c' → Idles others (place s c us) (place s c' us))
    {c c' : Coroutine σ γ} {s s' : σ} {ts : List (Coroutine σ Unit)} (h : Travels c s c' s' ts)
    (us : List (Coroutine σ Unit)) :
    ∃ es, Runs (Goes others) note (place s c us) es (place s' c' (us ++ ts)) := by
  induction h generalizing us with
  | refl => exact ⟨[], by rw [List.append_nil]; exact .refl⟩
  | @move _ _ _ _ _ _ ts _ hm _ ih =>
    obtain ⟨es, hes⟩ := ih (us ++ ts)
    rw [List.append_assoc] at hes
    exact ⟨_, hes.head (.inl (hmove hm))⟩
  | reorder hr _ ih =>
    obtain ⟨es, hes⟩ := ih us
    exact ⟨_, hes.head (.inr (hreorder hr))⟩

theorem runs_caller {c c' : Coroutine σ α} {s s' : σ} {ts : List (Coroutine σ Unit)}
    (h : Travels c s c' s' ts) (tasks : List (Coroutine σ Unit)) :
    ∃ es, Runs (Goes others) note ⟨s, [c], tasks⟩ es ⟨s', [c'], tasks ++ ts⟩ :=
  runs_of_travels (fun s c us => ⟨s, [c], us⟩) (fun hm => .caller (l := []) (r := []) hm)
    (fun hr => .caller (l := []) (r := []) hr) h tasks

theorem runs_task {callers : List (Coroutine σ α)} {c c' : Coroutine σ Unit} {s s' : σ}
    {ts : List (Coroutine σ Unit)} (h : Travels c s c' s' ts) (l r : List (Coroutine σ Unit)) :
    ∃ es, Runs (Goes others) note ⟨s, callers, l ++ c :: r⟩ es ⟨s', callers, l ++ c' :: (r ++ ts)⟩ := by
  refine runs_of_travels (fun s c us => ⟨s, callers, l ++ c :: us⟩) ?_ ?_ h r
  · intro c s c' s' ts us hm
    simpa using @Advances.task _ _ s s' callers l us ts c c' hm
  · exact fun hr => .task hr

end Ensemble

/-- The tasks of the scheduler are among those of an ensemble in the same state. -/
structure Tasks.Within {α : Type} (t : Tasks σ) (p : Ensemble σ α) : Prop where
  state : t.state = p.state
  tasks : ∃ rest, (t.ready ++ t.waiting ++ t.resting ++ rest).Perm p.tasks
  orderly : ∀ c ∈ p.tasks, c.Orderly

namespace Tasks

open scoped List

variable {α ε : Type} {others : σ → σ → Prop} {note : σ → σ → List ε} {p : Ensemble σ α} {t : Tasks σ}

/-- Waking tasks up does not change which there are. -/
theorem Within.wake (h : t.Within p) : t.wake.Within p := by
  obtain ⟨hstate, ⟨rest, hperm⟩, horderly⟩ := h
  refine ⟨hstate, ⟨rest, .trans ?_ hperm⟩, horderly⟩
  refine .append_right _ (.append_right _ ?_)
  rw [Tasks.wake, List.append_assoc]
  exact .append_left _ (List.filter_append_perm _ _)

/-- The tasks that rest are ready in the next round. -/
theorem Within.rested (h : t.Within p) :
    Within { t with ready := t.ready ++ t.resting, resting := [] } p := by
  obtain ⟨hstate, ⟨rest, hperm⟩, horderly⟩ := h
  refine ⟨hstate, ⟨rest, .trans ?_ hperm⟩, horderly⟩
  refine .append_right _ ?_
  simp only [List.append_nil, List.append_assoc]
  exact .append_left _ List.perm_append_comm

/-- A task that has had its turn is filed or has finished. -/
theorem within_file {c : Coroutine σ Unit} {rest : List (Coroutine σ Unit)} (gaveWay : Bool)
    (hstate : t.state = p.state)
    (hperm : (t.ready ++ t.waiting ++ t.resting ++ c :: rest).Perm p.tasks)
    (horderly : ∀ c ∈ p.tasks, c.Orderly) : (t.file gaveWay c).Within p := by
  have hfiled : (if gaveWay then { t with resting := c :: t.resting }
      else { t with waiting := t.waiting ++ [c] } : Tasks σ).Within p := by
    split
    · refine ⟨hstate, ⟨rest, .trans ?_ hperm⟩, horderly⟩
      simp only [List.append_assoc]
      exact .append_left _ (.append_left _ List.perm_middle.symm)
    · refine ⟨hstate, ⟨rest, .trans ?_ hperm⟩, horderly⟩
      simp only [List.append_assoc, List.singleton_append]
      exact .append_left _ (.append_left _ List.perm_middle.symm)
  cases c with
  | done => exact ⟨hstate, ⟨_, hperm⟩, horderly⟩
  | _ => exact hfiled

/-- A ready task has its turn by an interleaving, and is filed in the ensemble that comes of it. -/
theorem Within.runs_turn {c c' : Coroutine σ Unit} {ready : List (Coroutine σ Unit)} {w : Turn σ}
    (h : t.Within p) (hready : t.ready = c :: ready)
    (hpoll : c.poll (Turn.start t.state false) = (c', w)) :
    ∃ es q, Ensemble.Runs (Ensemble.Goes others) note p es q ∧ q.callers = p.callers ∧
      (({ t with ready }.afterTurn w).file w.gaveWay c').Within q := by
  obtain ⟨hstate, ⟨rest, hperm⟩, horderly⟩ := h
  obtain ⟨s, callers, tasks⟩ := p
  obtain rfl : t.state = s := hstate
  have hmem : c ∈ tasks := hperm.mem_iff.1 (by simp [hready])
  obtain ⟨l, r, rfl⟩ := List.append_of_mem hmem
  obtain ⟨ts, ht, hs⟩ := travels_poll c (Turn.start t.state false) (horderly c hmem)
  rw [hpoll] at ht hs
  obtain ⟨hc', hts⟩ := ht.orderly (horderly c hmem)
  obtain ⟨es, hes⟩ := @Ensemble.runs_task _ _ _ others note callers _ _ _ _ _ ht l r
  refine ⟨es, _, hes, rfl, @within_file _ _ _ _ _ rest _ rfl ?_ ?_⟩
  · rw [hready] at hperm
    have hothers : (ready ++ t.waiting ++ t.resting ++ rest).Perm (l ++ r) :=
      (hperm.trans List.perm_middle).cons_inv
    have hspawned : w.spawned = ts := hs
    -- the task goes from the front of the line to where it is filed
    calc ready ++ w.spawned ++ t.waiting ++ t.resting ++ c' :: rest
      _ ~ c' :: (ready ++ (ts ++ (t.waiting ++ t.resting ++ rest))) := by
        rw [hspawned]
        simpa only [List.append_assoc] using
          @List.perm_middle _ c' (ready ++ ts ++ t.waiting ++ t.resting) rest
      _ ~ c' :: (ready ++ (t.waiting ++ t.resting ++ rest ++ ts)) :=
        .cons _ (.append_left _ List.perm_append_comm)
      _ ~ c' :: (l ++ (r ++ ts)) := by simpa using hothers.append_right ts
      _ ~ l ++ c' :: (r ++ ts) := List.perm_middle.symm
  · intro d hd
    simp only [List.mem_append, List.mem_cons] at hd
    rcases hd with hd | rfl | hd | hd
    · exact horderly d (by simp [hd])
    · exact hc'
    · exact horderly d (by simp [hd])
    · exact hts d hd

/-- **Draining is an interleaving** of the tasks. -/
theorem runs_of_drain (fuel : Nat) (h : t.Within p) :
    ∃ es q, Ensemble.Runs (Ensemble.Goes others) note p es q ∧ q.callers = p.callers ∧
      (t.drain fuel).Within q := by
  induction fuel generalizing t p with
  | zero => exact ⟨[], p, .refl, rfl, h⟩
  | succ fuel ih =>
    rw [drain]
    split
    case h_1 => exact ⟨[], p, .refl, rfl, h⟩
    case h_2 c ready hready =>
      obtain ⟨es, p₁, hes, hcallers₁, hfiled⟩ :=
        @Within.runs_turn _ _ _ others note _ _ _ _ _ _ h hready rfl
      obtain ⟨fs, q, hfs, hcallers, hwithin⟩ := ih hfiled.wake
      exact ⟨_, q, hes.trans hfs, hcallers.trans hcallers₁, hwithin⟩

/-- The main coroutine has its turn by an interleaving, and the tasks that it starts join the ready
ones. -/
theorem Within.runs_main {main main' : Coroutine σ α} {busy : Bool} {w : Turn σ} (h : t.Within p)
    (hcallers : p.callers = [main]) (hmain : main.Orderly)
    (hpoll : main.poll (Turn.start t.state busy) = (main', w)) :
    main'.Orderly ∧ ∃ es q, Ensemble.Runs (Ensemble.Goes others) note p es q ∧
      q.callers = [main'] ∧ (t.afterTurn w).Within q := by
  obtain ⟨hstate, ⟨rest, hperm⟩, horderly⟩ := h
  obtain ⟨s, callers, tasks⟩ := p
  obtain rfl : callers = [main] := hcallers
  obtain rfl : t.state = s := hstate
  obtain ⟨ts, ht, hs⟩ := travels_poll main (Turn.start t.state busy) hmain
  rw [hpoll] at ht hs
  obtain ⟨hmain', hts⟩ := ht.orderly hmain
  obtain ⟨es, hes⟩ := @Ensemble.runs_caller _ _ _ others note _ _ _ _ _ ht tasks
  refine ⟨hmain', es, _, hes, rfl, rfl, ⟨rest, ?_⟩, ?_⟩
  · have hspawned : w.spawned = ts := hs
    calc t.ready ++ w.spawned ++ t.waiting ++ t.resting ++ rest
      _ ~ t.ready ++ (t.waiting ++ t.resting ++ rest ++ ts) := by
        rw [hspawned]
        simpa using List.Perm.append_left t.ready
          (@List.perm_append_comm _ ts (t.waiting ++ t.resting ++ rest))
      _ ~ tasks ++ ts := by simpa using hperm.append_right ts
  · intro d hd
    exact (List.mem_append.1 hd).elim (horderly d) (hts d)

variable [Clocked σ]

/-- Time passes: the clock moves to the next alarm. -/
def Passes (s s' : σ) : Prop := Clocked.advance s = some s'

theorem Within.passes {s : σ} (h : t.Within p) (hadvance : Clocked.advance t.state = some s) :
    Ensemble.Goes Passes p { p with state := s } ∧ Within { t with state := s } { p with state := s } :=
  ⟨.inr (.others (h.state ▸ hadvance)), rfl, h.tasks, h.orderly⟩

/-- **The rounds of the scheduler are an interleaving**, in which nothing happens from outside but
that time passes. -/
theorem runs_of_rounds {fuel : Nat} {main : Coroutine σ α} {a : α} {t' : Tasks σ}
    (hrun : rounds fuel main t = some (a, t')) (hcallers : p.callers = [main]) (h : t.Within p)
    (hmain : main.Orderly) :
    ∃ es q, Ensemble.Runs (Ensemble.Goes Passes) note p es q ∧ q.callers = [.done a] ∧
      q.state = t'.state := by
  induction fuel generalizing main t p with
  | zero => cases hrun
  | succ fuel ih =>
    rw [rounds] at hrun
    have hrested := h.rested
    generalize ({ t with ready := t.ready ++ t.resting, resting := [] } : Tasks σ) = t₁ at hrested hrun
    dsimp only at hrun
    rcases hpoll : main.poll (Turn.start t₁.state t₁.isBusy) with ⟨main', w⟩
    rw [hpoll] at hrun
    obtain ⟨hmain', es, p₁, hes, hp₁, hafter⟩ := hrested.runs_main hcallers hmain hpoll
    -- another round follows, at once or after some time
    have hgo (hrun : rounds fuel main' ((t₁.afterTurn w).wake.drain (fuel + 1)) = some (a, t') ∨
        ∃ s, Clocked.advance ((t₁.afterTurn w).wake.drain (fuel + 1)).state = some s ∧
          rounds fuel main' (Tasks.wake { (t₁.afterTurn w).wake.drain (fuel + 1) with state := s }) =
            some (a, t')) :
        ∃ es q, Ensemble.Runs (Ensemble.Goes Passes) note p es q ∧ q.callers = [.done a] ∧
          q.state = t'.state := by
      obtain ⟨fs, q, hfs, hq, hdrain⟩ := runs_of_drain (fuel + 1) hafter.wake
      rcases hrun with hrun | ⟨s, hs, hrun⟩
      · obtain ⟨gs, r, hgs, hr⟩ := ih hrun (hq.trans hp₁) hdrain hmain'
        exact ⟨_, r, (hes.trans hfs).trans hgs, hr⟩
      · obtain ⟨hpass, hlater⟩ := hdrain.passes hs
        obtain ⟨gs, r, hgs, hr⟩ := @ih { q with state := s } _ _ hrun (hq.trans hp₁) hlater.wake hmain'
        exact ⟨_, r, ((hes.trans hfs).tail hpass).trans hgs, hr⟩
    cases main' with
    | done b =>
      cases hrun
      exact ⟨es, p₁, hes, hp₁, hafter.wake.state.symm⟩
    | _ =>
      refine hgo ?_
      dsimp only at hrun
      split at hrun
      · exact .inl hrun
      · split at hrun
        · exact .inr ⟨_, ‹_›, hrun⟩
        · cases hrun

end Tasks

/-- What a program comes to, it comes to by an interleaving. -/
theorem runs_of_run [Clocked σ] {α ε : Type} {note : σ → σ → List ε} {c : Coroutine σ α} {s s' : σ}
    {a : α} (h : c.run s = some (a, s')) (hc : c.Orderly) :
    ∃ es q, Ensemble.Runs (Ensemble.Goes Tasks.Passes) note ⟨s, [c], []⟩ es q ∧
      q.callers = [.done a] ∧ q.state = s' := by
  obtain ⟨⟨a, t⟩, hrounds, hfinal⟩ := Option.map_eq_some_iff.1 h
  cases hfinal
  exact Tasks.runs_of_rounds hrounds rfl ⟨rfl, ⟨[], by simp⟩, by simp⟩ hc

end Coroutine

end SqlClient
