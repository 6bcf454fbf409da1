import Mathlib.Logic.Function.Basic
import Mathlib.Logic.Relation
import SqlClient.Coroutine.Basic
/-!
# Coroutines — interleavings

A turn runs a coroutine for as long as it can go on. Here its path is cut into moves, each of which
changes the state at most once (`Moves`), and an `Ensemble` of callers and background tasks takes its
moves in any order, with anything that others may do to the state in between. That is finer than
turns and holds of every scheduler: whatever order the members are served in, on one thread or on
several, is a sequence of moves.
-/

namespace SqlClient

namespace Coroutine

variable {σ : Type}

/-! ## Moves -/

/-- `Moves c s c' s' ts`: the coroutine `c` takes its next move at the state `s`, which leaves `c'`
and the state `s'` and starts the tasks `ts`. -/
inductive Moves : {α : Type} → Coroutine σ α → σ → Coroutine σ α → σ → List (Coroutine σ Unit) → Prop
  | step {α ρ : Type} {f : σ → ρ × σ} {k : ρ → Coroutine σ α} {s : σ} :
      Moves (.step f k) s (k (f s).1) (f s).2 []
  | await {α : Type} {ready : σ → Bool} {k : Coroutine σ α} {s : σ} :
      ready s = true → Moves (.await ready k) s k s []
  | pause {α : Type} {k : Coroutine σ α} {s : σ} : Moves (.pause false k) s (.pause true k) s []
  | resume {α : Type} {k : Coroutine σ α} {s : σ} : Moves (.pause true k) s k s []
  | settle {α : Type} {k : Coroutine σ α} {s : σ} : Moves (.settle k) s k s []
  | left {α β γ : Type} {l l' : Coroutine σ β} {r : Coroutine σ γ} {k : β → γ → Coroutine σ α}
      {s s' : σ} {ts : List (Coroutine σ Unit)} :
      Moves l s l' s' ts → Moves (.both l r k) s (.both l' r k) s' ts
  | right {α β γ : Type} {l : Coroutine σ β} {r r' : Coroutine σ γ} {k : β → γ → Coroutine σ α}
      {s s' : σ} {ts : List (Coroutine σ Unit)} :
      Moves r s r' s' ts → Moves (.both l r k) s (.both l r' k) s' ts
  | joined {α β γ : Type} {x : β} {y : γ} {k : β → γ → Coroutine σ α} {s : σ} :
      Moves (.both (.done x) (.done y) k) s (k x y) s []
  | member {α β : Type} {n : Nat} {members : Fin n → Coroutine σ β} {order : List (Fin n)}
      {k : List β → Coroutine σ α} {i : Fin n} {c' : Coroutine σ β} {s s' : σ}
      {ts : List (Coroutine σ Unit)} :
      Moves (members i) s c' s' ts →
      Moves (.crowd members order k) s (.crowd (Function.update members i c') order k) s' ts
  | gathered {α β : Type} {n : Nat} {members : Fin n → Coroutine σ β} {order : List (Fin n)}
      {k : List β → Coroutine σ α} {xs : Fin n → β} {s : σ} :
      (∀ i, members i = .done (xs i)) → Moves (.crowd members order k) s (k (List.ofFn xs)) s []
  | inside {α β : Type} {cleanup : σ → σ} {rescue : Option (Coroutine σ Unit)}
      {body body' : Coroutine σ β} {k : β → Coroutine σ α} {s s' : σ}
      {ts : List (Coroutine σ Unit)} :
      Moves body s body' s' ts →
      Moves (.guarded cleanup rescue body k) s (.guarded cleanup rescue body' k) s' ts
  | leave {α β : Type} {cleanup : σ → σ} {rescue : Option (Coroutine σ Unit)} {x : β}
      {k : β → Coroutine σ α} {s : σ} :
      Moves (.guarded cleanup rescue (.done x) k) s (k x) s []
  | racing {α β : Type} {signal : σ → Bool} {takeDown : σ → σ} {body body' : Coroutine σ β}
      {k : Option β → Coroutine σ α} {s s' : σ} {ts : List (Coroutine σ Unit)} :
      Moves body s body' s' ts →
      Moves (.race signal takeDown body k) s (.race signal takeDown body' k) s' ts
  | won {α β : Type} {signal : σ → Bool} {takeDown : σ → σ} {x : β} {k : Option β → Coroutine σ α}
      {s : σ} : Moves (.race signal takeDown (.done x) k) s (k (some x)) s []
  /-- The body is given up in one move: nobody sees it half given up. -/
  | lost {α β : Type} {signal : σ → Bool} {takeDown : σ → σ} {body : Coroutine σ β}
      {k : Option β → Coroutine σ α} {s : σ} :
      signal s = true → body.result? = none →
      Moves (.race signal takeDown body k) s (k none)
        (body.drop (Turn.start (takeDown s) false)).state
        (body.drop (Turn.start (takeDown s) false)).spawned
  | spawn {α : Type} {task : Coroutine σ Unit} {k : Coroutine σ α} {s : σ} :
      Moves (.spawn task k) s k s [task]

variable {α β γ : Type} {c c' : Coroutine σ α} {s s' : σ} {ts : List (Coroutine σ Unit)}

@[simp] theorem bind_def (c : Coroutine σ α) (f : α → Coroutine σ β) : c >>= f = c.bind f := rfl

@[simp] theorem pure_def (a : α) : (pure a : Coroutine σ α) = .done a := rfl

@[simp] theorem result?_done (a : α) : (.done a : Coroutine σ α).result? = some a := rfl

theorem eq_done_of_result? {a : α} (h : c.result? = some a) : c = .done a := by
  cases c with
  | done b => rw [Option.some.inj h]
  | _ => cases h

/-- Members none of which is still running have finished with some results. -/
theorem eq_done_of_all_result? {n : Nat} {members : Fin n → Coroutine σ α}
    (h : ∀ i, (members i).result? ≠ none) :
    ∃ results : Fin n → α, ∀ i, members i = .done (results i) := by
  have hdone : ∀ i, ∃ a, members i = .done a := fun i => by
    obtain ⟨a, ha⟩ := Option.ne_none_iff_exists'.1 (h i)
    exact ⟨a, eq_done_of_result? ha⟩
  exact ⟨fun i => (hdone i).choose, fun i => (hdone i).choose_spec⟩

/-- Who has finished moves no more. -/
theorem not_moves_done {a : α} : ¬ Moves (.done a) s c' s' ts := by
  intro h
  cases h

/-- A move of a coroutine that goes on with another is a move of the first, or of the second once
the first has finished. -/
theorem moves_bind {c : Coroutine σ α} {f : α → Coroutine σ β} {d : Coroutine σ β}
    (h : Moves (c.bind f) s d s' ts) :
    (∃ c', Moves c s c' s' ts ∧ d = c'.bind f) ∨ ∃ a, c = .done a ∧ Moves (f a) s d s' ts := by
  -- what comes first is in front of the whole, so it says which moves there are
  cases c with
  | done a => exact .inr ⟨a, rfl, h⟩
  | step g k => cases h; exact .inl ⟨_, .step, rfl⟩
  | await ready k => cases h with | await hready => exact .inl ⟨_, .await hready, rfl⟩
  | pause begun k =>
    cases h with
    | pause => exact .inl ⟨_, .pause, rfl⟩
    | resume => exact .inl ⟨_, .resume, rfl⟩
  | settle k => cases h; exact .inl ⟨_, .settle, rfl⟩
  | both l r k =>
    cases h with
    | left hl => exact .inl ⟨_, .left hl, rfl⟩
    | right hr => exact .inl ⟨_, .right hr, rfl⟩
    | joined => exact .inl ⟨_, .joined, rfl⟩
  | crowd members order k =>
    cases h with
    | member hi => exact .inl ⟨_, .member hi, rfl⟩
    | gathered hall => exact .inl ⟨_, .gathered hall, rfl⟩
  | guarded cleanup rescue body k =>
    cases h with
    | inside hbody => exact .inl ⟨_, .inside hbody, rfl⟩
    | leave => exact .inl ⟨_, .leave, rfl⟩
  | race signal takeDown body k =>
    cases h with
    | racing hbody => exact .inl ⟨_, .racing hbody, rfl⟩
    | won => exact .inl ⟨_, .won, rfl⟩
    | lost hsignal hbody => exact .inl ⟨_, .lost hsignal hbody, rfl⟩
  | spawn task k => cases h; exact .inl ⟨_, .spawn, rfl⟩

theorem Moves.bind (h : Moves c s c' s' ts) (f : α → Coroutine σ β) :
    Moves (c.bind f) s (c'.bind f) s' ts := by
  cases h with
  | step => exact .step
  | await hready => exact .await hready
  | pause => exact .pause
  | resume => exact .resume
  | settle => exact .settle
  | left hl => exact .left hl
  | right hr => exact .right hr
  | joined => exact .joined
  | member hi => exact .member hi
  | gathered hall => exact .gathered hall
  | inside hbody => exact .inside hbody
  | leave => exact .leave
  | racing hbody => exact .racing hbody
  | won => exact .won
  | lost hsignal hbody => exact .lost hsignal hbody
  | spawn => exact .spawn

/-! ## The order within a crowd

The members of a crowd have an order, which says who is polled and given up first. Turns change it;
moves take it as it is. -/

/-- `Reordered c c'`: the same coroutine but for the order of crowds that are under way. -/
inductive Reordered : {α : Type} → Coroutine σ α → Coroutine σ α → Prop
  | refl {α : Type} {c : Coroutine σ α} : Reordered c c
  | order {α β : Type} {n : Nat} {members : Fin n → Coroutine σ β} {order order' : List (Fin n)}
      {k : List β → Coroutine σ α} : order'.Perm order →
      Reordered (.crowd members order k) (.crowd members order' k)
  | member {α β : Type} {n : Nat} {members : Fin n → Coroutine σ β} {order : List (Fin n)}
      {k : List β → Coroutine σ α} {i : Fin n} {c' : Coroutine σ β} : Reordered (members i) c' →
      Reordered (.crowd members order k) (.crowd (Function.update members i c') order k)
  | left {α β γ : Type} {l l' : Coroutine σ β} {r : Coroutine σ γ} {k : β → γ → Coroutine σ α} :
      Reordered l l' → Reordered (.both l r k) (.both l' r k)
  | right {α β γ : Type} {l : Coroutine σ β} {r r' : Coroutine σ γ} {k : β → γ → Coroutine σ α} :
      Reordered r r' → Reordered (.both l r k) (.both l r' k)
  | inside {α β : Type} {cleanup : σ → σ} {rescue : Option (Coroutine σ Unit)}
      {body body' : Coroutine σ β} {k : β → Coroutine σ α} : Reordered body body' →
      Reordered (.guarded cleanup rescue body k) (.guarded cleanup rescue body' k)
  | racing {α β : Type} {signal : σ → Bool} {takeDown : σ → σ} {body body' : Coroutine σ β}
      {k : Option β → Coroutine σ α} : Reordered body body' →
      Reordered (.race signal takeDown body k) (.race signal takeDown body' k)

theorem reordered_bind {c : Coroutine σ α} {f : α → Coroutine σ β} {d : Coroutine σ β}
    (h : Reordered (c.bind f) d) :
    (∃ c', Reordered c c' ∧ d = c'.bind f) ∨ ∃ a, c = .done a ∧ Reordered (f a) d := by
  cases c with
  | done a => exact .inr ⟨a, rfl, h⟩
  | both l r k =>
    cases h with
    | refl => exact .inl ⟨_, .refl, rfl⟩
    | left hl => exact .inl ⟨_, .left hl, rfl⟩
    | right hr => exact .inl ⟨_, .right hr, rfl⟩
  | crowd members order k =>
    cases h with
    | refl => exact .inl ⟨_, .refl, rfl⟩
    | @order _ _ _ _ _ order' _ h => exact .inl ⟨.crowd members order' k, .order h, rfl⟩
    | member hi => exact .inl ⟨_, .member hi, rfl⟩
  | guarded cleanup rescue body k =>
    cases h with
    | refl => exact .inl ⟨_, .refl, rfl⟩
    | inside hbody => exact .inl ⟨_, .inside hbody, rfl⟩
  | race signal takeDown body k =>
    cases h with
    | refl => exact .inl ⟨_, .refl, rfl⟩
    | racing hbody => exact .inl ⟨_, .racing hbody, rfl⟩
  | _ =>
    cases h
    exact .inl ⟨_, .refl, rfl⟩

/-- A move, or only another order of a crowd. -/
def Shifts (c : Coroutine σ α) (s : σ) (c' : Coroutine σ α) (s' : σ) (ts : List (Coroutine σ Unit)) :
    Prop :=
  Moves c s c' s' ts ∨ Reordered c c' ∧ s' = s ∧ ts = []

theorem shifts_bind {c : Coroutine σ α} {f : α → Coroutine σ β} {d : Coroutine σ β}
    (h : Shifts (c.bind f) s d s' ts) :
    (∃ c', Shifts c s c' s' ts ∧ d = c'.bind f) ∨ ∃ a, c = .done a ∧ Shifts (f a) s d s' ts := by
  rcases h with hm | ⟨hr, hs⟩
  · rcases moves_bind hm with ⟨c', hc, hd⟩ | ⟨a, hc, hm⟩
    · exact .inl ⟨c', .inl hc, hd⟩
    · exact .inr ⟨a, hc, .inl hm⟩
  · rcases reordered_bind hr with ⟨c', hc, hd⟩ | ⟨a, hc, hr⟩
    · exact .inl ⟨c', .inr ⟨hc, hs⟩, hd⟩
    · exact .inr ⟨a, hc, .inr ⟨hr, hs⟩⟩

theorem shifts_done {a : α} (h : Shifts (.done a) s c' s' ts) : c' = .done a ∧ s' = s ∧ ts = [] := by
  rcases h with hm | ⟨hr, hs⟩
  · exact absurd hm not_moves_done
  · cases hr
    exact ⟨rfl, hs⟩

/-- A change of the state takes place or has yet to. -/
theorem shifts_step {ρ : Type} {f : σ → ρ × σ} {k : ρ → Coroutine σ α}
    (h : Shifts (.step f k) s c' s' ts) :
    ts = [] ∧ (c' = .step f k ∧ s' = s ∨ c' = k (f s).1 ∧ s' = (f s).2) := by
  rcases h with hm | ⟨hr, hs, rfl⟩
  · cases hm
    exact ⟨rfl, .inr ⟨rfl, rfl⟩⟩
  · cases hr
    exact ⟨rfl, .inl ⟨rfl, hs⟩⟩

theorem shifts_await {ready : σ → Bool} {k : Coroutine σ α} (h : Shifts (.await ready k) s c' s' ts) :
    ts = [] ∧ s' = s ∧ (c' = .await ready k ∨ c' = k ∧ ready s = true) := by
  rcases h with hm | ⟨hr, hs, rfl⟩
  · cases hm with
    | await hready => exact ⟨rfl, rfl, .inr ⟨rfl, hready⟩⟩
  · cases hr
    exact ⟨rfl, hs, .inl rfl⟩

theorem shifts_spawn {task : Coroutine σ Unit} {k : Coroutine σ α}
    (h : Shifts (.spawn task k) s c' s' ts) :
    s' = s ∧ (c' = .spawn task k ∧ ts = [] ∨ c' = k ∧ ts = [task]) := by
  rcases h with hm | ⟨hr, hs, rfl⟩
  · cases hm
    exact ⟨rfl, .inr ⟨rfl, rfl⟩⟩
  · cases hr
    exact ⟨hs, .inl ⟨rfl, rfl⟩⟩

/-! ## Ensembles -/

/-- Coroutines that share a state: callers, whose results matter, and background tasks. -/
structure Ensemble (σ α : Type) : Type 1 where
  state : σ
  callers : List (Coroutine σ α)
  tasks : List (Coroutine σ Unit)

namespace Ensemble

/-- Some member of the ensemble takes a move. -/
inductive Advances : Ensemble σ α → Ensemble σ α → Prop
  | caller {s s' : σ} {l r : List (Coroutine σ α)} {c c' : Coroutine σ α}
      {tasks ts : List (Coroutine σ Unit)} :
      Moves c s c' s' ts → Advances ⟨s, l ++ c :: r, tasks⟩ ⟨s', l ++ c' :: r, tasks ++ ts⟩
  | task {s s' : σ} {callers : List (Coroutine σ α)} {l r ts : List (Coroutine σ Unit)}
      {c c' : Coroutine σ Unit} :
      Moves c s c' s' ts → Advances ⟨s, callers, l ++ c :: r⟩ ⟨s', callers, l ++ c' :: r ++ ts⟩

/-- No member takes a move: others change the state in a way that `others` allows, or a crowd is
put in another order. -/
inductive Idles (others : σ → σ → Prop) : Ensemble σ α → Ensemble σ α → Prop
  | others {s s' : σ} {callers : List (Coroutine σ α)} {tasks : List (Coroutine σ Unit)} :
      others s s' → Idles others ⟨s, callers, tasks⟩ ⟨s', callers, tasks⟩
  | caller {s : σ} {l r : List (Coroutine σ α)} {c c' : Coroutine σ α}
      {tasks : List (Coroutine σ Unit)} :
      Reordered c c' → Idles others ⟨s, l ++ c :: r, tasks⟩ ⟨s, l ++ c' :: r, tasks⟩
  | task {s : σ} {callers : List (Coroutine σ α)} {l r : List (Coroutine σ Unit)}
      {c c' : Coroutine σ Unit} :
      Reordered c c' → Idles others ⟨s, callers, l ++ c :: r⟩ ⟨s, callers, l ++ c' :: r⟩

/-- One step of an interleaving. -/
def Goes (others : σ → σ → Prop) (p q : Ensemble σ α) : Prop := Advances p q ∨ Idles others p q

/-- A step is that of a caller, of a task or of others. -/
theorem goes_cases {others : σ → σ → Prop} {p q : Ensemble σ α} (h : Goes others p q) :
    (∃ l c c' r ts, p.callers = l ++ c :: r ∧ Shifts c p.state c' q.state ts ∧
        q.callers = l ++ c' :: r ∧ q.tasks = p.tasks ++ ts) ∨
      (∃ l c c' r ts, p.tasks = l ++ c :: r ∧ Shifts c p.state c' q.state ts ∧
        q.callers = p.callers ∧ q.tasks = l ++ c' :: r ++ ts) ∨
      (others p.state q.state ∧ q.callers = p.callers ∧ q.tasks = p.tasks) := by
  rcases h with h | h
  · cases h with
    | caller hm => exact .inl ⟨_, _, _, _, _, rfl, .inl hm, rfl, rfl⟩
    | task hm => exact .inr (.inl ⟨_, _, _, _, _, rfl, .inl hm, rfl, rfl⟩)
  · cases h with
    | others h => exact .inr (.inr ⟨h, rfl, rfl⟩)
    | caller hr => exact .inl ⟨_, _, _, _, [], rfl, .inr ⟨hr, rfl, rfl⟩, rfl, by simp⟩
    | task hr => exact .inr (.inl ⟨_, _, _, _, [], rfl, .inr ⟨hr, rfl, rfl⟩, rfl, by simp⟩)

theorem goes_caller {others : σ → σ → Prop} {s s' : σ} {l r : List (Coroutine σ α)}
    {c c' : Coroutine σ α} {tasks ts : List (Coroutine σ Unit)} (h : Shifts c s c' s' ts) :
    Goes others ⟨s, l ++ c :: r, tasks⟩ ⟨s', l ++ c' :: r, tasks ++ ts⟩ := by
  rcases h with hm | ⟨hr, rfl, rfl⟩
  · exact .inl (.caller hm)
  · rw [List.append_nil]
    exact .inr (.caller hr)

theorem goes_task {others : σ → σ → Prop} {s s' : σ} {callers : List (Coroutine σ α)}
    {l r ts : List (Coroutine σ Unit)} {c c' : Coroutine σ Unit} (h : Shifts c s c' s' ts) :
    Goes others ⟨s, callers, l ++ c :: r⟩ ⟨s', callers, l ++ c' :: r ++ ts⟩ := by
  rcases h with hm | ⟨hr, rfl, rfl⟩
  · exact .inl (.task hm)
  · rw [List.append_nil]
    exact .inr (.task hr)

/-- `Runs go note p es q`: steps that `go` allows lead from `p` to `q`, and `es` is what an observer
notes of the changes of the state on the way. -/
inductive Runs {ε : Type} (go : Ensemble σ α → Ensemble σ α → Prop) (note : σ → σ → List ε) :
    Ensemble σ α → List ε → Ensemble σ α → Prop
  | refl {p : Ensemble σ α} : Runs go note p [] p
  | tail {p q r : Ensemble σ α} {es : List ε} :
      Runs go note p es q → go q r → Runs go note p (es ++ note q.state r.state) r

/-- **What every step keeps, every interleaving keeps.** -/
theorem Runs.keeps {ε : Type} {go : Ensemble σ α → Ensemble σ α → Prop} {note : σ → σ → List ε}
    {I : List ε → Ensemble σ α → Prop} {p q : Ensemble σ α} {es fs : List ε}
    (h : Runs go note p fs q) (hp : I es p)
    (hstep : ∀ es p q, I es p → go p q → I (es ++ note p.state q.state) q) : I (es ++ fs) q := by
  induction h with
  | refl => rwa [List.append_nil]
  | tail _ hgo ih =>
    rw [← List.append_assoc]
    exact hstep _ _ _ ih hgo

/-- What every step keeps of an ensemble alone. -/
theorem Runs.preserves {ε : Type} {go : Ensemble σ α → Ensemble σ α → Prop} {note : σ → σ → List ε}
    {J : Ensemble σ α → Prop} {p q : Ensemble σ α} {es : List ε} (h : Runs go note p es q) (hp : J p)
    (hstep : ∀ p q, J p → go p q → J q) : J q := by
  induction h with
  | refl => exact hp
  | tail _ hgo ih => exact hstep _ _ ih hgo

/-! ### Credits -/

/-- `Credits items others p credits q`: steps lead from `p` to `q`, and `credits` are the items that
have been put behind a list in the state on the way, each with the place of the caller whose step it
was. -/
inductive Credits {ι : Type} (items : σ → List ι) (others : σ → σ → Prop) (p : Ensemble σ α) :
    List (Nat × ι) → Ensemble σ α → Prop
  | refl : Credits items others p [] p
  | caller {credits : List (Nat × ι)} {s s' : σ} {l r : List (Coroutine σ α)} {c c' : Coroutine σ α}
      {tasks ts : List (Coroutine σ Unit)} :
      Credits items others p credits ⟨s, l ++ c :: r, tasks⟩ → Shifts c s c' s' ts →
      Credits items others p
        (credits ++ ((items s').drop (items s).length).map fun item => (l.length, item))
        ⟨s', l ++ c' :: r, tasks ++ ts⟩
  | task {credits : List (Nat × ι)} {s s' : σ} {callers : List (Coroutine σ α)}
      {l r ts : List (Coroutine σ Unit)} {c c' : Coroutine σ Unit} :
      Credits items others p credits ⟨s, callers, l ++ c :: r⟩ → Shifts c s c' s' ts →
      Credits items others p credits ⟨s', callers, l ++ c' :: r ++ ts⟩
  | others {credits : List (Nat × ι)} {s s' : σ} {callers : List (Coroutine σ α)}
      {tasks : List (Coroutine σ Unit)} :
      Credits items others p credits ⟨s, callers, tasks⟩ → others s s' →
      Credits items others p credits ⟨s', callers, tasks⟩

/-- Every interleaving has its credits. -/
theorem Runs.credits {ε ι : Type} {others : σ → σ → Prop} {note : σ → σ → List ε}
    {p q : Ensemble σ α} {es : List ε} (h : Runs (Goes others) note p es q) (items : σ → List ι) :
    ∃ credits, Credits items others p credits q := by
  induction h with
  | refl => exact ⟨[], .refl⟩
  | @tail q r _ _ hgo ih =>
    obtain ⟨credits, ih⟩ := ih
    obtain ⟨s, callers, tasks⟩ := q
    obtain ⟨s', callers', tasks'⟩ := r
    rcases goes_cases hgo with ⟨_, _, _, _, _, rfl, hshifts, rfl, rfl⟩ |
      ⟨_, _, _, _, _, rfl, hshifts, rfl, rfl⟩ | ⟨hothers, rfl, rfl⟩
    · exact ⟨_, .caller ih hshifts⟩
    · exact ⟨_, .task ih hshifts⟩
    · exact ⟨_, .others ih hothers⟩

end Ensemble

end Coroutine

end SqlClient
