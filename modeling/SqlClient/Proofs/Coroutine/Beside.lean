import Mathlib.Data.List.OfFn
import SqlClient.Proofs.Coroutine.Conduct
import SqlClient.Proofs.Coroutine.Turns
/-!
# Coroutines — side by side

`Coroutine.all` runs coroutines side by side, a few in one way and many in another. `Beside cs c`
says that `c` is what is left of such a run when its members have come to `cs`, so that who reasons
about the whole reasons about its members, one move at a time (`Beside.moves`).
-/

namespace SqlClient

namespace Coroutine

variable {σ α β : Type}

/-- `Beside cs c`: the coroutine `c` runs the members `cs` side by side, or has finished with their
results. -/
inductive Beside : List (Coroutine σ α) → Coroutine σ (List α) → Prop
  | nobody : Beside [] (.done [])
  | first {c : Coroutine σ α} {cs : List (Coroutine σ α)} {rest : Coroutine σ (List α)} :
      Beside cs rest → Beside (c :: cs) (.both c rest fun a as => .done (a :: as))
  | crowd {n : Nat} {members : Fin n → Coroutine σ α} {order : List (Fin n)} :
      Beside (List.ofFn members) (.crowd members order .done)
  | results {as : List α} : Beside (as.map .done) (.done as)

theorem beside_few (cs : List (Coroutine σ α)) : Beside cs (few cs) := by
  induction cs with
  | nil => exact .nobody
  | cons c cs ih => exact .first ih

theorem beside_many (cs : List (Coroutine σ α)) : Beside cs (many cs) := by
  have h : Beside (List.ofFn cs.get) (many cs) := .crowd
  rwa [List.ofFn_get] at h

theorem beside_all (cs : List (Coroutine σ α)) : Beside cs (all cs) := by
  rw [all]
  split
  · exact beside_few cs
  · exact beside_many cs

variable {cs : List (Coroutine σ α)} {c c' : Coroutine σ (List α)} {s s' : σ}
  {ts : List (Coroutine σ Unit)}

/-- A run of finished members comes to their results. -/
theorem Beside.eq_map_done (h : Beside cs c) {as : List α} (hc : c = .done as) :
    cs = as.map .done := by
  cases h with
  | nobody => cases hc; rfl
  | first _ => cases hc
  | crowd => cases hc
  | results => cases hc; rfl

/-- A list with one member replaced, as members of a crowd and as a list. -/
theorem ofFn_update {τ : Type 1} {n : Nat} (members : Fin n → τ) (i : Fin n) :
    ∃ l r, ∀ d, List.ofFn (Function.update members i d) = l ++ d :: r := by
  have hi : i.1 < (List.ofFn members).length := by simp
  refine ⟨(List.ofFn members).take i, (List.ofFn members).drop (i + 1), fun d => ?_⟩
  have hset := List.set_eq_take_append_cons_drop (l := List.ofFn members) (i := i.1) (a := d)
  rw [if_pos hi] at hset
  rw [← hset]
  refine List.ext_getElem (by simp) fun j h h' => ?_
  simp [List.getElem_set, Function.update_apply, Fin.ext_iff, eq_comm]

/-- **A move of the whole is a move of a member**, or one that only joins results. -/
theorem Beside.moves (h : Beside cs c) (hm : Moves c s c' s' ts) :
    (∃ l d d' r, cs = l ++ d :: r ∧ Moves d s d' s' ts ∧ Beside (l ++ d' :: r) c') ∨
      (s' = s ∧ ts = [] ∧ Beside cs c') := by
  induction h generalizing c' with
  | nobody => exact absurd hm not_moves_done
  | results => exact absurd hm not_moves_done
  | @first d cs rest hrest ih =>
    cases hm with
    | left hd => exact .inl ⟨[], d, _, cs, rfl, hd, .first hrest⟩
    | right hr =>
      rcases ih hr with ⟨l, d', d'', r, rfl, hd, hb⟩ | ⟨rfl, rfl, hb⟩
      · exact .inl ⟨d :: l, d', d'', r, rfl, hd, .first hb⟩
      · exact .inr ⟨rfl, rfl, .first hb⟩
    | joined =>
      -- both sides have finished, so all members have
      rw [hrest.eq_map_done rfl, ← List.map_cons]
      exact .inr ⟨rfl, rfl, .results⟩
  | @crowd n members order =>
    cases hm with
    | @member _ _ _ _ _ _ i d' _ _ _ hd =>
      obtain ⟨l, r, hsplit⟩ := ofFn_update members i
      refine .inl ⟨l, members i, d', r, ?_, hd, hsplit d' ▸ .crowd⟩
      rw [← hsplit, Function.update_eq_self]
    | @gathered _ _ _ _ _ _ xs _ hall =>
      have hmembers : List.ofFn members = (List.ofFn xs).map .done := by
        rw [List.map_ofFn]
        exact congrArg List.ofFn (funext hall)
      exact .inr ⟨rfl, rfl, hmembers ▸ .results⟩

/-- The order within a crowd does not matter to the whole, and a member may be put in another. -/
theorem Beside.reordered (h : Beside cs c) (hr : Reordered c c') :
    (∃ l d d' r, cs = l ++ d :: r ∧ Reordered d d' ∧ Beside (l ++ d' :: r) c') ∨ Beside cs c' := by
  induction h generalizing c' with
  | nobody => cases hr; exact .inr .nobody
  | results => cases hr; exact .inr .results
  | @first d cs rest hrest ih =>
    cases hr with
    | refl => exact .inr (.first hrest)
    | left hd => exact .inl ⟨[], d, _, cs, rfl, hd, .first hrest⟩
    | right hr =>
      rcases ih hr with ⟨l, d', d'', r, rfl, hd, hb⟩ | hb
      · exact .inl ⟨d :: l, d', d'', r, rfl, hd, .first hb⟩
      · exact .inr (.first hb)
  | @crowd n members order =>
    cases hr with
    | refl => exact .inr .crowd
    | order _ => exact .inr .crowd
    | member hd =>
      obtain ⟨l, r, hsplit⟩ := ofFn_update members _
      refine .inl ⟨l, _, _, r, ?_, hd, hsplit _ ▸ .crowd⟩
      rw [← hsplit, Function.update_eq_self]

/-- A shift of the whole is that of a member, or joins results. -/
theorem Beside.shifts (h : Beside cs c) (hm : Shifts c s c' s' ts) :
    (∃ l d d' r, cs = l ++ d :: r ∧ Shifts d s d' s' ts ∧ Beside (l ++ d' :: r) c') ∨
      (s' = s ∧ ts = [] ∧ Beside cs c') := by
  rcases hm with hm | ⟨hr, rfl, rfl⟩
  · rcases h.moves hm with ⟨l, d, d', r, hcs, hd, hb⟩ | hjoin
    · exact .inl ⟨l, d, d', r, hcs, .inl hd, hb⟩
    · exact .inr hjoin
  · rcases h.reordered hr with ⟨l, d, d', r, hcs, hd, hb⟩ | hb
    · exact .inl ⟨l, d, d', r, hcs, .inr ⟨hd, rfl, rfl⟩, hb⟩
    · exact .inr ⟨rfl, rfl, hb⟩

/-- A member that can go on takes the whole along. -/
theorem Beside.lift (h : Beside cs c) {d d' : Coroutine σ α} (hd : d ∈ cs) (hm : Moves d s d' s' ts) :
    ∃ c', Moves c s c' s' ts := by
  induction h with
  | nobody => cases hd
  | results =>
    obtain ⟨a, -, rfl⟩ := List.mem_map.1 hd
    exact absurd hm not_moves_done
  | first _ ih =>
    rcases List.mem_cons.1 hd with rfl | hd
    · exact ⟨_, .left hm⟩
    · obtain ⟨rest', hrest⟩ := ih hd
      exact ⟨_, .right hrest⟩
  | crowd =>
    obtain ⟨i, rfl⟩ := List.mem_ofFn.1 hd
    exact ⟨_, .member hm⟩

/-! ## Interleavings

A coroutine that runs others side by side is, to the rest of an ensemble, as good as its members. -/

namespace Ensemble

variable {ε : Type} {others others' : σ → σ → Prop} {note : σ → σ → List ε}

/-- An interleaving of a coroutine that runs members side by side is one of the members. -/
theorem runs_of_beside (hothers : ∀ s s', others s s' → others' s s') (hbeside : Beside cs c)
    {p q : Ensemble σ (List α)} {es : List ε} (hrun : Runs (Goes others) note p es q)
    (hp : p.callers = [c]) :
    ∃ fs cs' c', q.callers = [c'] ∧ Beside cs' c' ∧
      Runs (Goes others') note ⟨p.state, cs, p.tasks⟩ fs ⟨q.state, cs', q.tasks⟩ := by
  induction hrun with
  | refl => exact ⟨[], cs, c, hp, hbeside, .refl⟩
  | @tail q q' es _ hgo ih =>
    obtain ⟨fs, cs', c', hq, hbeside', hruns⟩ := ih
    obtain ⟨s, callers, tasks⟩ := q
    obtain ⟨s', callers', tasks'⟩ := q'
    obtain rfl : callers = [c'] := hq
    rcases goes_cases hgo with ⟨l, d, d', r, ts, hcallers, hshift, rfl, rfl⟩ |
      ⟨l, d, d', r, ts, rfl, hshift, rfl, rfl⟩ | ⟨hother, hcallers, htasks⟩
    -- there is only one caller, so it is the one that goes
    · obtain ⟨rfl, rfl, rfl⟩ : l = [] ∧ c' = d ∧ r = [] := by
        rcases List.singleton_eq_append_iff.1 hcallers with ⟨hl, hd⟩ | ⟨-, hd⟩
        · cases hd
          exact ⟨hl, rfl, rfl⟩
        · cases hd
      rcases hbeside'.shifts hshift with ⟨l, e, e', r, rfl, hmember, hb⟩ | ⟨hs, rfl, hb⟩
      · exact ⟨_, l ++ e' :: r, d', rfl, hb, hruns.tail (goes_caller hmember)⟩
      · -- a step that only joins results is none of the members'
        obtain rfl : s' = s := hs
        rw [List.append_nil]
        exact ⟨fs, cs', d', rfl, hb, hruns⟩
    · exact ⟨_, cs', c', rfl, hbeside', hruns.tail (goes_task hshift)⟩
    · obtain rfl : tasks' = tasks := htasks
      exact ⟨_, cs', c', hcallers, hbeside', hruns.tail (.inr (.others (hothers _ _ hother)))⟩

end Ensemble

/-- **Coroutines that the scheduler runs side by side interleave**, and time passes. -/
theorem runs_of_run_all [Clocked σ] {ε : Type} {others : σ → σ → Prop} {note : σ → σ → List ε} {as : List α}
    (h : (all cs).run s = some (as, s')) (hcs : ∀ c ∈ cs, c.Orderly)
    (hothers : ∀ s s', Tasks.Passes s s' → others s s') :
    ∃ es tasks, Ensemble.Runs (Ensemble.Goes others) note ⟨s, cs, []⟩ es
      ⟨s', as.map .done, tasks⟩ := by
  have hmain : ∃ es q, Ensemble.Runs (Ensemble.Goes Tasks.Passes) note ⟨s, [all cs], []⟩ es q ∧
      q.callers = [.done as] ∧ q.state = s' := runs_of_run h (orderly_all hcs)
  obtain ⟨es, ⟨_, callers, tasks⟩, hrun, rfl, rfl⟩ := hmain
  obtain ⟨fs, cs', c', hdone, hbeside, hruns⟩ :=
    Ensemble.runs_of_beside hothers (beside_all cs) hrun rfl
  rw [hbeside.eq_map_done (List.singleton_inj.1 hdone).symm] at hruns
  exact ⟨fs, tasks, hruns⟩

end Coroutine

end SqlClient
