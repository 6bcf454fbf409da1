import Mathlib.Algebra.BigOperators.Fin
import Mathlib.Data.Multiset.DershowitzManna
import Mathlib.SetTheory.Ordinal.Family
import Mathlib.Tactic.Abel
import SqlClient.Proofs.Coroutine.Interleaving
/-!
# Coroutines — work and progress

A coroutine may depend on what it finds in the state, but it never turns back: whatever it does
next, less is left. `work` measures what is left by a multiset of ordinals, since what follows a
change of the state may be any of infinitely many coroutines, and since members of an ensemble and
the tasks they start go on side by side. Every move takes from it (`Moves.less`), so no interleaving
has infinitely many moves, and what holds whenever nobody can go on comes about in every
interleaving (`inevitable_of_progress`).
-/

namespace SqlClient

namespace Coroutine

open Multiset

variable {σ : Type}

/-! ## Work -/

/-- An amount of work above all those that may follow. -/
noncomputable def above {ι : Type} (f : ι → Multiset Ordinal.{0}) : Ordinal.{0} :=
  ⨆ i, Order.succ (f i).sup

theorem lt_above {ι : Type} {f : ι → Multiset Ordinal.{0}} {i : ι} {x : Ordinal.{0}} (h : x ∈ f i) :
    x < above f :=
  (Order.lt_succ_of_le (Multiset.le_sup h)).trans_le (Ordinal.le_iSup (fun i => Order.succ (f i).sup) i)

/-- The work that a coroutine has left: an amount for each thing that it does next or waits to do. -/
noncomputable def work {α : Type} : Coroutine σ α → Multiset Ordinal.{0}
  | .done _ => 0
  | .step _ k => {above fun r => (k r).work}
  | .await _ k => {above fun _ : Unit => k.work}
  | .pause true k => {above fun _ : Unit => k.work}
  | .pause false k => {above fun _ : Unit => {above fun _ : Unit => k.work}}
  | .settle k => {above fun _ : Unit => k.work}
  | .both l r k => l.work + r.work + {above fun p : _ × _ => (k p.1 p.2).work}
  | .crowd members _ k => ∑ i, (members i).work + {above fun xs => (k xs).work}
  | .guarded _ none body k => body.work + {above fun x => (k x).work}
  | .guarded _ (some t) body k => body.work + {above fun o : Option _ => o.elim t.work fun x => (k x).work}
  | .race _ _ body k => body.work + {above fun o => (k o).work}
  | .spawn t k => {above fun _ : Unit => t.work + k.work}
termination_by structural c => c
/-- The work of several tasks. -/
noncomputable def workOf (ts : List (Coroutine σ Unit)) : Multiset Ordinal.{0} := (ts.map work).sum

@[simp] theorem workOf_nil : workOf ([] : List (Coroutine σ Unit)) = 0 := rfl

@[simp] theorem workOf_cons (t : Coroutine σ Unit) (ts : List (Coroutine σ Unit)) :
    workOf (t :: ts) = t.work + workOf ts := by
  simp [workOf]

@[simp] theorem workOf_append (ts us : List (Coroutine σ Unit)) :
    workOf (ts ++ us) = workOf ts + workOf us := by
  simp [workOf]

/-- The work of what follows is less than the work of following. -/
theorem less_above {ι : Type} (f : ι → Multiset Ordinal.{0}) (i : ι) :
    IsDershowitzMannaLT (f i) {above f} :=
  ⟨0, f i, {above f}, by simp, by simp, by simp, fun x hx => ⟨_, by simp, lt_above hx⟩⟩

/-- What stays as it is does not count. -/
theorem less_add {M N : Multiset Ordinal.{0}} (P : Multiset Ordinal.{0}) (h : IsDershowitzMannaLT M N) :
    IsDershowitzMannaLT (M + P) (N + P) := by
  obtain ⟨X, Y, Z, hZ, rfl, rfl, hlt⟩ := h
  exact ⟨X + P, Y, Z, hZ, add_right_comm _ _ _, add_right_comm _ _ _, hlt⟩

/-- The rescues of whoever is given up are less than its own work. -/
theorem lt_of_mem_workOf_drop : ∀ {α : Type} (c : Coroutine σ α) (w : Turn σ) (y : Ordinal.{0}),
    y ∈ workOf (c.drop w).spawned → y ∈ workOf w.spawned ∨ ∃ z ∈ c.work, y < z
  | _, .both l r _, w, y, hy => by
    rcases lt_of_mem_workOf_drop r (l.drop w) y hy with hy | ⟨z, hz, hlt⟩
    · rcases lt_of_mem_workOf_drop l w y hy with hy | ⟨z, hz, hlt⟩
      · exact .inl hy
      · exact .inr ⟨z, by simp [work, hz], hlt⟩
    · exact .inr ⟨z, by simp [work, hz], hlt⟩
  | _, .crowd members order _, w, y, hy => by
    rw [drop] at hy
    induction order with
    | nil => exact .inl hy
    | cons i order ih =>
      rcases lt_of_mem_workOf_drop (members i) _ y hy with hy | ⟨z, hz, hlt⟩
      · rcases ih hy with hy | ⟨z, hz, hlt⟩
        · exact .inl hy
        · exact .inr ⟨z, by simpa [work] using hz, hlt⟩
      · exact .inr ⟨z, by simpa [work, Multiset.mem_sum] using .inl ⟨i, hz⟩, hlt⟩
  | _, .guarded _ none body _, w, y, hy => by
    rcases lt_of_mem_workOf_drop body w y (by simpa [drop] using hy) with hy | ⟨z, hz, hlt⟩
    · exact .inl hy
    · exact .inr ⟨z, by simp [work, hz], hlt⟩
  | _, .guarded _ (some t) body k, w, y, hy => by
    simp only [drop, Option.toList_some, workOf_append, workOf_cons, workOf_nil, add_zero,
      Multiset.mem_add] at hy
    rcases hy with hy | hy
    · rcases lt_of_mem_workOf_drop body w y hy with hy | ⟨z, hz, hlt⟩
      · exact .inl hy
      · exact .inr ⟨z, by simp [work, hz], hlt⟩
    -- the rescue is one of the ways in which a guard may go on, so it is less than all
    · refine .inr ⟨_, Multiset.mem_add.2 (.inr (Multiset.mem_singleton_self _)), ?_⟩
      exact lt_above (f := fun o : Option _ => o.elim t.work fun x => (k x).work) (i := none) hy
  | _, .race _ _ body _, w, y, hy => by
    rcases lt_of_mem_workOf_drop body w y hy with hy | ⟨z, hz, hlt⟩
    · exact .inl hy
    · exact .inr ⟨z, by simp [work, hz], hlt⟩
  | _, .done _, _, _, hy | _, .step _ _, _, _, hy | _, .await _ _, _, _, hy
  | _, .pause _ _, _, _, hy | _, .settle _, _, _, hy | _, .spawn _ _, _, _, hy => .inl hy

/-- **A move takes from the work**: what is left and what is started make up for less than there
was. -/
theorem Moves.less {α : Type} {c c' : Coroutine σ α} {s s' : σ} {ts : List (Coroutine σ Unit)}
    (h : Moves c s c' s' ts) : IsDershowitzMannaLT (c'.work + workOf ts) c.work := by
  induction h with
  | @step _ _ f k s => simpa [work] using less_above (fun r => (k r).work) (f s).1
  | @await _ _ k => simpa [work] using less_above (fun _ : Unit => k.work) ()
  | @pause _ k =>
    simpa [work] using less_above (fun _ : Unit => {above fun _ : Unit => k.work}) ()
  | @resume _ k => simpa [work] using less_above (fun _ : Unit => k.work) ()
  | @settle _ k => simpa [work] using less_above (fun _ : Unit => k.work) ()
  | @left _ _ _ l l' r k _ _ ts _ ih =>
    have h := less_add (r.work + {above fun p : _ × _ => (k p.1 p.2).work}) ih
    rw [work, work]
    convert h using 1 <;> abel
  | @right _ _ _ l r r' k _ _ ts _ ih =>
    have h := less_add (l.work + {above fun p : _ × _ => (k p.1 p.2).work}) ih
    rw [work, work]
    convert h using 1 <;> abel
  | @joined _ _ _ x y k _ =>
    simpa [work] using less_above (fun p : _ × _ => (k p.1 p.2).work) (x, y)
  | @member _ _ _ members _ k i c' _ _ ts _ ih =>
    have h := less_add (∑ j ∈ Finset.univ.erase i, (members j).work + {above fun xs => (k xs).work}) ih
    have hsame : ∑ j ∈ Finset.univ.erase i, (Function.update members i c' j).work =
        ∑ j ∈ Finset.univ.erase i, (members j).work :=
      Finset.sum_congr rfl fun j hj => by rw [Function.update_of_ne (Finset.ne_of_mem_erase hj)]
    rw [work, work, ← Finset.add_sum_erase _ _ (Finset.mem_univ i),
      ← Finset.add_sum_erase _ (fun j => (members j).work) (Finset.mem_univ i), hsame,
      Function.update_self]
    convert h using 1 <;> abel
  | @gathered _ _ _ members _ k xs _ hall =>
    simpa [work, hall] using less_above (fun xs => (k xs).work) (List.ofFn xs)
  | @inside _ _ _ rescue body body' k _ _ _ _ ih =>
    cases rescue with
    | none =>
      have h := less_add {above fun x => (k x).work} ih
      rw [work, work]
      convert h using 1; abel
    | some t =>
      have h := less_add {above fun o : Option _ => o.elim t.work fun x => (k x).work} ih
      rw [work, work]
      convert h using 1; abel
  | @leave _ _ _ rescue x k _ =>
    cases rescue with
    | none => simpa [work] using less_above (fun x => (k x).work) x
    | some t =>
      simpa [work] using less_above (fun o : Option _ => o.elim t.work fun x => (k x).work) (some x)
  | @racing _ _ _ _ _ _ k _ _ _ _ ih =>
    have h := less_add {above fun o => (k o).work} ih
    rw [work, work]
    convert h using 1; abel
  | @won _ _ _ _ x k => simpa [work] using less_above (fun o => (k o).work) (some x)
  | @lost _ _ _ takeDown body k s _ _ =>
    -- here more may be started than there was, but each rescue is less than some of the body
    rw [work]
    refine ⟨0, _, _, by simp, (zero_add _).symm, (zero_add _).symm, fun y hy => ?_⟩
    rcases Multiset.mem_add.1 hy with hy | hy
    · refine ⟨_, Multiset.mem_add.2 (.inr (Multiset.mem_singleton_self _)), ?_⟩
      exact lt_above (f := fun o => (k o).work) hy
    · rcases lt_of_mem_workOf_drop body _ y hy with hy | ⟨z, hz, hlt⟩
      · simp [Turn.start] at hy
      · exact ⟨z, Multiset.mem_add.2 (.inl hz), hlt⟩
  | @spawn _ t k =>
    simpa [work, add_comm] using less_above (fun _ : Unit => t.work + k.work) ()

/-- The order within a crowd does not count as work. -/
theorem Reordered.work_eq {α : Type} {c c' : Coroutine σ α} (h : Reordered c c') :
    c'.work = c.work := by
  induction h with
  | refl => rfl
  | order _ => rfl
  | @member _ _ _ members _ _ i c' _ ih =>
    rw [work, work]
    congr 1
    refine Finset.sum_congr rfl fun j _ => ?_
    by_cases hj : j = i
    · subst hj
      rw [Function.update_self, ih]
    · rw [Function.update_of_ne hj]
  | left _ ih => rw [work, work, ih]
  | right _ ih => rw [work, work, ih]
  | @inside _ _ _ rescue _ _ _ _ ih => cases rescue <;> rw [work, work, ih]
  | racing _ ih => rw [work, work, ih]

/-! ## Progress -/

namespace Ensemble

variable {α ε : Type} {others time : σ → σ → Prop} {note : σ → σ → List ε}
  {P : List ε → Ensemble σ α → Prop} {p q : Ensemble σ α}

/-- The work that the members of an ensemble have left. -/
noncomputable def work (p : Ensemble σ α) : Multiset Ordinal.{0} :=
  (p.callers.map Coroutine.work).sum + workOf p.tasks

theorem Advances.less (h : Advances p q) : IsDershowitzMannaLT q.work p.work := by
  cases h with
  | @caller s s' l r c c' tasks ts hmove =>
    have h := less_add ((l.map Coroutine.work).sum + (r.map Coroutine.work).sum + workOf tasks)
      hmove.less
    convert h using 1 <;> simp [work] <;> abel
  | @task s s' callers l r ts c c' hmove =>
    have h := less_add ((callers.map Coroutine.work).sum + (workOf l + workOf r)) hmove.less
    convert h using 1 <;> simp [work] <;> abel

theorem Idles.work_eq (h : Idles others p q) : q.work = p.work := by
  cases h with
  | others _ => rfl
  | caller h => simp [work, h.work_eq]
  | task h => simp [work, h.work_eq]

/-- `P` comes about in every interleaving from here on in which members go on at all: it holds now,
or somebody can go on, at least after some time, and whoever goes on first, after whatever others
do, it comes about from there. -/
inductive Inevitable (others time : σ → σ → Prop) (note : σ → σ → List ε)
    (P : List ε → Ensemble σ α → Prop) : List ε → Ensemble σ α → Prop
  | now {es : List ε} {p : Ensemble σ α} : P es p → Inevitable others time note P es p
  | later {es : List ε} {p : Ensemble σ α} :
      (∃ s r, Relation.ReflTransGen time p.state s ∧ Advances { p with state := s } r) →
      (∀ fs q r, Runs (Idles others) note p fs q → Advances q r →
        Inevitable others time note P (es ++ fs ++ note q.state r.state) r) →
      Inevitable others time note P es p

/-- **What must hold when nobody can go on comes about.** An invariant under which either `P` holds
or somebody can go on makes `P` inevitable, since no interleaving has infinitely many moves. -/
theorem inevitable_of_progress {I : List ε → Ensemble σ α → Prop}
    (hstep : ∀ es p q, I es p → Goes others p q → I (es ++ note p.state q.state) q)
    (hprogress : ∀ es p, I es p →
      P es p ∨ ∃ s r, Relation.ReflTransGen time p.state s ∧ Advances { p with state := s } r)
    {es : List ε} (hp : I es p) : Inevitable others time note P es p := by
  have hwf := Multiset.wellFounded_isDershowitzMannaLT (α := Ordinal.{0})
  induction hwork : p.work using hwf.induction generalizing es p with
  | h W ih =>
    subst hwork
    rcases hprogress es p hp with hP | hgo
    · exact .now hP
    · refine .later hgo fun fs q r hidle hadvance => ?_
      have hq : I (es ++ fs) q ∧ q.work = p.work := by
        refine hidle.keeps (I := fun fs q => I fs q ∧ q.work = p.work) ⟨hp, rfl⟩ ?_
        rintro es p q ⟨hI, hwork⟩ hgo
        exact ⟨hstep _ _ _ hI (.inr hgo), hgo.work_eq.trans hwork⟩
      exact ih _ (hq.2 ▸ hadvance.less) (hstep _ _ _ hq.1 (.inl hadvance)) rfl

end Ensemble

end Coroutine

end SqlClient
