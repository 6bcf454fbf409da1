import SqlClient.Proofs.Coroutine.Trails
/-!
# Coroutines — results that are joined

Code that waits for other code and then only looks at its results. It has the trail of what it
waits for (`Trail.bind_done`), and it is done in the same turn as this (`poll_bind`). Members that
run side by side are done in one turn once each of them is (`Beside.poll_done`).
-/

namespace SqlClient

namespace Coroutine

variable {σ ι α β : Type} {note : σ → σ → List ι} {w w' : σ × Nat} {es : List (ι × Nat)}

/-! ## Trails -/

/-- Code that only looks at the result of other code has the trail of this. -/
theorem Trail.bind_done {c : Coroutine σ β} {g : β → α} {d : Coroutine σ α}
    (hstill : ∀ s, note s s = []) (h : Trail note (c.bind fun b => .done (g b)) w es d w') :
    ∃ c', Trail note c w es c' w' ∧ d = c'.bind fun b => .done (g b) := by
  rcases h.cases_bind with hc | ⟨b, es₁, w₁, es₂, hc, hd, rfl⟩
  · exact hc
  · obtain ⟨rfl, rfl⟩ := hd.of_done hstill
    rw [List.append_nil]
    exact ⟨.done b, hc.others hd.places.1, rfl⟩

theorem Trails.length_eq {cs cs' : List (Coroutine σ α)} {ess : List (List (ι × Nat))}
    (h : Trails note w w' cs ess cs') : cs'.length = cs.length := by
  induction h with
  | nil => rfl
  | cons _ _ ih => exact congrArg (· + 1) ih

/-! ## Turns -/

/-- A turn in which the first of two parts finishes goes on with the second. -/
theorem poll_bind {f : α → Coroutine σ β} {a : α} : ∀ {c : Coroutine σ α} {w w' : Turn σ},
    c.poll w = (.done a, w') → (c.bind f).poll w = (f a).poll w'
  | .done _, _, _, h => by cases h; rfl
  | .step _ k, _, _, h => poll_bind (c := k _) h
  | .await ready k, w, _, h => by
    rw [poll] at h
    -- the first part has finished in this turn, so it was not left waiting here
    split at h
    case isTrue hready =>
      rw [bind, poll, if_pos hready]
      exact poll_bind h
    case isFalse => cases h
  | .pause true k, _, _, h => poll_bind (c := k) h
  | .pause false _, _, _, h => by cases h
  | .settle k, w, _, h => by
    rw [poll] at h
    split at h
    case isTrue => cases h
    case isFalse hidle =>
      rw [bind, poll, if_neg hidle]
      exact poll_bind h
  | .both l r k, w, _, h => by
    rw [poll] at h
    rw [bind, poll]
    dsimp only at h ⊢
    split at h
    case h_1 => exact poll_bind h
    case h_2 => cases h
  | .crowd members order k, w, _, h => by
    rw [poll] at h
    rw [bind, poll]
    split at h
    case h_1 => exact poll_bind h
    case h_2 => cases h
  | .guarded cleanup rescue body k, w, _, h => by
    rw [poll] at h
    rw [bind, poll]
    split at h
    case h_1 => exact poll_bind h
    case h_2 => cases h
  | .race signal takeDown body k, w, _, h => by
    rw [poll] at h
    rw [bind, poll]
    split at h
    case h_1 => exact poll_bind h
    case h_2 =>
      split at h
      case isTrue hsignal =>
        rw [if_pos hsignal]
        exact poll_bind h
      case isFalse => cases h
  | .spawn _ k, _, _, h => poll_bind (c := k) h

/-- A visit to members that have finished leaves them as they are. -/
theorem visits_done {n : Nat} (results : Fin n → β) (order : List (Fin n)) (t : CrowdTurn σ β n)
    (ht : t.members = .ofFn fun i => .done (results i)) :
    (order.foldl (CrowdTurn.visit fun i w => (Coroutine.done (results i)).poll w) t).members =
      .ofFn fun i => .done (results i) := by
  induction order generalizing t with
  | nil => exact ht
  | cons i order ih =>
    refine ih _ ?_
    rw [CrowdTurn.visit, poll, ht]
    ext j hj
    rw [Vector.getElem_set]
    split
    · next hij =>
      subst hij
      simp
    · rfl

theorem mapM_result?_done (as : List β) :
    (as.map (Coroutine.done (σ := σ))).mapM result? = some as := by
  induction as with
  | nil => rfl
  | cons a as ih => simp [List.mapM_cons, ih]

/-- **Members that have all finished are joined within a turn.** -/
theorem Beside.poll_done {as : List β} {c : Coroutine σ (List β)} (h : Beside (as.map .done) c)
    (w : Turn σ) : ∃ w', c.poll w = (.done as, w') := by
  generalize hcs : as.map Coroutine.done = cs at h
  induction h generalizing as w with
  | nobody =>
    obtain rfl := List.map_eq_nil_iff.1 hcs
    exact ⟨w, rfl⟩
  | first _ ih =>
    obtain ⟨a, as, rfl, rfl, rfl⟩ := List.map_eq_cons_iff.1 hcs
    obtain ⟨w', hpoll⟩ := ih w rfl
    refine ⟨w', ?_⟩
    simp only [poll, hpoll]
  | crowd =>
    rename_i n members order
    have hmap : (List.ofFn members).mapM result? = some as := hcs ▸ mapM_result?_done as
    obtain ⟨results, hmembers, rfl⟩ := results_of_mapM hmap
    obtain rfl : members = fun i => .done (results i) := funext hmembers
    -- a visit to somebody who has finished changes nothing
    have hvisits := visits_done results order ⟨.ofFn fun i => .done (results i), [], [], w⟩ rfl
    rw [poll]
    generalize order.foldl _ _ = t at hvisits ⊢
    have hall : t.members.toList.mapM result? = some (List.ofFn results) := by
      rw [hvisits, Vector.toList_ofFn]
      exact hmap
    refine ⟨t.turn, ?_⟩
    simp only [hall, poll]
  | results =>
    obtain rfl := (List.map_inj_right fun _ _ h => Coroutine.done.inj h).1 hcs
    exact ⟨w, rfl⟩

end Coroutine

end SqlClient
