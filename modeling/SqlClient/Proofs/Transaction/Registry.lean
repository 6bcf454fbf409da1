import Mathlib.Data.List.Basic
import SqlClient.Proofs.Transaction.Stages
/-!
# Transactions — which scopes have ended

The visits of an assembly are its scopes: the scope of the visit at place `p` has the mark `p`, behind
the marks of the scopes around it, and the mark is set once the operation has been left (`Registered`).
So a client of a scope is refused iff the operation of a scope that encloses it has been left
(`Registered.isOpen_iff`).
-/

namespace SqlClient

open Coroutine

variable {β α : Type}

/-- A future by what it comes through and how far it has come. -/
structure Member where
  scope? : Option Scope
  stage : Stage

/-- The visit at a place. -/
def Store.visitAt (s : Store (Watched β α)) (place : Nat) : Option (Visit α) := s.backend.visits[place]?

/-- What the record of visits says of a future in a stage. -/
def Stage.Registered (s : Store (Watched β α)) (owner : Nat) (scope? : Option Scope) : Stage → Prop
  | .going (.before connection) _ =>
    (∀ n, connection = some n → n ≤ s.attempts) ∧
      (∀ scope, scope? = some scope → connection = some scope.connection) ∧
      ∀ v ∈ s.backend.visits, v.owner ≠ owner
  | .admitted =>
    (∃ scope, scope? = some scope ∧ s.isOpen scope = true) ∧ ∀ v ∈ s.backend.visits, v.owner ≠ owner
  | .opened scope =>
    scope.marks = marksOf scope? ++ [s.backend.visits.length] ∧ scope.connection ≤ s.attempts ∧
      (∀ parent, scope? = some parent → scope.connection = parent.connection) ∧
      ∀ v ∈ s.backend.visits, v.owner ≠ owner
  | .inside place tx | .told place tx => s.visitAt place = some ⟨owner, tx, none⟩
  | .left place tx => ∃ departure, s.visitAt place = some ⟨owner, tx, some departure⟩
  | .going (.after tx) _ => ∃ place departure,
      s.visitAt place = some ⟨owner, tx, some departure⟩ ∧ s.ended[place]? = some true

/-- The record of visits, the marks and the futures agree. The stage of whoever has its turn is
`moving`. -/
structure Registered (moving : Stage) (members : List Member) (s : Store (Watched β α)) : Prop where
  /-- Scopes are nested, and share the connection of their root. -/
  nested : ∀ place v, s.visitAt place = some v → ∃ scope, v.client.scope = some scope ∧
    scope.connection ≤ s.attempts ∧ (scope.marks = [place] ∨ ∃ around u parent, around < place ∧
      s.visitAt around = some u ∧ u.client.scope = some parent ∧
      scope.marks = parent.marks ++ [place] ∧ scope.connection = parent.connection)
  /-- A scope has ended when its operation has been left. -/
  ended : ∀ place v, s.visitAt place = some v → s.ended[place]? = some v.departure.isSome ∨
    (∃ tx, moving = .left place tx) ∧ s.ended[place]? = some false
  fresh : (∀ scope, moving ≠ .opened scope) ∧ s.ended.length = s.backend.visits.length ∨
    (∃ scope, moving = .opened scope) ∧ s.ended.length = s.backend.visits.length + 1 ∧
      s.ended[s.backend.visits.length]? = some false
  decisions : s.backend.decisions.length = s.backend.visits.length
  owners : ∀ place place' v v', s.visitAt place = some v → s.visitAt place' = some v' →
    v.owner = v'.owner → place = place'
  bounded : ∀ v ∈ s.backend.visits, v.owner < members.length
  atHand : ∀ m ∈ members, ∀ scope, m.scope? = some scope →
    ∃ place v, s.visitAt place = some v ∧ v.client.scope = some scope
  stages : ∀ (i : Nat) (m : Member), members[i]? = some m → m.stage.Registered s i m.scope?

variable {s s' : Store (Watched β α)} {members : List Member} {moving : Stage}

/-! ## Nesting -/

/-- **The marks of a scope are the places of the scopes around it**, which have marks that are prefixes
of its own, and the same connection. -/
theorem Registered.ancestor (h : Registered moving members s) {place : Nat} {v : Visit α}
    {scope : Scope} (hv : s.visitAt place = some v) (hscope : v.client.scope = some scope) {mark : Nat}
    (hmark : mark ∈ scope.marks) : ∃ u around, s.visitAt mark = some u ∧ u.client.scope = some around ∧
      around.marks <+: scope.marks ∧ around.connection = scope.connection := by
  induction place using Nat.strongRecOn generalizing v scope with
  | ind place ih =>
    obtain ⟨scope', hscope', -, hroot | ⟨around, u, parent, hlt, hu, hparent, hmarks, hconnection⟩⟩ :=
      h.nested place v hv
    · obtain rfl : scope' = scope := Option.some.inj (hscope'.symm.trans hscope)
      rw [hroot, List.mem_singleton] at hmark
      subst hmark
      exact ⟨v, _, hv, hscope, List.prefix_refl _, rfl⟩
    · obtain rfl : scope' = scope := Option.some.inj (hscope'.symm.trans hscope)
      rw [hmarks] at hmark
      rcases List.mem_append.1 hmark with hmark | hmark
      · obtain ⟨w, outer, hw, houter, hwithin, hsame⟩ := ih around hlt hu hparent hmark
        refine ⟨w, outer, hw, houter, hwithin.trans ?_, hsame.trans hconnection.symm⟩
        rw [hmarks]
        exact List.prefix_append _ _
      · rw [List.mem_singleton] at hmark
        subst hmark
        exact ⟨v, _, hv, hscope, List.prefix_refl _, rfl⟩

/-- The last mark of a scope is its place. -/
theorem Registered.getLast_marks (h : Registered moving members s) {place : Nat} {v : Visit α}
    {scope : Scope} (hv : s.visitAt place = some v) (hscope : v.client.scope = some scope) :
    scope.marks.getLast? = some place := by
  obtain ⟨scope', hscope', -, hroot | ⟨around, u, parent, -, -, -, hmarks, -⟩⟩ := h.nested place v hv
  · obtain rfl : scope' = scope := Option.some.inj (hscope'.symm.trans hscope)
    rw [hroot]
    rfl
  · obtain rfl : scope' = scope := Option.some.inj (hscope'.symm.trans hscope)
    rw [hmarks, List.getLast?_append]
    rfl

/-- A scope encloses whoever has its place among their marks. -/
theorem Registered.place_mem (h : Registered moving members s) {place : Nat} {v : Visit α}
    (hv : s.visitAt place = some v) {marks : List Nat} (hwithin : v.client.marks <+: marks) :
    place ∈ marks := by
  obtain ⟨scope, hscope, -, -⟩ := h.nested place v hv
  have hmarks : v.client.marks = scope.marks := by rw [Client.marks, hscope]; rfl
  exact (hmarks ▸ hwithin).subset (List.mem_of_getLast? (h.getLast_marks hv hscope))

/-- Between the opening of scopes, there are as many marks as visits. -/
theorem Registered.length_ended (h : Registered moving members s) (hopened : ∀ scope, moving ≠ .opened scope) :
    s.ended.length = s.backend.visits.length :=
  (h.fresh.resolve_right fun ⟨⟨scope, hscope⟩, _⟩ => hopened scope hscope).2

/-- A mark is set iff the operation has been left, unless it has been left just now. -/
theorem Registered.ended_eq (h : Registered moving members s) {place : Nat} {v : Visit α}
    (hv : s.visitAt place = some v) (hleft : ∀ tx, moving ≠ .left place tx) :
    s.ended[place]? = some v.departure.isSome :=
  (h.ended place v hv).resolve_right fun ⟨⟨tx, htx⟩, _⟩ => hleft tx htx

/-- A scope that encloses another shares its connection. -/
theorem Registered.connection_eq (h : Registered moving members s) {place place' : Nat} {v v' : Visit α}
    {outer inner : Scope} (hv : s.visitAt place = some v) (houter : v.client.scope = some outer)
    (hv' : s.visitAt place' = some v') (hinner : v'.client.scope = some inner)
    (hwithin : v.client.marks <+: inner.marks) : outer.connection = inner.connection := by
  obtain ⟨u, around, hu, haround, -, hsame⟩ := h.ancestor hv' hinner (h.place_mem hv hwithin)
  obtain rfl : v = u := Option.some.inj (hv.symm.trans hu)
  obtain rfl : outer = around := Option.some.inj (houter.symm.trans haround)
  exact hsame

/-- **A client is refused iff the operation of a scope that encloses it has been left.** -/
theorem Registered.isOpen_iff (h : Registered moving members s) (hrests : moving.Rests) {place : Nat}
    {v : Visit α} {scope : Scope} (hv : s.visitAt place = some v)
    (hscope : v.client.scope = some scope) : s.isOpen scope = true ↔
      ∀ u ∈ s.backend.visits, u.client.marks <+: scope.marks → u.departure = none := by
  have hended (mark : Nat) (u : Visit α) (hu : s.visitAt mark = some u) :
      s.ended.getD mark true = u.departure.isSome := by
    rcases h.ended mark u hu with hended | ⟨⟨tx, rfl⟩, -⟩
    · rw [List.getD_eq_getElem?_getD, hended]
      rfl
    · exact hrests.elim
  rw [Store.isOpen, List.all_eq_true]
  constructor
  · intro hopen u hu hwithin
    obtain ⟨mark, hmark⟩ := List.mem_iff_getElem?.1 hu
    have hnone := hopen mark (h.place_mem hmark hwithin)
    rw [hended mark u hmark] at hnone
    simpa using hnone
  · intro hall mark hmark
    obtain ⟨u, around, hu, haround, hwithin, -⟩ := h.ancestor hv hscope hmark
    have hmarks : u.client.marks = around.marks := by rw [Client.marks, haround]; rfl
    have hnone := hall u (List.mem_of_getElem? hu) (hmarks ▸ hwithin)
    rw [hended mark u hu, hnone]
    rfl

/-! ## What acts keep -/

/-- A stage in which the record of visits and the marks agree. -/
def Stage.Agrees : Stage → Prop
  | .opened _ | .left _ _ => False
  | _ => True

/-- Of a stage in which others may have their turns, what the record says stays true as long as the
visits of its owner stay as they are. -/
theorem Stage.Registered.of_rests {stage : Stage} {owner : Nat} {scope? : Option Scope}
    (h : stage.Registered s owner scope?) (hrests : stage.Rests) (hattempts : s.attempts ≤ s'.attempts)
    (hkept : ∀ place v, s.visitAt place = some v → v.owner = owner → s'.visitAt place = some v)
    (hnew : ∀ v ∈ s'.backend.visits, v.owner = owner → ∃ u ∈ s.backend.visits, u.owner = owner)
    (hended : ∀ place : Nat, s.ended[place]? = some true → s'.ended[place]? = some true) :
    stage.Registered s' owner scope? := by
  cases stage with
  | going part line =>
    cases part with
    | before connection =>
      obtain ⟨hconnection, hscope, hnone⟩ := h
      refine ⟨fun n hn => Nat.le_trans (hconnection n hn) hattempts, hscope, fun v hv howner => ?_⟩
      obtain ⟨u, hu, hsame⟩ := hnew v hv howner
      exact hnone u hu hsame
    | after tx =>
      obtain ⟨place, departure, hvisit, hmark⟩ := h
      exact ⟨place, departure, hkept _ _ hvisit rfl, hended _ hmark⟩
  | inside place tx => exact hkept _ _ h rfl
  | admitted => exact hrests.elim
  | opened scope => exact hrests.elim
  | told place tx => exact hrests.elim
  | left place tx => exact hrests.elim

/-- What the record says depends on the visits and the marks alone. -/
theorem Stage.Registered.of_same {stage : Stage} {owner : Nat} {scope? : Option Scope}
    (h : stage.Registered s owner scope?) (hattempts : s.attempts ≤ s'.attempts)
    (hvisits : s'.backend.visits = s.backend.visits) (hended : s'.ended = s.ended) :
    stage.Registered s' owner scope? := by
  have hopen (scope : Scope) : s'.isOpen scope = s.isOpen scope := by rw [Store.isOpen, Store.isOpen, hended]
  cases stage with
  | going part line =>
    cases part with
    | before connection =>
      obtain ⟨hconnection, hscope, hnone⟩ := h
      exact ⟨fun n hn => Nat.le_trans (hconnection n hn) hattempts, hscope, by rwa [hvisits]⟩
    | after tx =>
      obtain ⟨place, departure, hvisit, hmark⟩ := h
      exact ⟨place, departure, by rwa [Store.visitAt, hvisits], by rwa [hended]⟩
  | admitted =>
    obtain ⟨⟨scope, hscope, hscopeOpen⟩, hnone⟩ := h
    exact ⟨⟨scope, hscope, by rwa [hopen]⟩, by rwa [hvisits]⟩
  | opened scope =>
    obtain ⟨hmarks, hconnection, hparent, hnone⟩ := h
    exact ⟨by rwa [hvisits], Nat.le_trans hconnection hattempts, hparent, by rwa [hvisits]⟩
  | inside place tx => exact (congrArg (·[place]?) hvisits).trans h
  | told place tx => exact (congrArg (·[place]?) hvisits).trans h
  | left place tx =>
    obtain ⟨departure, hvisit⟩ := h
    exact ⟨departure, (congrArg (·[place]?) hvisits).trans hvisit⟩

/-! ## Others -/

section Others

variable {γ : Type*} {l : List γ} {i j : Nat} {a x : γ}

/-- Where one has changed, there is the one that has changed, or another as it was. -/
theorem getElem?_set_cases (h : (l.set i a)[j]? = some x) :
    j = i ∧ x = a ∨ j ≠ i ∧ l[j]? = some x := by
  rw [List.getElem?_set] at h
  split at h
  case isTrue heq =>
    split at h
    · exact .inl ⟨heq.symm, (Option.some.inj h).symm⟩
    · cases h
  case isFalse hne => exact .inr ⟨Ne.symm hne, h⟩

/-- Where one has come, there is one who was there before, or the one who has come. -/
theorem getElem?_concat_cases (h : (l ++ [a])[j]? = some x) :
    l[j]? = some x ∨ j = l.length ∧ x = a := by
  rw [List.getElem?_append] at h
  split at h
  case isTrue => exact .inl h
  case isFalse hge =>
    rw [List.getElem?_singleton] at h
    obtain ⟨hzero, rfl⟩ := Option.ite_some_none_eq_some.1 h
    exact .inr ⟨by omega, rfl⟩

end Others

variable {i : Nat} {m : Member} {stage' : Stage} {polled : Bool}

/-- What becomes of the stages when one future goes on to another. -/
theorem stages_set {scope? : Option Scope} (hstages : ∀ (j : Nat) (x : Member), members[j]? = some x →
      j ≠ i → x.stage.Registered s' j x.scope?) (hstage : stage'.Registered s' i scope?) (j : Nat)
    (x : Member) (hx : (members.set i ⟨scope?, stage'⟩)[j]? = some x) :
    x.stage.Registered s' j x.scope? := by
  rcases getElem?_set_cases hx with ⟨rfl, rfl⟩ | ⟨hne, hx⟩
  · exact hstage
  · exact hstages j x hx hne

/-- What concerns neither visits nor marks keeps the record, whoever is there. -/
theorem Registered.of_same {moving moving' : Stage} {members' : List Member}
    (h : Registered moving members s) (hattempts : s.attempts ≤ s'.attempts)
    (hvisits : s'.backend.visits = s.backend.visits) (hended : s'.ended = s.ended)
    (hdecisions : s'.backend.decisions.length = s.backend.decisions.length)
    (hleft : ∀ place tx, moving = .left place tx → moving' = .left place tx)
    (hopened : ∀ scope, moving = .opened scope ↔ moving' = .opened scope)
    (hlength : members.length ≤ members'.length)
    (hscopes : ∀ x ∈ members', ∀ scope, x.scope? = some scope →
      ∃ place v, s.visitAt place = some v ∧ v.client.scope = some scope)
    (hstages : ∀ (i : Nat) (m : Member), members'[i]? = some m → m.stage.Registered s' i m.scope?) :
    Registered moving' members' s' := by
  have hvisitAt (place : Nat) : s'.visitAt place = s.visitAt place := congrArg (·[place]?) hvisits
  -- the record speaks of visits, marks and members only, and none of the first two has changed
  constructor
  case nested =>
    intro place v hv
    rw [hvisitAt] at hv
    obtain ⟨scope, hscope, hconnection, hrest⟩ := h.nested place v hv
    refine ⟨scope, hscope, Nat.le_trans hconnection hattempts, ?_⟩
    simpa only [hvisitAt] using hrest
  case ended =>
    intro place v hv
    rw [hvisitAt] at hv
    rw [hended]
    exact (h.ended place v hv).imp_right fun ⟨⟨tx, htx⟩, hfalse⟩ => ⟨⟨tx, hleft place tx htx⟩, hfalse⟩
  case fresh =>
    rw [hended, hvisits]
    refine h.fresh.imp (fun ⟨hnone, hlength⟩ => ⟨fun scope hscope => ?_, hlength⟩)
      fun ⟨⟨scope, hscope⟩, hrest⟩ => ⟨⟨scope, (hopened scope).1 hscope⟩, hrest⟩
    exact hnone scope ((hopened scope).2 hscope)
  case decisions => rw [hdecisions, hvisits, h.decisions]
  case owners =>
    intro place place' v v' hv hv'
    rw [hvisitAt] at hv hv'
    exact h.owners place place' v v' hv hv'
  case bounded =>
    rw [hvisits]
    exact fun v hv => Nat.lt_of_lt_of_le (h.bounded v hv) hlength
  case atHand => simpa only [hvisitAt] using hscopes
  case stages => exact hstages

namespace Store

variable {owner place p : Nat} {tx : Client} {departure : Departure α} {u v : Visit α}

/-- A visit that begins leaves the others where they are. -/
theorem visitAt_enter (hv : s.visitAt p = some v) : (s.enter owner tx).2.visitAt p = some v := by
  change (s.backend.visits ++ [_])[p]? = some v
  rw [List.getElem?_append_left (List.getElem?_eq_some_iff.1 hv).1]
  exact hv

theorem visitAt_enter_self (s : Store (Watched β α)) (owner : Nat) (tx : Client) :
    (s.enter owner tx).2.visitAt s.backend.visits.length = some ⟨owner, tx, none⟩ := by
  change (s.backend.visits ++ [_])[s.backend.visits.length]? = _
  rw [List.getElem?_append_right (Nat.le_refl _), Nat.sub_self]
  rfl

theorem mem_visits_enter (hv : v ∈ (s.enter owner tx).2.backend.visits) :
    v ∈ s.backend.visits ∨ v = ⟨owner, tx, none⟩ :=
  (List.mem_append.1 hv).imp_right List.mem_singleton.1

/-- When a visit is left, its departure is noted. -/
theorem visitAt_depart (s : Store (Watched β α)) (place : Nat) (departure : Departure α) (p : Nat) :
    (s.depart place departure).visitAt p =
      (s.visitAt p).map fun v => if p = place then { v with departure := some departure } else v := by
  change (s.backend.visits.modify place _)[p]? = _
  rw [List.getElem?_modify]
  by_cases hp : p = place
  · subst hp
    simp [Store.visitAt]
  · simp [Store.visitAt, hp, Ne.symm hp]

/-- Whose visit it is stays as it was. -/
theorem visitAt_depart_cases (hv : (s.depart place departure).visitAt p = some v) :
    ∃ u, s.visitAt p = some u ∧ v.client = u.client ∧ v.owner = u.owner ∧
      (p = place ∧ v.departure = some departure ∨ p ≠ place ∧ v = u) := by
  rw [visitAt_depart] at hv
  obtain ⟨u, hu, rfl⟩ := Option.map_eq_some_iff.1 hv
  by_cases hp : p = place
  · rw [if_pos hp]
    exact ⟨u, hu, rfl, rfl, .inl ⟨hp, rfl⟩⟩
  · rw [if_neg hp]
    exact ⟨u, hu, rfl, rfl, .inr ⟨hp, rfl⟩⟩

theorem exists_visitAt_depart (hu : s.visitAt p = some u) :
    ∃ v, (s.depart place departure).visitAt p = some v ∧ v.client = u.client := by
  refine ⟨_, by rw [visitAt_depart, hu]; rfl, ?_⟩
  split <;> rfl

theorem mem_visits_depart (hv : v ∈ (s.depart place departure).backend.visits) :
    ∃ u ∈ s.backend.visits, u.owner = v.owner := by
  obtain ⟨p, hp⟩ := List.mem_iff_getElem?.1 hv
  obtain ⟨u, hu, -, howner, -⟩ := visitAt_depart_cases hp
  exact ⟨u, List.mem_of_getElem? hu, howner.symm⟩

end Store

section Turn

variable (h : Registered m.stage members s) (hi : members[i]? = some m)

include h hi

/-- Whoever goes on to another stage comes through the same scope. -/
theorem Registered.scopes_set (x : Member) (hx : x ∈ members.set i ⟨m.scope?, stage'⟩) (scope : Scope)
    (hscope : x.scope? = some scope) : ∃ place v, s.visitAt place = some v ∧ v.client.scope = some scope := by
  rcases List.mem_or_eq_of_mem_set hx with hx | rfl
  · exact h.atHand x hx scope hscope
  · exact h.atHand m (List.mem_of_getElem? hi) scope hscope

variable (hothers : ∀ (j : Nat) (x : Member), members[j]? = some x → j ≠ i → x.stage.Rests)

include hothers

/-- A scope is opened: it has the next mark. -/
theorem Registered.opens {n transactions : Nat} {scope : Scope} {line : Line}
    (hstage : m.stage = .going (.before (some n)) line)
    (hmarks : scope.marks = marksOf m.scope? ++ [s.ended.length]) (hconnection : scope.connection = n) :
    Registered (.opened scope) (members.set i ⟨m.scope?, .opened scope⟩)
      ({ s.openMark.2 with transactions } : Store (Watched β α)) := by
  have hown := h.stages i m hi
  rw [hstage] at hown
  obtain ⟨hle, hparent, hnone⟩ := hown
  have hlength : s.ended.length = s.backend.visits.length := h.length_ended (by simp [hstage])
  have hfalse : (s.ended ++ [false])[s.backend.visits.length]? = some false := by
    rw [← hlength, List.getElem?_append_right (Nat.le_refl _), Nat.sub_self]
    rfl
  have hsame (place : Nat) (b : Bool) (hb : s.ended[place]? = some b) :
      (s.ended ++ [false])[place]? = some b := by
    rwa [List.getElem?_append_left (List.getElem?_eq_some_iff.1 hb).1]
  -- the new mark has no visit yet: `fresh` tells of it, and the marks of the visits are as before
  constructor
  case nested => exact h.nested
  case ended =>
    intro place v hv
    exact .inl (hsame place _ (h.ended_eq hv (by simp [hstage])))
  case fresh => exact .inr ⟨⟨scope, rfl⟩, by simp [Store.openMark, hlength], hfalse⟩
  case decisions => exact h.decisions
  case owners => exact h.owners
  case bounded =>
    rw [List.length_set]
    exact h.bounded
  case atHand => exact h.scopes_set hi
  case stages =>
    refine stages_set (fun j x hx hne => (h.stages j x hx).of_rests (hothers j x hx hne)
      (Nat.le_refl _) (fun _ _ hv _ => hv) (fun v hv howner => ⟨v, hv, howner⟩) fun place => hsame place true) ?_
    refine ⟨by rw [hmarks, hlength]; rfl, hconnection ▸ hle n rfl, fun parent hscope => ?_, hnone⟩
    rw [hconnection]
    exact Option.some.inj (hparent parent hscope)

/-- The operation is called: the visit is at the place that the mark says. -/
theorem Registered.enter {scope : Scope} {tx : Client} (hstage : m.stage = .opened scope)
    (hscope : tx.scope = some scope) :
    Registered (.inside s.backend.visits.length tx)
      (members.set i ⟨m.scope?, .inside s.backend.visits.length tx⟩) (s.enter i tx).2 := by
  have hown := h.stages i m hi
  rw [hstage] at hown
  obtain ⟨hmarks, hconnection, hparent, hnone⟩ := hown
  obtain ⟨-, hlength, hfalse⟩ := h.fresh.resolve_left fun ⟨hnever, _⟩ => hnever scope hstage
  have hcases (place : Nat) (v : Visit α) (hv : (s.enter i tx).2.visitAt place = some v) :
      s.visitAt place = some v ∨ place = s.backend.visits.length ∧ v = ⟨i, tx, none⟩ :=
    getElem?_concat_cases hv
  constructor
  case nested =>
    intro place v hv
    rcases hcases place v hv with hv | ⟨rfl, rfl⟩
    · obtain ⟨inner, hinner, hle, hrest⟩ := h.nested place v hv
      refine ⟨inner, hinner, hle, hrest.imp_right ?_⟩
      rintro ⟨around, u, parent, hlt, hu, hrest⟩
      exact ⟨around, u, parent, hlt, Store.visitAt_enter hu, hrest⟩
    · refine ⟨scope, hscope, hconnection, ?_⟩
      -- the new scope is that of a root, or lies in the one through which its future comes
      cases hm : m.scope? with
      | none =>
        rw [hm] at hmarks
        exact .inl hmarks
      | some parent =>
        obtain ⟨around, u, hu, hsame⟩ := h.atHand m (List.mem_of_getElem? hi) parent hm
        rw [hm] at hmarks
        exact .inr ⟨around, u, parent, (List.getElem?_eq_some_iff.1 hu).1, Store.visitAt_enter hu, hsame,
          hmarks, hparent parent hm⟩
  case ended =>
    intro place v hv
    rcases hcases place v hv with hv | ⟨rfl, rfl⟩
    · exact .inl (h.ended_eq hv (by simp [hstage]))
    · exact .inl hfalse
  case fresh =>
    refine .inl ⟨?_, by simpa [Store.enter] using hlength⟩
    rintro _ ⟨⟩
  case decisions => simpa [Store.enter] using h.decisions
  case owners =>
    intro place place' v v' hv hv' howner
    rcases hcases place v hv with hv | ⟨rfl, rfl⟩
    · rcases hcases place' v' hv' with hv' | ⟨rfl, rfl⟩
      · exact h.owners place place' v v' hv hv' howner
      · exact absurd howner (hnone v (List.mem_of_getElem? hv))
    · rcases hcases place' v' hv' with hv' | ⟨rfl, rfl⟩
      · exact absurd howner.symm (hnone v' (List.mem_of_getElem? hv'))
      · rfl
  case bounded =>
    intro v hv
    rw [List.length_set]
    rcases Store.mem_visits_enter hv with hv | rfl
    · exact h.bounded v hv
    · exact (List.getElem?_eq_some_iff.1 hi).1
  case atHand =>
    intro x hx outer houter
    obtain ⟨place, v, hv, hsame⟩ := h.scopes_set hi x hx outer houter
    exact ⟨place, v, Store.visitAt_enter hv, hsame⟩
  case stages =>
    -- the others rest, and keep their visits: the new one has another owner
    refine stages_set (fun j x hx hne => (h.stages j x hx).of_rests (hothers j x hx hne)
      (Nat.le_refl _) (fun _ _ hv _ => Store.visitAt_enter hv) (fun v hv howner => ?_) fun _ h => h)
      (s.visitAt_enter_self i tx)
    rcases Store.mem_visits_enter hv with hv | rfl
    · exact ⟨v, hv, howner⟩
    · exact absurd howner.symm hne

/-- The operation is left: its mark is about to be set. -/
theorem Registered.depart {place : Nat} {tx : Client} (departure : Departure α)
    (hstage : m.stage = .inside place tx ∨ m.stage = .told place tx) :
    Registered (.left place tx) (members.set i ⟨m.scope?, .left place tx⟩) (s.depart place departure) := by
  have hown : s.visitAt place = some ⟨i, tx, none⟩ := by
    have hown := h.stages i m hi
    rcases hstage with hstage | hstage
    · rwa [hstage] at hown
    · rwa [hstage] at hown
  have hlength : s.ended.length = s.backend.visits.length := by
    refine h.length_ended ?_
    rcases hstage with hstage | hstage <;> simp [hstage]
  have hended (p : Nat) (v : Visit α) (hv : s.visitAt p = some v) :
      s.ended[p]? = some v.departure.isSome := by
    refine h.ended_eq hv ?_
    rcases hstage with hstage | hstage <;> simp [hstage]
  -- the visit has a departure now and its mark is still open: the one exception of `ended`
  constructor
  case nested =>
    intro p v hv
    obtain ⟨u, hu, hclient, -, -⟩ := Store.visitAt_depart_cases hv
    obtain ⟨scope, hscope, hle, hrest⟩ := h.nested p u hu
    refine ⟨scope, hclient ▸ hscope, hle, hrest.imp_right ?_⟩
    rintro ⟨around, w, parent, hlt, hw, hparent, hrest⟩
    obtain ⟨w', hw', hsame⟩ := Store.exists_visitAt_depart hw
    exact ⟨around, w', parent, hlt, hw', hsame ▸ hparent, hrest⟩
  case ended =>
    intro p v hv
    obtain ⟨u, hu, -, -, ⟨rfl, -⟩ | ⟨hp, rfl⟩⟩ := Store.visitAt_depart_cases hv
    · obtain rfl : u = ⟨i, tx, none⟩ := Option.some.inj (hu.symm.trans hown)
      exact .inr ⟨⟨tx, rfl⟩, hended _ _ hu⟩
    · exact .inl (hended _ _ hu)
  case fresh =>
    refine .inl ⟨?_, by simpa [Store.depart] using hlength⟩
    rintro _ ⟨⟩
  case decisions => simpa [Store.depart] using h.decisions
  case owners =>
    intro p p' v v' hv hv' howner
    obtain ⟨u, hu, -, hu', -⟩ := Store.visitAt_depart_cases hv
    obtain ⟨w, hw, -, hw', -⟩ := Store.visitAt_depart_cases hv'
    exact h.owners p p' u w hu hw (hu' ▸ hw' ▸ howner)
  case bounded =>
    intro v hv
    obtain ⟨u, hu, howner⟩ := Store.mem_visits_depart hv
    rw [List.length_set, ← howner]
    exact h.bounded u hu
  case atHand =>
    intro x hx scope hscope
    obtain ⟨p, v, hv, hsame⟩ := h.scopes_set hi x hx scope hscope
    obtain ⟨w, hw, hclient⟩ := Store.exists_visitAt_depart hv
    exact ⟨p, w, hw, hclient ▸ hsame⟩
  case stages =>
    refine stages_set (fun j x hx hne => (h.stages j x hx).of_rests (hothers j x hx hne)
      (Nat.le_refl _) (fun p v hv howner => ?_) (fun v hv howner => ?_) fun _ h => h) ⟨departure, ?_⟩
    · have hp : p ≠ place := by
        rintro rfl
        obtain rfl : v = ⟨i, tx, none⟩ := Option.some.inj (hv.symm.trans hown)
        exact hne howner.symm
      rw [Store.visitAt_depart, hv, Option.map_some, if_neg hp]
    · obtain ⟨u, hu, hsame⟩ := Store.mem_visits_depart hv
      exact ⟨u, hu, hsame.trans howner⟩
    · rw [Store.visitAt_depart, hown, Option.map_some, if_pos rfl]

/-- The scope ends: its mark is set. -/
theorem Registered.finish {place : Nat} {tx : Client} {scope : Scope}
    (hstage : m.stage = .left place tx) (hscope : tx.scope = some scope) :
    Registered (.going (.after tx) .away) (members.set i ⟨m.scope?, .going (.after tx) .away⟩)
      (s.endScope scope) := by
  have hown := h.stages i m hi
  rw [hstage] at hown
  obtain ⟨departure, hvisit⟩ := hown
  have hmark := h.getLast_marks hvisit hscope
  have hends : s.endScope scope = { s with ended := s.ended.set place true } := by
    rw [Store.endScope, hmark]
  have hlength : s.ended.length = s.backend.visits.length := h.length_ended (by simp [hstage])
  have hbound {p : Nat} {v : Visit α} (hv : s.visitAt p = some v) : p < s.ended.length :=
    hlength ▸ (List.getElem?_eq_some_iff.1 hv).1
  rw [hends]
  -- the mark of the visit is set, and agrees with its departure again
  constructor
  case nested => exact h.nested
  case ended =>
    intro p v hv
    by_cases hp : p = place
    · subst hp
      obtain rfl := Option.some.inj (hvisit.symm.trans hv)
      exact .inl (List.getElem?_set_self (hbound hv))
    · have hne : s.ended[p]? = some v.departure.isSome := h.ended_eq hv (by simp [hstage, Ne.symm hp])
      exact .inl ((List.getElem?_set_ne (Ne.symm hp)).trans hne)
  case fresh =>
    refine .inl ⟨?_, by simpa using hlength⟩
    rintro _ ⟨⟩
  case decisions => exact h.decisions
  case owners => exact h.owners
  case bounded =>
    rw [List.length_set]
    exact h.bounded
  case atHand => exact h.scopes_set hi
  case stages =>
    refine stages_set (fun j x hx hne => (h.stages j x hx).of_rests (hothers j x hx hne)
      (Nat.le_refl _) (fun _ _ hv _ => hv) (fun v hv howner => ⟨v, hv, howner⟩) fun p hp => ?_)
      ⟨place, departure, hvisit, List.getElem?_set_self (hbound hvisit)⟩
    by_cases hplace : p = place
    · subst hplace
      exact List.getElem?_set_self (hbound hvisit)
    · exact (List.getElem?_set_ne (Ne.symm hplace)).trans hp

omit hothers in
/-- A scope that has ended ends again: nothing changes. -/
theorem Registered.endScope_eq {tx : Client} {scope : Scope} {line : Line}
    (hstage : m.stage = .going (.after tx) line) (hscope : tx.scope = some scope) :
    s.endScope scope = s := by
  have hown := h.stages i m hi
  rw [hstage] at hown
  obtain ⟨place, departure, hvisit, hended⟩ := hown
  rw [Store.endScope, h.getLast_marks hvisit hscope]
  have hset : s.ended.set place true = s.ended := by
    obtain ⟨hlt, hget⟩ := List.getElem?_eq_some_iff.1 hended
    rw [← hget, List.set_getElem_self]
  exact congrArg (fun ended => { s with ended }) hset

/-- **Every act keeps the record.** -/
theorem Registered.act [Backend β] {owner : Option Nat} (howner : ∀ number, owner = some number → number = i)
    (hact : Act m.scope? owner polled m.stage s stage' s') :
    Registered stage' (members.set i ⟨m.scope?, stage'⟩) s' := by
  obtain ⟨scope?, stage⟩ := m
  have hown := h.stages i _ hi
  -- the same visits and marks, between stages in which they agree
  have hsame {stage' : Stage} {s' : Store (Watched β α)} (hfrom : stage.Agrees) (hto : stage'.Agrees)
      (hattempts : s'.attempts = s.attempts) (hbackend : s'.backend = s.backend)
      (hended : s'.ended = s.ended) (hstage : stage'.Registered s i scope?) :
      Registered stage' (members.set i ⟨scope?, stage'⟩) s' := by
    have hle := Nat.le_of_eq hattempts.symm
    have hvisits := congrArg Watched.visits hbackend
    refine h.of_same hle hvisits hended (by rw [hbackend]) ?_ ?_ (Nat.le_of_eq (List.length_set ..).symm) (h.scopes_set hi)
      (stages_set (fun j x hx _ => (h.stages j x hx).of_same hle hvisits hended)
        (hstage.of_same hle hvisits hended))
    · rintro place tx rfl
      exact hfrom.elim
    · refine fun scope => ⟨?_, ?_⟩
      · rintro rfl
        exact hfrom.elim
      · rintro rfl
        exact hto.elim
  have hgoing {part : Part} {line line' : Line} {s' : Store (Watched β α)}
      (hstage : stage = .going part line) (hattempts : s'.attempts = s.attempts)
      (hbackend : s'.backend = s.backend) (hended : s'.ended = s.ended) :
      Registered (.going part line') (members.set i ⟨scope?, .going part line'⟩) s' := by
    subst hstage
    refine hsame trivial trivial hattempts hbackend hended ?_
    cases part with
    | before connection => exact hown
    | after tx => exact hown
  cases hact with
  | quiet hquiet =>
    exact h.of_same hquiet.attempts hquiet.visits hquiet.ended hquiet.decisions (fun _ _ h => h)
      (fun _ => .rfl) (Nat.le_of_eq (List.length_set ..).symm) (h.scopes_set hi) (stages_set
        (fun j x hx _ => (h.stages j x hx).of_same hquiet.attempts hquiet.visits hquiet.ended)
        (hown.of_same hquiet.attempts hquiet.visits hquiet.ended))
  | @acquire _ _ n hquiet hn =>
    obtain ⟨-, hscope, hnone⟩ := hown.of_same hquiet.attempts hquiet.visits hquiet.ended
    refine h.of_same hquiet.attempts hquiet.visits hquiet.ended hquiet.decisions ?_ ?_
      (Nat.le_of_eq (List.length_set ..).symm) (h.scopes_set hi) (stages_set
        (fun j x hx _ => (h.stages j x hx).of_same hquiet.attempts hquiet.visits hquiet.ended)
        ⟨?_, ?_, hnone⟩)
    · rintro place tx ⟨⟩
    · exact fun scope => ⟨fun h => (by cases h), fun h => (by cases h)⟩
    · rintro _ ⟨⟩
      exact hn
    · intro scope hscope'
      cases hscope scope hscope'
  | letIn hscope hopen => exact hsame trivial trivial rfl rfl rfl ⟨⟨_, hscope, hopen⟩, hown.2.2⟩
  | @enqueue _ scope hscope =>
    refine hsame trivial trivial rfl rfl rfl ⟨?_, ?_, hown.2⟩
    · rintro n ⟨⟩
      obtain ⟨place, v, hv, hsame⟩ := h.atHand _ (List.mem_of_getElem? hi) scope hscope
      obtain ⟨scope', hscope', hle, -⟩ := h.nested place v hv
      exact Option.some.inj (hscope'.symm.trans hsame) ▸ hle
    · intro scope' hscope'
      rw [Option.some.inj (hscope.symm.trans hscope')]
  | lineUp _ _ => exact hgoing rfl rfl rfl rfl
  | serve _ => exact hgoing rfl rfl rfl rfl
  | send _ => exact hgoing rfl rfl rfl rfl
  | stepBack => exact hgoing rfl rfl rfl rfl
  | opens hmarks hconnection => exact h.opens hi hothers rfl hmarks hconnection
  | enter hnumber hscope =>
    obtain rfl := howner _ hnumber
    exact h.enter hi hothers rfl hscope
  | hear _ _ => exact hsame trivial trivial rfl rfl rfl hown
  | returns => exact h.depart hi hothers _ (.inr rfl)
  | giveUp _ => exact h.depart hi hothers _ (.inl rfl)
  | finish hscope => exact h.finish hi hothers rfl hscope
  | finishAgain hscope =>
    rw [h.endScope_eq hi rfl hscope]
    exact hgoing rfl rfl rfl rfl

end Turn

end SqlClient
