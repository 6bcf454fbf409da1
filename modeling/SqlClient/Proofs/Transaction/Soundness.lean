import SqlClient.Proofs.Transaction.Ordering
/-!
# Transactions — assemblies are orderly

Every future of an assembly keeps to its protocol (`Future.Follows`). So whatever happens next, be it a
poll, the end of a future that is given up, or something new, keeps the record of visits, the lines and
the order of what is sent (`Assembly.Orderly.step`), and every assembly that can be reached has them
(`Assembly.orderly_of_steps`).
-/

namespace SqlClient

open Coroutine

variable {β α : Type}

/-! ## Stages before the operation -/

/-- The operation has not been called yet. -/
def Stage.Fore : Stage → Prop
  | .going (.before _) _ | .admitted | .opened _ => True
  | _ => False

theorem Stage.Fore.going {part : Part} {line line' : Line} (h : (Stage.going part line).Fore) :
    (Stage.going part line').Fore := by
  cases part with
  | before connection => trivial
  | after tx => exact h

variable {s s' : Store (Watched β α)} {members : List Member} {moving stage stage' : Stage} {m : Member}
  {i : Nat} {polled : Bool} {scope? : Option Scope} {history : List Sending}

section Acts

variable [Backend β] {owner : Option Nat}

/-- Whoever may call no operation never gets beyond. -/
theorem Act.fore (hact : Act scope? none polled stage s stage' s') (h : stage.Fore) : stage'.Fore := by
  cases hact with
  | quiet _ => exact h
  | lineUp _ _ => exact h.going
  | serve _ => exact h.going
  | send _ => exact h.going
  | stepBack => exact h.going
  | enter hnumber _ => cases hnumber
  | _ => trivial

/-- The number of attempts to get a connection only grows. -/
theorem Act.attempts (hact : Act scope? owner polled stage s stage' s') : s.attempts ≤ s'.attempts := by
  cases hact with
  | quiet hq => exact hq.attempts
  | acquire hq _ => exact hq.attempts
  | finish _ => exact Nat.le_of_eq (Store.attempts_endScope _ s).symm
  | finishAgain _ => exact Nat.le_of_eq (Store.attempts_endScope _ s).symm
  | _ => exact Nat.le_refl _

end Acts

/-! ## Futures -/

/-- Giving the code up runs guards only where it waits. -/
def Droppable {γ : Type} (rest : Coroutine (Store (Watched β α)) γ) : Prop :=
  rest.Waits ∨ ∀ w, rest.drop w = w

/-- Code that keeps to a protocol and ends in a stage in which others may have their turns. -/
abbrev Acceptable {γ : Type} (P : Protocol (Store (Watched β α)) Stage) (stage : Stage)
    (rest : Coroutine (Store (Watched β α)) γ) : Prop :=
  rest.Plays P stage (fun stage _ => stage.Rests) Stage.Rests

/-- What is left of a future fits the stage it is in. -/
def Future.Follows [Backend β] (i : Nat) (m : Member) : Future β α → Prop
  | .statement c rest => m.scope? = c.scope ∧ m.stage.Fore ∧ Droppable rest ∧
      Acceptable (futureRules c.scope none) m.stage rest
  | .transaction c rest => m.scope? = c.scope ∧ Droppable rest ∧
      Acceptable (futureRules c.scope (some i)) m.stage rest
  | .task rest => m.scope? = none ∧ m.stage.Fore ∧ Acceptable taskRules m.stage rest
  | .givenUp => True

section Turns

variable [Backend β] {γ : Type} {owner : Option Nat}
  {leaves : Stage → Coroutine (Store (Watched β α)) Unit → Prop}
  {rest : Coroutine (Store (Watched β α)) γ}

/-- A poll ends in a stage in which others may have their turns. -/
theorem Acceptable.poll (hrest : Acceptable (rules scope? owner leaves) stage rest)
    (s : Store (Watched β α)) : ∃ stage', stage'.Rests ∧
      (Act scope? owner true).Row stage s stage' (rest.poll (Turn.start s false)).2.state ∧
      Acceptable (rules scope? owner leaves) stage' (rest.poll (Turn.start s false)).1 ∧
      (rest.poll (Turn.start s false)).2.spawned = [] ∧
      Droppable (rest.poll (Turn.start s false)).1 := by
  obtain ⟨stage', hrow, hplays, hspawned, ⟨a, ha⟩ | ⟨hwaits, hrests⟩⟩ := Plays.poll (Turn.start s false) hrest
  · rw [ha] at hplays
    refine ⟨stage', hplays, hrow, ha ▸ hplays, hspawned, .inr fun w => ?_⟩
    rw [ha]
    rfl
  · exact ⟨stage', hrests, hrow, hplays, hspawned, .inl hwaits⟩

/-- Whoever may call no operation has called none when others have their turns. -/
theorem fore_of_row (hrow : (Act scope? none polled).Row stage s stage' s') (h : stage.Fore) :
    stage'.Fore :=
  hrow.keeps (I := fun stage _ => stage.Fore) h fun _ _ _ _ hact h => hact.fore h

end Turns

/-- Before the operation is called, a role fits that closes nothing and goes through a client of the
scope. -/
theorem Stage.Fore.fits {role : Role} (h : stage.Fore) (hnot : ∀ tx, role ≠ .closing tx)
    (hscope : ∀ c, role = .through c → c.scope = scope?) : role.Fits scope? s stage := by
  cases stage with
  | going part line =>
    cases part with
    | before connection => exact ⟨hnot, hscope⟩
    | after tx => exact h.elim
  | admitted => exact ⟨hnot, hscope⟩
  | opened scope => exact ⟨hnot, hscope⟩
  | _ => exact h.elim

/-- A transaction whose operation has been called closes its scope: the visit is found by its number. -/
theorem Future.role_of_visit [Backend β] (hregistered : Registered moving members s) {place : Nat}
    {c tx : Client} {departure : Option (Departure α)} {rest : Coroutine (Store (Watched β α)) (Outcome α)}
    (hvisit : s.visitAt place = some ⟨i, tx, departure⟩) :
    (Future.transaction c rest).role i s = .closing tx := by
  rw [Future.role]
  cases hfind : s.backend.visits.find? (·.owner = i) with
  | none =>
    have hnone := List.find?_eq_none.1 hfind _ (List.mem_of_getElem? hvisit)
    simp at hnone
  | some v =>
    obtain ⟨place', hv⟩ := List.mem_iff_getElem?.1 (List.mem_of_find?_eq_some hfind)
    have howner : v.owner = i := by simpa using List.find?_some hfind
    obtain rfl := hregistered.owners place' place v _ hv hvisit howner
    obtain rfl := Option.some.inj (hv.symm.trans hvisit)
    rfl

/-- The role of a future is what its stage says. -/
theorem Future.fits [Backend β] {f : Future β α} (hfollows : f.Follows i m)
    (hregistered : Registered moving members s) (hi : members[i]? = some m) (hrests : m.stage.Rests)
    (hthere : f ≠ .givenUp) : (f.role i s).Fits m.scope? s m.stage := by
  obtain ⟨scope?, stage⟩ := m
  cases f with
  | statement c rest =>
    obtain ⟨hscope, hstage, -⟩ := hfollows
    refine hstage.fits ?_ ?_
    · rintro tx ⟨⟩
    · rintro _ ⟨⟩
      exact hscope.symm
  | task rest =>
    refine hfollows.2.1.fits ?_ ?_
    · rintro tx ⟨⟩
    · rintro _ ⟨⟩
  | givenUp => exact absurd rfl hthere
  | transaction c rest =>
    obtain ⟨hscope, -⟩ := hfollows
    have hown := hregistered.stages i _ hi
    cases stage with
    | going part line =>
      cases part with
      | before connection =>
        have hnone : s.backend.visits.find? (·.owner = i) = none :=
          List.find?_eq_none.2 fun v hv => by simpa using hown.2.2 v hv
        rw [Future.role, hnone]
        refine Stage.Fore.fits trivial ?_ ?_
        · rintro tx ⟨⟩
        · rintro _ ⟨⟩
          exact hscope.symm
      | after tx =>
        obtain ⟨place, departure, hvisit, -⟩ := hown
        exact Future.role_of_visit hregistered hvisit
    | inside place tx => exact .inl (Future.role_of_visit hregistered hown)
    | _ => exact hrests.elim

/-! ## What happens elsewhere -/

/-- The stage of nobody in particular. -/
def Stage.nobody : Stage := .going (.before none) .away

/-- When everybody rests it does not matter whose turn it was. -/
theorem Registered.rests (h : Registered moving members s) (hrests : moving.Rests) {moving' : Stage}
    (hrests' : moving'.Rests) : Registered moving' members s := by
  refine h.of_same (Nat.le_refl _) rfl rfl rfl ?_ ?_ (Nat.le_refl _) h.atHand h.stages
  · rintro place tx rfl
    exact hrests.elim
  · refine fun scope => ⟨?_, ?_⟩
    · rintro rfl
      exact hrests.elim
    · rintro rfl
      exact hrests'.elim

theorem elsewhere_refl (s : Store (Watched β α)) : s.Elsewhere s :=
  ⟨rfl, rfl, rfl, List.prefix_refl _, Nat.le_refl _, fun _ => .inl rfl⟩

/-- **What happens elsewhere keeps everything.** -/
theorem Sound.elsewhere (h : Sound moving members s history) (he : s.Elsewhere s') :
    Sound moving members s' history where
  registered := h.registered.of_same he.attempts he.visits he.ended he.decisions (fun _ _ h => h)
    (fun _ => .rfl) (Nat.le_refl _) h.registered.atHand fun i m hm =>
      (h.registered.stages i m hm).of_same he.attempts he.visits he.ended
  lined := h.lined.elsewhere h.registered he fun _ _ _ _ _ _ hm _ => hm
  ordered := by
    refine h.ordered.elsewhere (fun tx htx => ?_) fun _ _ _ _ _ _ hm _ => hm
    obtain ⟨place, v, hv, rfl, hended⟩ := htx
    exact ⟨place, v, by rwa [Store.visitAt, he.visits], rfl, by rwa [he.ended]⟩

/-- **Somebody new comes**, through a client of a scope that was opened or through none. -/
theorem Sound.join (h : Sound moving members s history) {connection : Option Nat}
    (hscope : ∀ scope, scope? = some scope → connection = some scope.connection ∧
      ∃ v ∈ s.backend.visits, v.client.scope = some scope)
    (hconnection : ∀ n, connection = some n → n ≤ s.attempts) :
    Sound moving (members ++ [⟨scope?, .going (.before connection) .away⟩]) s history := by
  -- nobody new stands in line
  have hstands (j : Nat) (x : Member) (part : Part) (n ticket : Nat) (progress : Progress)
      (hx : (members ++ [⟨scope?, .going (.before connection) .away⟩])[j]? = some x)
      (hstage : x.stage = .going part (.standing n ticket progress)) : members[j]? = some x := by
    rcases getElem?_concat_cases hx with hx | ⟨-, rfl⟩
    · exact hx
    · cases hstage
  refine ⟨?_, h.lined.elsewhere h.registered (elsewhere_refl s) hstands,
    h.ordered.elsewhere (fun _ htx => htx) hstands⟩
  refine h.registered.of_same (Nat.le_refl _) rfl rfl rfl (fun _ _ h => h) (fun _ => .rfl) (by simp)
    (fun x hx scope hxscope => ?_) fun j x hx => ?_
  · rcases List.mem_append.1 hx with hx | hx
    · exact h.registered.atHand x hx scope hxscope
    · obtain rfl := List.mem_singleton.1 hx
      obtain ⟨-, v, hv, hsame⟩ := hscope scope hxscope
      obtain ⟨place, hplace⟩ := List.mem_iff_getElem?.1 hv
      exact ⟨place, v, hplace, hsame⟩
  · rcases getElem?_concat_cases hx with hx | ⟨rfl, rfl⟩
    · exact h.registered.stages j x hx
    · refine ⟨hconnection, fun scope hxscope => (hscope scope hxscope).1, fun v hv howner => ?_⟩
      exact Nat.lt_irrefl _ (howner ▸ h.registered.bounded v hv)

/-! ## Who is where afterwards -/

/-- Where the members are when the one numbered `i` has had its turn: it has moved by acts, the others
are where they were, and whoever has come since stands nowhere. -/
structure Onward [Backend β] (i : Nat) (members members' : List Member) (s s' : Store (Watched β α)) :
    Prop where
  moves : ∀ m, members[i]? = some m → ∃ (owner : Option Nat) (polled : Bool) (stage' : Stage),
    (Act m.scope? owner polled).Row m.stage s stage' s' ∧ members'[i]? = some ⟨m.scope?, stage'⟩
  stays : ∀ (j : Nat) (m : Member), j ≠ i → members[j]? = some m → members'[j]? = some m
  comes : ∀ (j : Nat) (m : Member), members.length ≤ j → members'[j]? = some m →
    ∃ connection, m.stage = .going (.before connection) .away

/-- Nobody has moved. -/
theorem onward_refl [Backend β] : Onward i members members s s where
  moves m hm := ⟨none, false, m.stage, .refl, hm⟩
  stays _ _ _ hm := hm
  comes j m hlength hm := absurd (List.getElem?_eq_some_iff.1 hm).1 (by omega)

/-- Whoever is not the one that moves was there before, or has come since. -/
theorem Onward.was [Backend β] {members' : List Member} {j : Nat}
    (h : Onward i members members' s s') (hj : j ≠ i)
    (hm : members'[j]? = some m) :
    members[j]? = some m ∨ ∃ connection, m.stage = .going (.before connection) .away := by
  cases hold : members[j]? with
  | some x => exact .inl ((h.stays j x hj hold).symm.trans hm)
  | none => exact .inr (h.comes j m (List.getElem?_eq_none_iff.1 hold) hm)

/-- One has moved, and others have come. -/
theorem onward_of_row [Backend β] {owner : Option Nat} {others : List Member} (hi : members[i]? = some m)
    (hrow : (Act m.scope? owner polled).Row m.stage s stage' s')
    (hothers : ∀ x ∈ others, ∃ connection, x.stage = .going (.before connection) .away) :
    Onward i members (members.set i ⟨m.scope?, stage'⟩ ++ others) s s' := by
  have hlt : i < members.length := (List.getElem?_eq_some_iff.1 hi).1
  refine ⟨fun x hx => ?_, fun j x hne hx => ?_, fun j x hlength hx => ?_⟩
  · obtain rfl := Option.some.inj (hi.symm.trans hx)
    refine ⟨owner, polled, stage', hrow, ?_⟩
    rw [List.getElem?_append_left (by simpa using hlt), List.getElem?_set_self hlt]
  · have hj : j < members.length := (List.getElem?_eq_some_iff.1 hx).1
    rwa [List.getElem?_append_left (by simpa using hj), List.getElem?_set_ne (Ne.symm hne)]
  · rw [List.getElem?_append_right (by simpa using hlength)] at hx
    exact hothers x (List.mem_of_getElem? hx)

/-! ## Assemblies -/

namespace Assembly

variable {A A' : Assembly β α}

/-- Every future is in a stage that fits what is left of it, and everything holds that is kept in
turns. -/
structure Orderly [Backend β] (members : List Member) (A : Assembly β α) : Prop where
  sound : Sound .nobody members A.store A.history
  length : members.length = A.futures.length
  rests : ∀ m ∈ members, m.stage.Rests
  follows : ∀ (i : Nat) (f : Future β α) (m : Member),
    A.futures[i]? = some f → members[i]? = some m → f.Follows i m
  /-- What is written down as sent is in the log, in the same order. -/
  recorded : (A.history.map (·.event)).Sublist (A.store.log.filter Event.isSent)

variable [Backend β]

/-- A future joins the others. -/
theorem Orderly.join (h : Orderly members A) {connection : Option Nat} {f : Future β α}
    (hscope : ∀ scope, scope? = some scope → connection = some scope.connection ∧
      ∃ v ∈ A.store.backend.visits, v.client.scope = some scope)
    (hconnection : ∀ n, connection = some n → n ≤ A.store.attempts)
    (hfollows : f.Follows A.futures.length ⟨scope?, .going (.before connection) .away⟩) :
    Orderly (members ++ [⟨scope?, .going (.before connection) .away⟩])
      { A with futures := A.futures ++ [f] } where
  sound := h.sound.join hscope hconnection
  length := by simp [h.length]
  rests m hm := by
    rcases List.mem_append.1 hm with hm | hm
    · exact h.rests m hm
    · obtain rfl := List.mem_singleton.1 hm
      trivial
  follows j g m hg hm := by
    have hlength := h.length
    rcases getElem?_concat_cases hg with hg | ⟨rfl, rfl⟩
    · rcases getElem?_concat_cases hm with hm | ⟨rfl, -⟩
      · exact h.follows j g m hg hm
      · exact absurd (List.getElem?_eq_some_iff.1 hg).1 (by omega)
    · rcases getElem?_concat_cases hm with hm | ⟨-, rfl⟩
      · exact absurd (List.getElem?_eq_some_iff.1 hm).1 (by omega)
      · exact hfollows
  recorded := h.recorded

/-- Tasks that have been left behind join the others. -/
theorem Orderly.join_tasks {ts : List (Coroutine (Store (Watched β α)) Unit)} (h : Orderly members A)
    (hts : ∀ t ∈ ts, ∃ n, n ≤ A.store.attempts ∧ Acceptable taskRules (.going (.before (some n)) .away) t) :
    ∃ others : List Member, (∀ x ∈ others, ∃ connection, x.stage = .going (.before connection) .away) ∧
      Orderly (members ++ others) { A with futures := A.futures ++ ts.map .task } := by
  induction ts generalizing members A with
  | nil => exact ⟨[], by simp, by simpa using h⟩
  | cons t ts ih =>
    obtain ⟨n, hn, ht⟩ := hts t List.mem_cons_self
    have hfollows : (Future.task t).Follows A.futures.length ⟨none, .going (.before (some n)) .away⟩ :=
      ⟨rfl, trivial, ht⟩
    have hjoined := h.join (fun scope hscope => by cases hscope) (fun k hk => Option.some.inj hk ▸ hn) hfollows
    obtain ⟨others, hothers, hmembers⟩ := ih hjoined fun t ht => hts t (List.mem_cons_of_mem _ ht)
    refine ⟨⟨none, .going (.before (some n)) .away⟩ :: others, ?_, by simpa using hmembers⟩
    exact List.forall_mem_cons.2 ⟨⟨_, rfl⟩, hothers⟩

/-- What a future has done in its turn, and the tasks that it has left behind. -/
theorem Orderly.afterTurn (h : Orderly members A) {f f' : Future β α} {w : Turn (Store (Watched β α))}
    {owner : Option Nat} (hi : members[i]? = some m)
    (hrow : (Act m.scope? owner polled).Row m.stage A.store stage' w.state)
    (hsound : Sound stage' (members.set i ⟨m.scope?, stage'⟩) w.state
      (A.history ++ (A.store.sent w.state).map (⟨f.role i A.store, ·⟩)))
    (hrests : stage'.Rests)
    (hspawned : ∀ t ∈ w.spawned, ∃ n, n ≤ w.state.attempts ∧
      Acceptable taskRules (.going (.before (some n)) .away) t)
    (hfollows : f'.Follows i ⟨m.scope?, stage'⟩) :
    ∃ members', Orderly members' (A.afterTurn i f f' w) ∧ Onward i members members' A.store w.state := by
  have hlog : A.store.log <+: w.state.log := log_of_row hrow
  have hsound' : Sound .nobody (members.set i ⟨m.scope?, stage'⟩) w.state
      (A.history ++ (A.store.sent w.state).map (⟨f.role i A.store, ·⟩)) :=
    ⟨hsound.registered.rests hrests trivial, hsound.lined, hsound.ordered⟩
  have hturn : Orderly (members.set i ⟨m.scope?, stage'⟩) ⟨w.state, A.futures.set i f',
      A.history ++ (A.store.sent w.state).map (⟨f.role i A.store, ·⟩)⟩ := by
    refine ⟨hsound', ?_, ?_, ?_, ?_⟩
    · simp [h.length]
    · intro x hx
      rcases List.mem_or_eq_of_mem_set hx with hx | rfl
      · exact h.rests x hx
      · exact hrests
    · intro j g x hg hx
      rcases getElem?_set_cases hg with ⟨rfl, rfl⟩ | ⟨hne, hg⟩
      · rcases getElem?_set_cases hx with ⟨-, rfl⟩ | ⟨hne, -⟩
        · exact hfollows
        · exact absurd rfl hne
      · rcases getElem?_set_cases hx with ⟨rfl, -⟩ | ⟨-, hx⟩
        · exact absurd rfl hne
        · exact h.follows j g x hg hx
    · obtain ⟨events, hevents⟩ := hlog
      rw [sent_of_log hevents.symm, ← hevents, List.filter_append, List.map_append, List.map_map]
      refine h.recorded.append ?_
      simp [Function.comp_def]
  -- the tasks that were left behind join as new members
  obtain ⟨others, hothers, hmembers⟩ := hturn.join_tasks hspawned
  exact ⟨_, hmembers, onward_of_row hi hrow hothers⟩

omit [Backend β] in
/-- Nothing happens to whoever does nothing. -/
theorem afterTurn_start {f : Future β α} (hf : A.futures[i]? = some f) :
    A.afterTurn i f f (Turn.start A.store false) = A := by
  have hset : A.futures.set i f = A.futures := by
    rw [← (List.getElem?_eq_some_iff.1 hf).2, List.set_getElem_self]
  have hsent : A.store.sent A.store = [] := sent_of_log (List.append_nil _).symm
  simp [Assembly.afterTurn, Turn.start, hset, hsent]

theorem Orderly.still (h : Orderly members A) {f : Future β α} (hf : A.futures[i]? = some f) :
    Orderly members (A.afterTurn i f f (Turn.start A.store false)) := by
  rw [afterTurn_start hf]
  exact h

/-- Where a future is. -/
theorem Orderly.member (h : Orderly members A) {f : Future β α} (hf : A.futures[i]? = some f) :
    ∃ m, members[i]? = some m ∧ m.stage.Rests ∧ f.Follows i m ∧
      ∀ (j : Nat) (x : Member), members[j]? = some x → j ≠ i → x.stage.Rests := by
  have hlt : i < members.length := h.length ▸ (List.getElem?_eq_some_iff.1 hf).1
  have hi : members[i]? = some members[i] := List.getElem?_eq_getElem hlt
  exact ⟨_, hi, h.rests _ (List.mem_of_getElem? hi), h.follows i f _ hf hi,
    fun j x hx _ => h.rests x (List.mem_of_getElem? hx)⟩

/-- A poll of code that keeps to its protocol. -/
theorem Orderly.poll (h : Orderly members A) {f : Future β α} (hf : A.futures[i]? = some f) :
    ∃ members', Orderly members' (A.poll i) ∧ Onward i members members' A.store (A.poll i).store := by
  obtain ⟨m, hi, hrests, hfollows, hothers⟩ := h.member hf
  have hsound := h.sound.registered.rests trivial hrests
  -- whatever is left of the future, the turn is a row of acts
  have hturn {owner : Option Nat} {stage' : Stage} {f' : Future β α} {w : Turn (Store (Watched β α))}
      (hthere : f ≠ .givenUp) (howner : ∀ number, owner = some number → number = i)
      (hrow : (Act m.scope? owner true).Row m.stage A.store stage' w.state) (hrests' : stage'.Rests)
      (hspawned : w.spawned = []) (hfollows' : f'.Follows i ⟨m.scope?, stage'⟩) :
      ∃ members', Orderly members' (A.afterTurn i f f' w) ∧ Onward i members members' A.store w.state := by
    refine h.afterTurn hi hrow ?_ hrests' (by simp [hspawned]) hfollows'
    exact Sound.row ⟨hsound, h.sound.lined, h.sound.ordered⟩ hi hothers
      (fun _ => Future.fits hfollows h.sound.registered hi hrests hthere) howner hrow
  rw [Assembly.poll, hf]
  cases f with
  | statement c rest =>
    obtain ⟨hscope, hfore, -, hrest⟩ := hfollows
    obtain ⟨stage', hrests', hrow, hplays, hspawned, hdroppable⟩ := Acceptable.poll hrest A.store
    rw [← hscope] at hrow
    refine hturn (fun h => by cases h) ?_ hrow hrests' hspawned ⟨hscope, fore_of_row hrow hfore, hdroppable, hplays⟩
    rintro _ ⟨⟩
  | transaction c rest =>
    obtain ⟨hscope, -, hrest⟩ := hfollows
    obtain ⟨stage', hrests', hrow, hplays, hspawned, hdroppable⟩ := Acceptable.poll hrest A.store
    rw [← hscope] at hrow
    refine hturn (fun h => by cases h) ?_ hrow hrests' hspawned ⟨hscope, hdroppable, hplays⟩
    rintro _ ⟨⟩
    rfl
  | task rest =>
    obtain ⟨hscope, hfore, hrest⟩ := hfollows
    obtain ⟨stage', hrests', hrow, hplays, hspawned, hdroppable⟩ := Acceptable.poll hrest A.store
    rw [← hscope] at hrow
    refine hturn (fun h => by cases h) ?_ hrow hrests' hspawned ⟨hscope, fore_of_row hrow hfore, hplays⟩
    rintro _ ⟨⟩
  | givenUp => exact ⟨members, h.still hf, onward_refl⟩

/-- Nothing happens when something without guards is given up. -/
theorem Orderly.vanish (h : Orderly members A) {f : Future β α} (hf : A.futures[i]? = some f) :
    ∃ members', Orderly members' (A.afterTurn i f .givenUp (Turn.start A.store false)) ∧
      Onward i members members' A.store A.store := by
  obtain ⟨m, hi, hrests, -, -⟩ := h.member hf
  have hset : members.set i ⟨m.scope?, m.stage⟩ = members := by
    rw [← (List.getElem?_eq_some_iff.1 hi).2, List.set_getElem_self]
  have hsent : A.store.sent A.store = [] := sent_of_log (List.append_nil _).symm
  have hsound : Sound m.stage (members.set i ⟨m.scope?, m.stage⟩) A.store
      (A.history ++ (A.store.sent A.store).map (⟨f.role i A.store, ·⟩)) := by
    rw [hset, hsent, List.map_nil, List.append_nil]
    exact ⟨h.sound.registered.rests trivial hrests, h.sound.lined, h.sound.ordered⟩
  have hrow : (Act m.scope? none false).Row m.stage A.store m.stage A.store := .refl
  exact h.afterTurn hi hrow hsound hrests (fun t ht => by cases ht) trivial

/-- The end of code that keeps to its protocol and is given up. -/
theorem Orderly.abandon (h : Orderly members A) {f : Future β α} (hf : A.futures[i]? = some f)
    (hi : members[i]? = some m) (hrests : m.stage.Rests)
    (hothers : ∀ (j : Nat) (x : Member), members[j]? = some x → j ≠ i → x.stage.Rests) {γ : Type} {owner : Option Nat}
    (howner : ∀ number, owner = some number → number = i) {rest : Coroutine (Store (Watched β α)) γ}
    (hdroppable : Droppable rest) (hrest : Acceptable (futureRules m.scope? owner) m.stage rest) :
    ∃ members', Orderly members' (A.afterTurn i f .givenUp (rest.drop (Turn.start A.store false))) ∧
      Onward i members members' A.store (rest.drop (Turn.start A.store false)).state := by
  rcases hdroppable with hwaits | hsame
  · obtain ⟨stage', hrow, hrests', ts, hspawned, hleaves⟩ :=
      Plays.drop (Turn.start A.store false) hrest hwaits
    have hsound : Sound m.stage members A.store A.history :=
      ⟨h.sound.registered.rests trivial hrests, h.sound.lined, h.sound.ordered⟩
    refine h.afterTurn hi hrow ?_ hrests' (fun t ht => ?_) trivial
    · exact hsound.row hi hothers (fun h => by cases h) howner hrow
    · rw [hspawned, Turn.start, List.nil_append] at ht
      obtain ⟨stage₁, s₁, hbefore, hafter, tx, n, rfl, hconnection, hplays⟩ := hleaves t ht
      -- the scope of the rescue was there when the rescue was left behind
      have hleft : Sound _ _ s₁ (A.history ++ (A.store.sent s₁).map (⟨f.role i A.store, ·⟩)) :=
        hsound.row hi hothers (fun h => by cases h) howner hbefore
      have hlt : i < members.length := (List.getElem?_eq_some_iff.1 hi).1
      have hle : n ≤ s₁.attempts :=
        hleft.registered.connection_le (List.getElem?_set_self hlt) rfl hconnection
      refine ⟨n, ?_, hplays⟩
      exact hafter.keeps (I := fun _ s => n ≤ s.attempts) hle fun _ _ _ _ hact hle => Nat.le_trans hle hact.attempts
  · rw [hsame]
    exact h.vanish hf

/-- The end of a future that is given up. -/
theorem Orderly.drop (h : Orderly members A) {f : Future β α} (hf : A.futures[i]? = some f) :
    ∃ members', Orderly members' (A.drop i) ∧ Onward i members members' A.store (A.drop i).store := by
  obtain ⟨m, hi, hrests, hfollows, hothers⟩ := h.member hf
  rw [Assembly.drop, hf]
  cases f with
  | statement c rest =>
    obtain ⟨hscope, -, hdroppable, hrest⟩ := hfollows
    refine h.abandon hf hi hrests hothers ?_ hdroppable (hscope ▸ hrest)
    rintro _ ⟨⟩
  | transaction c rest =>
    obtain ⟨hscope, hdroppable, hrest⟩ := hfollows
    refine h.abandon hf hi hrests hothers ?_ hdroppable (hscope ▸ hrest)
    rintro _ ⟨⟩
    rfl
  | task rest => exact ⟨members, h.still hf, onward_refl⟩
  | givenUp => exact ⟨members, h.still hf, onward_refl⟩

/-- The scope of a client has been opened, on a connection that is there. -/
theorem Orderly.client (h : Orderly members A) {c : Client} (hc : c.scope = none ∨ A.store.AtHand c) :
    (∀ scope, c.scope = some scope → c.connection? = some scope.connection ∧
      ∃ v ∈ A.store.backend.visits, v.client.scope = some scope) ∧
    ∀ n, c.connection? = some n → n ≤ A.store.attempts := by
  have hscope (scope : Scope) (hscope : c.scope = some scope) :
      c.connection? = some scope.connection ∧
        ∃ v ∈ A.store.backend.visits, v.client.scope = some scope := by
    refine ⟨by rw [Client.connection?, hscope]; rfl, ?_⟩
    rcases hc with hnone | ⟨v, hv, hsame, -⟩
    · rw [hnone] at hscope
      cases hscope
    · exact ⟨v, hv, hsame ▸ hscope⟩
  refine ⟨hscope, fun n hn => ?_⟩
  cases hcscope : c.scope with
  | none =>
    rw [Client.connection?, hcscope] at hn
    cases hn
  | some scope =>
    obtain ⟨hsame, v, hv, hvscope⟩ := hscope scope hcscope
    obtain ⟨place, hplace⟩ := List.mem_iff_getElem?.1 hv
    obtain ⟨scope', hscope', hle, -⟩ := h.sound.registered.nested place v hplace
    obtain rfl : scope' = scope := Option.some.inj (hscope'.symm.trans hvscope)
    exact Option.some.inj (hsame.symm.trans hn) ▸ hle

/-- A statement that is issued stands nowhere yet. -/
theorem Orderly.issue (h : Orderly members A) {c : Client} (hc : A.store.AtHand c) (r : Request) :
    Orderly (members ++ [⟨c.scope, .going (.before c.connection?) .away⟩]) (A.issue c r) := by
  obtain ⟨hscope, hconnection⟩ := h.client (.inr hc)
  obtain ⟨v, hv, hsame, hsome⟩ := hc
  obtain ⟨scope, hcscope⟩ := Option.isSome_iff_exists.1 hsome
  refine h.join hscope hconnection ⟨rfl, trivial, ?_, ?_⟩
  · rw [run_scoped hcscope]
    exact .inr fun w => rfl
  · have hplays : (c.run r : Work (Watched β α) ResultSet).run.Plays (futureRules (some scope) none)
        (.going (.before (some scope.connection)) .away)
        (fun stage _ => stage = .going (.before (some scope.connection)) .away)
        (fun stage => stage = .going (.before (some scope.connection)) .away) := plays_run hcscope r
    rw [Client.connection?, hcscope]
    refine hplays.mono ?_ ?_
    · rintro _ _ rfl
      trivial
    · rintro _ rfl
      trivial

/-- Nor does a transaction that is begun. -/
theorem Orderly.begin (h : Orderly members A) {c : Client} (hc : c.scope = none ∨ A.store.AtHand c) :
    Orderly (members ++ [⟨c.scope, .going (.before c.connection?) .away⟩]) (A.begin c) := by
  obtain ⟨hscope, hconnection⟩ := h.client hc
  refine h.join hscope hconnection ⟨rfl, ?_, plays_transact _ c⟩
  rw [Client.transact]
  split
  · exact .inr fun w => rfl
  · exact .inr fun w => rfl

/-- Changes elsewhere move nobody. -/
theorem Orderly.elsewhere (h : Orderly members A) {s : Store (Watched β α)}
    (he : A.store.Elsewhere s) : Orderly members { A with store := s } := by
  refine ⟨h.sound.elsewhere he, h.length, h.rests, h.follows, ?_⟩
  obtain ⟨events, hevents⟩ := he.log
  rw [← hevents, List.filter_append]
  exact h.recorded.trans (List.sublist_append_left _ _)

/-- **Whatever happens next keeps an assembly orderly.** -/
theorem Orderly.step (h : Orderly members A) (hstep : Step A A') : ∃ members', Orderly members' A' := by
  cases hstep with
  | issue hc => exact ⟨_, h.issue hc _⟩
  | begin hc => exact ⟨_, h.begin hc⟩
  | poll i =>
    cases hf : A.futures[i]? with
    | none =>
      rw [Assembly.poll, hf]
      exact ⟨members, h⟩
    | some f =>
      obtain ⟨members', hmembers', -⟩ := h.poll hf
      exact ⟨members', hmembers'⟩
  | drop i =>
    cases hf : A.futures[i]? with
    | none =>
      rw [Assembly.drop, hf]
      exact ⟨members, h⟩
    | some f =>
      obtain ⟨members', hmembers', -⟩ := h.drop hf
      exact ⟨members', hmembers'⟩
  | others he => exact ⟨members, h.elsewhere he⟩

/-- Before anybody has done anything. -/
theorem orderly_start (database : β) (cache : RequestCache CacheKey Nat) :
    Orderly [] (start (Store.start (⟨database, [], []⟩ : Watched β α) cache)) := by
  have hnone {γ : Type} {i : Nat} {x : γ} (h : ([] : List γ)[i]? = some x) : False := by simp at h
  refine ⟨⟨⟨?_, ?_, ?_, rfl, ?_, ?_, ?_, ?_⟩, ⟨?_, ?_, ?_, ?_⟩, ⟨?_, ?_, ?_, .nil⟩⟩, rfl, ?_, ?_, .slnil⟩
  · exact fun place v hv => (hnone hv).elim
  · exact fun place v hv => (hnone hv).elim
  · refine .inl ⟨?_, rfl⟩
    rintro scope ⟨⟩
  · exact fun place place' v v' hv => (hnone hv).elim
  · rintro v ⟨⟩
  · rintro m ⟨⟩
  · exact fun i m hm => (hnone hm).elim
  · exact fun n => .nil
  · rintro n ticket ⟨⟩
  · exact fun i m part n ticket progress hm => (hnone hm).elim
  · exact fun i j m m' part part' n ticket progress progress' hm => (hnone hm).elim
  · exact fun i j m m' connection tx n ticket n' ticket' progress progress' hm => (hnone hm).elim
  · rintro e ⟨⟩
  · rintro e ⟨⟩
  · rintro m ⟨⟩
  · intro i f m hf
    simp [start] at hf

/-- **Every assembly that can be reached is orderly.** -/
theorem orderly_of_steps {database : β} {cache : RequestCache CacheKey Nat} {A : Assembly β α}
    (hsteps : Relation.ReflTransGen Step (start (Store.start ⟨database, [], []⟩ cache)) A) :
    ∃ members, Orderly members A := by
  induction hsteps with
  | refl => exact ⟨[], orderly_start database cache⟩
  | tail _ hstep ih =>
    obtain ⟨members, h⟩ := ih
    exact h.step hstep

end Assembly

end SqlClient
