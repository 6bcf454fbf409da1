import SqlClient.Proofs.Transaction.Queueing
/-!
# Transactions — what is sent after what

Whoever comes through a client gets in line while the scopes that enclose it are open, and whoever
closes a scope gets in line after the scope has ended. So the first stand before the second (`Ordered`),
and what was sent is in that order too. `Sound` puts together what holds while one future has its turn:
a row of acts keeps it (`Sound.row`).
-/

namespace SqlClient

open Coroutine

variable {β α : Type}

/-! ## Scopes that have ended -/

/-- The operation of a scope has been left, and the mark of the scope is set. -/
def Store.HasEnded (tx : Client) (s : Store (Watched β α)) : Prop :=
  ∃ place v, s.visitAt place = some v ∧ v.client = tx ∧ s.ended[place]? = some true

variable {s s' : Store (Watched β α)} {members members' : List Member} {moving stage stage' : Stage}
  {m m' : Member} {i j : Nat} {polled : Bool} {scope? : Option Scope} {tx : Client} {role : Role}
  {history : List Sending}

/-- Whoever closes a scope comes after its end. -/
theorem Registered.hasEnded (h : Registered moving members s) (hi : members[i]? = some m) {line : Line}
    (hstage : m.stage = .going (.after tx) line) : s.HasEnded tx := by
  have hown := h.stages i m hi
  rw [hstage] at hown
  obtain ⟨place, departure, hvisit, hended⟩ := hown
  exact ⟨place, _, hvisit, rfl, hended⟩

theorem Registered.not_isOpen (h : Registered moving members s) (htx : s.HasEnded tx) {scope : Scope}
    (hwithin : tx.marks <+: scope.marks) : s.isOpen scope = false := by
  obtain ⟨place, v, hv, rfl, hended⟩ := htx
  rw [Store.isOpen, List.all_eq_false]
  refine ⟨place, h.place_mem hv hwithin, ?_⟩
  rw [List.getD_eq_getElem?_getD, hended]
  simp

/-- **No scope that encloses someone has ended** when they may get in line. -/
theorem Registered.not_encloses (h : Registered moving members s) (htx : s.HasEnded tx)
    (hopen : ∀ scope, scope? = some scope → s.isOpen scope = true) : ¬ tx.marks <+: marksOf scope? := by
  intro hwithin
  cases scope? with
  | none =>
    obtain ⟨place, v, hv, rfl, -⟩ := htx
    exact List.not_mem_nil (h.place_mem hv hwithin)
  | some scope =>
    have hended := h.not_isOpen htx hwithin
    rw [hopen scope rfl] at hended
    cases hended

/-- Whoever comes through a client of a scope shares the connection with whoever closes the scope. -/
theorem Registered.same_connection (h : Registered moving members s) (hi : members[i]? = some m)
    (hj : members[j]? = some m') {n n' : Nat} {line line' : Line}
    (hstage : m.stage = .going (.before (some n)) line) (hstage' : m'.stage = .going (.after tx) line')
    (hconnection : tx.connection? = some n') (hwithin : tx.marks <+: marksOf m.scope?) : n = n' := by
  have hown := h.stages i m hi
  rw [hstage] at hown
  obtain ⟨-, hscope, -⟩ := hown
  obtain ⟨place, v, hv, rfl, -⟩ := h.hasEnded hj hstage'
  obtain ⟨outer, houter, -, -⟩ := h.nested place v hv
  cases hm : m.scope? with
  | none =>
    rw [hm] at hwithin
    exact absurd (h.place_mem hv hwithin) List.not_mem_nil
  | some scope =>
    obtain ⟨place', v', hv', hinner⟩ := h.atHand m (List.mem_of_getElem? hi) scope hm
    rw [hm] at hwithin
    have hsame : outer.connection = scope.connection := h.connection_eq hv houter hv' hinner hwithin
    rw [Client.connection?, houter] at hconnection
    exact (Option.some.inj (hscope scope hm)).trans (hsame.symm.trans (Option.some.inj hconnection))

section Act

variable [Backend β]

/-- What has ended stays so. -/
theorem Act.hasEnded {owner : Option Nat} (hact : Act scope? owner polled stage s stage' s')
    (htx : s.HasEnded tx) : s'.HasEnded tx := by
  obtain ⟨place, v, hv, rfl, hended⟩ := htx
  have hbound : place < s.ended.length := (List.getElem?_eq_some_iff.1 hended).1
  have hquiet (hq : s.Quiet s') : s'.HasEnded v.client :=
    ⟨place, v, by rwa [Store.visitAt, hq.visits], rfl, by rwa [hq.ended]⟩
  have hdepart (place' : Nat) (departure : Departure α) : (s.depart place' departure).HasEnded v.client := by
    obtain ⟨u, hu, hclient⟩ := Store.exists_visitAt_depart hv
    exact ⟨place, u, hu, hclient, hended⟩
  have hends (scope : Scope) : (s.endScope scope).HasEnded v.client := by
    rw [Store.endScope]
    split
    case h_1 mark hmark =>
      -- a mark that is set again stays set
      refine ⟨place, v, hv, rfl, ?_⟩
      rw [List.getElem?_set]
      split
      · rw [if_pos (by omega)]
      · exact hended
    case h_2 => exact ⟨place, v, hv, rfl, hended⟩
  cases hact with
  | quiet hq => exact hquiet hq
  | acquire hq _ => exact hquiet hq
  | opens _ _ =>
    exact ⟨place, v, hv, rfl, (List.getElem?_append_left hbound).trans hended⟩
  | enter _ _ =>
    refine ⟨place, v, ?_, rfl, hended⟩
    exact (List.getElem?_append_left (List.getElem?_eq_some_iff.1 hv).1).trans hv
  | returns => exact hdepart _ _
  | giveUp _ => exact hdepart _ _
  | finish _ => exact hends _
  | finishAgain _ => exact hends _
  | _ => exact ⟨place, v, hv, rfl, hended⟩

end Act

/-! ## What somebody sends for -/

/-- What somebody in a stage sends for: first to open a scope or for a statement, through a client of
its scope; then to close the scope. An operation that has just been called has been told nothing, so its
scope is closed in a later turn. -/
def Role.Fits (role : Role) (scope? : Option Scope) (s : Store (Watched β α)) : Stage → Prop
  | .going (.before _) _ | .admitted | .opened _ =>
    (∀ tx, role ≠ .closing tx) ∧ ∀ c, role = .through c → c.scope = scope?
  | .inside place tx => role = .closing tx ∨ s.decision? place = none
  | .told _ tx | .left _ tx | .going (.after tx) _ => role = .closing tx

/-- The role is the same wherever one stands in line. -/
theorem Role.Fits.going {part : Part} {line line' : Line} (h : role.Fits scope? s (.going part line)) :
    role.Fits scope? s' (.going part line') := by
  cases part with
  | before connection => exact h
  | after tx => exact h

/-- **Every act in a turn leaves the role as it is.** -/
theorem Role.Fits.act [Backend β] {owner : Option Nat} (h : role.Fits scope? s stage)
    (hdecisions : s.backend.decisions.length = s.backend.visits.length)
    (hact : Act scope? owner true stage s stage' s') : role.Fits scope? s' stage' := by
  cases hact with
  | quiet hq =>
    cases stage with
    | going part line => exact h.going
    | inside place tx =>
      refine h.imp_right fun hnone => ?_
      rwa [Store.decision?, hq.untold]
    | _ => exact h
  | lineUp _ _ => exact h.going
  | serve _ => exact h.going
  | send _ => exact h.going
  | stepBack => exact h.going
  | enter _ _ =>
    refine .inr ?_
    change ((s.backend.decisions ++ [none])[s.backend.visits.length]?).join = none
    rw [← hdecisions, List.getElem?_append_right (Nat.le_refl _), Nat.sub_self]
    rfl
  | hear _ htold =>
    refine h.resolve_right fun hnone => ?_
    rw [hnone] at htold
    cases htold
  | returns => exact h
  | giveUp hpolled => cases hpolled
  | finish _ => exact h
  | finishAgain _ => exact h
  | _ => exact h

/-! ## The order -/

/-- Those who close a scope stand behind all that came through its clients, and what has been sent is
in that order. -/
structure Ordered (members : List Member) (s : Store (Watched β α)) (history : List Sending) : Prop where
  behind : ∀ (i j : Nat) (m m' : Member) (connection : Option Nat) (tx : Client)
    (n ticket n' ticket' : Nat) (progress progress' : Progress),
    members[i]? = some m → members[j]? = some m' →
      m.stage = .going (.before connection) (.standing n ticket progress) →
        m'.stage = .going (.after tx) (.standing n' ticket' progress') →
          tx.marks <+: marksOf m.scope? → ticket < ticket'
  ended : ∀ e ∈ history, ∀ tx, e.role = .closing tx → s.HasEnded tx
  /-- Whoever still stands in line when the scope is closed has sent its request. -/
  settled : ∀ e ∈ history, ∀ tx, e.role = .closing tx → ∀ (i : Nat) (m : Member)
    (connection : Option Nat) (n ticket : Nat) (progress : Progress), members[i]? = some m →
      m.stage = .going (.before connection) (.standing n ticket progress) →
        tx.marks <+: marksOf m.scope? → progress = .sent
  order : history.Pairwise fun e e' =>
    ∀ tx c, e.role = .closing tx → e'.role = .through c → ¬ Encloses tx c

/-- The order does not depend on who does not stand in line. -/
theorem Ordered.elsewhere (h : Ordered members s history) (hended : ∀ tx, s.HasEnded tx → s'.HasEnded tx)
    (hsame : ∀ (i : Nat) (m : Member) (part : Part) (n ticket : Nat) (progress : Progress),
      members'[i]? = some m → m.stage = .going part (.standing n ticket progress) →
        members[i]? = some m) : Ordered members' s' history where
  behind i j m m' connection tx n ticket n' ticket' progress progress' hm hm' hstage hstage' :=
    h.behind i j m m' connection tx n ticket n' ticket' progress progress'
      (hsame i m _ n ticket progress hm hstage) (hsame j m' _ n' ticket' progress' hm' hstage') hstage hstage'
  ended e he tx hrole := hended tx (h.ended e he tx hrole)
  settled e he tx hrole i m connection n ticket progress hm hstage :=
    h.settled e he tx hrole i m connection n ticket progress (hsame i m _ n ticket progress hm hstage) hstage
  order := h.order

/-- What it takes for one future to stand in line. -/
theorem Ordered.of_own (h : Ordered members s history) (hended : ∀ tx, s.HasEnded tx → s'.HasEnded tx)
    (hbefore : ∀ connection n ticket progress,
      stage' = .going (.before connection) (.standing n ticket progress) →
        (∀ (j : Nat) (m' : Member) (tx : Client) (n' ticket' : Nat) (progress' : Progress),
          members[j]? = some m' → m'.stage = .going (.after tx) (.standing n' ticket' progress') →
            tx.marks <+: marksOf scope? → ticket < ticket') ∧
          ∀ e ∈ history, ∀ tx, e.role = .closing tx → tx.marks <+: marksOf scope? → progress = .sent)
    (hafter : ∀ tx n' ticket' progress', stage' = .going (.after tx) (.standing n' ticket' progress') →
      ∀ (j : Nat) (m : Member) (connection : Option Nat) (n ticket : Nat) (progress : Progress),
        members[j]? = some m → m.stage = .going (.before connection) (.standing n ticket progress) →
          tx.marks <+: marksOf m.scope? → ticket < ticket') :
    Ordered (members.set i ⟨scope?, stage'⟩) s' history := by
  constructor
  case behind =>
    intro j k x y connection tx n ticket n' ticket' progress progress' hx hy hstage hstage' hwithin
    -- each of the two futures is the one that has moved, or one that stands as before
    rcases getElem?_set_cases hx with ⟨-, rfl⟩ | ⟨-, hx⟩
    · rcases getElem?_set_cases hy with ⟨-, rfl⟩ | ⟨-, hy⟩
      · cases hstage.symm.trans hstage'
      · exact (hbefore connection n ticket progress hstage).1 k y tx n' ticket' progress' hy hstage' hwithin
    · rcases getElem?_set_cases hy with ⟨-, rfl⟩ | ⟨-, hy⟩
      · exact hafter tx n' ticket' progress' hstage' j x connection n ticket progress hx hstage hwithin
      · exact h.behind j k x y connection tx n ticket n' ticket' progress progress' hx hy hstage hstage' hwithin
  case ended => exact fun e he tx hrole => hended tx (h.ended e he tx hrole)
  case settled =>
    intro e he tx hrole j x connection n ticket progress hx hstage hwithin
    rcases getElem?_set_cases hx with ⟨-, rfl⟩ | ⟨-, hx⟩
    · exact (hbefore connection n ticket progress hstage).2 e he tx hrole hwithin
    · exact h.settled e he tx hrole j x connection n ticket progress hx hstage hwithin
  case order => exact h.order

/-- One more request is sent. -/
theorem Ordered.sends (h : Ordered members s history) {event : Event}
    (hclosing : ∀ tx, role = .closing tx → s.HasEnded tx ∧ ∀ (i : Nat) (m : Member)
      (connection : Option Nat) (n ticket : Nat) (progress : Progress), members[i]? = some m →
        m.stage = .going (.before connection) (.standing n ticket progress) →
          ¬ tx.marks <+: marksOf m.scope?)
    (hthrough : ∀ c, role = .through c → ∀ e ∈ history, ∀ tx, e.role = .closing tx → ¬ Encloses tx c) :
    Ordered members s (history ++ [⟨role, event⟩]) := by
  refine ⟨h.behind, fun e he tx hrole => ?_, fun e he tx hrole => ?_, ?_⟩
  · rcases List.mem_append.1 he with he | he
    · exact h.ended e he tx hrole
    · obtain rfl := List.mem_singleton.1 he
      exact (hclosing tx hrole).1
  · rcases List.mem_append.1 he with he | he
    · exact h.settled e he tx hrole
    · obtain rfl := List.mem_singleton.1 he
      intro i m connection n ticket progress hm hstage hwithin
      exact absurd hwithin ((hclosing tx hrole).2 i m connection n ticket progress hm hstage)
  · refine List.pairwise_append.2 ⟨h.order, List.pairwise_singleton _ _, fun e he e' he' tx c hrole hc => ?_⟩
    obtain rfl := List.mem_singleton.1 he'
    exact hthrough c hc e he tx hrole

/-! ## What acts keep -/

theorem sent_of_log {β : Type} {s s' : Store β} {events : List Event} (h : s'.log = s.log ++ events) :
    s.sent s' = events.filter Event.isSent := by
  rw [Store.sent, h, List.drop_left]

/-- Whoever sends nothing and gets in no line. -/
theorem Ordered.stays (h : Ordered members s history) (hi : members[i]? = some m)
    (hended : ∀ tx, s.HasEnded tx → s'.HasEnded tx) (hsent : s.sent s' = [])
    (hstands : ∀ part n ticket progress, stage' = .going part (.standing n ticket progress) →
      stage' = m.stage) :
    Ordered (members.set i ⟨m.scope?, stage'⟩) s' (history ++ (s.sent s').map (⟨role, ·⟩)) := by
  rw [hsent, List.map_nil, List.append_nil]
  exact h.elsewhere hended fun _ _ _ _ _ _ => standing_of_set hi hstands

/-- **Whoever gets in line through a client** does so while the scopes around it are open, so nobody
stands there who closes one of them. -/
theorem Ordered.comes (h : Ordered members s history) (hregistered : Registered m.stage members s)
    {connection : Option Nat} {n ticket : Nat} {progress : Progress}
    (hended : ∀ tx, s.HasEnded tx → s'.HasEnded tx)
    (hopen : ∀ scope, m.scope? = some scope → s.isOpen scope = true) :
    Ordered (members.set i ⟨m.scope?, .going (.before connection) (.standing n ticket progress)⟩) s'
      history := by
  refine h.of_own hended ?_ ?_
  · rintro _ _ _ _ ⟨⟩
    refine ⟨fun j m' tx n' ticket' progress' hj hstage' hwithin => ?_, fun e he tx hclosing hwithin => ?_⟩
    · exact absurd hwithin (hregistered.not_encloses (hregistered.hasEnded hj hstage') hopen)
    · exact absurd hwithin (hregistered.not_encloses (h.ended e he tx hclosing) hopen)
  · rintro _ _ _ _ ⟨⟩

/-- **Whoever gets in line to close a scope** gets a ticket behind all others. -/
theorem Ordered.comes_after (h : Ordered members s history)
    (hregistered : Registered m.stage members s) (hlined : Lined members s) (hi : members[i]? = some m)
    {n : Nat} (hended : ∀ tx, s.HasEnded tx → s'.HasEnded tx) (hstage : m.stage = .going (.after tx) .away)
    (hconnection : tx.connection? = some n) :
    Ordered (members.set i
      ⟨m.scope?, .going (.after tx) (.standing n (s.usageOf n).nextTicket .waiting)⟩) s' history := by
  refine h.of_own hended ?_ ?_
  · rintro _ _ _ _ ⟨⟩
  · rintro _ _ _ _ ⟨⟩ j x connection n' ticket' progress hj hstage' hwithin
    obtain ⟨rfl, hmem, -⟩ := hlined.held j x _ n' ticket' progress hj hstage'
    have hsame : n' = n := hregistered.same_connection hj hi hstage' hstage hconnection hwithin
    subst hsame
    exact hlined.next n' ticket' hmem

/-- Whoever is served, or sends its request, keeps its ticket. -/
theorem Ordered.goes_on (h : Ordered members s history) (hi : members[i]? = some m)
    {part : Part} {n ticket : Nat} {progress progress' : Progress}
    (hended : ∀ tx, s.HasEnded tx → s'.HasEnded tx)
    (hstage : m.stage = .going part (.standing n ticket progress))
    (hprogress : progress = .sent → progress' = .sent) :
    Ordered (members.set i ⟨m.scope?, .going part (.standing n ticket progress')⟩) s' history := by
  refine h.of_own hended ?_ ?_
  · rintro connection _ _ _ ⟨⟩
    refine ⟨fun j m' tx n' ticket' later hj hstage' => ?_, fun e he tx hclosing hwithin => hprogress ?_⟩
    · exact h.behind i j m m' connection tx n ticket n' ticket' progress later hi hj hstage hstage'
    · exact h.settled e he tx hclosing i m connection n ticket progress hi hstage hwithin
  · rintro tx _ _ _ ⟨⟩ j x connection n' ticket' earlier hj hstage'
    exact h.behind j i x m connection tx n' ticket' n ticket earlier progress hj hi hstage' hstage

section Turn

variable (h : Ordered members s history) (hregistered : Registered m.stage members s)
  (hlined : Lined members s) (hi : members[i]? = some m)

include h hregistered hlined hi

/-- **Whoever is served and closes a scope has let everyone pass who came through its clients.** -/
theorem Ordered.passed {n ticket : Nat} (hstage : m.stage = .going (.after tx) (.standing n ticket .served))
    {x : Member} {connection : Option Nat} {n' ticket' : Nat} {progress : Progress} (hj : members[j]? = some x)
    (hbefore : x.stage = .going (.before connection) (.standing n' ticket' progress)) :
    ¬ tx.marks <+: marksOf x.scope? := by
  intro hwithin
  obtain ⟨hconnection, -, hserved⟩ := hlined.held i m _ n ticket .served hi hstage
  obtain ⟨rfl, hmem, -⟩ := hlined.held j x _ n' ticket' progress hj hbefore
  have hsame : n' = n := hregistered.same_connection hj hi hbefore hstage hconnection hwithin
  subst hsame
  have hlt := h.behind j i x m _ tx n' ticket' n' ticket progress .served hj hi hbefore hstage hwithin
  exact Nat.not_le_of_lt hlt (hlined.le_of_served (hserved rfl) hmem)

variable [Backend β]

/-- A request is sent by whoever is served. -/
theorem Ordered.send {part : Part} {n ticket : Nat} {r : Request}
    (hstage : m.stage = .going part (.standing n ticket .served)) (hrole : role.Fits m.scope? s m.stage) :
    Ordered (members.set i ⟨m.scope?, .going part (.standing n ticket .sent)⟩) (s.send n r).2
      (history ++ [⟨role, r.event n⟩]) := by
  rw [hstage] at hrole
  have hkept (tx : Client) (htx : s.HasEnded tx) : (s.send n r).2.HasEnded tx := htx
  have hstanding : Ordered (members.set i ⟨m.scope?, .going part (.standing n ticket .sent)⟩)
      (s.send n r).2 history := h.goes_on hi hkept hstage fun _ => rfl
  refine hstanding.sends ?_ ?_
  · rintro tx rfl
    cases part with
    | before connection => exact absurd rfl (hrole.1 tx)
    | after tx' =>
      cases hrole
      refine ⟨hkept tx (hregistered.hasEnded hi hstage), fun j x connection n' ticket' progress hj hstage' => ?_⟩
      rcases getElem?_set_cases hj with ⟨-, rfl⟩ | ⟨-, hj⟩
      · cases hstage'
      · exact h.passed hregistered hlined hi hstage hj hstage'
  · rintro c rfl e he tx hclosing hencloses
    cases part with
    | before connection =>
      have hscope : c.scope = m.scope? := hrole.2 c rfl
      have hwithin : tx.marks <+: marksOf m.scope? := hscope ▸ hencloses
      cases h.settled e he tx hclosing i m connection n ticket .served hi hstage hwithin
    | after tx' => cases hrole

/-- **Every act keeps the order.** -/
theorem Ordered.act {owner : Option Nat} (hrole : polled = true → role.Fits m.scope? s m.stage)
    (hact : Act m.scope? owner polled m.stage s stage' s') :
    Ordered (members.set i ⟨m.scope?, stage'⟩) s' (history ++ (s.sent s').map (⟨role, ·⟩)) := by
  obtain ⟨scope?, stage⟩ := m
  have hended (tx : Client) (htx : s.HasEnded tx) : s'.HasEnded tx := hact.hasEnded htx
  have hsilent (hlog : s'.log = s.log) : s.sent s' = [] :=
    sent_of_log (hlog.trans (List.append_nil _).symm)
  have hunsent {members' : List Member} (hlog : s'.log = s.log) (h : Ordered members' s' history) :
      Ordered members' s' (history ++ (s.sent s').map (⟨role, ·⟩)) := by
    rwa [hsilent hlog, List.map_nil, List.append_nil]
  cases hact with
  | quiet hq => exact h.stays hi hended hq.sent fun _ _ _ _ _ => rfl
  | acquire hq _ => exact h.stays hi hended hq.sent fun _ _ _ _ h => by cases h
  | letIn _ _ => exact h.stays hi hended (hsilent rfl) fun _ _ _ _ h => by cases h
  | enqueue hscope =>
    obtain ⟨⟨scope, hscope', hopen⟩, -⟩ := hregistered.stages i _ hi
    refine hunsent rfl (h.comes hregistered hended fun scope'' hscope'' => ?_)
    obtain rfl : scope = scope'' := Option.some.inj (hscope'.symm.trans hscope'')
    exact hopen
  | @lineUp _ part n hconnection hwhose =>
    cases part with
    | before connection =>
      obtain rfl : scope? = none := hwhose.resolve_right fun ⟨tx, htx⟩ => by cases htx
      exact hunsent rfl (h.comes hregistered hended fun scope hscope => by cases hscope)
    | after tx => exact hunsent rfl (h.comes_after hregistered hlined hi hended rfl hconnection)
  | serve _ => exact hunsent rfl (h.goes_on hi hended rfl nofun)
  | @send _ part n ticket r hpolled =>
    have hlog : (s.send n r).2.log = s.log ++ [r.event n] := rfl
    rw [sent_of_log hlog, List.filter_cons, Request.isSent_event]
    exact h.send hregistered hlined hi rfl (hrole hpolled)
  | stepBack => exact h.stays hi hended (hsilent rfl) fun _ _ _ _ h => by cases h
  | opens _ _ => exact h.stays hi hended (hsilent rfl) fun _ _ _ _ h => by cases h
  | enter _ _ => exact h.stays hi hended (hsilent rfl) fun _ _ _ _ h => by cases h
  | hear _ _ => exact h.stays hi hended (hsilent rfl) fun _ _ _ _ h => by cases h
  | returns => exact h.stays hi hended (hsilent rfl) fun _ _ _ _ h => by cases h
  | giveUp _ => exact h.stays hi hended (hsilent rfl) fun _ _ _ _ h => by cases h
  | finish _ => exact h.stays hi hended (hsilent (Store.log_endScope _ s)) fun _ _ _ _ h => by cases h
  | finishAgain _ => exact h.stays hi hended (hsilent (Store.log_endScope _ s)) fun _ _ _ _ h => by cases h

end Turn

/-! ## Turns -/

/-- What holds while one future has its turn, whose stage is `moving`. -/
structure Sound (moving : Stage) (members : List Member) (s : Store (Watched β α))
    (history : List Sending) : Prop where
  registered : Registered moving members s
  lined : Lined members s
  ordered : Ordered members s history

/-- The log only grows. -/
theorem Act.log [Backend β] {owner : Option Nat} (hact : Act scope? owner polled stage s stage' s') :
    s.log <+: s'.log := by
  cases hact with
  | quiet hq => exact hq.log
  | acquire hq _ => exact hq.log
  | send _ => exact List.prefix_append _ _
  | finish _ => exact Store.log_endScope _ s ▸ List.prefix_refl _
  | finishAgain _ => exact Store.log_endScope _ s ▸ List.prefix_refl _
  | _ => exact List.prefix_refl _

theorem log_of_row [Backend β] {owner : Option Nat}
    (hrow : (Act scope? owner polled).Row stage s stage' s') : s.log <+: s'.log :=
  hrow.keeps (I := fun _ s₁ => s.log <+: s₁.log) (List.prefix_refl _)
    fun _ _ _ _ hact hlog => hlog.trans hact.log

/-- What is sent in two changes, one after the other. -/
theorem sent_trans {β : Type} {s s₁ s' : Store β} (h : s.log <+: s₁.log) (h' : s₁.log <+: s'.log) :
    s.sent s' = s.sent s₁ ++ s₁.sent s' := by
  obtain ⟨events, hevents⟩ := h
  obtain ⟨events', hevents'⟩ := h'
  have hboth : s'.log = s.log ++ (events ++ events') := by rw [← hevents', ← hevents, List.append_assoc]
  rw [sent_of_log hboth, sent_of_log hevents.symm, sent_of_log hevents'.symm, List.filter_append]

/-- **What one future does in its turn keeps everything**, if the others rest. -/
theorem Sound.row [Backend β] {owner : Option Nat} (h : Sound m.stage members s history) (hi : members[i]? = some m)
    (hothers : ∀ (j : Nat) (x : Member), members[j]? = some x → j ≠ i → x.stage.Rests)
    (hrole : polled = true → role.Fits m.scope? s m.stage)
    (howner : ∀ number, owner = some number → number = i)
    (hrow : (Act m.scope? owner polled).Row m.stage s stage' s') :
    Sound stage' (members.set i ⟨m.scope?, stage'⟩) s' (history ++ (s.sent s').map (⟨role, ·⟩)) := by
  obtain ⟨scope?, stage⟩ := m
  have hlt : i < members.length := (List.getElem?_eq_some_iff.1 hi).1
  have hkeeps := hrow.keeps (I := fun stage₁ s₁ =>
    Sound stage₁ (members.set i ⟨scope?, stage₁⟩) s₁ (history ++ (s.sent s₁).map (⟨role, ·⟩)) ∧
      (polled = true → role.Fits scope? s₁ stage₁) ∧ s.log <+: s₁.log)
  refine (hkeeps ⟨?_, hrole, List.prefix_refl _⟩ ?_).1
  · have hset : members.set i ⟨scope?, stage⟩ = members := by
      rw [← (List.getElem?_eq_some_iff.1 hi).2, List.set_getElem_self]
    have hsent : s.sent s = [] := sent_of_log (List.append_nil _).symm
    rw [hset, hsent, List.map_nil, List.append_nil]
    exact h
  · rintro stage₁ s₁ stage₂ s₂ hact ⟨hsound, hfits, hlog⟩
    have hi' : (members.set i ⟨scope?, stage₁⟩)[i]? = some ⟨scope?, stage₁⟩ := List.getElem?_set_self hlt
    have hothers' (j : Nat) (x : Member) (hx : (members.set i ⟨scope?, stage₁⟩)[j]? = some x) (hne : j ≠ i) :
        x.stage.Rests := hothers j x ((List.getElem?_set_ne (Ne.symm hne)).symm.trans hx) hne
    have hregistered := hsound.registered.act hi' hothers' howner hact
    have hlined := hsound.lined.act hi' hothers' hsound.registered hact
    have hordered := hsound.ordered.act hsound.registered hsound.lined hi' hfits hact
    rw [List.set_set] at hregistered hlined hordered
    rw [List.append_assoc, ← List.map_append, ← sent_trans hlog hact.log] at hordered
    refine ⟨⟨hregistered, hlined, hordered⟩, fun hpolled => ?_, hlog.trans hact.log⟩
    subst hpolled
    exact (hfits rfl).act hsound.registered.decisions hact

end SqlClient
