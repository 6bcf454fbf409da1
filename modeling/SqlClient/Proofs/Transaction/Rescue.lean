import SqlClient.Proofs.Transaction.Gate
import SqlClient.Proofs.Transaction.Savepoints
/-!
# Transactions — when a rescue comes

A scope that is given up leaves its rollback to a task. The task gets in line for the connection when it
is first polled, not when the scope is given up, so what the scope around it sends or lines up for before
that goes first, its COMMIT included (`Assembly.late_rescue`). From its first poll on the task keeps its
place: whatever gets in line later is sent after the rollback (`Assembly.rescued_before`). The invariant
that carries this is that the ticket of the task is in line and that those who have come since stand
behind it (`Assembly.Pending`).
-/

namespace SqlClient

open Coroutine

variable {β α : Type}

/-! ## A place in line -/

namespace Store

variable {s s' : Store (Watched β α)} {m n t ticket : Nat}

/-- A ticket is in the line of a connection, and the line is in order. -/
structure Keeps (n ticket : Nat) (s : Store (Watched β α)) : Prop where
  held : ticket ∈ s.ticketsOf n
  ascending : (s.ticketsOf n).Pairwise (· < ·)
  next : ∀ t ∈ s.ticketsOf n, t < (s.usageOf n).nextTicket
  there : n ≤ s.attempts

theorem Keeps.of_lineOf (h : s.Keeps n ticket) (hline : s'.lineOf n = s.lineOf n)
    (hattempts : s.attempts ≤ s'.attempts) : s'.Keeps n ticket := by
  have htickets : s'.ticketsOf n = s.ticketsOf n := ticketsOf_eq_of_lineOf hline
  have hnext : (s'.usageOf n).nextTicket = (s.usageOf n).nextTicket := congrArg Prod.snd hline
  exact ⟨htickets ▸ h.held, htickets ▸ h.ascending, fun t ht => hnext ▸ h.next t (htickets ▸ ht),
    Nat.le_trans h.there hattempts⟩

theorem Keeps.elsewhere (h : s.Keeps n ticket) (he : s.Elsewhere s') : s'.Keeps n ticket := by
  refine h.of_lineOf ((he.lines n).resolve_right fun ⟨hlt, _⟩ => ?_) he.attempts
  exact Nat.lt_irrefl _ (Nat.lt_of_lt_of_le hlt h.there)

/-- Others get in line. -/
theorem Keeps.takeTicket (h : s.Keeps n ticket) (m : Nat) : (s.takeTicket m).2.Keeps n ticket := by
  by_cases hm : n = m
  · subst hm
    have hnext : ((s.takeTicket n).2.usageOf n).nextTicket = (s.usageOf n).nextTicket + 1 :=
      congrArg Prod.snd (s.lineOf_takeTicket n)
    have htickets : (s.takeTicket n).2.ticketsOf n = s.ticketsOf n ++ [(s.usageOf n).nextTicket] :=
      s.ticketsOf_takeTicket n
    refine ⟨?_, ?_, fun t ht => ?_, h.there⟩
    · rw [htickets]
      exact List.mem_append_left _ h.held
    · rw [htickets, List.pairwise_append]
      refine ⟨h.ascending, List.pairwise_singleton _ _, fun a ha b hb => ?_⟩
      rw [List.mem_singleton.1 hb]
      exact h.next a ha
    · rw [htickets] at ht
      rw [hnext]
      rcases List.mem_append.1 ht with ht | ht
      · exact Nat.lt_succ_of_lt (h.next t ht)
      · rw [List.mem_singleton.1 ht]
        exact Nat.lt_succ_self _
  · exact h.of_lineOf (lineOf_takeTicket_of_ne hm) (Nat.le_refl _)

/-- Others step back. -/
theorem Keeps.returnTicket (h : s.Keeps n ticket) (hne : m = n → t ≠ ticket) :
    (s.returnTicket m t).Keeps n ticket := by
  by_cases hm : n = m
  · subst hm
    have hnext : ((s.returnTicket n t).usageOf n).nextTicket = (s.usageOf n).nextTicket :=
      congrArg Prod.snd (s.lineOf_returnTicket n t)
    have htickets : (s.returnTicket n t).ticketsOf n = (s.ticketsOf n).filter (· ≠ t) :=
      s.ticketsOf_returnTicket n t
    refine ⟨?_, ?_, fun t' ht => ?_, h.there⟩
    · rw [htickets]
      exact List.mem_filter.2 ⟨h.held, by simpa using (hne rfl).symm⟩
    · rw [htickets]
      exact h.ascending.filter _
    · rw [htickets] at ht
      exact hnext ▸ h.next t' (List.mem_of_mem_filter ht)
  · exact h.of_lineOf (lineOf_returnTicket_of_ne hm) (Nat.le_refl _)

/-- Nobody behind the ticket is served. -/
theorem Keeps.not_served (h : s.Keeps n ticket) (ht : ticket < t) : s.isServed n t = false := by
  rw [Bool.eq_false_iff, Ne, isServed_iff]
  intro hhead
  have hascending := h.ascending
  have hheld := h.held
  cases htickets : s.ticketsOf n with
  | nil =>
    rw [htickets] at hhead
    cases hhead
  | cons first others =>
    rw [htickets] at hhead hascending hheld
    obtain rfl := Option.some.inj hhead
    rcases List.mem_cons.1 hheld with rfl | hheld
    · exact Nat.lt_irrefl _ ht
    · exact Nat.lt_asymm ht ((List.pairwise_cons.1 hascending).1 ticket hheld)

end Store

namespace Stage

/-- Whoever is in the stage does not stand with the ticket. -/
def Apart (n ticket : Nat) : Stage → Prop
  | .going _ (.standing m t _) => m = n → t ≠ ticket
  | _ => True

/-- Whoever is in the stage stands behind the ticket, if in the same line. -/
def Behind (n ticket : Nat) : Stage → Prop
  | .going _ (.standing m t progress) => m = n → ticket < t ∧ progress = .waiting
  | _ => True

theorem Behind.apart {n ticket : Nat} {stage : Stage} (h : stage.Behind n ticket) :
    stage.Apart n ticket := by
  cases stage with
  | going part line =>
    cases line with
    | away => trivial
    | standing m t progress => exact fun hm => Nat.ne_of_gt (h hm).1
  | _ => trivial

/-- Whoever stands nowhere stands behind every ticket. -/
theorem behind_of_away {n ticket : Nat} {stage : Stage}
    (h : ∃ connection, stage = .going (.before connection) .away) : stage.Behind n ticket := by
  obtain ⟨connection, rfl⟩ := h
  trivial

end Stage

/-! ## What the others do -/

section Acts

variable [Backend β] {scope? : Option Scope} {owner : Option Nat} {polled : Bool}
  {stage stage' : Stage} {s s' : Store (Watched β α)} {n ticket : Nat}

/-- Whoever acts leaves the ticket alone, and never gets it. -/
theorem Act.apart (hact : Act scope? owner polled stage s stage' s') (h : s.Keeps n ticket)
    (hstage : stage.Apart n ticket) : s'.Keeps n ticket ∧ stage'.Apart n ticket := by
  have hnew (part : Part) (m : Nat) : (s.takeTicket m).2.Keeps n ticket ∧
      (Stage.going part (.standing m (s.usageOf m).nextTicket .waiting)).Apart n ticket := by
    refine ⟨h.takeTicket m, ?_⟩
    rintro rfl
    exact Nat.ne_of_gt (h.next ticket h.held)
  cases hact with
  | quiet hq => exact ⟨h.elsewhere hq.toElsewhere, hstage⟩
  | acquire hq _ => exact ⟨h.elsewhere hq.toElsewhere, trivial⟩
  | enqueue _ => exact hnew _ _
  | lineUp _ _ => exact hnew _ _
  | serve _ => exact ⟨h, hstage⟩
  | send _ => exact ⟨h.of_lineOf (s.lineOf_send _ _ n) (Nat.le_refl _), hstage⟩
  | stepBack => exact ⟨h.returnTicket hstage, trivial⟩
  | finish _ | finishAgain _ =>
    exact ⟨h.of_lineOf (s.lineOf_endScope _ n) (Nat.le_of_eq (s.attempts_endScope _).symm), trivial⟩
  | letIn _ _ | opens _ _ | enter _ _ | hear _ _ | returns | giveUp _ =>
    exact ⟨h.of_lineOf rfl (Nat.le_refl _), trivial⟩

/-- Whoever stands behind the ticket stays behind it, and sends nothing over the connection. -/
theorem Act.behind (hact : Act scope? owner polled stage s stage' s') (h : s.Keeps n ticket)
    (hstage : stage.Behind n ticket) :
    stage'.Behind n ticket ∧ ∀ e ∈ s.sent s', e.connection ≠ n := by
  have hnone (hsent : s.sent s' = []) : ∀ e ∈ s.sent s', e.connection ≠ n := by
    rw [hsent]
    rintro e ⟨⟩
  have hsilent (hlog : s'.log = s.log) : ∀ e ∈ s.sent s', e.connection ≠ n :=
    hnone (sent_of_log (hlog.trans (List.append_nil _).symm))
  have hnew (part : Part) (m : Nat) :
      (Stage.going part (.standing m (s.usageOf m).nextTicket .waiting)).Behind n ticket := by
    rintro rfl
    exact ⟨h.next ticket h.held, rfl⟩
  cases hact with
  | quiet hq => exact ⟨hstage, hnone hq.sent⟩
  | acquire hq _ => exact ⟨trivial, hnone hq.sent⟩
  | enqueue _ => exact ⟨hnew _ _, hsilent rfl⟩
  | lineUp _ _ => exact ⟨hnew _ _, hsilent rfl⟩
  | serve hserved =>
    refine ⟨?_, hsilent rfl⟩
    rintro rfl
    rw [h.not_served (hstage rfl).1] at hserved
    cases hserved
  | @send _ part m t r _ =>
    -- whoever has been served does not stand behind the ticket, so this is another line
    have hm : m ≠ n := fun hm => by cases (hstage hm).2
    have hlog : (s.send m r).2.log = s.log ++ [r.event m] := rfl
    refine ⟨fun hm' => absurd hm' hm, ?_⟩
    rw [sent_of_log hlog]
    intro e he
    obtain rfl := List.mem_singleton.1 (List.mem_of_mem_filter he)
    cases r <;> exact hm
  | stepBack => exact ⟨trivial, hsilent rfl⟩
  | finish _ | finishAgain _ => exact ⟨trivial, hsilent (s.log_endScope _)⟩
  | letIn _ _ | opens _ _ | enter _ _ | hear _ _ | returns | giveUp _ => exact ⟨trivial, hsilent rfl⟩

theorem apart_of_row (hrow : (Act scope? owner polled).Row stage s stage' s') (h : s.Keeps n ticket)
    (hstage : stage.Apart n ticket) : s'.Keeps n ticket ∧ stage'.Apart n ticket :=
  hrow.keeps (I := fun stage s => s.Keeps n ticket ∧ stage.Apart n ticket) ⟨h, hstage⟩
    fun _ _ _ _ hact ⟨h, hstage⟩ => hact.apart h hstage

theorem behind_of_row (hrow : (Act scope? owner polled).Row stage s stage' s') (h : s.Keeps n ticket)
    (hstage : stage.Behind n ticket) :
    stage'.Behind n ticket ∧ ∀ e ∈ s.sent s', e.connection ≠ n := by
  have hnone : s.sent s = [] := sent_of_log (List.append_nil _).symm
  have hall := hrow.keeps (I := fun stage₁ s₁ => s₁.Keeps n ticket ∧ stage₁.Behind n ticket ∧
    s.log <+: s₁.log ∧ ∀ e ∈ s.sent s₁, e.connection ≠ n)
  refine (fun ⟨_, hbehind, _, hsent⟩ => ⟨hbehind, hsent⟩) (hall ⟨h, hstage, List.prefix_refl _, ?_⟩ ?_)
  · rw [hnone]
    rintro e ⟨⟩
  · rintro stage₁ s₁ stage₂ s₂ hact ⟨hkeeps, hbehind, hlog, hsent⟩
    obtain ⟨hbehind', hsent'⟩ := hact.behind hkeeps hbehind
    refine ⟨(hact.apart hkeeps hbehind.apart).1, hbehind', hlog.trans hact.log, ?_⟩
    rw [sent_trans hlog hact.log]
    exact List.forall_mem_append.2 ⟨hsent, hsent'⟩

end Acts

/-! ## The code of a rescue -/

section Code

variable [Backend β]

omit [Backend β] in
/-- The code of a rescue, up to its rollback. -/
theorem rescue_eq {σ : Type} [Backend σ] (n : Nat) (sql : String) (isRoot : Bool) :
    ∃ (tail : Nat → Coroutine (Store σ) (Outcome ResultSet))
      (k₁ : Nat → Outcome ResultSet → Coroutine (Store σ) Unit) (k₂ : Unit → Coroutine (Store σ) Unit),
      Transaction.rescue n sql isRoot = .guarded (Store.letGo n) none
        (.step (Store.takeTicket n) fun ticket => .guarded (Store.returnTicket n ticket) none
          (.await (Store.isServed n ticket) (.step (Store.send n (.script sql)) tail)) (k₁ ticket)) k₂ :=
  ⟨_, _, _, rfl⟩

/-- **A rescue gets in line in its first poll**, and sends its rollback when its turn has come. -/
theorem rescue_lines_up (n : Nat) (sql : String) (isRoot : Bool) :
    ∃ waiting : Nat → Coroutine (Store (Watched β α)) Unit,
      (∀ w, (Transaction.rescue n sql isRoot).poll w =
        (waiting (w.state.takeTicket n).1).poll { w with state := (w.state.takeTicket n).2 }) ∧
      ∀ s : Store (Watched β α), Awaits n (s.takeTicket n).1 (.script sql) (waiting (s.takeTicket n).1) := by
  obtain ⟨tail, k₁, k₂, hcode⟩ := rescue_eq (σ := Watched β α) n sql isRoot
  refine ⟨fun ticket => .guarded (Store.letGo n) none (.guarded (Store.returnTicket n ticket) none
    (.await (Store.isServed n ticket) (.step (Store.send n (.script sql)) tail)) (k₁ ticket)) k₂,
    fun w => ?_, fun s w => ⟨fun hwaits => ?_, fun hserved => ?_⟩⟩
  · rw [hcode]
    simp [Coroutine.poll]
  · simp [Coroutine.poll, hwaits]
  · -- what comes after the rollback keeps to the protocol of a rescue, so it takes nothing back
    obtain ⟨Q, D, hbody, hk₂, hcleanup⟩ := hcode ▸ plays_rescue (β := β) (α := α) n sql isRoot
    obtain ⟨stage₁, -, Q', D', ⟨-, -, hwaiting⟩, hk₁, hcleanup'⟩ := hbody s
    obtain ⟨stage₂, -, hsend⟩ := hwaiting w.state hserved
    obtain ⟨stage₃, -, htail⟩ := hsend w.state
    have hrest : (Coroutine.guarded (Store.letGo n) none (.guarded (Store.returnTicket n (s.takeTicket n).1)
        none (tail (w.state.send n (.script sql)).1) (k₁ (s.takeTicket n).1)) k₂).Plays taskRules stage₃
          (fun stage _ => stage.Rests) Stage.Rests :=
      ⟨Q, D, ⟨Q', D', htail, hk₁, hcleanup'⟩, hk₂, hcleanup⟩
    have hsent := sent_of_plays (s := w.state) (w := { w with state := (w.state.send n (.script sql)).2 })
      hrest rfl
    simpa [Coroutine.poll, hserved] using hsent

end Code

/-! ## Those who come later -/

namespace Assembly

variable [Backend β] {members members' : List Member} {A B B' : Assembly β α} {i j k n ticket : Nat}
  {r : Request} {late : Nat → Prop}

/-- The future is not there yet, or it is the transaction of a scope whose operation has not been left.
Such a future has still to get in line for whatever it sends next. -/
def Later (A : Assembly β α) (j : Nat) : Prop :=
  A.futures.length ≤ j ∨ ∃ v ∈ A.store.backend.visits, v.owner = j ∧ v.departure = none

/-- Whoever comes later stands nowhere. -/
theorem Orderly.later (h : Orderly members A) (hj : A.Later j) {m : Member} (hm : members[j]? = some m) :
    m.stage.Behind n ticket := by
  rcases hj with hlength | ⟨v, hv, howner, hdeparture⟩
  · have hlt := (List.getElem?_eq_some_iff.1 hm).1
    exact absurd (h.length ▸ hlt) (Nat.not_lt.2 hlength)
  · obtain ⟨place, hplace⟩ := List.mem_iff_getElem?.1 hv
    have hregistered := h.sound.registered.stages j m hm
    obtain ⟨scope?, stage⟩ := m
    cases stage with
    | going part line =>
      cases part with
      | before connection => exact absurd howner (hregistered.2.2 v hv)
      | after tx =>
        -- a transaction that closes its scope has left its operation
        obtain ⟨place', departure, hvisit, -⟩ := hregistered
        obtain rfl := h.sound.registered.owners place place' v _ hplace hvisit howner
        obtain rfl := Option.some.inj (hplace.symm.trans hvisit)
        cases hdeparture
    | _ => trivial

/-- No task comes later. -/
theorem Orderly.not_later (h : Orderly members A) {rest : Coroutine (Store (Watched β α)) Unit}
    (hk : A.futures[k]? = some (.task rest)) : ¬ A.Later k := by
  obtain ⟨m, hm, -, ⟨-, hfore, -⟩, -⟩ := h.member hk
  have hregistered := h.sound.registered.stages k m hm
  rintro (hlength | ⟨v, hv, howner, -⟩)
  · exact absurd (List.getElem?_eq_some_iff.1 hk).1 (Nat.not_lt.2 hlength)
  · obtain ⟨scope?, stage⟩ := m
    cases stage with
    | going part line =>
      cases part with
      | before connection => exact hregistered.2.2 v hv howner
      | after tx => exact hfore
    | admitted => exact hregistered.2 v hv howner
    | opened scope => exact hregistered.2.2.2 v hv howner
    | _ => exact hfore

/-! ## Turns of the task and of the others -/

section Turns

omit [Backend β]

variable {f : Future β α} {rest : Coroutine (Store (Watched β α)) Unit}

/-- What a task sends first in its turn is sent since then. -/
theorem mem_history_poll {e : Event} {later : List Event} (hk : A.futures[k]? = some (.task rest))
    (hsent : A.store.sent (rest.poll (Turn.start A.store false)).2.state = e :: later) :
    ⟨.rescuing, e⟩ ∈ (A.poll k).history.drop A.history.length := by
  rw [Assembly.poll, hk]
  simp only [Future.poll, Assembly.afterTurn, hsent, List.drop_left, List.map_cons]
  exact List.mem_cons_self

/-- A task that waits on leaves everything as it is. -/
theorem poll_of_waiting (hk : A.futures[k]? = some (.task rest))
    (hwaits : rest.poll (Turn.start A.store false) = (rest, Turn.start A.store false)) :
    A.poll k = A := by
  have hpoll : (Future.task rest).poll (Turn.start A.store false) =
      (.task rest, Turn.start A.store false) := by
    rw [Future.poll, hwaits]
  rw [Assembly.poll, hk]
  simp only [hpoll, afterTurn_start hk]

/-- Nobody can give up a task. -/
theorem drop_task (hk : A.futures[k]? = some (.task rest)) : A.drop k = A := by
  have hdrop : (Future.task rest).drop (Turn.start A.store false) =
      (.task rest, Turn.start A.store false) := rfl
  rw [Assembly.drop, hk]
  simp only [hdrop, afterTurn_start hk]

theorem getElem?_afterTurn_of_ne {f' g : Future β α} {w : Turn (Store (Watched β α))} (hne : i ≠ k)
    (hk : A.futures[k]? = some g) : (A.afterTurn i f f' w).futures[k]? = A.futures[k]? := by
  have hlt : k < A.futures.length := (List.getElem?_eq_some_iff.1 hk).1
  rw [Assembly.afterTurn, List.getElem?_append_left (by simpa using hlt), List.getElem?_set_ne hne]

theorem getElem?_poll_of_ne (hne : i ≠ k) (hk : A.futures[k]? = some f) :
    (A.poll i).futures[k]? = A.futures[k]? := by
  rw [Assembly.poll]
  split
  · rfl
  · exact getElem?_afterTurn_of_ne hne hk

theorem getElem?_drop_of_ne (hne : i ≠ k) (hk : A.futures[k]? = some f) :
    (A.drop i).futures[k]? = A.futures[k]? := by
  rw [Assembly.drop]
  split
  · rfl
  · exact getElem?_afterTurn_of_ne hne hk

end Turns

/-- The task `k` waits in line with its ticket, and those who come later stand behind it. -/
structure Pending (k n ticket : Nat) (r : Request) (late : Nat → Prop) (members : List Member)
    (B : Assembly β α) : Prop where
  orderly : Orderly members B
  keeps : B.store.Keeps n ticket
  task : ∃ rest, B.futures[k]? = some (.task rest) ∧ Awaits n ticket r rest
  apart : ∀ (j : Nat) (m : Member), j ≠ k → members[j]? = some m → m.stage.Apart n ticket
  behind : ∀ (j : Nat) (m : Member), late j → members[j]? = some m → m.stage.Behind n ticket

/-- Somebody else has had a turn. -/
theorem Pending.onward (h : Pending k n ticket r late members B) (hne : i ≠ k)
    {m : Member} (hi : members[i]? = some m) (horderly : Orderly members' B')
    (honward : Onward i members members' B.store B'.store) (hsame : B'.futures[k]? = B.futures[k]?) :
    Pending k n ticket r late members' B' := by
  obtain ⟨owner, polled, stage', hrow, hi'⟩ := honward.moves m hi
  obtain ⟨hkeeps, hapart⟩ := apart_of_row hrow h.keeps (h.apart i m hne hi)
  refine ⟨horderly, hkeeps, hsame ▸ h.task, fun j x hj hx => ?_, fun j x hj hx => ?_⟩
  · by_cases hmoved : j = i
    · subst hmoved
      obtain rfl := Option.some.inj (hx.symm.trans hi')
      exact hapart
    · rcases honward.was hmoved hx with hold | haway
      · exact h.apart j x hj hold
      · exact (Stage.behind_of_away haway).apart
  · by_cases hmoved : j = i
    · subst hmoved
      obtain rfl := Option.some.inj (hx.symm.trans hi')
      exact (behind_of_row hrow h.keeps (h.behind j m hj hi)).1
    · rcases honward.was hmoved hx with hold | haway
      · exact h.behind j x hj hold
      · exact Stage.behind_of_away haway

/-- Somebody has come. -/
theorem Pending.join (h : Pending k n ticket r late members B) {f : Future β α} {x : Member}
    (horderly : Orderly (members ++ [x]) { B with futures := B.futures ++ [f] })
    (hx : ∃ connection, x.stage = .going (.before connection) .away) :
    Pending k n ticket r late (members ++ [x]) { B with futures := B.futures ++ [f] } := by
  obtain ⟨rest, hrest, hawaits⟩ := h.task
  refine ⟨horderly, h.keeps, ⟨rest, ?_, hawaits⟩, fun j y hj hy => ?_, fun j y hj hy => ?_⟩
  · rw [List.getElem?_append_left (List.getElem?_eq_some_iff.1 hrest).1]
    exact hrest
  · rcases getElem?_concat_cases hy with hy | ⟨-, rfl⟩
    · exact h.apart j y hj hy
    · exact (Stage.behind_of_away hx).apart
  · rcases getElem?_concat_cases hy with hy | ⟨-, rfl⟩
    · exact h.behind j y hj hy
    · exact Stage.behind_of_away hx

/-- The task itself is polled: it waits on, or it sends its request. -/
theorem Pending.poll (h : Pending k n ticket r late members B) :
    Pending k n ticket r late members (B.poll k) ∨
      ⟨.rescuing, r.event n⟩ ∈ (B.poll k).history.drop B.history.length := by
  obtain ⟨rest, hrest, hawaits⟩ := h.task
  obtain ⟨hwaits, hsends⟩ := hawaits (Turn.start B.store false)
  cases hserved : B.store.isServed n ticket with
  | false =>
    rw [poll_of_waiting hrest (hwaits hserved)]
    exact .inl h
  | true =>
    obtain ⟨later, hlater⟩ := hsends hserved
    exact .inr (mem_history_poll hrest hlater)

/-- **The task keeps its place until its rollback is sent.** -/
theorem Pending.step (h : Pending k n ticket r late members B) (hstep : Step B B') :
    (∃ members', Pending k n ticket r late members' B') ∨
      ⟨.rescuing, r.event n⟩ ∈ B'.history.drop B.history.length := by
  obtain ⟨rest, hrest, hawaits⟩ := h.task
  cases hstep with
  | issue hc => exact .inl ⟨_, h.join (h.orderly.issue hc _) ⟨_, rfl⟩⟩
  | begin hc => exact .inl ⟨_, h.join (h.orderly.begin hc) ⟨_, rfl⟩⟩
  | others he =>
    refine .inl ⟨members, h.orderly.elsewhere he, h.keeps.elsewhere he, ⟨rest, hrest, hawaits⟩, h.apart,
      h.behind⟩
  | poll i =>
    -- the task itself waits or sends; any other future stays behind it
    by_cases hne : i = k
    · subst hne
      exact h.poll.imp_left fun h => ⟨members, h⟩
    · cases hf : B.futures[i]? with
      | none =>
        rw [Assembly.poll, hf]
        exact .inl ⟨members, h⟩
      | some f =>
        obtain ⟨m, hi, -⟩ := h.orderly.member hf
        obtain ⟨members', horderly, honward⟩ := h.orderly.poll hf
        exact .inl ⟨members', h.onward hne hi horderly honward (getElem?_poll_of_ne hne hrest)⟩
  | drop i =>
    by_cases hne : i = k
    · subst hne
      rw [drop_task hrest]
      exact .inl ⟨members, h⟩
    · cases hf : B.futures[i]? with
      | none =>
        rw [Assembly.drop, hf]
        exact .inl ⟨members, h⟩
      | some f =>
        obtain ⟨m, hi, -⟩ := h.orderly.member hf
        obtain ⟨members', horderly, honward⟩ := h.orderly.drop hf
        exact .inl ⟨members', h.onward hne hi horderly honward (getElem?_drop_of_ne hne hrest)⟩

/-- What has been sent stays so. -/
theorem history_grows (hstep : Step B B') : B.history <+: B'.history := by
  have hafter (i : Nat) (f f' : Future β α) (w : Turn (Store (Watched β α))) :
      B.history <+: (B.afterTurn i f f' w).history := List.prefix_append _ _
  cases hstep with
  | issue _ | begin _ | others _ => exact List.prefix_refl _
  | poll i =>
    rw [Assembly.poll]
    split
    · exact List.prefix_refl _
    · exact hafter _ _ _ _
  | drop i =>
    rw [Assembly.drop]
    split
    · exact List.prefix_refl _
    · exact hafter _ _ _ _

theorem history_grows_of_steps (hsteps : Relation.ReflTransGen Step B B') : B.history <+: B'.history := by
  induction hsteps with
  | refl => exact List.prefix_refl _
  | tail _ hstep ih => exact ih.trans (history_grows hstep)

omit [Backend β] in
/-- What was sent since then was sent since before. -/
theorem mem_history_drop {e : Sending} (h : A.history <+: B.history) (h' : B.history <+: B'.history)
    (he : e ∈ B'.history.drop B.history.length ∨ e ∈ B.history.drop A.history.length) :
    e ∈ B'.history.drop A.history.length := by
  obtain ⟨sent, hsent⟩ := h
  obtain ⟨sent', hsent'⟩ := h'
  rw [← hsent', ← hsent, List.append_assoc, List.drop_left]
  rw [← hsent', List.drop_left, ← hsent, List.drop_left] at he
  exact List.mem_append.2 he.symm

/-- Nobody stands in line with the ticket that is handed out next. -/
theorem Orderly.apart_next (h : Orderly members A) {m : Member} (hj : members[j]? = some m) :
    m.stage.Apart n (A.store.takeTicket n).1 := by
  obtain ⟨scope?, stage⟩ := m
  cases stage with
  | going part line =>
    cases line with
    | away => trivial
    | standing l t progress =>
      rintro rfl
      have hmem := (h.sound.lined.held j _ part l t progress hj rfl).2.1
      exact Nat.ne_of_lt (h.sound.lined.next l t hmem)
  | _ => trivial

/-- **The first poll of a rescue.** Its rollback is sent at once, or it gets in line before everybody
who comes later. -/
theorem Orderly.rescue (h : Orderly members A) (hn : n ≤ A.store.attempts) {undo : String}
    {isRoot : Bool} (hk : A.futures[k]? = some (.task (Transaction.rescue n undo isRoot))) :
    (∃ ticket members', Pending k n ticket (.script undo) A.Later members' (A.poll k)) ∨
      ⟨.rescuing, .script n undo⟩ ∈ (A.poll k).history.drop A.history.length := by
  obtain ⟨waiting, hpoll, hawaits⟩ := rescue_lines_up (β := β) (α := α) n undo isRoot
  have hfirst := hpoll (Turn.start A.store false)
  obtain ⟨hwaits, hsends⟩ := hawaits A.store { Turn.start A.store false with state := (A.store.takeTicket n).2 }
  cases hserved : (A.store.takeTicket n).2.isServed n (A.store.takeTicket n).1 with
  | true =>
    obtain ⟨later, hlater⟩ := hsends hserved
    refine .inr (mem_history_poll hk (?_ : _ = _ :: later))
    rw [hfirst]
    exact hlater
  | false =>
    -- it waits, so its first turn did nothing but take the ticket
    obtain ⟨m, hi, -⟩ := h.member hk
    obtain ⟨members', horderly, honward⟩ := h.poll hk
    have hstands : (Transaction.rescue n undo isRoot).poll (Turn.start A.store false) =
        (waiting (A.store.takeTicket n).1, { Turn.start A.store false with state := (A.store.takeTicket n).2 }) :=
      hfirst.trans (hwaits hserved)
    have hstore : (A.poll k).store = (A.store.takeTicket n).2 := by
      rw [Assembly.poll, hk]
      simp only [Future.poll, Assembly.afterTurn, hstands]
    have htask : (A.poll k).futures[k]? = some (.task (waiting (A.store.takeTicket n).1)) := by
      have hlt : k < A.futures.length := (List.getElem?_eq_some_iff.1 hk).1
      rw [Assembly.poll, hk]
      simp only [Future.poll, Assembly.afterTurn, hstands]
      rw [List.getElem?_append_left (by simpa using hlt), List.getElem?_set_self hlt]
    have hlined := horderly.sound.lined
    have hkeeps : (A.poll k).store.Keeps n (A.store.takeTicket n).1 := by
      refine ⟨?_, hlined.ascending n, hlined.next n, ?_⟩
      · rw [hstore, Store.ticketsOf_takeTicket]
        exact List.mem_append_right _ (List.mem_singleton_self _)
      · rw [hstore]
        exact hn
    refine .inl ⟨(A.store.takeTicket n).1, members', horderly, hkeeps, ⟨_, htask, hawaits A.store⟩,
      fun j x hj hx => ?_, fun j x hj hx => ?_⟩
    · rcases honward.was hj hx with hold | haway
      · exact h.apart_next hold
      · exact (Stage.behind_of_away haway).apart
    · have hne : j ≠ k := fun heq => h.not_later hk (heq ▸ hj)
      rcases honward.was hne hx with hold | haway
      · exact h.later hj hold
      · exact Stage.behind_of_away haway

/-- **From its first poll on, a rescue goes before whoever comes later.** Take any assembly that can be
reached, and any task in it that rolls back a scope that was given up. Once the task has been polled,
nothing is sent over the connection of the scope by a future that was not there yet, or by a transaction
whose operation had not been left yet, unless the rollback of the scope has been sent before. -/
theorem rescued_before {database : β} {cache : RequestCache CacheKey Nat}
    (hA : Relation.ReflTransGen Step (start (Store.start ⟨database, [], []⟩ cache)) A) {v : Visit α}
    (hv : v ∈ A.store.backend.visits) {scope : Scope} (hscope : v.client.scope = some scope)
    {undo : String} {isRoot : Bool}
    (hk : A.futures[k]? = some (.task (Transaction.rescue scope.connection undo isRoot)))
    (hB : Relation.ReflTransGen Step (A.poll k) B) (hj : A.Later j) {e : Event}
    (he : e ∈ B.store.sent (B.poll j).store) (hconnection : e.connection = scope.connection) :
    ⟨.rescuing, .script scope.connection undo⟩ ∈ B.history.drop A.history.length := by
  obtain ⟨members, h⟩ := orderly_of_steps hA
  have hn : scope.connection ≤ A.store.attempts := by
    obtain ⟨place, hplace⟩ := List.mem_iff_getElem?.1 hv
    obtain ⟨scope', hscope', hle, -⟩ := h.sound.registered.nested place v hplace
    obtain rfl := Option.some.inj (hscope'.symm.trans hscope)
    exact hle
  have hfirst : A.history <+: (A.poll k).history := history_grows (.poll k)
  -- the task waits in line or has sent its rollback, after every further step
  have hwaiting : (∃ ticket members',
      Pending k scope.connection ticket (.script undo) A.Later members' B) ∨
        ⟨.rescuing, .script scope.connection undo⟩ ∈ B.history.drop A.history.length := by
    clear he
    induction hB with
    | refl => exact h.rescue hn hk
    | @tail B B' hsteps hstep ih =>
      have hgrown : A.history <+: B.history := hfirst.trans (history_grows_of_steps hsteps)
      rcases ih with ⟨ticket, members', hpending⟩ | hsent
      · exact (hpending.step hstep).imp (fun ⟨members'', h⟩ => ⟨ticket, members'', h⟩)
          fun hsent => mem_history_drop hgrown (history_grows hstep) (.inl hsent)
      · exact .inr (mem_history_drop hgrown (history_grows hstep) (.inr hsent))
  refine hwaiting.resolve_left ?_
  rintro ⟨ticket, members', hpending⟩
  cases hf : B.futures[j]? with
  | none =>
    have hnone : B.store.sent B.store = [] := sent_of_log (List.append_nil _).symm
    rw [Assembly.poll, hf] at he
    simp only [hnone] at he
    cases he
  | some f =>
    obtain ⟨m, hm, -⟩ := hpending.orderly.member hf
    obtain ⟨members'', -, honward⟩ := hpending.orderly.poll hf
    obtain ⟨owner, polled, stage', hrow, -⟩ := honward.moves m hm
    exact (behind_of_row hrow hpending.keeps (hpending.behind j m hj hm)).2 e he hconnection

/-! ### A scope that is given up -/

/-- The client that the first scope inside the first root transaction hands out. -/
def nestedClient : Client := innerClient.inScope ⟨1, 1, 1, [0, 1]⟩

/-- A root transaction that has begun. -/
def rooted : Assembly ScriptedDatabase Unit := (scripted.begin outerClient).poll 0

/-- A scope inside it. -/
def nesting : Assembly ScriptedDatabase Unit := (rooted.begin innerClient).poll 1

/-- A statement of that scope has been sent, and the scope is given up: the task `3` is its rescue. -/
def cancelled : Assembly ScriptedDatabase Unit :=
  ((nesting.issue nestedClient (.statement "INSERT INTO a" [])).poll 2).drop 1

theorem visits_cancelled : cancelled.store.backend.visits =
    [⟨0, innerClient, none⟩, ⟨1, nestedClient, some .givenUp⟩] := by
  with_unfolding_all rfl

theorem steps_cancelled : Relation.ReflTransGen Step scripted cancelled := by
  have hbegun : Relation.ReflTransGen Step scripted rooted :=
    (Relation.ReflTransGen.single (.begin (.inl rfl))).tail (.poll 0)
  have hvisits : rooted.store.backend.visits = [⟨0, innerClient, none⟩] := by with_unfolding_all rfl
  have hinner : rooted.store.AtHand innerClient :=
    ⟨_, by rw [hvisits]; exact List.mem_singleton_self _, rfl, rfl⟩
  have hnesting : Relation.ReflTransGen Step scripted nesting :=
    (hbegun.tail (.begin (.inr hinner))).tail (.poll 1)
  have hvisits' : nesting.store.backend.visits = [⟨0, innerClient, none⟩, ⟨1, nestedClient, none⟩] := by
    with_unfolding_all rfl
  have hnested : nesting.store.AtHand nestedClient :=
    ⟨⟨1, nestedClient, none⟩, by rw [hvisits']; exact .tail _ (.head _), rfl, rfl⟩
  exact ((hnesting.tail (.issue hnested)).tail (.poll 2)).tail (.drop 1)

theorem atHand_cancelled : cancelled.store.AtHand innerClient :=
  ⟨⟨0, innerClient, none⟩, by rw [visits_cancelled]; exact .head _, rfl, rfl⟩

/-- Its rescue has been polled, and then a statement of the scope around it is issued. -/
def resumed : Assembly ScriptedDatabase Unit :=
  (cancelled.poll 3).issue innerClient (.statement "INSERT INTO b" [])

/-- The rescue of the scope goes before the statement that is issued afterwards. -/
theorem rescued_before_statement :
    Relation.ReflTransGen Step scripted cancelled ∧
    ⟨1, nestedClient, some .givenUp⟩ ∈ cancelled.store.backend.visits ∧
    cancelled.futures[3]? = some (.task (Transaction.rescue 1 "ROLLBACK TO SAVEPOINT sqlfx1" false)) ∧
    Relation.ReflTransGen Step (cancelled.poll 3) resumed ∧ cancelled.Later 4 ∧
    .statement 1 "INSERT INTO b" [] ∈ resumed.store.sent (resumed.poll 4).store ∧
    ⟨.rescuing, .script 1 "ROLLBACK TO SAVEPOINT sqlfx1"⟩ ∈
      resumed.history.drop cancelled.history.length := by
  have hvisit : ⟨1, nestedClient, some .givenUp⟩ ∈ cancelled.store.backend.visits := by
    rw [visits_cancelled]
    exact .tail _ (.head _)
  have htask : cancelled.futures[3]? =
      some (.task (Transaction.rescue 1 "ROLLBACK TO SAVEPOINT sqlfx1" false)) := by
    with_unfolding_all rfl
  have hvisits : (cancelled.poll 3).store.backend.visits =
      [⟨0, innerClient, none⟩, ⟨1, nestedClient, some .givenUp⟩] := by
    with_unfolding_all rfl
  have hinner : (cancelled.poll 3).store.AtHand innerClient :=
    ⟨⟨0, innerClient, none⟩, by rw [hvisits]; exact .head _, rfl, rfl⟩
  have hsteps : Relation.ReflTransGen Step (cancelled.poll 3) resumed := .single (.issue hinner)
  have hlater : cancelled.Later 4 := .inl (by with_unfolding_all decide)
  have hsent : resumed.store.sent (resumed.poll 4).store = [.statement 1 "INSERT INTO b" []] := by
    with_unfolding_all rfl
  have hmem : .statement 1 "INSERT INTO b" [] ∈ resumed.store.sent (resumed.poll 4).store := by
    rw [hsent]
    exact .head _
  exact ⟨steps_cancelled, hvisit, htask, hsteps, hlater, hmem,
    rescued_before steps_cancelled hvisit rfl htask hsteps hlater hmem rfl⟩

/-- The operation of the root transaction has been told to return. -/
def instructed (A : Assembly ScriptedDatabase Unit) : Assembly ScriptedDatabase Unit :=
  { A with
    store := { A.store with backend := { A.store.backend with decisions := [some (.ok ()), none] } } }

/-- A statement of the scope around it is sent before the rescue is polled, and the root commits. -/
def overtaken : Assembly ScriptedDatabase Unit :=
  (instructed (((cancelled.issue innerClient (.statement "INSERT INTO b" [])).poll 4).poll 3)).poll 0

/-- The root commits before the rescue is polled. -/
def unrescued : Assembly ScriptedDatabase Unit := ((instructed cancelled).poll 0).poll 3

/-- What is sent in the first case. -/
def overtakenRecord : List Exchange :=
  [⟨.script "BEGIN", true⟩, ⟨.script "SAVEPOINT sqlfx1", true⟩, ⟨.statement "INSERT INTO a" [], true⟩,
    ⟨.statement "INSERT INTO b" [], true⟩, ⟨.script "ROLLBACK TO SAVEPOINT sqlfx1", true⟩,
    ⟨.script "COMMIT", true⟩]

/-- What is sent in the second case. -/
def unrescuedRecord : List Exchange :=
  [⟨.script "BEGIN", true⟩, ⟨.script "SAVEPOINT sqlfx1", true⟩, ⟨.statement "INSERT INTO a" [], true⟩,
    ⟨.script "COMMIT", true⟩, ⟨.script "ROLLBACK TO SAVEPOINT sqlfx1", true⟩]

/-- **A rescue that is polled late comes too late.** The scope is given up, and its rescue waits to be
polled. In one run a statement of the scope around it goes before the rollback and is undone with it; in
another one COMMIT goes before the rollback, and the statement of the scope is committed. -/
theorem late_rescue :
    (Relation.ReflTransGen Step scripted overtaken ∧
      overtaken.history.map (·.event) = overtakenRecord.map (fun e => e.request.event 1) ∧
      Ledger.replay (.ofDialect .sqlite) ⟨[], none⟩ overtakenRecord = ⟨[], none⟩) ∧
    (Relation.ReflTransGen Step scripted unrescued ∧
      unrescued.history.map (·.event) = unrescuedRecord.map (fun e => e.request.event 1) ∧
      Ledger.replay (.ofDialect .sqlite) ⟨[], none⟩ unrescuedRecord =
        ⟨[.statement "INSERT INTO a" []], none⟩) := by
  have htold (A : Assembly ScriptedDatabase Unit) (hdecisions : A.store.backend.decisions = [none, none]) :
      Step A (instructed A) :=
    .others ⟨rfl, rfl, by rw [hdecisions]; rfl, List.prefix_refl _, Nat.le_refl _, fun _ => .inl rfl⟩
  refine ⟨⟨?_, by with_unfolding_all rfl, by decide⟩, ⟨?_, by with_unfolding_all rfl, by decide⟩⟩
  · refine ((((steps_cancelled.tail (.issue atHand_cancelled)).tail (.poll 4)).tail (.poll 3)).tail
      (htold _ ?_)).tail (.poll 0)
    with_unfolding_all rfl
  · refine ((steps_cancelled.tail (htold _ ?_)).tail (.poll 0)).tail (.poll 3)
    with_unfolding_all rfl

end Assembly

end SqlClient
