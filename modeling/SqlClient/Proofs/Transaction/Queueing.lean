import SqlClient.Proofs.Transaction.Registry
/-!
# Transactions — who stands in line

The tickets of every connection ascend, and every future that stands in line has a ticket of its own
there (`Lined`). Whoever is served has the least ticket, so it was in line before all the others.
-/

namespace SqlClient

open Coroutine

variable {β α : Type}

/-- The lines are in order, and those who stand there hold their tickets. -/
structure Lined (members : List Member) (s : Store (Watched β α)) : Prop where
  ascending : ∀ n, (s.ticketsOf n).Pairwise (· < ·)
  next : ∀ n, ∀ ticket ∈ s.ticketsOf n, ticket < (s.usageOf n).nextTicket
  held : ∀ (i : Nat) (m : Member) (part : Part) (n ticket : Nat) (progress : Progress),
    members[i]? = some m → m.stage = .going part (.standing n ticket progress) →
      part.connection? = some n ∧ ticket ∈ s.ticketsOf n ∧
        (progress = .served → s.isServed n ticket = true)
  distinct : ∀ (i j : Nat) (m m' : Member) (part part' : Part) (n ticket : Nat)
    (progress progress' : Progress), members[i]? = some m → members[j]? = some m' →
      m.stage = .going part (.standing n ticket progress) →
      m'.stage = .going part' (.standing n ticket progress') → i = j

variable {s s' : Store (Watched β α)} {members : List Member} {m : Member} {i : Nat}
  {stage' : Stage} {polled : Bool}

theorem isServed_iff {n ticket : Nat} :
    s.isServed n ticket = true ↔ (s.ticketsOf n).head? = some ticket := by
  rw [Store.isServed, beq_iff_eq]
  rfl

/-- **Whoever is served has the least ticket.** -/
theorem Lined.le_of_served (h : Lined members s) {n ticket ticket' : Nat}
    (hserved : s.isServed n ticket = true) (hmem : ticket' ∈ s.ticketsOf n) : ticket ≤ ticket' := by
  rw [isServed_iff] at hserved
  have hascending := h.ascending n
  cases htickets : s.ticketsOf n with
  | nil =>
    rw [htickets] at hmem
    cases hmem
  | cons first others =>
    rw [htickets] at hserved hmem hascending
    cases hserved
    rcases List.mem_cons.1 hmem with rfl | hmem
    · exact Nat.le_refl _
    · exact Nat.le_of_lt ((List.pairwise_cons.1 hascending).1 ticket' hmem)

/-- The connection that a future sends over is there. -/
theorem Registered.connection_le {moving : Stage} (h : Registered moving members s)
    (hi : members[i]? = some m) {part : Part} {line : Line} {n : Nat} (hstage : m.stage = .going part line)
    (hconnection : part.connection? = some n) : n ≤ s.attempts := by
  have hown := h.stages i m hi
  rw [hstage] at hown
  cases part with
  | before connection => exact hown.1 n hconnection
  | after tx =>
    obtain ⟨place, departure, hvisit, -⟩ := hown
    obtain ⟨scope, hscope, hle, -⟩ := h.nested place _ hvisit
    rw [Part.connection?, Client.connection?, show tx.scope = some scope from hscope] at hconnection
    exact Option.some.inj hconnection ▸ hle

/-- **What happens elsewhere keeps the lines**, also when others have come who do not stand in line:
nobody stands in a line that is new. -/
theorem Lined.elsewhere {moving : Stage} {members' : List Member} (h : Lined members s)
    (hregistered : Registered moving members s) (he : s.Elsewhere s')
    (hsame : ∀ (i : Nat) (m : Member) (part : Part) (n ticket : Nat) (progress : Progress),
      members'[i]? = some m → m.stage = .going part (.standing n ticket progress) →
        members[i]? = some m) : Lined members' s' := by
  -- a line in which somebody stands is over a connection that has been asked for, so it is not new
  have hkept {i : Nat} {m : Member} {part : Part} {n ticket : Nat} {progress : Progress}
      (hm : members[i]? = some m) (hstage : m.stage = .going part (.standing n ticket progress)) :
      s'.ticketsOf n = s.ticketsOf n := by
    refine Store.ticketsOf_eq_of_lineOf ((he.lines n).resolve_right fun ⟨hlt, _⟩ => ?_)
    have hconnection := (h.held i m part n ticket progress hm hstage).1
    exact Nat.lt_irrefl _ (Nat.lt_of_lt_of_le hlt (hregistered.connection_le hm hstage hconnection))
  constructor
  case ascending =>
    intro n
    rcases he.lines n with hline | ⟨-, hnone⟩
    · exact Store.ticketsOf_eq_of_lineOf hline ▸ h.ascending n
    · rw [hnone]
      exact .nil
  case next =>
    intro n ticket hmem
    rcases he.lines n with hline | ⟨-, hnone⟩
    · have hnext : (s'.usageOf n).nextTicket = (s.usageOf n).nextTicket := congrArg Prod.snd hline
      rw [Store.ticketsOf_eq_of_lineOf hline] at hmem
      exact hnext ▸ h.next n ticket hmem
    · rw [hnone] at hmem
      cases hmem
  case held =>
    intro i m part n ticket progress hm hstage
    have hm' := hsame i m part n ticket progress hm hstage
    obtain ⟨hconnection, hmem, hserved⟩ := h.held i m part n ticket progress hm' hstage
    rw [isServed_iff, hkept hm' hstage, ← isServed_iff]
    exact ⟨hconnection, hmem, hserved⟩
  case distinct =>
    intro i j m m' part part' n ticket progress progress' hm hm' hstage hstage'
    exact h.distinct i j m m' part part' n ticket progress progress'
      (hsame i m part n ticket progress hm hstage) (hsame j m' part' n ticket progress' hm' hstage')
      hstage hstage'

/-- Whoever goes on without getting in line stands where it stood, as everybody does. -/
theorem standing_of_set {scope? : Option Scope} {stage : Stage} (hi : members[i]? = some ⟨scope?, stage⟩)
    (hstands : ∀ part n ticket progress, stage' = .going part (.standing n ticket progress) →
      stage' = stage) {j : Nat} {x : Member} {part : Part} {n ticket : Nat} {progress : Progress}
    (hx : (members.set i ⟨scope?, stage'⟩)[j]? = some x)
    (hstage : x.stage = .going part (.standing n ticket progress)) : members[j]? = some x := by
  rcases getElem?_set_cases hx with ⟨rfl, rfl⟩ | ⟨-, hx⟩
  · rw [hi, ← hstands part n ticket progress hstage]
  · exact hx

section Turn

variable (h : Lined members s) (hi : members[i]? = some m)
  (hothers : ∀ (j : Nat) (x : Member), members[j]? = some x → j ≠ i → x.stage.Rests)

include h hothers

/-- What it takes for one future to go on: the others keep their tickets, and its own is nobody
else's. -/
theorem Lined.of_own {scope? : Option Scope} (hascending : ∀ n, (s'.ticketsOf n).Pairwise (· < ·))
    (hnext : ∀ n, ∀ ticket ∈ s'.ticketsOf n, ticket < (s'.usageOf n).nextTicket)
    (hkept : ∀ (j : Nat) (x : Member) (part : Part) (n ticket : Nat) (progress : Progress),
      members[j]? = some x → j ≠ i → x.stage = .going part (.standing n ticket progress) →
        ticket ∈ s.ticketsOf n → ticket ∈ s'.ticketsOf n)
    (hown : ∀ part n ticket progress, stage' = .going part (.standing n ticket progress) →
      part.connection? = some n ∧ ticket ∈ s'.ticketsOf n ∧
        (progress = .served → s'.isServed n ticket = true) ∧
        ∀ (j : Nat) (x : Member) (part' : Part) (progress' : Progress), members[j]? = some x → j ≠ i →
          x.stage ≠ .going part' (.standing n ticket progress')) :
    Lined (members.set i ⟨scope?, stage'⟩) s' := by
  refine ⟨hascending, hnext, ?_, ?_⟩
  · intro j x part n ticket progress hx hstage
    rcases getElem?_set_cases hx with ⟨rfl, rfl⟩ | ⟨hne, hx⟩
    · obtain ⟨hconnection, hmem, hserved, -⟩ := hown part n ticket progress hstage
      exact ⟨hconnection, hmem, hserved⟩
    · obtain ⟨hconnection, hmem, -⟩ := h.held j x part n ticket progress hx hstage
      refine ⟨hconnection, hkept j x part n ticket progress hx hne hstage hmem, ?_⟩
      rintro rfl
      have hrests := hothers j x hx hne
      rw [hstage] at hrests
      exact hrests.elim
  · intro j k x y part part' n ticket progress progress' hx hy hstage hstage'
    rcases getElem?_set_cases hx with ⟨rfl, rfl⟩ | ⟨hj, hj'⟩
    · rcases getElem?_set_cases hy with ⟨rfl, -⟩ | ⟨hk, hk'⟩
      · rfl
      · exact absurd hstage' ((hown part n ticket progress hstage).2.2.2 k y part' progress' hk' hk)
    · rcases getElem?_set_cases hy with ⟨rfl, rfl⟩ | ⟨-, hk'⟩
      · exact absurd hstage ((hown part' n ticket progress' hstage').2.2.2 j x part progress hj' hj)
      · exact h.distinct j k x y part part' n ticket progress progress' hj' hk' hstage hstage'

/-- The lines stay as they are, and the future that goes on stands where it stood, or nowhere. -/
theorem Lined.of_lines {scope? : Option Scope} (hi : members[i]? = some m)
    (hlines : ∀ n, s'.lineOf n = s.lineOf n)
    (hsame : ∀ part n ticket progress, stage' = .going part (.standing n ticket progress) →
      (∃ before, m.stage = .going part (.standing n ticket before)) ∧
        (progress = .served → s'.isServed n ticket = true)) :
    Lined (members.set i ⟨scope?, stage'⟩) s' := by
  have htickets (n : Nat) : s'.ticketsOf n = s.ticketsOf n := Store.ticketsOf_eq_of_lineOf (hlines n)
  refine h.of_own hothers (fun n => htickets n ▸ h.ascending n) (fun n ticket hmem => ?_)
    (fun j x part n ticket progress _ _ _ hmem => htickets n ▸ hmem) fun part n ticket progress hstage => ?_
  · rw [htickets] at hmem
    have hnext : (s'.usageOf n).nextTicket = (s.usageOf n).nextTicket := congrArg Prod.snd (hlines n)
    exact hnext ▸ h.next n ticket hmem
  · obtain ⟨⟨before, hbefore⟩, hserved⟩ := hsame part n ticket progress hstage
    obtain ⟨hconnection, hmem, -⟩ := h.held i m part n ticket before hi hbefore
    refine ⟨hconnection, htickets n ▸ hmem, hserved, fun j x part' progress' hx hne hother => hne ?_⟩
    exact h.distinct j i x m part' part n ticket progress' before hx hi hother hbefore

/-- The future that goes on gets in line. -/
theorem Lined.takeTicket {scope? : Option Scope} {part : Part} {n : Nat} (hconnection : part.connection? = some n) :
    Lined (members.set i ⟨scope?, .going part (.standing n (s.usageOf n).nextTicket .waiting)⟩)
      (s.takeTicket n).2 := by
  have hself : (s.takeTicket n).2.ticketsOf n = s.ticketsOf n ++ [(s.usageOf n).nextTicket] :=
    s.ticketsOf_takeTicket n
  have hother {k : Nat} (hk : k ≠ n) : (s.takeTicket n).2.ticketsOf k = s.ticketsOf k :=
    Store.ticketsOf_eq_of_lineOf (Store.lineOf_takeTicket_of_ne hk)
  -- the ticket is the next number: above all that are handed out, so the line stays ascending
  refine h.of_own hothers (fun k => ?_) (fun k ticket hmem => ?_)
    (fun j x part' k ticket progress _ _ _ hmem => ?_) ?_
  · by_cases hk : k = n
    · subst hk
      rw [hself, List.pairwise_append]
      refine ⟨h.ascending k, List.pairwise_singleton _ _, fun a ha b hb => ?_⟩
      rw [List.mem_singleton.1 hb]
      exact h.next k a ha
    · rw [hother hk]
      exact h.ascending k
  · by_cases hk : k = n
    · subst hk
      have hnext : ((s.takeTicket k).2.usageOf k).nextTicket = (s.usageOf k).nextTicket + 1 :=
        congrArg Prod.snd (s.lineOf_takeTicket k)
      rw [hself] at hmem
      rw [hnext]
      rcases List.mem_append.1 hmem with hmem | hmem
      · exact Nat.lt_succ_of_lt (h.next k ticket hmem)
      · rw [List.mem_singleton.1 hmem]
        exact Nat.lt_succ_self _
    · have hnext : ((s.takeTicket n).2.usageOf k).nextTicket = (s.usageOf k).nextTicket :=
        congrArg Prod.snd (Store.lineOf_takeTicket_of_ne hk)
      rw [hother hk] at hmem
      exact hnext ▸ h.next k ticket hmem
  · by_cases hk : k = n
    · subst hk
      rw [hself]
      exact List.mem_append_left _ hmem
    · rwa [hother hk]
  · rintro _ _ _ _ ⟨⟩
    refine ⟨hconnection, ?_, ?_, fun j x part' progress' hx _ hstage => ?_⟩
    · rw [hself]
      exact List.mem_append_right _ (List.mem_singleton_self _)
    · rintro ⟨⟩
    · obtain ⟨-, hmem, -⟩ := h.held j x part' n _ progress' hx hstage
      exact Nat.lt_irrefl _ (h.next n _ hmem)

/-- The future that goes on leaves the line. -/
theorem Lined.returnTicket {scope? : Option Scope} {part : Part} {n ticket : Nat} {progress : Progress}
    (hi : members[i]? = some m) (hstage : m.stage = .going part (.standing n ticket progress)) :
    Lined (members.set i ⟨scope?, .going part .away⟩) (s.returnTicket n ticket) := by
  have hself : (s.returnTicket n ticket).ticketsOf n = (s.ticketsOf n).filter (· ≠ ticket) :=
    s.ticketsOf_returnTicket n ticket
  have hother {k : Nat} (hk : k ≠ n) : (s.returnTicket n ticket).ticketsOf k = s.ticketsOf k :=
    Store.ticketsOf_eq_of_lineOf (Store.lineOf_returnTicket_of_ne hk)
  refine h.of_own hothers (fun k => ?_) (fun k t hmem => ?_)
    (fun j x part' k t progress' hx hne hstage' hmem => ?_) ?_
  · by_cases hk : k = n
    · subst hk
      rw [hself]
      exact (h.ascending k).filter _
    · rw [hother hk]
      exact h.ascending k
  · by_cases hk : k = n
    · subst hk
      have hnext : ((s.returnTicket k ticket).usageOf k).nextTicket = (s.usageOf k).nextTicket :=
        congrArg Prod.snd (s.lineOf_returnTicket k ticket)
      rw [hself] at hmem
      exact hnext ▸ h.next k t (List.mem_of_mem_filter hmem)
    · have hnext : ((s.returnTicket n ticket).usageOf k).nextTicket = (s.usageOf k).nextTicket :=
        congrArg Prod.snd (Store.lineOf_returnTicket_of_ne hk)
      rw [hother hk] at hmem
      exact hnext ▸ h.next k t hmem
  · by_cases hk : k = n
    · subst hk
      have hdistinct : t ≠ ticket := by
        rintro rfl
        exact hne (h.distinct j i x m part' part k t progress' progress hx hi hstage' hstage)
      rw [hself]
      exact List.mem_filter.2 ⟨hmem, by simpa using hdistinct⟩
    · rwa [hother hk]
  · rintro _ _ _ _ ⟨⟩

include hi in
/-- **Every act keeps the lines.** -/
theorem Lined.act [Backend β] {owner : Option Nat} {moving : Stage} (hregistered : Registered moving members s)
    (hact : Act m.scope? owner polled m.stage s stage' s') :
    Lined (members.set i ⟨m.scope?, stage'⟩) s' := by
  obtain ⟨scope?, stage⟩ := m
  have hquiet {stage' : Stage} (hq : s.Quiet s')
      (hsame : ∀ part n ticket progress, stage' = .going part (.standing n ticket progress) →
        stage' = stage) : Lined (members.set i ⟨scope?, stage'⟩) s' :=
    h.elsewhere hregistered hq.toElsewhere fun _ _ _ _ _ _ => standing_of_set hi hsame
  have hgone {stage' : Stage} (hlines : ∀ n, s'.lineOf n = s.lineOf n)
      (hnone : ∀ part n ticket progress, stage' ≠ .going part (.standing n ticket progress)) :
      Lined (members.set i ⟨scope?, stage'⟩) s' :=
    h.of_lines hothers hi hlines fun part n ticket progress hstage =>
      absurd hstage (hnone part n ticket progress)
  cases hact with
  | quiet hq => exact hquiet hq fun _ _ _ _ _ => rfl
  | acquire hq _ => exact hquiet hq fun _ _ _ _ h => by cases h
  | letIn _ _ => exact hgone (fun _ => rfl) fun _ _ _ _ h => by cases h
  | enqueue _ => exact h.takeTicket hothers rfl
  | lineUp hconnection _ => exact h.takeTicket hothers hconnection
  | serve hserved =>
    refine h.of_lines hothers hi (fun _ => rfl) ?_
    rintro _ _ _ _ ⟨⟩
    exact ⟨⟨_, rfl⟩, fun _ => hserved⟩
  | send _ =>
    refine h.of_lines hothers hi (fun n => s.lineOf_send _ _ n) ?_
    rintro _ _ _ _ ⟨⟩
    exact ⟨⟨_, rfl⟩, fun hp => by cases hp⟩
  | stepBack => exact h.returnTicket hothers hi rfl
  | opens _ _ => exact hgone (fun _ => rfl) fun _ _ _ _ h => by cases h
  | enter _ _ => exact hgone (fun _ => rfl) fun _ _ _ _ h => by cases h
  | hear _ _ => exact hgone (fun _ => rfl) fun _ _ _ _ h => by cases h
  | returns => exact hgone (fun _ => rfl) fun _ _ _ _ h => by cases h
  | giveUp _ => exact hgone (fun _ => rfl) fun _ _ _ _ h => by cases h
  | finish _ => exact hgone (Store.lineOf_endScope _ s) fun _ _ _ _ h => by cases h
  | finishAgain _ => exact hgone (Store.lineOf_endScope _ s) fun _ _ _ _ h => by cases h

end Turn

end SqlClient
