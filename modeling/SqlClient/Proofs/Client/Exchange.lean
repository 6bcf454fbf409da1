import SqlClient.Client.Run
import SqlClient.Proofs.Coroutine.Alone
/-!
# Clients — one exchange after another

What a request does to the store when nobody else sends over its connection: the backend answers it
once, the log gains its event, and the connection is idle again. `Journal` is a backend that writes
down every request it answers and whether it succeeded, so that a run can be compared with what the
database has seen. A backend `Answers` if it answers whatever is sent to it; how is left open.
-/

namespace SqlClient

open Coroutine

variable {β : Type}

namespace Event

/-- Whether something was sent over a connection. -/
def isSent : Event → Bool
  | .statement _ _ _ | .script _ _ => true
  | _ => false

end Event

@[simp] theorem Request.sql_script (text : String) : (Request.script text).sql = text := rfl

@[simp] theorem Request.isSent_event (r : Request) (n : Nat) : (r.event n).isSent = true := by
  cases r <;> rfl

/-! ## Connections -/

namespace Store

/-- The tickets of a connection, in the order in which they are served. -/
def ticketsOf (s : Store β) (n : Nat) : List Nat := (s.usageOf n).tickets

/-- Nobody sends over a connection or waits to. -/
def Idle (n : Nat) (s : Store β) : Prop := s.ticketsOf n = []

@[simp] theorem usageOf_setUsage (s : Store β) (n : Nat) (u : Usage) :
    (s.setUsage n u).usageOf n = u := by
  simp [usageOf, setUsage]

@[simp] theorem ticketsOf_takeTicket (s : Store β) (n : Nat) :
    (s.takeTicket n).2.ticketsOf n = s.ticketsOf n ++ [(s.takeTicket n).1] := by
  simp [ticketsOf, takeTicket]

@[simp] theorem ticketsOf_returnTicket (s : Store β) (n ticket : Nat) :
    (s.returnTicket n ticket).ticketsOf n = (s.ticketsOf n).filter (· ≠ ticket) := by
  simp [ticketsOf, returnTicket]

@[simp] theorem ticketsOf_changeFitness (s : Store β) (n : Nat) (f : Fitness → Fitness) :
    (s.changeFitness n f).ticketsOf n = s.ticketsOf n := by
  simp [ticketsOf, changeFitness]

@[simp] theorem ticketsOf_note (s : Store β) (n : Nat) (e : Event) :
    (s.note e).ticketsOf n = s.ticketsOf n := rfl

@[simp] theorem ticketsOf_send [Backend β] (s : Store β) (n : Nat) (r : Request) :
    (s.send n r).2.ticketsOf n = s.ticketsOf n := by
  simp [send]

@[simp] theorem ticketsOf_receive [Backend β] (s : Store β) (n : Nat) (r : Request) :
    (s.receive n r).2.ticketsOf n = s.ticketsOf n := rfl

@[simp] theorem ticketsOf_finish (s : Store β) (n : Nat) :
    (s.finish n).ticketsOf n = s.ticketsOf n := by
  simp [finish]

@[simp] theorem ticketsOf_markBroken (s : Store β) (n : Nat) :
    (s.markBroken n).ticketsOf n = s.ticketsOf n := by
  simp [markBroken]

/-- Letting go of a connection sends nothing. -/
theorem log_letGo (s : Store β) (n : Nat) :
    ∃ events, (s.letGo n).log = s.log ++ events ∧ events.filter Event.isSent = [] := by
  rw [letGo]
  split
  · exact ⟨[.released n], rfl, rfl⟩
  · exact ⟨[], (List.append_nil _).symm, rfl⟩

@[simp] theorem backend_letGo (s : Store β) (n : Nat) : (s.letGo n).backend = s.backend := by
  rw [letGo]
  split <;> rfl

/-- Who comes to an idle connection is served at once. -/
theorem isServed_takeTicket {n : Nat} {s : Store β} (h : s.Idle n) :
    isServed n (s.takeTicket n).1 (s.takeTicket n).2 = true := by
  change ((s.takeTicket n).2.ticketsOf n).head? == some (s.takeTicket n).1
  rw [ticketsOf_takeTicket, show s.ticketsOf n = [] from h]
  simp

/-- Its ticket given back, the connection is idle again. -/
theorem idle_returnTicket {n : Nat} {s s₁ : Store β} (h : s.Idle n)
    (h₁ : s₁.ticketsOf n = (s.takeTicket n).2.ticketsOf n) :
    (s₁.returnTicket n (s.takeTicket n).1).Idle n := by
  rw [Idle, ticketsOf_returnTicket, h₁, ticketsOf_takeTicket, show s.ticketsOf n = [] from h]
  simp

/-- A scope that is open stays open while others come and go. -/
theorem isOpen_mono {scope : Scope} {t t' : Store β} (h : t.ended <+: t'.ended)
    (hopen : t.isOpen scope = true) : t'.isOpen scope = true := by
  simp only [isOpen, List.all_eq_true] at hopen ⊢
  intro mark hmark
  have hfalse : t.ended.getD mark true = false := by simpa using hopen mark hmark
  obtain ⟨later, hlater⟩ := h
  -- a mark that was never given out counts as ended
  rcases Nat.lt_or_ge mark t.ended.length with hlt | hge
  · rw [← hlater, List.getD_eq_getElem?_getD, List.getElem?_append_left hlt,
      ← List.getD_eq_getElem?_getD, hfalse]
    rfl
  · rw [List.getD_eq_getElem?_getD, List.getElem?_eq_none hge] at hfalse
    cases hfalse

/-- What one exchange leaves of a store: the backend and the log have moved on by the request, and
the connection is idle. -/
structure Exchanged [Backend β] (n : Nat) (r : Request) (s s' : Store β) : Prop where
  backend : s'.backend = (Backend.respond n r s.backend).2
  log : s'.log = s.log ++ [r.event n]
  ended : s'.ended = s.ended
  idle : s'.Idle n

end Store

namespace Connection

variable {α : Type} {n : Nat} {s s₁ : Store β} {a : α}

/-- A body in its turn finishes as it does without others, between taking a ticket and giving it
back. -/
theorem completes_inTurn {body : Coroutine (Store β) α} (h : s.Idle n)
    (hbody : Completes body (s.takeTicket n).2 a s₁) :
    Completes (inTurn n body) s a (s₁.returnTicket n (s.takeTicket n).1) := by
  refine Completes.bind (Completes.perform _) (Completes.ensuring ?_)
  exact Completes.bind (Completes.waitFor (Store.isServed_takeTicket h)) hbody

variable [Backend β]

/-- Whatever the backend answers is what an exchange comes to. -/
theorem completes_exchange {r : Request} {o : Outcome ResultSet}
    (ho : (Backend.respond n r s.backend).1 = .answer o) :
    Completes (exchange n r) s o (((s.send n r).2.receive n r).2.finish n) := by
  refine Completes.bind (Completes.perform _) ?_
  refine Completes.bind (Completes.giveWay _) ?_
  refine Completes.bind (Completes.perform _) ?_
  have hanswer : ((s.send n r).2.receive n r).1 = .answer o := ho
  rw [hanswer]
  refine Completes.bind Completes.pure ?_
  exact Completes.bind (Completes.change _) Completes.pure

/-- **A request alone is one exchange**, however often its sender gives way. -/
theorem completes_share {r : Request} {o : Outcome ResultSet} (h : s.Idle n)
    (ho : (Backend.respond n r s.backend).1 = .answer o) :
    ∃ s', Completes (share n r) s o s' ∧ Store.Exchanged n r s s' := by
  have hexchange := completes_exchange (s := (s.takeTicket n).2) ho
  exact ⟨_, completes_inTurn h hexchange, rfl, rfl, rfl, Store.idle_returnTicket h (by simp)⟩

omit [Backend β] in
/-- Marking an idle connection as unusable sends nothing. -/
theorem completes_markBroken (h : s.Idle n) :
    ∃ s', Completes (markBroken n) s () s' ∧ s'.backend = s.backend ∧
      s'.log = s.log ++ [.broken n] ∧ s'.ended = s.ended ∧ s'.Idle n := by
  refine ⟨_, completes_inTurn h (Completes.change _), rfl, rfl, rfl, ?_⟩
  exact Store.idle_returnTicket h (by simp)

end Connection

/-! ## Journals -/

/-- A request that was answered, and whether it succeeded. -/
structure Exchange where
  request : Request
  succeeded : Bool
deriving DecidableEq

/-- A database with a record of what it has answered, each with its connection. -/
structure Journal (β : Type) where
  database : β
  entries : List (Nat × Exchange)

instance [Backend β] : Backend (Journal β) where
  connect n j :=
    let (refusal, database) := Backend.connect n j.database
    (refusal, { j with database })
  delay r j := Backend.delay r j.database
  respond n r j :=
    let (response, database) := Backend.respond n r j.database
    match response with
    | .answer o => (response, ⟨database, j.entries ++ [(n, ⟨r, o.isOk⟩)]⟩)
    | .never => (response, { j with database })

namespace Backend

variable [Backend β]

/-- A database after requests over connections. -/
def after (b : β) (sent : List (Nat × Request)) : β :=
  sent.foldl (fun b e => (Backend.respond e.1 e.2 b).2) b

/-- Whatever is sent to the database from now on, it answers the next request, well or badly. -/
def Answers (b : β) : Prop :=
  ∀ sent n r, ∃ o, (Backend.respond n r (after b sent)).1 = .answer o

variable {b : β}

theorem Answers.now (h : Answers b) (n : Nat) (r : Request) :
    ∃ o, (Backend.respond n r b).1 = .answer o :=
  h [] n r

theorem Answers.respond (h : Answers b) (n : Nat) (r : Request) :
    Answers (Backend.respond n r b).2 :=
  fun sent => h ((n, r) :: sent)

/-- A journal answers as its database does and writes the answer down. -/
theorem respond_journal {n : Nat} {r : Request} {o : Outcome ResultSet} {j : Journal β}
    (h : (Backend.respond n r j.database).1 = .answer o) :
    Backend.respond n r j =
      (.answer o, ⟨(Backend.respond n r j.database).2, j.entries ++ [(n, ⟨r, o.isOk⟩)]⟩) := by
  simp only [Backend.respond] at h ⊢
  rw [h]

/-- What a journal has answered is what it has written down last. -/
theorem entries_of_respond {n : Nat} {r : Request} {o : Outcome ResultSet} {j j' : Journal β}
    (h : Backend.respond n r j = (.answer o, j')) : j'.entries = j.entries ++ [(n, ⟨r, o.isOk⟩)] := by
  cases hresponse : (Backend.respond n r j.database).1 with
  | answer o' =>
    rw [respond_journal hresponse] at h
    cases h
    rfl
  | never =>
    simp only [Backend.respond, hresponse] at h
    cases h

/-- A journal answers whatever its database answers. -/
theorem Answers.journal {j : Journal β} (h : Answers j.database) : Answers j := by
  intro sent
  induction sent generalizing j with
  | nil =>
    intro n r
    obtain ⟨o, ho⟩ := h.now n r
    exact ⟨o, congrArg Prod.fst (respond_journal ho)⟩
  | cons e sent ih =>
    obtain ⟨o, ho⟩ := h.now e.1 e.2
    have hafter : (Backend.respond e.1 e.2 j).2.database = (Backend.respond e.1 e.2 j.database).2 := by
      rw [respond_journal ho]
    exact ih (hafter ▸ h.respond e.1 e.2)

end Backend

end SqlClient
