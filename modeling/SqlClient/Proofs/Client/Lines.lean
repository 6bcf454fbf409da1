import SqlClient.Proofs.Client.Exchange
/-!
# Clients — lines

Those who want to send over a shared connection stand in line: each has a ticket, greater than all
before it, and the first one is served. What a change of the store does to the line of every connection
is said here, one lemma for each operation.
-/

namespace SqlClient

variable {β : Type}

namespace Store

variable {s : Store β} {m n ticket : Nat} {u : Usage}

/-- The line of a connection: the tickets that are held, in order, and the next one. -/
def lineOf (s : Store β) (n : Nat) : List Nat × Nat := (s.ticketsOf n, (s.usageOf n).nextTicket)

@[simp] theorem lineOf_fst (s : Store β) (n : Nat) : (s.lineOf n).1 = s.ticketsOf n := rfl

theorem lineOf_snd (s : Store β) (n : Nat) : (s.lineOf n).2 = (s.usageOf n).nextTicket := rfl

theorem ticketsOf_eq_of_lineOf {s' : Store β} (h : s'.lineOf n = s.lineOf n) :
    s'.ticketsOf n = s.ticketsOf n := congrArg Prod.fst h

theorem usageOf_setUsage_of_ne (h : m ≠ n) : (s.setUsage n u).usageOf m = s.usageOf m := by
  have hmn : (m == n) = false := by simpa using h
  have hfilter (l : List (Nat × Usage)) : (l.filter fun e => e.1 ≠ n).lookup m = l.lookup m := by
    induction l with
    | nil => rfl
    | cons e l ih =>
      by_cases he : e.1 = n
      · rw [List.filter_cons, if_neg (by simpa using he), ih, List.lookup_cons, he, hmn]
      · rw [List.filter_cons, if_pos (by simpa using he), List.lookup_cons, List.lookup_cons, ih]
  rw [usageOf, setUsage, List.lookup_cons, hmn, usageOf]
  exact congrArg (·.getD Usage.none) (hfilter s.usage)

theorem lineOf_setUsage_of_ne (h : m ≠ n) : (s.setUsage n u).lineOf m = s.lineOf m := by
  rw [lineOf, lineOf, ticketsOf, ticketsOf, usageOf_setUsage_of_ne h]

/-- A change of usage that changes neither the tickets nor the next one. -/
theorem lineOf_setUsage (m : Nat) (htickets : u.tickets = s.ticketsOf n)
    (hnext : u.nextTicket = (s.usageOf n).nextTicket) : (s.setUsage n u).lineOf m = s.lineOf m := by
  by_cases h : m = n
  · subst h
    rw [lineOf, lineOf, ticketsOf, usageOf_setUsage, htickets, hnext]
  · exact lineOf_setUsage_of_ne h

/-! ## Changes that leave the lines alone -/

@[simp] theorem lineOf_note (s : Store β) (e : Event) (m : Nat) : (s.note e).lineOf m = s.lineOf m := rfl

@[simp] theorem lineOf_hold (s : Store β) (n m : Nat) : (s.hold n).lineOf m = s.lineOf m :=
  lineOf_setUsage m rfl rfl

@[simp] theorem lineOf_letGo (s : Store β) (n m : Nat) : (s.letGo n).lineOf m = s.lineOf m := by
  have hline (u : Usage) (hu : u = s.usageOf n) :
      (s.setUsage n { u with holders := u.holders - 1 }).lineOf m = s.lineOf m := by
    subst hu
    exact lineOf_setUsage m rfl rfl
  rw [letGo]
  split
  · exact hline _ rfl
  · exact hline _ rfl

@[simp] theorem lineOf_changeFitness (s : Store β) (n : Nat) (f : Fitness → Fitness) (m : Nat) :
    (s.changeFitness n f).lineOf m = s.lineOf m :=
  lineOf_setUsage m rfl rfl

@[simp] theorem lineOf_finish (s : Store β) (n m : Nat) : (s.finish n).lineOf m = s.lineOf m :=
  lineOf_changeFitness s n _ m

@[simp] theorem lineOf_markBroken (s : Store β) (n m : Nat) : (s.markBroken n).lineOf m = s.lineOf m :=
  lineOf_changeFitness s n _ m

@[simp] theorem lineOf_send [Backend β] (s : Store β) (n : Nat) (r : Request) (m : Nat) :
    (s.send n r).2.lineOf m = s.lineOf m :=
  lineOf_changeFitness s n _ m

@[simp] theorem lineOf_receive [Backend β] (s : Store β) (n : Nat) (r : Request) (m : Nat) :
    (s.receive n r).2.lineOf m = s.lineOf m := rfl

/-! ## The end of a scope -/

/-- The end of a scope changes nothing but the marks. -/
theorem endScope_eq_with_ended (scope : Scope) (s : Store β) :
    ∃ ended, s.endScope scope = { s with ended } := by
  rw [endScope]
  split
  · exact ⟨_, rfl⟩
  · exact ⟨s.ended, rfl⟩

@[simp] theorem log_endScope (scope : Scope) (s : Store β) : (s.endScope scope).log = s.log := by
  obtain ⟨ended, heq⟩ := endScope_eq_with_ended scope s
  rw [heq]

@[simp] theorem attempts_endScope (scope : Scope) (s : Store β) :
    (s.endScope scope).attempts = s.attempts := by
  obtain ⟨ended, heq⟩ := endScope_eq_with_ended scope s
  rw [heq]

@[simp] theorem lineOf_endScope (scope : Scope) (s : Store β) (m : Nat) :
    (s.endScope scope).lineOf m = s.lineOf m := by
  obtain ⟨ended, heq⟩ := endScope_eq_with_ended scope s
  rw [heq]
  rfl

/-! ## Tickets -/

theorem lineOf_takeTicket_of_ne (h : m ≠ n) : (s.takeTicket n).2.lineOf m = s.lineOf m :=
  lineOf_setUsage_of_ne h

theorem lineOf_takeTicket (s : Store β) (n : Nat) : (s.takeTicket n).2.lineOf n =
    (s.ticketsOf n ++ [(s.usageOf n).nextTicket], (s.usageOf n).nextTicket + 1) := by
  rw [lineOf, ticketsOf_takeTicket, takeTicket, usageOf_setUsage]

theorem lineOf_returnTicket_of_ne (h : m ≠ n) : (s.returnTicket n ticket).lineOf m = s.lineOf m :=
  lineOf_setUsage_of_ne h

theorem lineOf_returnTicket (s : Store β) (n ticket : Nat) : (s.returnTicket n ticket).lineOf n =
    ((s.ticketsOf n).filter (· ≠ ticket), (s.usageOf n).nextTicket) := by
  rw [lineOf, ticketsOf_returnTicket, returnTicket, usageOf_setUsage]

/-- Whoever asks for a connection changes the line of the new one at most. -/
theorem lineOf_acquire [Backend β] (acquirer : Acquirer) (s : Store β) (m : Nat) :
    (s.acquire acquirer).2.lineOf m = s.lineOf m ∨
      s.attempts < m ∧ (s.acquire acquirer).2.ticketsOf m = [] := by
  rw [acquire]
  generalize Backend.connect (s.attempts + 1) s.backend = connected
  obtain ⟨refusal, backend⟩ := connected
  cases refusal with
  | some e => exact .inl rfl
  | none =>
    by_cases h : m = s.attempts + 1
    · subst h
      refine .inr ⟨Nat.lt_succ_self _, ?_⟩
      rw [ticketsOf_note, ticketsOf, usageOf_setUsage]
      rfl
    · refine .inl ?_
      rw [lineOf_note]
      exact lineOf_setUsage_of_ne h

end Store

end SqlClient
