import SqlClient.Proofs.Transaction.Assembly
/-!
# Transactions — accounts of connections

What there is to say of a connection: how many handles keep it open, whether it can be used again, what
was answered on it, and what has happened to it. The account of a connection is read off the store; what
each operation of the store makes of the accounts is said here, one lemma for each operation, so that
who reasons about connections need not look at the store again.
-/

namespace SqlClient

open Coroutine

variable {β α : Type}

/-! ## Accounts -/

/-- What there is to say of a connection. -/
structure Account where
  /-- The number of handles that keep it open. -/
  holders : Nat
  fitness : Fitness
  /-- What was answered on it. -/
  record : List Exchange
  events : List Event
deriving DecidableEq

namespace Account

/-- The account of a connection that there is not yet. -/
def blank : Account := ⟨0, .fresh, [], []⟩

/-- Something happens to the connection. -/
def noted (e : Event) (a : Account) : Account := { a with events := a.events ++ [e] }

/-- A request is answered. -/
def answered (e : Exchange) (a : Account) : Account := { a with record := a.record ++ [e] }

/-- More is known about the state of the connection. -/
def fits (f : Fitness → Fitness) (a : Account) : Account := { a with fitness := f a.fitness }

/-- The connection has been opened, for a first handle. -/
def acquired (acquirer : Acquirer) (n : Nat) (a : Account) : Account :=
  { a with holders := 1, fitness := .fresh, events := a.events ++ [.acquired acquirer n] }

/-- One more handle keeps the connection open. -/
def held (a : Account) : Account := { a with holders := a.holders + 1 }

/-- A handle lets go of the connection; with the last one it is released. -/
def letGo (n : Nat) (a : Account) : Account :=
  { a with
    holders := a.holders - 1
    events := a.events ++ if a.holders ≤ 1 then [.released n] else [] }

/-- Who lets go of a connection that someone else has come to hold leaves no trace. -/
theorem letGo_held {a : Account} {n : Nat} (h : 0 < a.holders) : a.held.letGo n = a := by
  have hmore : ¬ a.holders + 1 ≤ 1 := by omega
  simp [letGo, held, hmore]

end Account

namespace Store

/-- What was answered on a connection. -/
def recordOf (n : Nat) (s : Store (Watched (Journal β) α)) : List Exchange :=
  (s.backend.database.entries.filter fun e => e.1 = n).map (·.2)

/-- The account of a connection. -/
def account (n : Nat) (s : Store (Watched (Journal β) α)) : Account :=
  ⟨(s.usageOf n).holders, (s.usageOf n).fitness, s.recordOf n, s.log.filter fun e => e.connection = n⟩

/-- The clients that operations were called with. -/
def clients (s : Store (Watched β α)) : List Client := s.backend.visits.map (·.client)

/-- A change that no account shows. -/
structure Steady (s s' : Store (Watched (Journal β) α)) : Prop where
  accounts : ∀ k, s'.account k = s.account k
  attempts : s'.attempts = s.attempts
  clients : s'.clients = s.clients

/-- A change that only the account of one connection shows, as `f` says. -/
structure Alters (n : Nat) (f : Account → Account) (s s' : Store (Watched (Journal β) α)) : Prop where
  account : s'.account n = f (s.account n)
  others : ∀ k, k ≠ n → s'.account k = s.account k
  attempts : s'.attempts = s.attempts
  clients : s'.clients = s.clients

variable {s s₁ s' : Store (Watched (Journal β) α)} {m n : Nat} {f g : Account → Account}

theorem Steady.refl : s.Steady s := ⟨fun _ => rfl, rfl, rfl⟩

theorem Steady.trans (h : s.Steady s₁) (h' : s₁.Steady s') : s.Steady s' :=
  ⟨fun k => (h'.accounts k).trans (h.accounts k), h'.attempts.trans h.attempts,
    h'.clients.trans h.clients⟩

theorem Alters.trans (h : s.Alters n f s₁) (h' : s₁.Alters n g s') : s.Alters n (g ∘ f) s' where
  account := h'.account.trans (congrArg g h.account)
  others k hk := (h'.others k hk).trans (h.others k hk)
  attempts := h'.attempts.trans h.attempts
  clients := h'.clients.trans h.clients

theorem Alters.of_steady (h : s.Steady s₁) (h' : s₁.Alters n f s') : s.Alters n f s' where
  account := h'.account.trans (congrArg f (h.accounts n))
  others k hk := (h'.others k hk).trans (h.accounts k)
  attempts := h'.attempts.trans h.attempts
  clients := h'.clients.trans h.clients

theorem Alters.steady (h : s.Alters n id s') : s.Steady s' where
  accounts k := by
    by_cases hk : k = n
    · subst hk
      exact h.account
    · exact h.others k hk
  attempts := h.attempts
  clients := h.clients

/-! ## Operations -/

/-- A change of usage shows in the account of the connection. -/
theorem alters_setUsage {u : Usage}
    (h : { s.account n with holders := u.holders, fitness := u.fitness } = f (s.account n)) :
    s.Alters n f (s.setUsage n u) where
  account := by
    rw [← h, account, usageOf_setUsage]
    rfl
  others k hk := by
    rw [account, usageOf_setUsage_of_ne hk]
    rfl
  attempts := rfl
  clients := rfl

/-- An event shows in the account of its connection. -/
theorem alters_note {e : Event} (he : e.connection = n) : s.Alters n (Account.noted e) (s.note e) where
  account := by
    have hevents : (s.log ++ [e]).filter (fun e => e.connection = n) =
        s.log.filter (fun e => e.connection = n) ++ [e] := by simp [List.filter_append, he]
    exact congrArg (Account.mk _ _ _) hevents
  others k hk := by
    have hne : e.connection ≠ k := fun h => hk (h.symm.trans he)
    have hevents : (s.log ++ [e]).filter (fun e => e.connection = k) =
        s.log.filter (fun e => e.connection = k) := by simp [List.filter_append, hne]
    exact congrArg (Account.mk _ _ _) hevents
  attempts := rfl
  clients := rfl

theorem alters_hold (n : Nat) (s : Store (Watched (Journal β) α)) :
    s.Alters n Account.held (s.hold n) :=
  alters_setUsage rfl

theorem alters_letGo (n : Nat) (s : Store (Watched (Journal β) α)) :
    s.Alters n (Account.letGo n) (s.letGo n) := by
  have hset : s.Alters n (fun a => { a with holders := a.holders - 1 })
      (s.setUsage n { s.usageOf n with holders := (s.usageOf n).holders - 1 }) := alters_setUsage rfl
  have hletGo : Account.letGo n (s.account n) = { s.account n with
      holders := (s.account n).holders - 1
      events := (s.account n).events ++ if (s.usageOf n).holders ≤ 1 then [.released n] else [] } := rfl
  rw [Store.letGo]
  by_cases hlast : (s.usageOf n).holders ≤ 1
  · have hnote := hset.trans (alters_note (e := .released n) rfl)
    simp only [hlast, if_true] at hletGo ⊢
    exact ⟨hnote.account.trans hletGo.symm, hnote.others, rfl, rfl⟩
  · simp only [hlast, if_false, List.append_nil] at hletGo ⊢
    exact ⟨hset.account.trans hletGo.symm, hset.others, rfl, rfl⟩

theorem alters_changeFitness (n : Nat) (f : Fitness → Fitness) (s : Store (Watched (Journal β) α)) :
    s.Alters n (Account.fits f) (s.changeFitness n f) :=
  alters_setUsage rfl

theorem alters_finish (n : Nat) (s : Store (Watched (Journal β) α)) :
    s.Alters n (Account.fits .finishRequest) (s.finish n) :=
  alters_changeFitness n _ s

theorem alters_markBroken (n : Nat) (s : Store (Watched (Journal β) α)) :
    s.Alters n (Account.noted (.broken n) ∘ Account.fits .markBroken) (s.markBroken n) :=
  (alters_changeFitness n _ s).trans (alters_note rfl)

theorem connection_event (r : Request) (n : Nat) : (r.event n).connection = n := by
  cases r <;> rfl

theorem alters_send [Backend β] (n : Nat) (r : Request) (s : Store (Watched (Journal β) α)) :
    s.Alters n (Account.noted (r.event n) ∘ Account.fits .beginRequest) (s.send n r).2 :=
  (alters_changeFitness n _ s).trans (alters_note (connection_event r n))

theorem steady_takeTicket (n : Nat) (s : Store (Watched (Journal β) α)) :
    s.Steady (s.takeTicket n).2 :=
  Alters.steady (alters_setUsage rfl)

theorem steady_returnTicket (n ticket : Nat) (s : Store (Watched (Journal β) α)) :
    s.Steady (s.returnTicket n ticket) :=
  Alters.steady (alters_setUsage rfl)

theorem steady_endScope (scope : Scope) (s : Store (Watched (Journal β) α)) :
    s.Steady (s.endScope scope) := by
  obtain ⟨ended, heq⟩ := endScope_eq_with_ended scope s
  rw [heq]
  exact ⟨fun _ => rfl, rfl, rfl⟩

theorem steady_depart (place : Nat) (departure : Departure α) (s : Store (Watched (Journal β) α)) :
    s.Steady (s.depart place departure) where
  accounts _ := rfl
  attempts := rfl
  clients := by
    rw [clients, clients, depart]
    refine List.ext_getElem? fun i => ?_
    simp only [List.getElem?_map, List.getElem?_modify]
    cases s.backend.visits[i]? with
    | none => rfl
    | some v =>
      by_cases hi : place = i
      · simp [hi]
      · simp [hi]

theorem steady_conclude (place : Nat) (s : Store (Watched (Journal β) α)) :
    s.Steady (s.conclude place).2 :=
  steady_depart place _ s

theorem steady_openRoot (n : Nat) (s : Store (Watched (Journal β) α)) : s.Steady (s.openRoot n).2 :=
  ⟨fun _ => rfl, rfl, rfl⟩

theorem steady_openNested (parent : Scope) (s : Store (Watched (Journal β) α)) :
    s.Steady (s.openNested parent).2 :=
  ⟨fun _ => rfl, rfl, rfl⟩

theorem account_enter (owner : Nat) (tx : Client) (s : Store (Watched (Journal β) α)) (k : Nat) :
    (s.enter owner tx).2.account k = s.account k := rfl

theorem clients_enter (owner : Nat) (tx : Client) (s : Store (Watched β α)) :
    (s.enter owner tx).2.clients = s.clients ++ [tx] := by
  simp [clients, enter]

section Backends

variable [Backend β]

/-- What a journal answers is in the account of the connection. -/
theorem alters_receive {r : Request} {o : Outcome ResultSet} (h : (s.receive n r).1 = .answer o) :
    s.Alters n (Account.answered ⟨r, o.isOk⟩) (s.receive n r).2 := by
  have hrespond : (Backend.respond n r s.backend.database.database).1 = .answer o := by
    simp only [receive, Backend.respond] at h
    split at h <;> simp_all
  have hwatched : Backend.respond n r s.backend = (.answer o, { s.backend with
      database := ⟨(Backend.respond n r s.backend.database.database).2,
        s.backend.database.entries ++ [(n, ⟨r, o.isOk⟩)]⟩ }) := by
    change ((Backend.respond n r s.backend.database).1, { s.backend with
      database := (Backend.respond n r s.backend.database).2 }) = _
    rw [Backend.respond_journal hrespond]
  have hrecord (k : Nat) : (s.receive n r).2.recordOf k =
      s.recordOf k ++ if k = n then [⟨r, o.isOk⟩] else [] := by
    rw [receive, hwatched]
    by_cases hk : k = n
    · simp [recordOf, List.filter_append, hk]
    · simp [recordOf, List.filter_append, hk, Ne.symm hk]
  refine ⟨?_, fun k hk => ?_, rfl, rfl⟩
  · have hn := hrecord n
    rw [if_pos rfl] at hn
    exact congrArg (Account.mk _ _ · _) hn
  · have hk' := hrecord k
    rw [if_neg hk, List.append_nil] at hk'
    exact congrArg (Account.mk _ _ · _) hk'

/-- What is never answered shows in no account. -/
theorem steady_receive {r : Request} (h : (s.receive n r).1 = .never) :
    s.Steady (s.receive n r).2 := by
  have hentries : (s.receive n r).2.backend.database.entries = s.backend.database.entries := by
    simp only [receive, Backend.respond] at h ⊢
    split at h <;> simp_all
  refine ⟨fun k => ?_, rfl, rfl⟩
  have hrecord : (s.receive n r).2.recordOf k = s.recordOf k := by rw [recordOf, hentries, recordOf]
  exact congrArg (Account.mk _ _ · _) hrecord

/-! ### New connections -/

/-- A change by an attempt to get a connection, which the account of that attempt shows as `f` says. -/
structure Draws (f : Nat → Account → Account) (s s' : Store (Watched (Journal β) α)) : Prop where
  account : s'.account (s.attempts + 1) = f (s.attempts + 1) (s.account (s.attempts + 1))
  others : ∀ k, k ≠ s.attempts + 1 → s'.account k = s.account k
  attempts : s'.attempts = s.attempts + 1
  clients : s'.clients = s.clients

/-- Whoever asks for a connection is refused, or holds a new one. -/
theorem draws_acquire (acquirer : Acquirer) (s : Store (Watched (Journal β) α)) :
    (∃ e, (s.acquire acquirer).1 = .error e ∧
      s.Draws (fun n => Account.noted (.refused n)) (s.acquire acquirer).2) ∨
    (s.acquire acquirer).1 = .ok (s.attempts + 1) ∧
      s.Draws (fun n => Account.acquired acquirer n) (s.acquire acquirer).2 := by
  have hsame (k : Nat) : Store.account k { s with
      backend := (Backend.connect (s.attempts + 1) s.backend).2, attempts := s.attempts + 1 } =
        s.account k := rfl
  have hclients : Store.clients { s with
      backend := (Backend.connect (s.attempts + 1) s.backend).2, attempts := s.attempts + 1 } =
        s.clients := rfl
  rw [acquire]
  -- what the database does with the connection is not looked at, only whether it gives one
  generalize Backend.connect (s.attempts + 1) s.backend = connected at hsame hclients ⊢
  obtain ⟨refusal, backend⟩ := connected
  dsimp only at hsame hclients ⊢
  cases refusal with
  | some e =>
    have hnote := alters_note (s := { s with backend, attempts := s.attempts + 1 })
      (e := .refused (s.attempts + 1)) rfl
    refine .inl ⟨e, rfl, hnote.account.trans (congrArg (Account.noted _) (hsame _)), fun k hk => ?_,
      rfl, hclients⟩
    exact (hnote.others k hk).trans (hsame k)
  | none =>
    have hset := alters_setUsage (s := { s with backend, attempts := s.attempts + 1 })
      (n := s.attempts + 1) (u := { Usage.none with holders := 1 })
      (f := fun a => { a with holders := 1, fitness := .fresh }) rfl
    have hnote := hset.trans (alters_note (e := .acquired acquirer (s.attempts + 1)) rfl)
    refine .inr ⟨rfl, hnote.account.trans ?_, fun k hk => ?_, rfl, hclients⟩
    · rw [hsame]
      rfl
    · exact (hnote.others k hk).trans (hsame k)

end Backends

end Store

end SqlClient
