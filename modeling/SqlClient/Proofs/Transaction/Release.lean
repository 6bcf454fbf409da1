import SqlClient.Proofs.Pool.Lending
import SqlClient.Proofs.Transaction.Custody
import SqlClient.Proofs.Transaction.Gate
import SqlClient.Session.Scripted
/-!
# Transactions — connections that go back

When the last handle lets go of a connection it goes back to the pool, for the next transaction. In a
`Cohort` the futures of a program take their moves in any order, and each may be given up wherever it
waits, so every moment in which a connection can go back is a state of a cohort; the turns of an assembly
are moves in a row (`Assembly.steps_poll`, `Assembly.steps_drop`). A connection that has gone back has no
open transaction, or is found broken by the pool (`Cohort.closed_of_released`).
-/

namespace SqlClient

open Coroutine

variable {β α : Type}

/-! ## Moves of futures -/

namespace Future

/-- A move of a future, and the tasks that it starts. -/
inductive Moves : Future β α → Store (Watched β α) → Future β α → Store (Watched β α) →
    List (Coroutine (Store (Watched β α)) Unit) → Prop
  | statement {c : Client} {rest rest' : Coroutine (Store (Watched β α)) (Outcome ResultSet)}
      {s s' : Store (Watched β α)} {ts : List (Coroutine (Store (Watched β α)) Unit)} :
      Coroutine.Moves rest s rest' s' ts → Moves (.statement c rest) s (.statement c rest') s' ts
  | transaction {c : Client} {rest rest' : Coroutine (Store (Watched β α)) (Outcome α)}
      {s s' : Store (Watched β α)} {ts : List (Coroutine (Store (Watched β α)) Unit)} :
      Coroutine.Moves rest s rest' s' ts → Moves (.transaction c rest) s (.transaction c rest') s' ts
  | task {rest rest' : Coroutine (Store (Watched β α)) Unit} {s s' : Store (Watched β α)}
      {ts : List (Coroutine (Store (Watched β α)) Unit)} :
      Coroutine.Moves rest s rest' s' ts → Moves (.task rest) s (.task rest') s' ts

/-- The future waits, and may be given up. Tasks are not. -/
def Waits : Future β α → Prop
  | .statement _ rest => rest.Waits
  | .transaction _ rest => rest.Waits
  | .task _ | .givenUp => False

end Future

/-- Futures that share a store. -/
structure Cohort (β α : Type) where
  store : Store (Watched β α)
  futures : List (Future β α)

/-- A change by others, who leave a connection alone. -/
structure Store.Spares (n : Nat) (s s' : Store (Watched (Journal β) α)) : Prop where
  account : s'.account n = s.account n
  attempts : s.attempts ≤ s'.attempts
  clients : s'.clients = s.clients

namespace Cohort

variable [Backend β]

/-- What may happen next, move by move and in any order, while others leave the connection `n` alone. A
future is given up in one move, with all its guards. -/
inductive Step (sql : TransactionSql) (n : Nat) : Cohort (Journal β) α → Cohort (Journal β) α → Prop
  | issue {C : Cohort (Journal β) α} {c : Client} {r : Request} : C.store.AtHand c →
      Step sql n C ⟨C.store, C.futures ++ [.statement c (c.run r).run]⟩
  | begin {C : Cohort (Journal β) α} {c : Client} {number : Nat} : c.settings.transactionSql = sql →
      c.scope = none ∨ C.store.AtHand c →
      Step sql n C ⟨C.store, C.futures ++ [.transaction c (c.transact (visit number)).run]⟩
  | move {s s' : Store (Watched (Journal β) α)} {l r : List (Future (Journal β) α)}
      {f f' : Future (Journal β) α} {ts : List (Coroutine (Store (Watched (Journal β) α)) Unit)} :
      f.Moves s f' s' ts → Step sql n ⟨s, l ++ f :: r⟩ ⟨s', l ++ f' :: r ++ ts.map .task⟩
  | drop {s : Store (Watched (Journal β) α)} {l r : List (Future (Journal β) α)}
      {f : Future (Journal β) α} : f.Waits →
      Step sql n ⟨s, l ++ f :: r⟩ ⟨(f.drop (Turn.start s false)).2.state,
        l ++ (f.drop (Turn.start s false)).1 :: r ++ (f.drop (Turn.start s false)).2.spawned.map .task⟩
  | others {C : Cohort (Journal β) α} {s' : Store (Watched (Journal β) α)} : C.store.Spares n s' →
      Step sql n C ⟨s', C.futures⟩

end Cohort

/-! ## Cohorts in custody -/

variable {sql : TransactionSql} {reading : sql.Reading} {n : Nat}

/-- A future that keeps to the rules of its post. -/
def Future.Attends (sql : TransactionSql) : Future (Journal β) α → Tenure → Prop
  | .statement _ rest, γ => rest.Tracks (futureTracking sql) [] γ fun _ _ => True
  | .transaction _ rest, γ => rest.Tracks (futureTracking sql) [] γ fun _ _ => True
  | .task rest, γ => Minds sql rest γ
  | .givenUp, _ => True

/-- Every future keeps to the rules of some post, and together they have custody of the connection. -/
def Cohort.Kept (reading : sql.Reading) (n : Nat) (C : Cohort (Journal β) α) : Prop :=
  ∃ members : List (Future (Journal β) α × Tenure), members.map (·.1) = C.futures ∧
    (∀ m ∈ members, m.1.Attends sql m.2) ∧ Custody reading n ↑(members.map (·.2)) C.store

theorem coe_append_cons {τ : Type} (l r : List τ) (x : τ) :
    (↑(l ++ x :: r) : Multiset τ) = x ::ₘ ↑(l ++ r) :=
  Multiset.coe_eq_coe.2 List.perm_middle

namespace Future

variable {f f' : Future (Journal β) α} {γ : Tenure} {s s' : Store (Watched (Journal β) α)}
  {ts : List (Coroutine (Store (Watched (Journal β) α)) Unit)}

/-- A move of a future is a deed, or changes nothing. -/
theorem Attends.moves (h : f.Attends sql γ) (hm : f.Moves s f' s' ts) :
    ts = [] ∧ ∃ γ', Deed sql γ s γ' s' ∧ f'.Attends sql γ' := by
  have hdeed {γ' : Tenure} (h : Deed sql γ s γ' s' ∨ γ' = γ ∧ s' = s) : Deed sql γ s γ' s' := by
    rcases h with h | ⟨rfl, rfl⟩
    · exact h
    · exact .aside .refl
  cases hm with
  | statement hm =>
    obtain ⟨hts, γ', hdoes, h'⟩ := Tracks.moves h hm
    exact ⟨hts, γ', hdeed hdoes, h'⟩
  | transaction hm =>
    obtain ⟨hts, γ', hdoes, h'⟩ := Tracks.moves h hm
    exact ⟨hts, γ', hdeed hdoes, h'⟩
  | task hm =>
    obtain ⟨hts, γ', hdoes, h'⟩ := Tracks.moves h hm
    exact ⟨hts, γ', hdeed hdoes, h'⟩

/-- A future that is given up leaves what its post lets it leave. -/
theorem Attends.drop (h : f.Attends sql γ) (hwaits : f.Waits) :
    (f.drop (Turn.start s false)).1 = .givenUp ∧
      Leaving sql γ s (f.drop (Turn.start s false)).2.state (f.drop (Turn.start s false)).2.spawned := by
  cases f with
  | statement c rest => exact ⟨rfl, Tracks.drop h hwaits false⟩
  | transaction c rest => exact ⟨rfl, Tracks.drop h hwaits false⟩
  | task rest => exact hwaits.elim
  | givenUp => exact hwaits.elim

end Future

namespace Cohort

variable [Backend β] {C C' : Cohort (Journal β) α}

omit [Backend β] in
/-- One more future, through a client at hand. -/
theorem Kept.add (h : C.Kept reading n) {f : Future (Journal β) α} {c : Client}
    (hf : f.Attends sql c.tenure) (hc : c.scope = none ∨ C.store.AtHand c) :
    Kept reading n ⟨C.store, C.futures ++ [f]⟩ := by
  obtain ⟨members, hfutures, hfollows, hcustody⟩ := h
  refine ⟨members ++ [(f, c.tenure)], by rw [List.map_append, hfutures]; rfl, ?_, ?_⟩
  · intro m hm
    rcases List.mem_append.1 hm with hm | hm
    · exact hfollows m hm
    · obtain rfl := List.mem_singleton.1 hm
      exact hf
  · rw [List.map_append, List.map_singleton, coe_append_cons, List.append_nil]
    exact hcustody.join hc

section Split

variable {s s' : Store (Watched (Journal β) α)} {l r : List (Future (Journal β) α)}
  {f f' : Future (Journal β) α}

omit [Backend β] in
/-- One future, its post, and the others. -/
theorem Kept.split (h : Kept reading n ⟨s, l ++ f :: r⟩) :
    ∃ (γ : Tenure) (ml mr : List (Future (Journal β) α × Tenure)), f.Attends sql γ ∧
      ml.map (·.1) = l ∧ mr.map (·.1) = r ∧ (∀ m ∈ ml ++ mr, m.1.Attends sql m.2) ∧
      Custody reading n (γ ::ₘ ↑((ml ++ mr).map (·.2))) s := by
  obtain ⟨members, hfutures, hfollows, hcustody⟩ := h
  obtain ⟨ml, rest, rfl, hl, hrest⟩ := List.map_eq_append_iff.1 hfutures
  obtain ⟨m, mr, rfl, rfl, hr⟩ := List.map_eq_cons_iff.1 hrest
  refine ⟨m.2, ml, mr, hfollows m (by simp), hl, hr, fun m' hm' => hfollows m' ?_, ?_⟩
  · exact (List.mem_append.1 hm').elim (List.mem_append_left _)
      fun hm' => List.mem_append_right _ (List.mem_cons_of_mem _ hm')
  · rwa [List.map_append, List.map_cons, coe_append_cons, ← List.map_append] at hcustody

omit [Backend β] in
/-- One future has come to another post, and has left tasks. -/
theorem Kept.of_split {γ : Tenure} {ml mr : List (Future (Journal β) α × Tenure)}
    (hl : ml.map (·.1) = l) (hr : mr.map (·.1) = r) (hfollows : ∀ m ∈ ml ++ mr, m.1.Attends sql m.2)
    (hf : f'.Attends sql γ) {V : List (Coroutine (Store (Watched (Journal β) α)) Unit × Tenure)}
    (hV : ∀ v ∈ V, Minds sql v.1 v.2)
    (hcustody : Custody reading n (γ ::ₘ (↑(V.map (·.2)) + ↑((ml ++ mr).map (·.2)))) s') :
    Kept reading n ⟨s', l ++ f' :: r ++ (V.map (·.1)).map .task⟩ := by
  refine ⟨ml ++ (f', γ) :: mr ++ V.map fun v => (.task v.1, v.2), ?_, fun m hm => ?_, ?_⟩
  · simp [hl, hr, Function.comp_def]
  · rcases List.mem_append.1 hm with hm | hm
    · rcases List.mem_append.1 hm with hm | hm
      · exact hfollows m (List.mem_append_left _ hm)
      · rcases List.mem_cons.1 hm with rfl | hm
        · exact hf
        · exact hfollows m (List.mem_append_right _ hm)
    · obtain ⟨v, hv, rfl⟩ := List.mem_map.1 hm
      exact hV v hv
  · have hposts : ((ml ++ (f', γ) :: mr ++ V.map fun v => (Future.task v.1, v.2)).map (·.2)).Perm
        (γ :: (V.map (·.2) ++ (ml ++ mr).map (·.2))) := by
      simp only [List.map_append, List.map_cons, List.map_map, Function.comp_def, List.append_assoc,
        List.cons_append]
      refine List.perm_middle.trans (.cons _ ?_)
      rw [← List.append_assoc]
      exact List.perm_append_comm
    rwa [Multiset.coe_eq_coe.2 hposts, ← Multiset.cons_coe, ← Multiset.coe_add]

end Split

/-- **Every step keeps the custody.** -/
theorem Kept.step (h : C.Kept reading n) (hstep : Step sql n C C') : C'.Kept reading n := by
  cases hstep with
  | @issue _ c r hc =>
    obtain ⟨v, hv, hsame, hsome⟩ := hc
    obtain ⟨scope, hscope⟩ := Option.isSome_iff_exists.1 hsome
    refine h.add (c := c) ?_ (.inr ⟨v, hv, hsame, hsome⟩)
    rw [Client.tenure, Client.connection?, hscope]
    exact tracks_run hscope r
  | @begin _ c number hsql hc => exact h.add (tracks_transact number c hsql) hc
  | move hm =>
    obtain ⟨γ, ml, mr, hf, hl, hr, hfollows, hcustody⟩ := h.split
    obtain ⟨rfl, γ', hdeed, hf'⟩ := hf.moves hm
    refine Kept.of_split (V := []) hl hr hfollows hf' (by simp) ?_
    rw [List.map_nil, Multiset.coe_nil, zero_add]
    exact hcustody.deed hdeed
  | @drop s l r f hwaits =>
    obtain ⟨γ, ml, mr, hf, hl, hr, hfollows, hcustody⟩ := h.split
    obtain ⟨hgone, hleaving⟩ := hf.drop hwaits
    obtain ⟨V, hV, hminds, hcustody'⟩ := hcustody.leaving hleaving
    rw [hgone, ← hV]
    -- who is given up goes away, and the tasks left behind come after all the others
    have hgivenUp : (Future.givenUp : Future (Journal β) α).Attends sql .away := trivial
    refine Kept.of_split hl hr hfollows hgivenUp hminds ?_
    rwa [Custody.cons_iff fun _ heq => by cases heq]
  | others hspares =>
    obtain ⟨members, hfutures, hfollows, hcustody⟩ := h
    refine ⟨members, hfutures, hfollows, hcustody.of_same hspares.account hspares.attempts ?_⟩
    exact fun _ htx _ => .inl (hspares.clients ▸ htx)

/-- Nobody has done anything. -/
def start (s : Store (Watched β α)) : Cohort β α := ⟨s, []⟩

omit [Backend β] in
theorem kept_start (database : β) (cache : RequestCache CacheKey Nat) :
    (start (Store.start ⟨⟨database, []⟩, [], []⟩ cache) : Cohort (Journal β) α).Kept reading n := by
  have huntouched : Account.blank.Untouched := fun _ he => by cases he
  have hkeeps : Keeps reading n 0 Account.blank :=
    { handles := rfl
      alone := Nat.zero_le 1
      unasked := fun _ => rfl
      posted := fun _ _ hin => absurd hin (Multiset.notMem_zero _)
      begun := fun _ he => by cases he
      safe := .inl (.inr (.inl ⟨rfl, .inr huntouched⟩))
      released := fun hreleased => by cases hreleased }
  exact ⟨[], rfl, by simp, hkeeps, fun _ => rfl, fun _ htx => by cases htx⟩

theorem kept_of_steps {database : β} {cache : RequestCache CacheKey Nat}
    (hsteps : Relation.ReflTransGen (Step sql n) (start (Store.start ⟨⟨database, []⟩, [], []⟩ cache)) C) :
    C.Kept reading n := by
  induction hsteps with
  | refl => exact kept_start database cache
  | tail _ hstep ih => exact ih.step hstep

end Cohort

/-! ## Turns

An assembly polls its futures, turn by turn. Its turns are steps of a cohort. -/

/-- **A turn of a future** is moves in a row, and starts no task. -/
theorem Future.Attends.poll {f : Future (Journal β) α} {γ : Tenure} (h : f.Attends sql γ)
    (w : Turn (Store (Watched (Journal β) α))) :
    Relation.ReflTransGen
        (fun x y : Future (Journal β) α × Store (Watched (Journal β) α) => x.1.Moves x.2 y.1 y.2 [])
        (f, w.state) ((f.poll w).1, (f.poll w).2.state) ∧
      (f.poll w).2.spawned = w.spawned := by
  cases f with
  | statement c rest =>
    obtain ⟨hwalks, hspawned, -⟩ := Tracks.poll w h
    exact ⟨Relation.ReflTransGen.lift (fun x => (Future.statement c x.1, x.2))
      (fun _ _ hm => .statement hm) _ _ hwalks, hspawned⟩
  | transaction c rest =>
    obtain ⟨hwalks, hspawned, -⟩ := Tracks.poll w h
    exact ⟨Relation.ReflTransGen.lift (fun x => (Future.transaction c x.1, x.2))
      (fun _ _ hm => .transaction hm) _ _ hwalks, hspawned⟩
  | task rest =>
    obtain ⟨hwalks, hspawned, -⟩ := Tracks.poll w h
    exact ⟨Relation.ReflTransGen.lift (fun x => (Future.task x.1, x.2))
      (fun _ _ hm => .task hm) _ _ hwalks, hspawned⟩
  | givenUp => exact ⟨.refl, rfl⟩

namespace Assembly

/-- The futures of an assembly, and their store. -/
def cohort (A : Assembly β α) : Cohort β α := ⟨A.store, A.futures⟩

variable [Backend β] {A : Assembly (Journal β) α}

omit [Backend β] in
/-- A future of an assembly, and those before and after it. -/
theorem futures_split {i : Nat} {f : Future (Journal β) α} (hi : A.futures[i]? = some f) :
    ∃ l r, A.futures = l ++ f :: r ∧ ∀ f', A.futures.set i f' = l ++ f' :: r := by
  obtain ⟨hlt, rfl⟩ := List.getElem?_eq_some_iff.1 hi
  have hset (f' : Future (Journal β) α) :
      A.futures.set i f' = A.futures.take i ++ f' :: A.futures.drop (i + 1) := by
    rw [List.set_eq_take_append_cons_drop, if_pos hlt]
  refine ⟨A.futures.take i, A.futures.drop (i + 1), ?_, hset⟩
  rw [← hset, List.set_getElem_self]

/-- **Polling a future** is steps in a row. -/
theorem steps_poll (h : A.cohort.Kept reading n) (i : Nat) :
    Relation.ReflTransGen (Cohort.Step sql n) A.cohort (A.poll i).cohort := by
  rw [poll]
  cases hi : A.futures[i]? with
  | none => exact .refl
  | some f =>
    obtain ⟨l, r, hsplit, hset⟩ := futures_split hi
    have hcohort : A.cohort = ⟨A.store, l ++ f :: r⟩ := congrArg (Cohort.mk A.store) hsplit
    rw [hcohort] at h ⊢
    obtain ⟨γ, -, -, hf, -⟩ := h.split
    obtain ⟨hmoves, hspawned⟩ := hf.poll (Turn.start A.store false)
    have hstep := Relation.ReflTransGen.lift (p := Cohort.Step sql n)
      (fun x : Future (Journal β) α × Store (Watched (Journal β) α) => ⟨x.2, l ++ x.1 :: r⟩)
      (fun x y hm => by simpa using Cohort.Step.move (l := l) (r := r) hm) _ _ hmoves
    have hafter : (A.afterTurn i f (f.poll (Turn.start A.store false)).1
        (f.poll (Turn.start A.store false)).2).cohort =
          ⟨(f.poll (Turn.start A.store false)).2.state,
            l ++ (f.poll (Turn.start A.store false)).1 :: r⟩ := by
      rw [cohort, afterTurn, hset, hspawned]
      simp [Turn.start]
    rw [hafter]
    exact hstep

/-- **Giving up a future**, where it waits, is a step. -/
theorem steps_drop {i : Nat} {f : Future (Journal β) α} (hi : A.futures[i]? = some f) (hwaits : f.Waits) :
    Cohort.Step sql n A.cohort (A.drop i).cohort := by
  obtain ⟨l, r, hsplit, hset⟩ := futures_split hi
  have hcohort : A.cohort = ⟨A.store, l ++ f :: r⟩ := congrArg (Cohort.mk A.store) hsplit
  rw [drop, hi, hcohort]
  dsimp only
  rw [cohort, afterTurn, hset]
  exact .drop hwaits

end Assembly

/-! ## Connections that go back -/

namespace Cohort

variable [Backend β] {C : Cohort (Journal β) α}

/-- **A connection that goes back has no open transaction, or is not used again.** However the root
transaction on it has ended, and whoever was given up on the way: once the last handle has let go,
nothing was ever sent over the connection, or BEGIN has failed, or COMMIT or ROLLBACK has succeeded, or
the connection is found broken. -/
theorem closed_of_released (reading : sql.Reading) {database : β} {cache : RequestCache CacheKey Nat}
    (hsteps : Relation.ReflTransGen (Step sql n) (start (Store.start ⟨⟨database, []⟩, [], []⟩ cache)) C)
    (hreleased : .released n ∈ C.store.log) :
    (∀ closed, (C.store.usageOf n).fitness.isUnfit closed = true) ∨
      (C.store.account n).Untouched ∨ (C.store.account n).Closed reading := by
  have hkept : C.Kept reading n := kept_of_steps hsteps
  obtain ⟨members, -, -, hcustody⟩ := hkept
  have hevent : .released n ∈ (C.store.account n).events :=
    List.mem_filter.2 ⟨hreleased, by simp [Event.connection]⟩
  obtain ⟨hsafe, -⟩ := hcustody.keeps.released hevent
  rcases hsafe with hbroken | ⟨-, hinFlight | huntouched⟩ | hclosed
  · refine .inl fun closed => ?_
    have hbroken : (C.store.usageOf n).fitness.broken = true := hbroken
    simp [Fitness.isUnfit, hbroken]
  · refine .inl fun closed => ?_
    have hinFlight : (C.store.usageOf n).fitness.inFlight = true := hinFlight
    simp [Fitness.isUnfit, hinFlight]
  · exact .inr (.inl huntouched)
  · exact .inr (.inr hclosed)

end Cohort

namespace Assembly

/-! ### A transaction that is given up -/

/-- Scripted connections on which a transaction cannot be rolled back. -/
def stubbornDatabase : ScriptedDatabase :=
  ⟨[⟨[.equals "ROLLBACK"], .fail (.ofMessage "rollback failed"), none⟩], []⟩

/-- Nobody has done anything on them. -/
def stubborn : Assembly (Journal ScriptedDatabase) Unit :=
  start (Store.start ⟨⟨stubbornDatabase, []⟩, [], []⟩ .default)

/-- A transaction that has begun. -/
def begun : Assembly (Journal ScriptedDatabase) Unit := (stubborn.begin outerClient).poll 0

/-- The same transaction, given up, after its rescue has run. -/
def rescued : Assembly (Journal ScriptedDatabase) Unit := (begun.drop 0).poll 1

theorem log_rescued : rescued.store.log =
    [.acquired .general 1, .script 1 "BEGIN", .script 1 "ROLLBACK", .broken 1, .released 1] := by
  with_unfolding_all rfl

theorem steps_rescued :
    Relation.ReflTransGen (Cohort.Step (.ofDialect .sqlite) 1) stubborn.cohort rescued.cohort := by
  have hkept {A : Assembly (Journal ScriptedDatabase) Unit}
      (h : Relation.ReflTransGen (Cohort.Step (.ofDialect .sqlite) 1) stubborn.cohort A.cohort) :
      A.cohort.Kept (TransactionSql.Reading.ofDialect .sqlite) 1 :=
    Cohort.kept_of_steps h
  have hbegin : Relation.ReflTransGen (Cohort.Step (.ofDialect .sqlite) 1) stubborn.cohort
      (stubborn.begin outerClient).cohort :=
    .single (.begin rfl (.inl rfl))
  have hbegun := hbegin.trans (steps_poll (hkept hbegin) 0)
  have hwaits : ∃ f, begun.futures[0]? = some f ∧ f.Waits := by
    with_unfolding_all exact ⟨_, rfl, trivial⟩
  obtain ⟨f, hf, hwaits⟩ := hwaits
  have hdropped := hbegun.tail (steps_drop hf hwaits)
  exact hdropped.trans (steps_poll (hkept hdropped) 1)

/-- A transaction is given up, and cannot be rolled back. Its connection goes back all the same, and is
found broken. -/
theorem closed_rescued :
    Relation.ReflTransGen (Cohort.Step (.ofDialect .sqlite) 1) stubborn.cohort rescued.cohort ∧
      .released 1 ∈ rescued.store.log ∧
      ((∀ closed, (rescued.store.usageOf 1).fitness.isUnfit closed = true) ∨
        (rescued.store.account 1).Untouched ∨
        (rescued.store.account 1).Closed (TransactionSql.Reading.ofDialect .sqlite)) := by
  have hreleased : .released 1 ∈ rescued.store.log := by
    rw [log_rescued]
    decide
  exact ⟨steps_rescued, hreleased, Cohort.closed_of_released _ steps_rescued hreleased⟩

end Assembly

end SqlClient
