import Mathlib.Data.Fin.VecNotation
import Mathlib.Data.List.FinRange
import Mathlib.Data.List.Perm.Basic
import SqlClient.Proofs.Client.Order
import SqlClient.Proofs.Transaction.Contributions
import SqlClient.Proofs.Transaction.Histories
/-!
# Transactions — siblings

A `Concert` is any work of a transaction, parts of which may run side by side: it sends requests, opens
nested scopes, lets parts run next to each other through clients of one scope, and goes on as it likes
with what all of that comes to. Whatever the order in which the statements of its parts get their turn on
the connection, they leave a record of which every exchange belongs to one part (`left_of_trail`). The runs
of a program are among these (`trail_of_transact`).

So replaying the record of a root transaction commits what succeeded in scopes that returned a result, if
every scope that failed had the connection to itself from its savepoint on until it was undone
(`committed_of_trail`). Otherwise it need not: siblings have the name of their savepoint in common.
-/

namespace SqlClient

open Coroutine

variable {sql : TransactionSql} {reading : sql.Reading}

/-- The work of a scope, parts of which may run side by side. -/
inductive Concert (reading : sql.Reading) : Type → Type 1
  | finish {α : Type} (o : Outcome α) : Concert reading α
  | send {α : Type} (r : PlainRequest reading) (k : Outcome ResultSet → Concert reading α) :
      Concert reading α
  | nest {α γ : Type} (body : Concert reading γ) (k : Outcome γ → Concert reading α) : Concert reading α
  /-- Lets parts run side by side until all of them have finished. -/
  | join {α γ : Type} {n : Nat} (parts : Fin n → Concert reading γ)
      (k : List (Outcome γ) → Concert reading α) : Concert reading α

namespace History

/-- All exchanges of one history come before those of another. -/
def Before (sql : TransactionSql) (h h' : History) : Prop :=
  ∀ post ∈ h.posts sql, ∀ post' ∈ h'.posts sql, post.2 < post'.2

instance (sql : TransactionSql) (h h' : History) : Decidable (h.Before sql h') :=
  inferInstanceAs (Decidable (∀ post ∈ h.posts sql, ∀ post' ∈ h'.posts sql, post.2 < post'.2))

/-- Histories next to each other. -/
def all (hs : List History) : History := hs.foldr both nothing

theorem posts_all (hs : List History) : (all hs).posts sql = hs.flatMap (·.posts sql) := by
  induction hs with
  | nil => rfl
  | cons h hs ih => simp [all, posts, ← ih]

theorem proper_all {depth : Nat} {hs : List History} (hproper : ∀ h ∈ hs, h.Proper reading depth) :
    (all hs).Proper reading depth := by
  induction hs with
  | nil => trivial
  | cons h hs ih => exact ⟨hproper h (.head _), ih fun h hh => hproper h (.tail _ hh)⟩

end History

namespace Concert

variable {β : Type} [Backend β]

/-- Runs the work through a client, whose clones its parts share. A nested scope gets a client of its own
from it. -/
def through {α : Type} : Concert reading α → Client → Work β α
  | finish o, _ => .ofOutcome o
  | send r k, c => .mk do
    let o ← (c.run r.request).run
    ((k o).through c).run
  | nest body k, c => .mk do
    let o ← (c.transact body.through).run
    ((k o).through c).run
  | join parts k, c => .mk do
    let os ← Coroutine.all (List.ofFn fun i => ((parts i).through c).run)
    ((k os).through c).run

/-- `Takes p depth h o`: in a scope at a depth, the work `p` can have the history `h` and come to the
outcome `o`. What it does one after the other has places in that order; its parts may come in between each
other. Through the client of a scope that has ended, nothing is sent. -/
inductive Takes : {α : Type} → Concert reading α → Nat → History → Outcome α → Prop
  | finish {α : Type} {o : Outcome α} {depth : Nat} : Takes (.finish o) depth .nothing o
  | send {α : Type} {r : PlainRequest reading} {k : Outcome ResultSet → Concert reading α} {depth place : Nat}
      {h : History} {o : Outcome ResultSet} {o' : Outcome α} : Takes (k o) depth h o' →
      (History.sent place r.request o.isOk).Before sql h →
      Takes (.send r k) depth (.both (.sent place r.request o.isOk) h) o'
  | sendRefused {α : Type} {r : PlainRequest reading} {k : Outcome ResultSet → Concert reading α}
      {depth : Nat} {h : History} {o' : Outcome α} : Takes (k (.error .scopeEnded)) depth h o' →
      Takes (.send r k) depth h o'
  | nest {α γ : Type} {body : Concert reading γ} {k : Outcome γ → Concert reading α} {depth opened : Nat}
      {inside h : History} {undone : Option Nat} {o : Outcome γ} {o' : Outcome α} :
      Takes body (depth + 1) inside o → undone.isNone = o.isOk → inside.Within sql opened undone →
      Takes (k o) depth h o' → (History.scope (depth + 1) opened inside undone).Before sql h →
      Takes (.nest body k) depth (.both (.scope (depth + 1) opened inside undone) h) o'
  | nestRefused {α γ : Type} {body : Concert reading γ} {k : Outcome γ → Concert reading α} {depth : Nat}
      {h : History} {o' : Outcome α} : Takes (k (.error .scopeEnded)) depth h o' →
      Takes (.nest body k) depth h o'
  | join {α γ : Type} {n : Nat} {parts : Fin n → Concert reading γ}
      {k : List (Outcome γ) → Concert reading α} {depth : Nat} {hs : Fin n → History}
      {os : Fin n → Outcome γ} {h : History} {o' : Outcome α} :
      (∀ i, Takes (parts i) depth (hs i) (os i)) → Takes (k (List.ofFn os)) depth h o' →
      (History.all (List.ofFn hs)).Before sql h →
      Takes (.join parts k) depth (.both (.all (List.ofFn hs)) h) o'

variable {α : Type} {p : Concert reading α} {depth : Nat} {h : History} {o : Outcome α}

theorem Takes.proper (htakes : Takes p depth h o) : h.Proper reading depth := by
  induction htakes with
  | finish => trivial
  | @send _ r _ _ _ _ _ _ _ _ ih => exact ⟨r.plain, ih⟩
  | sendRefused _ ih => exact ih
  | nest _ _ hwithin _ _ ihbody ih => exact ⟨⟨Nat.lt_succ_self _, hwithin, ihbody⟩, ih⟩
  | nestRefused _ ih => exact ih
  | join _ _ _ ihparts ih =>
    refine ⟨History.proper_all fun h hh => ?_, ih⟩
    obtain ⟨i, rfl⟩ := List.mem_ofFn.1 hh
    exact ihparts i

end Concert

/-! ## What is left of a concert -/

/-- The exchanges of a trail, without their connections. -/
def posted (es : List ((Nat × Exchange) × Nat)) : List (Exchange × Nat) := es.map fun e => (e.1.2, e.2)

section Posted

variable {es es₁ es₂ : List ((Nat × Exchange) × Nat)} {h₁ h₂ : History}

theorem map_fst_posted (es : List ((Nat × Exchange) × Nat)) :
    (posted es).map (·.1) = (es.map (·.1)).map (·.2) := by
  simp [posted]

theorem pairwise_posted (h : es.Pairwise (·.2 < ·.2)) : (posted es).Pairwise (·.2 < ·.2) :=
  List.pairwise_map.2 h

/-- Trails in a row belong to histories in a row. -/
theorem before_of_append (h : (es₁ ++ es₂).Pairwise (·.2 < ·.2)) (h₁' : (h₁.posts sql).Perm (posted es₁))
    (h₂' : (h₂.posts sql).Perm (posted es₂)) : h₁.Before sql h₂ := by
  intro post hpost post' hpost'
  obtain ⟨e, he, rfl⟩ := List.mem_map.1 (h₁'.mem_iff.1 hpost)
  obtain ⟨e', he', rfl⟩ := List.mem_map.1 (h₂'.mem_iff.1 hpost')
  exact (List.pairwise_append.1 h).2.2 e he e' he'

theorem perm_posted_append (h₁' : (h₁.posts sql).Perm (posted es₁)) (h₂' : (h₂.posts sql).Perm (posted es₂)) :
    ((History.both h₁ h₂).posts sql).Perm (posted (es₁ ++ es₂)) := by
  rw [posted, List.map_append]
  exact h₁'.append h₂'

end Posted

namespace Concert

variable {β : Type} [Backend β]

/-- What a trail says of a work in a scope: all of it is sent over the connection of the scope, and if its
control statements have succeeded, it is a history of the work. -/
structure Left {α : Type} (p : Concert reading α) (scope : Scope) (es : List ((Nat × Exchange) × Nat))
    (o : Outcome α) : Prop where
  connection : ∀ e ∈ es, e.1.1 = scope.connection
  takes : Obeyed reading ((posted es).map (·.1)) →
    ∃ h, p.Takes scope.depth h o ∧ (h.posts sql).Perm (posted es)

variable {α γ : Type} {scope : Scope} {es es₁ es₂ : List ((Nat × Exchange) × Nat)} {o' : Outcome α}

theorem obeyed_posted_append (h : Obeyed reading ((posted (es₁ ++ es₂)).map (·.1))) :
    Obeyed reading ((posted es₁).map (·.1)) ∧ Obeyed reading ((posted es₂).map (·.1)) := by
  rw [posted, List.map_append, List.map_append] at h
  exact h.append

theorem left_send {r : PlainRequest reading} {k : Outcome ResultSet → Concert reading α} {o : Outcome ResultSet}
    {place : Nat} (hrest : (k o).Left scope es o')
    (hordered : ([((scope.connection, (⟨r.request, o.isOk⟩ : Exchange)), place)] ++ es).Pairwise (·.2 < ·.2)) :
    (Concert.send r k).Left scope ([((scope.connection, ⟨r.request, o.isOk⟩), place)] ++ es) o' := by
  refine ⟨List.forall_mem_cons.2 ⟨rfl, hrest.connection⟩, fun hobeyed => ?_⟩
  obtain ⟨h, htakes, hperm⟩ := hrest.takes (obeyed_posted_append hobeyed).2
  have hsent : ((History.sent place r.request o.isOk).posts sql).Perm
      (posted [((scope.connection, ⟨r.request, o.isOk⟩), place)]) := .refl _
  exact ⟨_, .send htakes (before_of_append hordered hsent hperm), perm_posted_append hsent hperm⟩

/-- The statement that undoes a scope has its place if the scope has failed. -/
theorem undone_of_obeyed {n depth : Nat} {succeeded : Bool} {o : Outcome γ}
    {last : List ((Nat × Exchange) × Nat)}
    (hlast : last.map (·.1) = if o.isOk then [] else [(n, ⟨.script (sql.undoSavepoint depth), succeeded⟩)])
    (hobeyed : Obeyed reading ((posted last).map (·.1))) :
    ∃ undone : Option Nat, undone.isNone = o.isOk ∧
      last = undone.toList.map fun place => ((n, ⟨.script (sql.undoSavepoint depth), true⟩), place) := by
  cases o with
  | ok a => exact ⟨none, rfl, List.map_eq_nil_iff.1 hlast⟩
  | error e =>
    obtain ⟨place, rfl⟩ := eq_singleton_of_map hlast
    have hsucceeded : succeeded = true := hobeyed.head (reading.undoSavepoint depth)
    exact ⟨some place, rfl, by rw [hsucceeded]; rfl⟩

/-- A trail between the statements that open and undo a scope. -/
def bracketed (sql : TransactionSql) (n depth opened : Nat) (undone : Option Nat)
    (es : List ((Nat × Exchange) × Nat)) : List ((Nat × Exchange) × Nat) :=
  ((n, ⟨.script (sql.openSavepoint depth), true⟩), opened) ::
    (es ++ undone.toList.map fun place => ((n, ⟨.script (sql.undoSavepoint depth), true⟩), place))

/-- What is left between the statements of a scope is within the scope. -/
theorem scope_of_bracketed {n depth opened : Nat} {undone : Option Nat} {inside : History}
    (hperm : (inside.posts sql).Perm (posted es))
    (hordered : (bracketed sql n depth opened undone es).Pairwise (·.2 < ·.2)) :
    ((History.scope depth opened inside undone).posts sql).Perm
      (posted (bracketed sql n depth opened undone es)) ∧ inside.Within sql opened undone := by
  obtain ⟨hopened, hrest⟩ := List.pairwise_cons.1 hordered
  have hmem : ∀ post ∈ inside.posts sql, ∃ e ∈ es, e.2 = post.2 := by
    intro post hpost
    obtain ⟨e, he, rfl⟩ := List.mem_map.1 (hperm.mem_iff.1 hpost)
    exact ⟨e, he, rfl⟩
  have hundone : ∀ place ∈ undone, ((n, (⟨.script (sql.undoSavepoint depth), true⟩ : Exchange)), place) ∈
      undone.toList.map fun place => ((n, (⟨.script (sql.undoSavepoint depth), true⟩ : Exchange)), place) :=
    fun place hplace => List.mem_map_of_mem (Option.mem_toList.2 hplace)
  refine ⟨?_, fun post hpost => ?_, fun place hplace => ⟨?_, fun post hpost => ?_⟩⟩
  · rw [posted, bracketed, List.map_cons, List.map_append, List.map_map, History.posts]
    exact (hperm.append_right _).cons _
  · obtain ⟨e, he, heq⟩ := hmem post hpost
    exact heq ▸ hopened e (List.mem_append_left _ he)
  · exact hopened _ (List.mem_append_right _ (hundone place hplace))
  · obtain ⟨e, he, heq⟩ := hmem post hpost
    exact heq ▸ (List.pairwise_append.1 hrest).2.2 e he _ (hundone place hplace)

/-- A nested scope that was opened, and what follows it. -/
theorem left_opened {body : Concert reading γ} {k : Outcome γ → Concert reading α} {o : Outcome γ}
    {inner : Scope} {place : Nat} {last : List ((Nat × Exchange) × Nat)} {succeeded : Bool}
    (hdepth : inner.depth = scope.depth + 1) (hconnection : inner.connection = scope.connection)
    (hinside : body.Left inner es o)
    (hlast : last.map (·.1) = if o.isOk then [] else
      [(scope.connection, ⟨.script (sql.undoSavepoint (scope.depth + 1)), succeeded⟩)])
    (hrest : (k o).Left scope es₂ o')
    (hordered : (((scope.connection, (⟨.script (sql.openSavepoint (scope.depth + 1)), true⟩ : Exchange)),
      place) :: (es ++ last) ++ es₂).Pairwise (·.2 < ·.2)) :
    (Concert.nest body k).Left scope
      (((scope.connection, ⟨.script (sql.openSavepoint (scope.depth + 1)), true⟩), place) ::
        (es ++ last) ++ es₂) o' := by
  refine ⟨fun e he => ?_, fun hobeyed => ?_⟩
  · have hclosed : ∀ e ∈ last, e.1.1 = scope.connection := by
      intro e he
      have hmem : e.1 ∈ last.map (·.1) := List.mem_map_of_mem he
      rw [hlast] at hmem
      split at hmem
      · cases hmem
      · rw [List.mem_singleton.1 hmem]
    simp only [List.mem_append, List.mem_cons] at he
    rcases he with (rfl | he | he) | he
    · rfl
    · exact (hinside.connection e he).trans hconnection
    · exact hclosed e he
    · exact hrest.connection e he
  -- the brackets and the body are told apart, then put together with what follows as a course
  · obtain ⟨hobeyed, hobeyedRest⟩ := obeyed_posted_append hobeyed
    rw [← List.singleton_append] at hobeyed
    obtain ⟨hobeyedInside, hobeyedLast⟩ := obeyed_posted_append (obeyed_posted_append hobeyed).2
    obtain ⟨undone, hundone, rfl⟩ := undone_of_obeyed hlast hobeyedLast
    obtain ⟨inside, htakesInside, hpermInside⟩ := hinside.takes hobeyedInside
    obtain ⟨h, htakes, hperm⟩ := hrest.takes hobeyedRest
    obtain ⟨hscope, hwithin⟩ := scope_of_bracketed hpermInside (List.pairwise_append.1 hordered).1
    rw [hdepth] at htakesInside
    exact ⟨_, .nest htakesInside hundone hwithin htakes (before_of_append hordered hscope hperm),
      perm_posted_append hscope hperm⟩

/-- A nested scope, and what follows it. -/
theorem left_nest {c : Client} {body : Concert reading γ} {k : Outcome γ → Concert reading α} {o : Outcome γ}
    (hsql : c.settings.transactionSql = sql)
    (hbody : ∀ {inner : Scope} {w w' : Store (Journal β) × Nat} {es o},
      Trail Store.written (body.through (c.inScope inner)).run w es (.done o) w' → body.Left inner es o)
    (hnested : NestedTrail c scope (body.through : Client → Work (Journal β) γ) es₁ o)
    (hrest : (k o).Left scope es₂ o') (hordered : (es₁ ++ es₂).Pairwise (·.2 < ·.2)) :
    (Concert.nest body k).Left scope (es₁ ++ es₂) o' := by
  subst hsql
  cases hnested with
  | refused =>
    refine ⟨hrest.connection, fun hobeyed => ?_⟩
    obtain ⟨h, htakes, hperm⟩ := hrest.takes hobeyed
    exact ⟨h, .nestRefused htakes, hperm⟩
  | unopened =>
    refine ⟨List.forall_mem_cons.2 ⟨rfl, hrest.connection⟩, fun hobeyed => ?_⟩
    cases (obeyed_posted_append hobeyed).1.head (reading.openSavepoint _)
  | opened hdepth hconnection htrail hlast =>
    exact left_opened hdepth hconnection (hbody htrail) hlast hrest hordered

/-- Parts that ran side by side, and what follows them. -/
theorem left_join {n : Nat} {parts : Fin n → Concert reading γ} {k : List (Outcome γ) → Concert reading α}
    {trail : Fin n → List ((Nat × Exchange) × Nat)} {os : Fin n → Outcome γ}
    (hparts : ∀ i, (parts i).Left scope (trail i) (os i)) (hperm₁ : (List.ofFn trail).flatten.Perm es₁)
    (hrest : (k (List.ofFn os)).Left scope es₂ o') (hordered : (es₁ ++ es₂).Pairwise (·.2 < ·.2)) :
    (Concert.join parts k).Left scope (es₁ ++ es₂) o' := by
  have hmem : ∀ i, ∀ e ∈ trail i, e ∈ es₁ := fun i e he =>
    hperm₁.mem_iff.1 (List.mem_flatten.2 ⟨_, List.mem_ofFn.2 ⟨i, rfl⟩, he⟩)
  refine ⟨fun e he => ?_, fun hobeyed => ?_⟩
  · rcases List.mem_append.1 he with he | he
    · obtain ⟨_, hes, he⟩ := List.mem_flatten.1 (hperm₁.mem_iff.2 he)
      obtain ⟨i, rfl⟩ := List.mem_ofFn.1 hes
      exact (hparts i).connection e he
    · exact hrest.connection e he
  · obtain ⟨hobeyedParts, hobeyedRest⟩ := obeyed_posted_append hobeyed
    obtain ⟨h, htakes, hperm⟩ := hrest.takes hobeyedRest
    have hhistory : ∀ i, ∃ h, (parts i).Takes scope.depth h (os i) ∧ (h.posts sql).Perm (posted (trail i)) := by
      refine fun i => (hparts i).takes fun x hx => hobeyedParts x ?_
      simp only [posted, List.map_map, List.mem_map] at hx ⊢
      obtain ⟨e, he, rfl⟩ := hx
      exact ⟨e, hmem i e he, rfl⟩
    choose hs htakesParts hpermParts using hhistory
    -- the parts of the history make up the trail in another order, for they took turns
    have hall : ((History.all (List.ofFn hs)).posts sql).Perm (posted es₁) := by
      rw [History.posts_all, List.ofFn_eq_map, List.flatMap_map]
      refine (List.Perm.flatMap_left _ fun i _ => hpermParts i).trans ?_
      have hflat := hperm₁.map fun e => (e.1.2, e.2)
      rwa [List.ofFn_eq_map, List.map_flatten, List.map_map] at hflat
    exact ⟨_, .join htakesParts htakes (before_of_append hordered hall hperm), perm_posted_append hall hperm⟩

/-- **The statements of a concert have each a part that they belong to**, whatever others do meanwhile on
the connection and with the scope: by induction on the work, whose parts are followed among each other. -/
theorem left_of_trail (p : Concert reading α) : ∀ {c : Client} {scope : Scope} {w w' : Store (Journal β) × Nat}
    {es : List ((Nat × Exchange) × Nat)} {o : Outcome α}, c.settings.transactionSql = sql →
    c.scope = some scope → Trail Store.written (p.through c).run w es (.done o) w' → p.Left scope es o := by
  induction p with
  | finish o =>
    intro c scope w w' es o' _ _ h
    obtain ⟨rfl, rfl⟩ := Trail.done Store.written_self h
    exact ⟨List.forall_mem_nil _, fun _ => ⟨.nothing, .finish, .refl _⟩⟩
  | send r k ih =>
    intro c scope w w' es o' hsql hscope h
    have hordered := h.places.2.1
    obtain ⟨o, es₁, w₁, es₂, hrun, hk, rfl⟩ := Trail.bind h
    have hrest := ih o hsql hscope hk
    rcases exchanged_of_trail hscope hrun with ⟨rfl, rfl⟩ | ⟨place, rfl⟩
    · refine ⟨hrest.connection, fun hobeyed => ?_⟩
      obtain ⟨h, htakes, hperm⟩ := hrest.takes hobeyed
      exact ⟨h, .sendRefused htakes, hperm⟩
    · exact left_send hrest hordered
  | nest body k ihbody ih =>
    intro c scope w w' es o' hsql hscope h
    have hordered := h.places.2.1
    obtain ⟨o, es₁, w₁, es₂, htransact, hk, rfl⟩ := Trail.bind h
    exact left_nest hsql (fun {inner} _ _ _ _ => ihbody (c := c.inScope inner) hsql rfl)
      (nested_of_trail hscope htransact) (ih o hsql hscope hk) hordered
  | join parts k ihparts ih =>
    intro c scope w w' es o' hsql hscope h
    have hordered := h.places.2.1
    obtain ⟨os, es₁, w₁, es₂, hall, hk, rfl⟩ := Trail.bind h
    -- each part is followed with the others among those who may do anything
    obtain ⟨ess, cs', htrails, hbeside, hperm⟩ := hall.beside Store.written_self (beside_all _)
    rw [hbeside.eq_map_done rfl] at htrails
    obtain ⟨results, trail, rfl, rfl, hparts⟩ := htrails.ofFn
    exact left_join (fun i => ihparts i hsql hscope (hparts i)) hperm (ih _ hsql hscope hk) hordered

/-- A concert begins in order. -/
theorem orderly_through (p : Concert reading α) : ∀ c : Client, (p.through c : Work β α).run.Orderly := by
  induction p with
  | finish o => exact fun _ => trivial
  | send r k ih => exact fun c => (orderly_query c r.request).bind fun o => ih o c
  | nest body k ihbody ih => exact fun c => (orderly_transact c ihbody).bind fun o => ih o c
  | join parts k ihparts ih =>
    refine fun c => (orderly_all fun d hd => ?_).bind fun os => ih os c
    obtain ⟨i, rfl⟩ := List.mem_ofFn.1 hd
    exact ihparts i c

/-- **A transaction that a program runs leaves a trail.** -/
theorem trail_of_transact (c : Client) (p : Concert reading α) {s s' : Store (Journal β)} {o : Outcome α}
    (h : (c.transact p.through).run.run s = some (o, s')) :
    ∃ es n, Trail Store.written (c.transact p.through).run (s, 0) es (.done o) (s', n) :=
  trail_of_run h (orderly_transact c p.orderly_through)

/-! ## Root transactions -/

/-- A history accounts for the record of a root transaction: it is one that its work can have, and all of
it lies between the statements that begin and close the transaction. -/
structure Accounts {α : Type} (p : Concert reading α) (o : Outcome α) (record : List (Exchange × Nat))
    (h : History) : Prop where
  ordered : record.Pairwise (·.2 < ·.2)
  takes : p.Takes 0 h o
  framed : ∃ (first last : Nat) (inner : List (Exchange × Nat)), (h.posts sql).Perm inner ∧
    record = (⟨.script sql.begin, true⟩, first) ::
      (inner ++ [(⟨.script (if o.isOk then sql.commit else sql.rollback), true⟩, last)])

/-- **Replaying the record of a root transaction** commits what its history keeps, if it returns a result
and nobody has disturbed it, and nothing if it fails. -/
theorem Accounts.replay {p : Concert reading α} {o : Outcome α} {record : List (Exchange × Nat)} {h : History}
    (haccounts : p.Accounts o record h) (hundisturbed : o.isOk = true → h.Undisturbed sql record)
    (committed : List Request) :
    Ledger.replay reading ⟨committed, none⟩ (record.map (·.1)) =
      ⟨committed ++ if o.isOk then (record.filter (· ∈ h.kept)).map (·.1.request) else [], none⟩ := by
  obtain ⟨hordered, htakes, first, last, inner, hperm, rfl⟩ := haccounts
  obtain ⟨hfirst, hrest⟩ := List.pairwise_cons.1 hordered
  obtain ⟨hinner, -, hlast⟩ := List.pairwise_append.1 hrest
  have hbefore : ∀ post ∈ inner, post.2 < last := by simpa using hlast
  have hproper := htakes.proper
  have hbegin : Ledger.apply reading ⟨committed, none⟩ ⟨.script sql.begin, true⟩ =
      ⟨committed, some ⟨[], []⟩⟩ := Ledger.apply_control reading.begin _
  rw [List.map_cons, Ledger.replay_cons, hbegin, List.map_append, Ledger.replay_append]
  cases hok : o.isOk with
  | false =>
    obtain ⟨w, hopen⟩ := History.replay_open hperm hproper committed ⟨[], []⟩
    rw [hopen]
    simp [Ledger.apply_control reading.rollback, Ledger.control]
  | true =>
    have hmono : h.Undisturbed sql inner := (hundisturbed hok).mono fun post hpost =>
      .tail _ (List.mem_append_left _ hpost)
    obtain ⟨stale, hkept⟩ := History.replay_of_undisturbed hinner hperm hproper hmono committed ⟨[], []⟩
    have hwithin : ∀ post ∈ h.kept, post ∈ inner := by
      intro post hpost
      have hwin : post ∈ h.wins sql := History.mem_wins_of_kept hpost
      exact hperm.mem_iff.1 (History.mem_wins.1 hwin).1
    -- by their places, the statements around it are no part of the history
    have hopening : (⟨.script sql.begin, true⟩, first) ∉ h.kept := fun hpost =>
      Nat.lt_irrefl _ (hfirst _ (List.mem_append_left _ (hwithin _ hpost)))
    have hclosing : (⟨.script sql.commit, true⟩, last) ∉ h.kept := fun hpost =>
      Nat.lt_irrefl _ (hbefore _ (hwithin _ hpost))
    rw [hkept]
    simp [Ledger.apply_control reading.commit, Ledger.control, List.filter_append, hopening, hclosing]

/-- The statement that closes a root transaction, if it succeeds. -/
theorem closed_of_obeyed {n : Nat} {o o' : Outcome α} {last : List ((Nat × Exchange) × Nat)}
    (hclosed : RootClosed sql n o (last.map (·.1)) o') (hobeyed : Obeyed reading ((posted last).map (·.1))) :
    o' = o ∧ ∃ place,
      last = [((n, ⟨.script (if o.isOk then sql.commit else sql.rollback), true⟩), place)] := by
  rw [map_fst_posted] at hobeyed
  generalize hleft : last.map (·.1) = left at hclosed hobeyed
  cases hclosed with
  | committed hok =>
    obtain ⟨place, rfl⟩ := eq_singleton_of_map hleft
    exact ⟨rfl, place, by rw [if_pos hok]⟩
  | uncommitted =>
    cases hobeyed _ (.head _) (Option.isSome_of_eq_some reading.commit)
  | rolledBack hfailed =>
    obtain ⟨place, rfl⟩ := eq_singleton_of_map hleft
    obtain rfl := hobeyed.head reading.rollback
    exact ⟨rfl, place, by simp [hfailed]⟩

/-- **What a root transaction commits** with work of which parts run side by side, however their statements
take turns and whatever others do meanwhile. All of its statements go over one connection. If its control
statements have succeeded, its record is that of a history of its work. It commits exactly what succeeded
in scopes that returned a result, if every scope that failed had the connection to itself from its
savepoint on until it was undone, and nothing if it fails. -/
theorem committed_of_trail (c : Client) (reading : c.settings.transactionSql.Reading) (p : Concert reading α)
    {w w' : Store (Journal β) × Nat} {o : Outcome α} (hroot : c.scope = none)
    (h : Trail Store.written (c.transact p.through).run w es (.done o) w') :
    (es = [] ∧ o.isOk = false) ∨
    (∃ n, ∀ e ∈ es, e.1.1 = n) ∧
      (Obeyed reading ((posted es).map (·.1)) →
        (∃ h, p.Accounts o (posted es) h) ∧
        ∀ h, p.Accounts o (posted es) h →
          (o.isOk = true → h.Undisturbed c.settings.transactionSql (posted es)) →
          ∀ committed, Ledger.replay reading ⟨committed, none⟩ ((posted es).map (·.1)) =
            ⟨committed ++ if o.isOk then ((posted es).filter (· ∈ h.kept)).map (·.1.request) else [], none⟩) := by
  have hordered := h.places.2.1
  cases root_of_trail hroot h with
  | unconnected => exact .inl ⟨rfl, rfl⟩
  | @unbegun n place e =>
    -- the statement that failed is control, so its record is none of those in question
    refine .inr ⟨⟨n, List.forall_mem_singleton.2 rfl⟩, fun hobeyed => ?_⟩
    cases hobeyed.head reading.begin
  | @begun n place scope w₁ w₂ es last o₁ o' hdepth hconnection htrail hclosed =>
    have hinside := left_of_trail p (c := c.inScope scope) rfl rfl htrail
    refine .inr ⟨⟨n, fun e he => ?_⟩, fun hobeyed => ?_⟩
    · rcases List.mem_cons.1 he with rfl | he
      · rfl
      rcases List.mem_append.1 he with he | he
      · exact (hinside.connection e he).trans hconnection
      · exact hclosed.connection e.1 (List.mem_map_of_mem he)
    · rw [← List.singleton_append] at hobeyed
      obtain ⟨hobeyedInside, hobeyedLast⟩ := obeyed_posted_append (obeyed_posted_append hobeyed).2
      obtain ⟨inside, htakes, hperm⟩ := hinside.takes hobeyedInside
      obtain ⟨rfl, place', rfl⟩ := closed_of_obeyed hclosed hobeyedLast
      rw [hdepth] at htakes
      refine ⟨⟨inside, pairwise_posted hordered, htakes, place, place', posted es, hperm, ?_⟩, ?_⟩
      · simp [posted]
      · exact fun h haccounts => haccounts.replay

/-! ## Siblings that get along -/

/-- Three scopes, of which the second one fails. -/
def trioScopes : Fin 3 → Concert (TransactionSql.Reading.ofDialect .sqlite) Unit := ![
  .nest (γ := Unit) (.send ⟨.statement "DELETE FROM a" [], by decide⟩ fun _ =>
    .send ⟨.statement "DELETE FROM b" [], by decide⟩ fun _ => .finish (.ok ())) .finish,
  .nest (γ := Unit) (.send ⟨.statement "DELETE FROM c" [], by decide⟩ fun _ =>
    .finish (.error (.ofMessage "given up"))) .finish,
  .nest (γ := Unit) (.send ⟨.statement "DELETE FROM d" [], by decide⟩ fun _ => .finish (.ok ())) .finish]

/-- They run side by side. -/
def trio : Concert (TransactionSql.Reading.ofDialect .sqlite) (List Bool) :=
  .join trioScopes fun os => .finish (.ok (os.map (·.isOk)))

/-- Scripted connections on which every request succeeds. -/
def willingStore : Store (Journal ScriptedDatabase) := Store.start ⟨⟨[], []⟩, []⟩ .default

/-- An order in which the three get their turns: how many moves, and whose. -/
def trioTurns : List (Nat × List Bool) :=
  [(9, []), (17, [false]), (8, [true, true, false]), (25, [true, false]), (9, [true, true, false]),
    (10, [false]), (1, [true, false]), (2, [true, true, false]), (1, [true, true]), (1, [true]), (12, [])]

/-- What the transaction of `trio` sends then. -/
def trioRecord : List Exchange :=
  [⟨.script "BEGIN", true⟩, ⟨.script "SAVEPOINT sqlfx1", true⟩, ⟨.statement "DELETE FROM a" [], true⟩,
    ⟨.script "SAVEPOINT sqlfx1", true⟩, ⟨.script "SAVEPOINT sqlfx1", true⟩,
    ⟨.statement "DELETE FROM c" [], true⟩, ⟨.script "ROLLBACK TO SAVEPOINT sqlfx1", true⟩,
    ⟨.statement "DELETE FROM d" [], true⟩, ⟨.statement "DELETE FROM b" [], true⟩, ⟨.script "COMMIT", true⟩]

/-- Which part of the record is whose. -/
def trioParts : Fin 3 → History := ![
  .both (.scope 1 1 (.both (.sent 2 (.statement "DELETE FROM a" []) true)
    (.both (.sent 8 (.statement "DELETE FROM b" []) true) .nothing)) none) .nothing,
  .both (.scope 1 4 (.both (.sent 5 (.statement "DELETE FROM c" []) true) .nothing) (some 6)) .nothing,
  .both (.scope 1 3 (.both (.sent 7 (.statement "DELETE FROM d" []) true) .nothing) none) .nothing]

/-- The whole record, but for the statements around it. -/
def trioHistory : History := .both (.all (List.ofFn trioParts)) .nothing

set_option maxRecDepth 4000 in
open Operation in
theorem follow_trio :
    ((sqliteClient.transact trio.through).run.follow Store.written
        (trioTurns.flatMap fun turn => List.replicate turn.1 turn.2) (willingStore, 0)).map
          (fun r => (r.1, r.2.1.result?)) =
      some (trioRecord.zipIdx.map fun e => ((1, e.1), e.2), some (.ok [true, false, true])) := by
  with_unfolding_all rfl

/-- What comes of the three. -/
def trioOutcomes : Fin 3 → Outcome Unit := ![.ok (), .error (.ofMessage "given up"), .ok ()]

theorem takes_trio : ∀ i, (trioScopes i).Takes 0 (trioParts i) (trioOutcomes i)
  | 0 => .nest (.send (o := .ok default) (.send (o := .ok default) .finish (by decide)) (by decide)) rfl
    (by decide) .finish (by decide)
  | 1 => .nest (.send (o := .ok default) .finish (by decide)) rfl (by decide) .finish (by decide)
  | 2 => .nest (.send (o := .ok default) .finish (by decide)) rfl (by decide) .finish (by decide)

theorem accounts_trio : trio.Accounts (.ok [true, false, true]) trioRecord.zipIdx trioHistory where
  ordered := by decide
  takes := .join takes_trio .finish (by decide)
  framed := ⟨0, 9, (trioRecord.zipIdx.drop 1).take 8, by decide, rfl⟩

open Operation in
/-- The transaction of `trio` commits what its first and its third scope have sent. -/
theorem committed_trio :
    sqliteClient.scope = none ∧
    ∃ es w', Trail Store.written (sqliteClient.transact trio.through).run (willingStore, 0) es
        (.done (.ok [true, false, true])) w' ∧
      posted es = trioRecord.zipIdx ∧ Obeyed (.ofDialect .sqlite) trioRecord ∧
      trio.Accounts (.ok [true, false, true]) trioRecord.zipIdx trioHistory ∧
      trioHistory.Undisturbed (.ofDialect .sqlite) trioRecord.zipIdx ∧
      (Ledger.replay (.ofDialect .sqlite) ⟨[], none⟩ trioRecord).committed =
        [.statement "DELETE FROM a" [], .statement "DELETE FROM d" [], .statement "DELETE FROM b" []] := by
  obtain ⟨⟨es, c', w'⟩, hfollow, hlast⟩ := Option.map_eq_some_iff.1 follow_trio
  obtain ⟨rfl, hresult⟩ := Prod.mk.inj hlast
  obtain rfl := eq_done_of_result? hresult
  have htrail := trail_of_follow hfollow
  have hposted : posted (trioRecord.zipIdx.map fun e => ((1, e.1), e.2)) = trioRecord.zipIdx := rfl
  have hobeyed : Obeyed (.ofDialect .sqlite) trioRecord := by
    unfold Obeyed
    decide
  have hundisturbed : trioHistory.Undisturbed (.ofDialect .sqlite) trioRecord.zipIdx := by decide
  rcases committed_of_trail sqliteClient (.ofDialect .sqlite) trio rfl htrail with ⟨hnone, -⟩ | ⟨-, hexact⟩
  · cases hnone
  have hreplay := (hexact hobeyed).2 trioHistory accounts_trio (fun _ => hundisturbed) []
  exact ⟨rfl, _, w', htrail, hposted, hobeyed, accounts_trio, hundisturbed,
    (congrArg Ledger.committed hreplay).trans (by decide)⟩

/-! ## Siblings that disturb each other -/

/-- Two scopes, of which the first one fails. -/
def clashScopes : Fin 2 → Concert (TransactionSql.Reading.ofDialect .sqlite) Unit := ![
  .nest (γ := Unit) (.send ⟨.statement "DELETE FROM a" [], by decide⟩ fun _ =>
    .send ⟨.statement "DELETE FROM b" [], by decide⟩ fun _ => .finish (.error (.ofMessage "given up"))) .finish,
  .nest (γ := Unit) (.send ⟨.statement "DELETE FROM c" [], by decide⟩ fun _ => .finish (.ok ())) .finish]

/-- They run side by side. -/
def clash : Concert (TransactionSql.Reading.ofDialect .sqlite) (List Bool) :=
  .join clashScopes fun os => .finish (.ok (os.map (·.isOk)))

/-- Scripted connections on which one of the requests takes a while. -/
def slowStore : Store (Journal ScriptedDatabase) :=
  Store.start ⟨⟨[⟨[.equals "DELETE FROM a"], .yields 3, none⟩], []⟩, []⟩ .default

/-- What the transaction of `clash` sends over them: while the first scope waits for its answer, the second
one lines up, and sets its savepoint as soon as the connection is free. -/
def clashRecord : List Exchange :=
  [⟨.script "BEGIN", true⟩, ⟨.script "SAVEPOINT sqlfx1", true⟩, ⟨.statement "DELETE FROM a" [], true⟩,
    ⟨.script "SAVEPOINT sqlfx1", true⟩, ⟨.statement "DELETE FROM b" [], true⟩,
    ⟨.statement "DELETE FROM c" [], true⟩, ⟨.script "ROLLBACK TO SAVEPOINT sqlfx1", true⟩,
    ⟨.script "COMMIT", true⟩]

/-- Which part of the record is whose. -/
def clashParts : Fin 2 → History := ![
  .both (.scope 1 1 (.both (.sent 2 (.statement "DELETE FROM a" []) true)
    (.both (.sent 4 (.statement "DELETE FROM b" []) true) .nothing)) (some 6)) .nothing,
  .both (.scope 1 3 (.both (.sent 5 (.statement "DELETE FROM c" []) true) .nothing) none) .nothing]

/-- The whole record, but for the statements around it. -/
def clashHistory : History := .both (.all (List.ofFn clashParts)) .nothing

/-- What comes of the two. -/
def clashOutcomes : Fin 2 → Outcome Unit := ![.error (.ofMessage "given up"), .ok ()]

open Operation in
theorem run_clash :
    ((sqliteClient.transact clash.through).run.run slowStore).map (fun r => (r.1, r.2.backend.entries)) =
      some (.ok [false, true], clashRecord.map (Prod.mk 1)) := by
  with_unfolding_all rfl

theorem takes_clash : ∀ i, (clashScopes i).Takes 0 (clashParts i) (clashOutcomes i)
  | 0 => .nest (.send (o := .ok default) (.send (o := .ok default) .finish (by decide)) (by decide)) rfl
    (by decide) .finish (by decide)
  | 1 => .nest (.send (o := .ok default) .finish (by decide)) rfl (by decide) .finish (by decide)

theorem accounts_clash : clash.Accounts (.ok [false, true]) clashRecord.zipIdx clashHistory where
  ordered := by decide
  takes := .join takes_clash .finish (by decide)
  framed := ⟨0, 7, (clashRecord.zipIdx.drop 1).take 6, by decide, rfl⟩

open Operation in
/-- **A sibling that fails may undo what is not its own, and keep what is**: the second scope of `clash` has
set its savepoint after the first scope had begun, and the first one goes back to that of the second. Every
statement succeeds, but what is committed is of the scope that failed, and nothing of the other one. -/
theorem undone_clash :
    (∃ s' es n, (sqliteClient.transact clash.through).run.run slowStore = some (.ok [false, true], s') ∧
      Trail Store.written (sqliteClient.transact clash.through).run (slowStore, 0) es
        (.done (.ok [false, true])) (s', n) ∧
      s'.backend.entries = clashRecord.map (Prod.mk 1)) ∧
    (∀ e ∈ clashRecord, e.succeeded = true) ∧
    clash.Accounts (.ok [false, true]) clashRecord.zipIdx clashHistory ∧
    clashHistory.kept.map (·.1.request) = [.statement "DELETE FROM c" []] ∧
    (Ledger.replay (.ofDialect .sqlite) ⟨[], none⟩ clashRecord).committed = [.statement "DELETE FROM a" []] := by
  refine ⟨?_, by decide, accounts_clash, by decide, by decide⟩
  obtain ⟨⟨o, s'⟩, hrun, hlast⟩ := Option.map_eq_some_iff.1 run_clash
  obtain ⟨rfl, hentries⟩ := Prod.mk.inj hlast
  obtain ⟨es, n, htrail⟩ := trail_of_transact sqliteClient clash hrun
  exact ⟨s', es, n, hrun, htrail, hentries⟩

end Concert

end SqlClient
