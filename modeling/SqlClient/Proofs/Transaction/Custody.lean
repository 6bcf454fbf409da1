import Mathlib.Data.Multiset.Count
import Mathlib.Algebra.BigOperators.Group.Multiset.Basic
import SqlClient.Proofs.Transaction.Savepoints
import SqlClient.Proofs.Transaction.Tenure
/-!
# Transactions — custody of a connection

The account of a connection, against the posts of all who have to do with it. `Keeps` says that its
handles are theirs, and that it is safe to let go of it unless someone still guards its transaction.
Every deed keeps this (`Custody.deed`), and so does giving up (`Custody.leaving`). Since whoever guards
has a handle, a connection that the last one has let go of is safe.
-/

namespace SqlClient

open Coroutine

variable {β α : Type} {sql : TransactionSql} {reading : sql.Reading}

/-! ## Open transactions -/

namespace Ledger

/-- Without an open transaction, only BEGIN opens one. -/
theorem working_apply {l : Ledger} {e : Exchange} (hl : l.working = none)
    (he : reading.control? e.request.sql ≠ some .begin) : (l.apply reading e).working = none := by
  rw [apply]
  split
  case isFalse => exact hl
  case isTrue =>
    cases hcontrol : reading.control? e.request.sql with
    | none => simp [perform, hl]
    | some c =>
      cases c with
      | begin => exact absurd hcontrol he
      | _ => simp [control, hl]

theorem working_replay {record : List Exchange} {l : Ledger} (hl : l.working = none)
    (hrecord : ∀ e ∈ record, reading.control? e.request.sql ≠ some .begin) :
    (l.replay reading record).working = none := by
  induction record generalizing l with
  | nil => exact hl
  | cons e record ih =>
    rw [replay_cons]
    exact ih (working_apply hl (hrecord e (.head _))) fun e he => hrecord e (.tail _ he)

end Ledger

namespace Account

variable {a a' : Account}

/-- Nothing was sent over the connection. -/
def Untouched (a : Account) : Prop := ∀ e ∈ a.events, e.isSent = false

/-- **The transaction on the connection is closed**: BEGIN has failed, or COMMIT or ROLLBACK has succeeded
after it. What the database makes of the answers leaves no transaction open then, unless the operation
has begun one by itself. -/
def Closed (reading : sql.Reading) (a : Account) : Prop :=
  ∃ succeeded rest, a.record = ⟨.script sql.begin, succeeded⟩ :: rest ∧
    (succeeded = false ∨ ⟨.script sql.commit, true⟩ ∈ rest ∨ ⟨.script sql.rollback, true⟩ ∈ rest) ∧
    ((∀ e ∈ rest, reading.control? e.request.sql ≠ some .begin) →
      ∀ l : Ledger, l.working = none → (l.replay reading a.record).working = none)

/-- The connection is not used again, or there is no transaction on it. -/
def Safe (reading : sql.Reading) (a : Account) : Prop :=
  a.fitness.broken = true ∨ a.record = [] ∧ (a.fitness.inFlight = true ∨ a.Untouched) ∨ a.Closed reading

/-- A transaction that is closed stays closed. -/
theorem Closed.append (h : a.Closed reading) {later : List Exchange} (hrecord : a'.record = a.record ++ later) :
    a'.Closed reading := by
  obtain ⟨succeeded, rest, ha, hclosed, hreplay⟩ := h
  refine ⟨succeeded, rest ++ later, by rw [hrecord, ha, List.cons_append], ?_, fun hplain l hl => ?_⟩
  · rcases hclosed with hfailed | hcommit | hrollback
    · exact .inl hfailed
    · exact .inr (.inl (List.mem_append_left _ hcommit))
    · exact .inr (.inr (List.mem_append_left _ hrollback))
  · rw [hrecord, Ledger.replay_append]
    refine Ledger.working_replay (hreplay (fun e he => ?_) l hl) fun e he => ?_
    · exact hplain e (List.mem_append_left _ he)
    · exact hplain e (List.mem_append_right _ he)

/-- BEGIN has failed. -/
theorem closed_of_refused (h : a.record = [⟨.script sql.begin, false⟩]) : a.Closed reading := by
  refine ⟨false, [], h, .inl rfl, fun _ l hl => ?_⟩
  rw [h]
  exact hl

/-- COMMIT or ROLLBACK has just succeeded. -/
theorem closed_of_answered {text : String} {succeeded : Bool} {rest : List Exchange}
    (htext : text = sql.commit ∨ text = sql.rollback)
    (h : a.record = ⟨.script sql.begin, succeeded⟩ :: (rest ++ [⟨.script text, true⟩])) :
    a.Closed reading := by
  refine ⟨succeeded, rest ++ [⟨.script text, true⟩], h, ?_, fun _ l _ => ?_⟩
  · rcases htext with rfl | rfl
    · exact .inr (.inl (by simp))
    · exact .inr (.inr (by simp))
  · rw [h, Ledger.replay_cons, Ledger.replay_append, Ledger.replay_cons, Ledger.replay_nil]
    rcases htext with rfl | rfl
    · rw [Ledger.apply_control reading.commit]
      rfl
    · rw [Ledger.apply_control reading.rollback]
      rfl

/-- A connection on which something was answered stays safe. -/
theorem Safe.grows (h : a.Safe reading) (hrecord : a.record ≠ []) (hgrows : a.Grows a') :
    a'.Safe reading := by
  obtain ⟨later, hlater⟩ := hgrows.record
  rcases h with hbroken | ⟨hempty, -⟩ | hclosed
  · exact .inl (hgrows.broken hbroken)
  · exact absurd hempty hrecord
  · exact .inr (.inr (hclosed.append hlater))

/-- Letting go of a connection makes it no less safe. -/
theorem Safe.letGo (h : a.Safe reading) (n : Nat) : (a.letGo n).Safe reading := by
  rcases h with hbroken | ⟨hempty, hinFlight | huntouched⟩ | hclosed
  · exact .inl hbroken
  · exact .inr (.inl ⟨hempty, .inl hinFlight⟩)
  · refine .inr (.inl ⟨hempty, .inr fun e he => ?_⟩)
    rcases List.mem_append.1 he with he | he
    · exact huntouched e he
    · split at he
      · obtain rfl := List.mem_singleton.1 he
        rfl
      · cases he
  · exact .inr (.inr hclosed)

end Account

/-! ## Posts and accounts -/

/-- The handles on a connection that someone has. -/
def Tenure.handlesOf (n : Nat) : Tenure → Nat
  | .away => 0
  | .on m post => if m = n then post.handles else 0

theorem sum_handlesOf_cons (n : Nat) (post : Post) (U : Multiset Tenure) :
    ((Tenure.on n post ::ₘ U).map (Tenure.handlesOf n)).sum =
      post.handles + (U.map (Tenure.handlesOf n)).sum := by
  rw [Multiset.map_cons, Multiset.sum_cons, Tenure.handlesOf, if_pos rfl]

/-- The account of a connection fits the posts of those who have to do with it. -/
structure Keeps (reading : sql.Reading) (n : Nat) (T : Multiset Tenure) (a : Account) : Prop where
  handles : a.holders = (T.map (Tenure.handlesOf n)).sum
  /-- Only one asks for the transaction. -/
  alone : T.count (.on n .opening) ≤ 1
  /-- Until that is answered, nothing else is. -/
  unasked : .on n .opening ∈ T → a.record = []
  posted : ∀ post, post ≠ .opening → .on n post ∈ T → a.record ≠ []
  begun : ∀ e ∈ a.record.head?, e.request = .script sql.begin
  /-- Whoever has still to close the transaction is there. -/
  safe : a.Safe reading ∨ ∃ post, post.Guards ∧ .on n post ∈ T
  released : .released n ∈ a.events → a.Safe reading ∧ .on n .opening ∉ T

namespace Keeps

variable {n : Nat} {U T : Multiset Tenure} {a a' : Account} {γ : Tenure} {post p q : Post}

/-- Who has nothing to do with the connection does not count. -/
theorem cons_iff (hγ : ∀ post, γ ≠ .on n post) : Keeps reading n (γ ::ₘ U) a ↔ Keeps reading n U a := by
  have hhandles : γ.handlesOf n = 0 := by
    cases γ with
    | away => rfl
    | on m post =>
      rw [Tenure.handlesOf, if_neg]
      rintro rfl
      exact hγ post rfl
  have hmem (post : Post) : .on n post ∈ γ ::ₘ U ↔ .on n post ∈ U := by
    rw [Multiset.mem_cons, or_iff_right (hγ post).symm]
  have hcount : (γ ::ₘ U).count (.on n .opening) = U.count (.on n .opening) :=
    Multiset.count_cons_of_ne (hγ _).symm _
  have hsum : ((γ ::ₘ U).map (Tenure.handlesOf n)).sum = (U.map (Tenure.handlesOf n)).sum := by
    rw [Multiset.map_cons, Multiset.sum_cons, hhandles, Nat.zero_add]
  constructor
  · intro h
    refine ⟨hsum ▸ h.handles, hcount ▸ h.alone, fun ho => h.unasked ((hmem _).2 ho),
      fun post hpost hin => h.posted post hpost ((hmem _).2 hin), h.begun, ?_, fun hreleased => ?_⟩
    · exact h.safe.imp_right fun ⟨post, hpost, hin⟩ => ⟨post, hpost, (hmem _).1 hin⟩
    · exact (h.released hreleased).imp_right fun hnone ho => hnone ((hmem _).2 ho)
  · intro h
    refine ⟨hsum ▸ h.handles, hcount ▸ h.alone, fun ho => h.unasked ((hmem _).1 ho),
      fun post hpost hin => h.posted post hpost ((hmem _).1 hin), h.begun, ?_, fun hreleased => ?_⟩
    · exact h.safe.imp_right fun ⟨post, hpost, hin⟩ => ⟨post, hpost, (hmem _).2 hin⟩
    · exact (h.released hreleased).imp_right fun hnone ho => hnone ((hmem _).1 ho)

theorem handles_cons (h : Keeps reading n (.on n post ::ₘ U) a) :
    a.holders = post.handles + (U.map (Tenure.handlesOf n)).sum :=
  h.handles.trans (sum_handlesOf_cons n post U)

/-- Someone is there who has a handle. -/
theorem holders_pos (h : Keeps reading n T a) (hpost : post.handles = 1) (hmem : .on n post ∈ T) :
    0 < a.holders := by
  obtain ⟨U, rfl⟩ := Multiset.exists_cons_of_mem hmem
  rw [h.handles_cons, hpost]
  exact Nat.add_pos_left Nat.one_pos _

/-- Nobody has to do with a connection that there is not. -/
theorem nobody (h : Keeps reading n T .blank) (post : Post) : .on n post ∉ T := by
  intro hpost
  cases post with
  | visitor => exact h.posted .visitor (by decide) hpost rfl
  | opening | armed | holder | rescuing => exact Nat.lt_irrefl 0 (h.holders_pos rfl hpost)

/-- Where something was answered, nobody asks for the transaction any more. -/
theorem not_opening (h : Keeps reading n T a) (hrecord : a.record ≠ []) : .on n .opening ∉ T :=
  fun hopening => hrecord (h.unasked hopening)

/-- **What becomes of a connection in use.** Who works there may change to another post, with as many
handles more or less as are added or given back, and give up its guard when that is safe. -/
theorem grows (h : Keeps reading n (.on n p ::ₘ U) a) (hp : p ≠ .opening) (hq : q ≠ .opening)
    (hgrows : a.Grows a') (hhandles : a'.holders + p.handles = a.holders + q.handles)
    (hguards : p.Guards → q.Guards ∨ a'.Safe reading) : Keeps reading n (.on n q ::ₘ U) a' := by
  have hrecord : a.record ≠ [] := h.posted p hp (Multiset.mem_cons_self _ _)
  obtain ⟨later, hlater⟩ := hgrows.record
  have hrecord' : a'.record ≠ [] := by simp [hlater, hrecord]
  have hnone : .on n .opening ∉ Tenure.on n q ::ₘ U := by
    rw [Multiset.mem_cons, not_or]
    refine ⟨fun heq => hq (Tenure.on.inj heq).2.symm, fun hmem => ?_⟩
    exact h.not_opening hrecord (Multiset.mem_cons_of_mem hmem)
  have hsafe : a.Safe reading → a'.Safe reading := fun hsafe => hsafe.grows hrecord hgrows
  constructor
  case handles =>
    have hsum := h.handles_cons
    rw [sum_handlesOf_cons]
    omega
  case alone =>
    rw [Multiset.count_eq_zero_of_notMem hnone]
    exact Nat.zero_le 1
  case unasked => exact fun hopening => absurd hopening hnone
  case posted => exact fun _ _ _ => hrecord'
  case begun =>
    intro e he
    rw [hlater, List.head?_append_of_ne_nil _ hrecord] at he
    exact h.begun e he
  case safe =>
    rcases h.safe with hold | ⟨post, hpost, hmem⟩
    · exact .inl (hsafe hold)
    · rcases Multiset.mem_cons.1 hmem with heq | hmem
      -- the guard is the one who moves, and may only give up what is safe by then
      · obtain ⟨-, rfl⟩ := Tenure.on.inj heq
        rcases hguards hpost with hq | hsafe'
        · exact .inr ⟨q, hq, Multiset.mem_cons_self _ _⟩
        · exact .inl hsafe'
      · exact .inr ⟨post, hpost, Multiset.mem_cons_of_mem hmem⟩
  case released =>
    obtain ⟨events, hevents, hquiet⟩ := hgrows.events
    intro hreleased
    rw [hevents] at hreleased
    rcases List.mem_append.1 hreleased with hreleased | hreleased
    · exact ⟨hsafe (h.released hreleased).1, hnone⟩
    · exact absurd hreleased (hquiet n)

/-- Whoever asks for the transaction is alone with the connection. -/
theorem alone_cons (h : Keeps reading n (.on n .opening ::ₘ U) a) (post : Post) : .on n post ∉ U := by
  intro hpost
  have hempty : a.record = [] := h.unasked (Multiset.mem_cons_self _ _)
  by_cases hopening : post = .opening
  · subst hopening
    have hcount := h.alone
    rw [Multiset.count_cons_self] at hcount
    have := Multiset.one_le_count_iff_mem.2 hpost
    omega
  · exact h.posted post hopening (Multiset.mem_cons_of_mem hpost) hempty

theorem not_released_opening (h : Keeps reading n (.on n .opening ::ₘ U) a) :
    .released n ∉ a.events :=
  fun hreleased => (h.released hreleased).2 (Multiset.mem_cons_self _ _)

/-- A transaction that has just been closed, or whose connection has just been given up, needs no guard. -/
theorem safe_settled (h : Keeps reading n (.on n post ::ₘ U) a) (hpost : post ≠ .opening)
    (hsettles : a.Settles sql a') : a'.Safe reading := by
  rcases hsettles with hbroken | ⟨text, htext, hrecord⟩
  · exact .inl hbroken
  · cases hfirst : a.record with
    | nil => exact absurd hfirst (h.posted post hpost (Multiset.mem_cons_self _ _))
    | cons first rest =>
      obtain ⟨request, succeeded⟩ := first
      have hbegin : request = .script sql.begin := h.begun ⟨request, succeeded⟩ (by rw [hfirst]; rfl)
      subst hbegin
      have hsplit : a'.record = ⟨.script sql.begin, succeeded⟩ :: (rest ++ [⟨.script text, true⟩]) := by
        rw [hrecord, hfirst, List.cons_append]
      exact .inr (.inr (Account.closed_of_answered htext hsplit))

/-- The transaction is asked for. -/
theorem ask (h : Keeps reading n (.on n .opening ::ₘ U) a) :
    Keeps reading n (.on n .opening ::ₘ U)
      ((Account.noted (.script n sql.begin) ∘ Account.fits .beginRequest) a) := by
  have hempty : a.record = [] := h.unasked (Multiset.mem_cons_self _ _)
  refine ⟨h.handles, h.alone, h.unasked, h.posted, h.begun, .inl (.inr (.inl ⟨hempty, .inl rfl⟩)), ?_⟩
  intro hreleased
  rcases List.mem_append.1 hreleased with hreleased | hreleased
  · exact absurd hreleased h.not_released_opening
  · cases List.mem_singleton.1 hreleased

/-- **The answer to BEGIN.** Whoever asked for the transaction guards it at once, if there is one. -/
theorem answered (h : Keeps reading n (.on n .opening ::ₘ U) a) (succeeded : Bool) :
    Keeps reading n (.on n (if succeeded then .armed else .holder) ::ₘ U)
      (a.answered ⟨.script sql.begin, succeeded⟩) := by
  -- nothing has been asked of a connection while it is being opened, so BEGIN is its whole record
  have hempty : a.record = [] := h.unasked (Multiset.mem_cons_self _ _)
  have hrecord : (a.answered ⟨.script sql.begin, succeeded⟩).record = [⟨.script sql.begin, succeeded⟩] := by
    rw [Account.answered, hempty, List.nil_append]
  have hnone : .on n .opening ∉
      Tenure.on n (if succeeded then Post.armed else .holder) ::ₘ U := by
    rw [Multiset.mem_cons, not_or]
    refine ⟨?_, h.alone_cons _⟩
    cases succeeded <;> simp
  constructor
  case handles =>
    rw [sum_handlesOf_cons]
    cases succeeded <;> exact h.handles_cons
  case alone =>
    rw [Multiset.count_eq_zero_of_notMem hnone]
    exact Nat.zero_le 1
  case unasked => exact fun hopening => absurd hopening hnone
  case posted => exact fun _ _ _ => hrecord ▸ List.cons_ne_nil _ _
  case begun =>
    rw [hrecord]
    rintro _ ⟨⟩
    rfl
  case safe =>
    cases succeeded with
    | true => exact .inr ⟨.armed, .inl rfl, Multiset.mem_cons_self _ _⟩
    | false => exact .inl (.inr (.inr (Account.closed_of_refused hrecord)))
  case released => exact fun hreleased => absurd hreleased h.not_released_opening

/-- Whoever has nothing to do for the transaction may go, with the handle if there is one. -/
theorem leave (h : Keeps reading n (.on n p ::ₘ U) a) (hguards : ¬ p.Guards) :
    Keeps reading n U { a with holders := a.holders - p.handles } where
  handles := by
    rw [h.handles_cons]
    exact Nat.add_sub_cancel_left ..
  alone := (Multiset.count_le_of_le _ (Multiset.le_cons_self _ _)).trans h.alone
  unasked hopening := h.unasked (Multiset.mem_cons_of_mem hopening)
  posted post hpost hmem := h.posted post hpost (Multiset.mem_cons_of_mem hmem)
  begun := h.begun
  safe := by
    refine h.safe.imp_right ?_
    rintro ⟨post, hpost, hmem⟩
    refine ⟨post, hpost, (Multiset.mem_cons.1 hmem).resolve_left fun heq => ?_⟩
    obtain ⟨-, rfl⟩ := Tenure.on.inj heq
    exact hguards hpost
  released hreleased := (h.released hreleased).imp_right fun hnone hmem =>
    hnone (Multiset.mem_cons_of_mem hmem)

/-- **Letting go.** With the last handle nobody is left who guards the transaction, so it is closed. -/
theorem letGo (h : Keeps reading n (.on n p ::ₘ U) a) (hp : p.handles = 1) (hguards : ¬ p.Guards) :
    Keeps reading n U (a.letGo n) := by
  have hleft : Keeps reading n U { a with holders := a.holders - 1 } := hp ▸ h.leave hguards
  have hsafe (h : Account.Safe reading { a with holders := a.holders - 1 }) :
      (a.letGo n).Safe reading := (show a.Safe reading from h).letGo n
  refine ⟨hleft.handles, hleft.alone, hleft.unasked, hleft.posted, hleft.begun,
    hleft.safe.imp_left hsafe, fun hreleased => ?_⟩
  rcases List.mem_append.1 hreleased with hreleased | hreleased
  · exact (hleft.released hreleased).imp_left hsafe
  · have hlast : a.holders ≤ 1 := by
      by_contra hmore
      rw [if_neg hmore] at hreleased
      cases hreleased
    have hnobody (post : Post) (hpost : post.handles = 1) : .on n post ∉ U := by
      intro hmem
      have hpos : 0 < a.holders - 1 := hleft.holders_pos hpost hmem
      omega
    refine ⟨hsafe (hleft.safe.resolve_right ?_), hnobody .opening rfl⟩
    rintro ⟨post, hpost, hmem⟩
    exact hnobody post hpost.handles hmem

/-- Whoever has got a connection is alone with it. -/
theorem acquired (h : Keeps reading n U .blank) (acquirer : Acquirer) :
    Keeps reading n (.on n .opening ::ₘ U) (Account.blank.acquired acquirer n) := by
  have hnobody := h.nobody
  constructor
  case handles =>
    rw [sum_handlesOf_cons, ← h.handles]
    rfl
  case alone =>
    rw [Multiset.count_cons_self, Multiset.count_eq_zero_of_notMem (hnobody .opening)]
  case unasked => exact fun _ => rfl
  case posted =>
    intro post hpost hmem
    rcases Multiset.mem_cons.1 hmem with heq | hmem
    · exact absurd (Tenure.on.inj heq).2 hpost
    · exact absurd hmem (hnobody post)
  case begun => exact fun _ he => by cases he
  case safe =>
    refine .inl (.inr (.inl ⟨rfl, .inr ?_⟩))
    simp [Account.Untouched, Account.acquired, Account.blank, Event.isSent]
  case released => simp [Account.acquired, Account.blank]

/-- An attempt that failed leaves no connection. -/
theorem refused (h : Keeps reading n U .blank) : Keeps reading n U (Account.blank.noted (.refused n)) := by
  refine ⟨h.handles, h.alone, h.unasked, h.posted, h.begun, .inl (.inr (.inl ⟨rfl, .inr ?_⟩)), ?_⟩
  · simp [Account.Untouched, Account.noted, Account.blank, Event.isSent]
  · simp [Account.noted, Account.blank]

/-- One more may send over a connection on which the transaction was begun. -/
theorem join (h : Keeps reading n T a) (hrecord : a.record ≠ []) :
    Keeps reading n (.on n .visitor ::ₘ T) a := by
  have hmem (post : Post) (hpost : post ≠ .visitor) :
      .on n post ∈ Tenure.on n .visitor ::ₘ T ↔ .on n post ∈ T := by
    rw [Multiset.mem_cons, or_iff_right fun heq => hpost (Tenure.on.inj heq).2]
  constructor
  case handles =>
    rw [sum_handlesOf_cons, Post.handles, Nat.zero_add]
    exact h.handles
  case alone =>
    rw [Multiset.count_cons_of_ne (by simp)]
    exact h.alone
  case unasked => exact fun hopening => h.unasked ((hmem _ (by decide)).1 hopening)
  case posted => exact fun _ _ _ => hrecord
  case begun => exact h.begun
  case safe =>
    refine h.safe.imp_right fun ⟨post, hpost, hin⟩ => ⟨post, hpost, Multiset.mem_cons_of_mem hin⟩
  case released =>
    exact fun hreleased => (h.released hreleased).imp_right fun hnone hopening =>
      hnone ((hmem _ (by decide)).1 hopening)

end Keeps

/-! ## Custody -/

/-- The posts of those who have to do with a connection fit its account, and where an operation runs the
transaction was begun. -/
structure Custody (reading : sql.Reading) (n : Nat) (T : Multiset Tenure)
    (s : Store (Watched (Journal β) α)) : Prop where
  keeps : Keeps reading n T (s.account n)
  blank : s.attempts < n → s.account n = .blank
  called : ∀ tx ∈ s.clients, tx.connection? = some n → (s.account n).record ≠ []

namespace Custody

variable {m n : Nat} {U T : Multiset Tenure} {s s' : Store (Watched (Journal β) α)} {γ γ' : Tenure}
  {post p : Post} {f : Account → Account}

theorem cons_iff (hγ : ∀ post, γ ≠ .on n post) : Custody reading n (γ ::ₘ U) s ↔ Custody reading n U s :=
  ⟨fun h => ⟨(Keeps.cons_iff hγ).1 h.keeps, h.blank, h.called⟩,
    fun h => ⟨(Keeps.cons_iff hγ).2 h.keeps, h.blank, h.called⟩⟩

/-- Whoever has to do with a connection has got it. -/
theorem le_attempts (h : Custody reading n T s) (hpost : .on n post ∈ T) : n ≤ s.attempts := by
  by_contra hlt
  have hkeeps := h.keeps
  rw [h.blank (Nat.lt_of_not_le hlt)] at hkeeps
  exact hkeeps.nobody post hpost

/-- A change that the account of the connection does not show. -/
theorem of_same (h : Custody reading n T s) (haccount : s'.account n = s.account n)
    (hattempts : s.attempts ≤ s'.attempts)
    (hclients : ∀ tx ∈ s'.clients, tx.connection? = some n →
      tx ∈ s.clients ∨ (s.account n).record ≠ []) : Custody reading n T s' where
  keeps := haccount ▸ h.keeps
  blank hlt := haccount.trans (h.blank (Nat.lt_of_le_of_lt hattempts hlt))
  called tx htx hn := by
    rw [haccount]
    exact (hclients tx htx hn).elim (fun htx => h.called tx htx hn) id

theorem steady (h : Custody reading n T s) (hs : s.Steady s') : Custody reading n T s' :=
  h.of_same (hs.accounts n) hs.attempts.ge fun _ htx _ => .inl (hs.clients ▸ htx)

/-- Someone changes the account of a connection, and goes to another post there or away. -/
theorem alters (h : Custody reading n (.on m p ::ₘ U) s) (halters : s.Alters m f s')
    (hγ' : γ' = .away ∨ ∃ q, γ' = .on m q)
    (hrecord : (s.account m).record ≠ [] → (f (s.account m)).record ≠ [])
    (hkeeps : Keeps reading m (.on m p ::ₘ U) (s.account m) →
      Keeps reading m (γ' ::ₘ U) (f (s.account m))) : Custody reading n (γ' ::ₘ U) s' := by
  by_cases hm : m = n
  · subst hm
    constructor
    case keeps =>
      rw [halters.account]
      exact hkeeps h.keeps
    case blank =>
      intro hlt
      have hle := h.le_attempts (Multiset.mem_cons_self _ _)
      rw [← halters.attempts] at hle
      exact absurd hle (Nat.not_le_of_lt hlt)
    case called =>
      intro tx htx hn
      rw [halters.account]
      exact hrecord (h.called tx (halters.clients ▸ htx) hn)
  -- on another connection neither post counts
  · have hp : ∀ post, Tenure.on m p ≠ .on n post := fun _ heq => hm (Tenure.on.inj heq).1
    have hγ' : ∀ post, γ' ≠ .on n post := by
      rcases hγ' with rfl | ⟨q, rfl⟩
      · exact fun _ heq => by cases heq
      · exact fun _ heq => hm (Tenure.on.inj heq).1
    rw [cons_iff hγ']
    rw [cons_iff hp] at h
    exact h.of_same (halters.others n (Ne.symm hm)) halters.attempts.ge fun _ htx _ =>
      .inl (halters.clients ▸ htx)

/-- An attempt to get a connection concerns only the one it may come to. -/
theorem draws {g : Nat → Account → Account} (h : Custody reading n U s) (hdraws : s.Draws g s')
    (hγ' : γ' = .away ∨ ∃ q, γ' = .on (s.attempts + 1) q)
    (hkeeps : ∀ k, Keeps reading k U .blank → k = s.attempts + 1 →
      Keeps reading k (γ' ::ₘ U) (g k .blank)) : Custody reading n (γ' ::ₘ U) s' := by
  by_cases hn : n = s.attempts + 1
  -- the connection is new: its account is blank, and nobody has to do with it
  · have hblank : s.account n = .blank := h.blank (by omega)
    have haccount : s'.account n = g n .blank := by
      rw [← hblank, hn]
      exact hdraws.account
    have hkeeps' := h.keeps
    rw [hblank] at hkeeps'
    constructor
    case keeps =>
      rw [haccount]
      exact hkeeps n hkeeps' hn
    case blank =>
      intro hlt
      rw [hdraws.attempts] at hlt
      omega
    case called =>
      intro tx htx htxn
      exact absurd (congrArg Account.record hblank) (h.called tx (hdraws.clients ▸ htx) htxn)
  · have hγ' : ∀ post, γ' ≠ .on n post := by
      rcases hγ' with rfl | ⟨q, rfl⟩
      · exact fun _ heq => by cases heq
      · exact fun _ heq => hn (Tenure.on.inj heq).1.symm
    rw [cons_iff hγ']
    exact h.of_same (hdraws.others n hn) (hdraws.attempts ▸ Nat.le_succ _) fun _ htx _ =>
      .inl (hdraws.clients ▸ htx)

/-- **Every deed keeps the custody** of every connection. -/
theorem deed (h : Custody reading n (γ ::ₘ U) s) (hdeed : Deed sql γ s γ' s') :
    Custody reading n (γ' ::ₘ U) s' := by
  -- a tenure that is away has no connection, so its deeds say nothing about `n` until it gets one
  have haway : ∀ post, Tenure.away ≠ .on n post := fun _ heq => by cases heq
  cases hdeed with
  | aside hs => exact h.steady hs
  | @enter m post tx _ _ hpost htx haccounts hattempts hclients =>
    refine h.of_same (haccounts n) hattempts.ge fun tx' htx' hn => ?_
    rw [hclients] at htx'
    rcases List.mem_append.1 htx' with htx' | htx'
    · exact .inl htx'
    · obtain rfl := List.mem_singleton.1 htx'
      obtain rfl : m = n := Option.some.inj (htx.symm.trans hn)
      exact .inr (h.keeps.posted post hpost (Multiset.mem_cons_self _ _))
  | refused hdraws =>
    rw [cons_iff haway] at h
    refine h.draws hdraws (.inl rfl) fun k hk hkn => ?_
    rw [Keeps.cons_iff fun _ heq => by cases heq]
    exact hk.refused
  | @acquire acquirer _ _ hdraws =>
    rw [cons_iff haway] at h
    refine h.draws hdraws (.inr ⟨.opening, rfl⟩) fun k hk hkn => ?_
    subst hkn
    exact hk.acquired acquirer
  | ask halters => exact h.alters halters (.inr ⟨_, rfl⟩) id fun hk => hk.ask
  | begun halters =>
    exact h.alters halters (.inr ⟨_, rfl⟩) (fun _ => by simp [Account.answered]) fun hk => hk.answered _
  | work hpost halters hdevelops =>
    obtain ⟨later, hlater⟩ := hdevelops.record
    refine h.alters halters (.inr ⟨_, rfl⟩) (fun hrecord => by simp [hlater, hrecord]) fun hk => ?_
    exact hk.grows hpost hpost hdevelops.toGrows (by rw [hdevelops.holders]) .inl
  | @settle m post f _ _ hguards halters hdevelops hsettles =>
    obtain ⟨later, hlater⟩ := hdevelops.record
    refine h.alters halters (.inr ⟨_, rfl⟩) (fun hrecord => by simp [hlater, hrecord]) fun hk => ?_
    refine hk.grows hguards.ne_opening (by decide) hdevelops.toGrows ?_ fun _ => .inr ?_
    · rw [hdevelops.holders, hguards.handles]
      rfl
    · exact hk.safe_settled hguards.ne_opening hsettles
  | letGo halters =>
    refine h.alters halters (.inl rfl) id fun hk => ?_
    rw [Keeps.cons_iff fun _ heq => by cases heq]
    exact hk.letGo rfl (by decide)

/-- Whoever has no handle may go. -/
theorem visitor (h : Custody reading n (.on m .visitor ::ₘ U) s) : Custody reading n U s := by
  by_cases hm : m = n
  · subst hm
    exact ⟨h.keeps.leave (by decide), h.blank, h.called⟩
  · exact (cons_iff fun _ heq => hm (Tenure.on.inj heq).1).1 h

/-- **Giving up keeps the custody** of every connection, which the tasks that are left behind share. -/
theorem leaving {ts : List (Coroutine (Store (Watched (Journal β) α)) Unit)}
    (h : Custody reading n (γ ::ₘ U) s) (hleaving : Leaving sql γ s s' ts) :
    ∃ V : List (Coroutine (Store (Watched (Journal β) α)) Unit × Tenure), V.map (·.1) = ts ∧
      (∀ v ∈ V, Minds sql v.1 v.2) ∧ Custody reading n (↑(V.map (·.2)) + U) s' := by
  have haway : ∀ post, Tenure.away ≠ .on n post := fun _ heq => by cases heq
  cases hleaving with
  | away hs =>
    rw [cons_iff haway] at h
    exact ⟨[], rfl, by simp, by simpa using h.steady hs⟩
  | visitor hs =>
    have hgone : Custody reading n U s' := (h.steady hs).visitor
    exact ⟨[], rfl, by simp, by simpa using hgone⟩
  | opening halters =>
    have hgone := h.alters halters (.inl rfl) id fun hk => by
      rw [Keeps.cons_iff fun _ heq => by cases heq]
      exact hk.letGo rfl (by decide)
    rw [cons_iff haway] at hgone
    exact ⟨[], rfl, by simp, by simpa using hgone⟩
  | @armed m _ _ task halters htask =>
    -- the handle goes to the rescue that is left behind, which guards the connection from now on
    have hposted : Custody reading n (.on m .rescuing ::ₘ U) s' := by
      refine h.alters halters (.inr ⟨_, rfl⟩) id fun hk => ?_
      have hholders : 0 < (s.account m).holders := hk.holders_pos rfl (Multiset.mem_cons_self _ _)
      rw [Function.comp_apply, Account.letGo_held hholders]
      exact hk.grows (by decide) (by decide) .refl rfl fun _ => .inl (.inr rfl)
    exact ⟨[(task, .on m .rescuing)], rfl, by simpa using htask, by simpa using hposted⟩
  | @nested m _ _ task halters htask =>
    -- the rescue has a handle of its own, and guards nothing: the root of the transaction does
    have hposted : Custody reading n (.on m .holder ::ₘ U) s' := by
      refine h.alters halters (.inr ⟨_, rfl⟩) id fun hk => ?_
      exact hk.grows (by decide) (by decide) .held rfl fun hguards => absurd hguards (by decide)
    exact ⟨[(task, .on m .holder)], rfl, by simpa using htask, by simpa using hposted⟩

/-- Whoever comes through a client at hand may join. -/
theorem join (h : Custody reading n T s) {c : Client} (hc : c.scope = none ∨ s.AtHand c) :
    Custody reading n (c.tenure ::ₘ T) s := by
  rcases hc with hnone | ⟨v, hv, hsame, hsome⟩
  · have htenure : c.tenure = .away := by rw [Client.tenure, Client.connection?, hnone]; rfl
    rw [htenure, cons_iff fun _ heq => by cases heq]
    exact h
  · obtain ⟨scope, hscope⟩ := Option.isSome_iff_exists.1 hsome
    have htenure : c.tenure = .on scope.connection .visitor := by
      rw [Client.tenure, Client.connection?, hscope]
      rfl
    have hconnection : v.client.connection? = some scope.connection := by
      rw [Client.connection?, ← hsame, hscope]
      rfl
    rw [htenure]
    by_cases hn : scope.connection = n
    · subst hn
      have hrecord := h.called v.client (List.mem_map_of_mem hv) hconnection
      exact ⟨h.keeps.join hrecord, h.blank, h.called⟩
    · rw [cons_iff fun _ heq => hn (Tenure.on.inj heq).1]
      exact h

end Custody

end SqlClient
