import Mathlib.Algebra.GroupWithZero.Nat
import SqlClient.Proofs.Transaction.Savepoints
/-!
# Transactions — scopes side by side

What a database makes of a record to which several scopes of one transaction have contributed, with
their exchanges mixed in any way. A `History` says which part of the record is whose, and which scopes
have failed.

Scopes of one depth share the name of their savepoint, so going back to it undoes what was sent since
the last one of that name was set, whoever has sent it. It undoes what it should if nobody else has
come between the savepoint of a failed scope and the statement that goes back to it (`Undisturbed`).
Then the record is `Tidy`, and what stands in the end is what succeeded in scopes that returned a
result (`History.replay_of_undisturbed`).
-/

namespace SqlClient

variable {sql : TransactionSql} {reading : sql.Reading}

/-! ## Histories -/

/-- What became of a scope whose parts may have run side by side: what was sent, with its place in the
record, and the scopes that were opened. -/
inductive History
  | nothing
  | sent (place : Nat) (r : Request) (succeeded : Bool)
  /-- A scope at a depth, with the place of its savepoint. If it has failed, it was undone at a place. -/
  | scope (depth opened : Nat) (body : History) (undone : Option Nat)
  /-- One after the other, or side by side. -/
  | both (h h' : History)

namespace History

/-- The exchanges of a history with their places. -/
def posts (sql : TransactionSql) : History → List (Exchange × Nat)
  | nothing => []
  | sent place r succeeded => [(⟨r, succeeded⟩, place)]
  | scope depth opened body undone =>
    (⟨.script (sql.openSavepoint depth), true⟩, opened) :: (body.posts sql ++
      undone.toList.map fun place => (⟨.script (sql.undoSavepoint depth), true⟩, place))
  | both h h' => h.posts sql ++ h'.posts sql

/-- The requests that succeeded and all of whose scopes returned a result. -/
def kept : History → List (Exchange × Nat)
  | nothing => []
  | sent place r succeeded => if succeeded then [(⟨r, true⟩, place)] else []
  | scope _ _ body none => body.kept
  | scope _ _ _ (some _) => []
  | both h h' => h.kept ++ h'.kept

/-- **Nobody comes between**: whatever has succeeded after the savepoint of a failed scope and before
that scope was undone is its own. -/
def Undisturbed (sql : TransactionSql) (record : List (Exchange × Nat)) : History → Prop
  | nothing | sent _ _ _ => True
  | scope _ opened body undone => body.Undisturbed sql record ∧ ∀ place ∈ undone, ∀ post ∈ record,
      post.1.succeeded = true → opened < post.2 → post.2 < place → post ∈ body.posts sql
  | both h h' => h.Undisturbed sql record ∧ h'.Undisturbed sql record

instance decidableUndisturbed (sql : TransactionSql) (record : List (Exchange × Nat)) :
    ∀ h : History, Decidable (h.Undisturbed sql record)
  | nothing | sent _ _ _ => isTrue trivial
  | scope _ opened body undone =>
    have := decidableUndisturbed sql record body
    inferInstanceAs (Decidable (_ ∧ ∀ place ∈ undone, ∀ post ∈ record,
      post.1.succeeded = true → opened < post.2 → post.2 < place → post ∈ body.posts sql))
  | both h h' =>
    have := decidableUndisturbed sql record h
    have := decidableUndisturbed sql record h'
    inferInstanceAs (Decidable (_ ∧ _))

/-- A history within a scope: it comes between the savepoint and the place where the scope was undone. -/
structure Within (sql : TransactionSql) (opened : Nat) (undone : Option Nat) (h : History) : Prop where
  after : ∀ post ∈ h.posts sql, opened < post.2
  before : ∀ place ∈ undone, opened < place ∧ ∀ post ∈ h.posts sql, post.2 < place

instance (sql : TransactionSql) (opened : Nat) (undone : Option Nat) (h : History) :
    Decidable (h.Within sql opened undone) :=
  decidable_of_iff ((∀ post ∈ h.posts sql, opened < post.2) ∧
    ∀ place ∈ undone, opened < place ∧ ∀ post ∈ h.posts sql, post.2 < place)
    ⟨fun hparts => ⟨hparts.1, hparts.2⟩, fun hwithin => ⟨hwithin.after, hwithin.before⟩⟩

/-- The history of a scope at a depth: its own scopes are deeper and each part is within its scope, and no
request is taken as control. -/
def Proper (reading : sql.Reading) (depth : Nat) : History → Prop
  | nothing => True
  | sent _ r _ => reading.control? r.sql = none
  | scope inner opened body undone =>
    depth < inner ∧ body.Within sql opened undone ∧ body.Proper reading inner
  | both h h' => h.Proper reading depth ∧ h'.Proper reading depth

variable {h : History} {depth : Nat} {record : List (Exchange × Nat)}

theorem Undisturbed.mono {record' : List (Exchange × Nat)} (hundisturbed : h.Undisturbed sql record)
    (hsub : ∀ post ∈ record', post ∈ record) : h.Undisturbed sql record' := by
  induction h with
  | nothing | sent => trivial
  | scope _ _ body undone ih =>
    exact ⟨ih hundisturbed.1, fun place hplace post hpost => hundisturbed.2 place hplace post (hsub post hpost)⟩
  | both h h' ih ih' => exact ⟨ih hundisturbed.1, ih' hundisturbed.2⟩

theorem Proper.mono {depth' : Nat} (hproper : h.Proper reading depth) (hle : depth' ≤ depth) :
    h.Proper reading depth' := by
  induction h with
  | nothing => trivial
  | sent => exact hproper
  | scope => exact ⟨Nat.lt_of_le_of_lt hle hproper.1, hproper.2⟩
  | both h h' ih ih' => exact ⟨ih hproper.1, ih' hproper.2⟩

end History

/-! ## Tidy records -/

/-- `Tidy reading depth record stood`: in a record of what succeeded in scopes deeper than `depth`, every
savepoint that is gone back to has all that follows it up to there for itself. `stood` is the rest,
without the savepoints. -/
inductive Tidy (reading : sql.Reading) : Nat → List (Exchange × Nat) → List (Exchange × Nat) → Prop
  | nil {depth : Nat} : Tidy reading depth [] []
  | sent {depth place : Nat} {r : Request} {record stood : List (Exchange × Nat)} :
      reading.control? r.sql = none → Tidy reading depth record stood →
      Tidy reading depth ((⟨r, true⟩, place) :: record) ((⟨r, true⟩, place) :: stood)
  | opened {depth inner place : Nat} {record stood : List (Exchange × Nat)} :
      depth < inner → Tidy reading depth record stood →
      Tidy reading depth ((⟨.script (sql.openSavepoint inner), true⟩, place) :: record) stood
  | undone {depth inner place place' : Nat} {record lost rest stood : List (Exchange × Nat)} :
      depth < inner → Tidy reading inner record lost → Tidy reading depth rest stood →
      Tidy reading depth ((⟨.script (sql.openSavepoint inner), true⟩, place) ::
        (record ++ (⟨.script (sql.undoSavepoint inner), true⟩, place') :: rest)) stood

namespace Tidy

variable {depth : Nat} {record stood : List (Exchange × Nat)}

theorem sublist (h : Tidy reading depth record stood) : stood.Sublist record := by
  induction h with
  | nil => exact .slnil
  | sent _ _ ih => exact ih.cons_cons _
  | opened _ _ ih => exact ih.cons _
  | undone _ _ _ _ ih => exact ((ih.cons _).trans (List.sublist_append_right _ _)).cons _

/-- **Replaying a tidy record keeps what stood.** The savepoints that were there are still there, under
those of deeper scopes. -/
theorem replay (h : Tidy reading depth record stood) (committed : List Request) (w : Working) :
    ∃ stale, (∀ e ∈ stale, ∃ k, depth < k ∧ e.1 = TransactionSql.savepointName k) ∧
      Ledger.replay reading ⟨committed, some w⟩ (record.map (·.1)) =
        ⟨committed, some ⟨w.pending ++ stood.map (·.1.request), stale ++ w.savepoints⟩⟩ := by
  induction h generalizing w with
  | nil => exact ⟨[], by simp, by simp⟩
  | @sent depth place r record stood hplain _ ih =>
    obtain ⟨stale, hstale, hrest⟩ := ih ⟨w.pending ++ [r], w.savepoints⟩
    refine ⟨stale, hstale, ?_⟩
    rw [List.map_cons, Ledger.replay_cons, Ledger.apply_user hplain, if_pos rfl, hrest]
    simp
  | @opened depth inner place record stood hdeeper _ ih =>
    obtain ⟨stale, hstale, hrest⟩ := ih (w.setSavepoint (TransactionSql.savepointName inner))
    refine ⟨stale ++ [(TransactionSql.savepointName inner, w.pending)], fun e he => ?_, ?_⟩
    · rcases List.mem_append.1 he with he | he
      · exact hstale e he
      · exact ⟨inner, hdeeper, by rw [List.mem_singleton.1 he]⟩
    · rw [List.map_cons, Ledger.replay_cons, Ledger.apply_control (reading.openSavepoint inner)]
      simp only [Ledger.control, Option.map_some]
      rw [hrest]
      simp [Working.setSavepoint]
  | @undone depth inner place place' record lost rest stood hdeeper _ _ ihinner ih =>
    obtain ⟨deeper, hinner, hbody⟩ := ihinner (w.setSavepoint (TransactionSql.savepointName inner))
    obtain ⟨stale, hstale, hrest⟩ := ih (w.setSavepoint (TransactionSql.savepointName inner))
    refine ⟨stale ++ [(TransactionSql.savepointName inner, w.pending)], fun e he => ?_, ?_⟩
    · rcases List.mem_append.1 he with he | he
      · exact hstale e he
      · exact ⟨inner, hdeeper, by rw [List.mem_singleton.1 he]⟩
    · rw [List.map_cons, Ledger.replay_cons, Ledger.apply_control (reading.openSavepoint inner),
        List.map_append, Ledger.replay_append]
      simp only [Ledger.control, Option.map_some]
      rw [hbody, List.map_cons, Ledger.replay_cons, Ledger.apply_control (reading.undoSavepoint inner)]
      simp only [Ledger.control, Option.map_some, Working.setSavepoint]
      -- the savepoint that is found is that of the scope, for all that came after it is deeper
      rw [Course.rollBackTo_stale hinner]
      refine hrest.trans ?_
      simp [Working.setSavepoint]

end Tidy

/-! ## Histories that nobody disturbs -/

namespace History

/-- What succeeded. -/
def wins (sql : TransactionSql) (h : History) : List (Exchange × Nat) :=
  (h.posts sql).filter (·.1.succeeded)

@[simp] theorem wins_both (h h' : History) : (both h h').wins sql = h.wins sql ++ h'.wins sql :=
  List.filter_append _ _

theorem wins_scope (depth opened : Nat) (body : History) (undone : Option Nat) :
    (scope depth opened body undone).wins sql =
      (⟨.script (sql.openSavepoint depth), true⟩, opened) :: (body.wins sql ++
        undone.toList.map fun place => (⟨.script (sql.undoSavepoint depth), true⟩, place)) := by
  cases undone <;> simp [wins, posts]

theorem mem_wins {h : History} {post : Exchange × Nat} :
    post ∈ h.wins sql ↔ post ∈ h.posts sql ∧ post.1.succeeded = true :=
  List.mem_filter

/-- How much there is of a history. -/
def size : History → Nat
  | nothing | sent _ _ _ => 1
  | scope _ _ body _ => body.size + 1
  | both h h' => h.size + h'.size + 1

theorem size_pos (h : History) : 0 < h.size := by
  cases h <;> simp [size]

variable {record : List (Exchange × Nat)}

/-- The first place of a record is that of the savepoint if it is anywhere in the scope. -/
theorem eq_opened {depth inner opened : Nat} {body : History} {undone : Option Nat} {post : Exchange × Nat}
    {rest : List (Exchange × Nat)} (hproper : (scope inner opened body undone).Proper reading depth)
    (hpost : post ∈ (scope inner opened body undone).wins sql)
    (hordered : (post :: rest).Pairwise (·.2 < ·.2))
    (hopened : (⟨.script (sql.openSavepoint inner), true⟩, opened) ∈ post :: rest) :
    post = (⟨.script (sql.openSavepoint inner), true⟩, opened) := by
  rcases List.mem_cons.1 hopened with heq | hlater
  · exact heq.symm
  have hlt : post.2 < opened := (List.pairwise_cons.1 hordered).1 _ hlater
  obtain ⟨-, hwithin, -⟩ := hproper
  rw [wins_scope] at hpost
  rcases List.mem_cons.1 hpost with heq | hpost
  · exact heq
  rcases List.mem_append.1 hpost with hpost | hpost
  · have := hwithin.after post (mem_wins.1 hpost).1
    omega
  · obtain ⟨place, hplace, rfl⟩ := List.mem_map.1 hpost
    have := (hwithin.before place (by simpa using hplace)).1
    omega

/-- What has places in order is there only once. -/
theorem nodup_of_ordered (hordered : record.Pairwise (·.2 < ·.2)) : record.Nodup :=
  hordered.imp fun hlt heq => absurd (heq ▸ hlt) (Nat.lt_irrefl _)

/-- Two parts of a record that a place tells from each other. -/
theorem perm_of_places {mid later mine others : List (Exchange × Nat)} {place : Nat}
    (hperm : (mid ++ later).Perm (mine ++ others)) (hmid : ∀ post ∈ mid, post.2 < place)
    (hlater : ∀ post ∈ later, ¬ post.2 < place) (hmine : ∀ post ∈ mine, post.2 < place)
    (hothers : ∀ post ∈ others, ¬ post.2 < place) : mid.Perm mine ∧ later.Perm others := by
  have hsame : mid.Perm mine := by
    have hfilter := hperm.filter (fun post => decide (post.2 < place))
    rwa [List.filter_append, List.filter_append,
      List.filter_eq_self.2 fun post hpost => decide_eq_true (hmid post hpost),
      List.filter_eq_nil_iff.2 fun post hpost => by simpa using hlater post hpost,
      List.filter_eq_self.2 fun post hpost => decide_eq_true (hmine post hpost),
      List.filter_eq_nil_iff.2 fun post hpost => by simpa using hothers post hpost,
      List.append_nil, List.append_nil] at hfilter
  exact ⟨hsame, (List.perm_append_left_iff _).1 ((hsame.append_right _).symm.trans hperm)⟩

/-- **What an undisturbed scope has to itself**: between its savepoint and the place where it is undone,
all that succeeded is its own, and all its own is there. -/
theorem split_undone {depth inner opened place : Nat} {body : History}
    {rest others : List (Exchange × Nat)}
    (hproper : (scope inner opened body (some place)).Proper reading depth)
    (hordered : ((⟨.script (sql.openSavepoint inner), true⟩, opened) :: rest).Pairwise (·.2 < ·.2))
    (hsucceeded : ∀ post ∈ rest, post.1.succeeded = true)
    (hundisturbed : (scope inner opened body (some place)).Undisturbed sql rest)
    (hperm : rest.Perm (body.wins sql ++ (⟨.script (sql.undoSavepoint inner), true⟩, place) :: others)) :
    ∃ mid later, rest = mid ++ (⟨.script (sql.undoSavepoint inner), true⟩, place) :: later ∧
      mid.Perm (body.wins sql) ∧ later.Perm others := by
  obtain ⟨hopened, hrest⟩ := List.pairwise_cons.1 hordered
  obtain ⟨-, hbody⟩ := hproper.2.1.before place rfl
  obtain ⟨mid, later, rfl⟩ := List.append_of_mem (hperm.mem_iff.2 (List.mem_append_right _ (.head _)))
  have hparts : (mid ++ later).Perm (body.wins sql ++ others) :=
    List.Perm.cons_inv ((List.perm_middle.symm.trans hperm).trans List.perm_middle)
  obtain ⟨-, hlater, hbefore⟩ := List.pairwise_append.1 hrest
  have hafter : ∀ post ∈ later, place < post.2 := (List.pairwise_cons.1 hlater).1
  have hnodup : (body.wins sql ++ others).Nodup := hparts.nodup_iff.1 (nodup_of_ordered
    (hrest.sublist ((List.sublist_cons_self _ later).append_left mid)))
  -- what is not of the body cannot stand before the undoing: the scope is undisturbed
  have hown : ∀ post ∈ others, ¬ post.2 < place := by
    intro post hpost hlt
    have hmem : post ∈ mid := by
      rcases List.mem_append.1 (hparts.mem_iff.2 (List.mem_append_right _ hpost)) with hmem | hmem
      · exact hmem
      · exact absurd (hafter post hmem) (by omega)
    have hsuccess := hsucceeded post (List.mem_append_left _ hmem)
    have hposts := hundisturbed.2 place rfl post (List.mem_append_left _ hmem) hsuccess
      (hopened post (List.mem_append_left _ hmem)) hlt
    exact (List.nodup_append.1 hnodup).2.2 post (mem_wins.2 ⟨hposts, hsuccess⟩) post hpost rfl
  exact ⟨mid, later, rfl, perm_of_places hparts (fun post hpost => hbefore post hpost _ (.head _))
    (fun post hpost => Nat.lt_asymm (hafter post hpost))
    (fun post hpost => hbody post (mem_wins.1 hpost).1) hown⟩

theorem mem_wins_of_kept {h : History} {post : Exchange × Nat} (hpost : post ∈ h.kept) :
    post ∈ h.wins sql := by
  induction h with
  | nothing => cases hpost
  | sent place r succeeded =>
    cases succeeded with
    | true => exact hpost
    | false => cases hpost
  | scope depth opened body undone ih =>
    cases undone with
    | none =>
      rw [wins_scope]
      exact .tail _ (List.mem_append_left _ (ih hpost))
    | some => cases hpost
  | both h h' ih ih' =>
    rw [wins_both]
    exact List.mem_append.2 ((List.mem_append.1 hpost).imp ih ih')

/-- Every record of these histories is tidy, in whatever order their parts came, if nobody has disturbed
them. What stands is what they keep. -/
def Tidies (reading : sql.Reading) (depth : Nat) (hs : List History) : Prop :=
  ∀ record : List (Exchange × Nat), record.Pairwise (·.2 < ·.2) →
    record.Perm (hs.flatMap (·.wins sql)) → (∀ h ∈ hs, h.Undisturbed sql record) →
    ∃ stood, Tidy reading depth record stood ∧ stood.Perm (hs.flatMap kept)

section Step

variable {depth : Nat} {others : List History} {post : Exchange × Nat} {rest : List (Exchange × Nat)}
  (hordered : (post :: rest).Pairwise (·.2 < ·.2))
  (hothers : ∀ h ∈ others, h.Undisturbed sql (post :: rest))

include hordered hothers

/-- The record begins with a request. -/
theorem tidy_sent {place : Nat} {r : Request} {succeeded : Bool} (hplain : reading.control? r.sql = none)
    (hpost : post ∈ (sent place r succeeded).wins sql)
    (hperm : (post :: rest).Perm ((sent place r succeeded).wins sql ++ others.flatMap (·.wins sql)))
    (htidies : Tidies reading depth others) :
    ∃ stood, Tidy reading depth (post :: rest) stood ∧
      stood.Perm ((sent place r succeeded).kept ++ others.flatMap kept) := by
  cases succeeded with
  | false => cases hpost
  | true =>
    obtain rfl := List.mem_singleton.1 hpost
    obtain ⟨stood, htidy, hstood⟩ := htidies rest (List.pairwise_cons.1 hordered).2 hperm.cons_inv
      fun h hh => (hothers h hh).mono fun _ => .tail _
    exact ⟨_, .sent hplain htidy, hstood.cons _⟩

/-- The record begins with a savepoint that is not gone back to. -/
theorem tidy_opened {inner opened : Nat} {body : History}
    (hproper : (scope inner opened body none).Proper reading depth)
    (hundisturbed : (scope inner opened body none).Undisturbed sql (post :: rest))
    (hpost : post ∈ (scope inner opened body none).wins sql)
    (hperm : (post :: rest).Perm ((scope inner opened body none).wins sql ++ others.flatMap (·.wins sql)))
    (htidies : Tidies reading depth (body :: others)) :
    ∃ stood, Tidy reading depth (post :: rest) stood ∧
      stood.Perm ((scope inner opened body none).kept ++ others.flatMap kept) := by
  rw [wins_scope, Option.toList_none, List.map_nil, List.append_nil] at hperm
  obtain rfl := eq_opened hproper hpost hordered (hperm.mem_iff.2 (.head _))
  obtain ⟨stood, htidy, hstood⟩ := htidies rest (List.pairwise_cons.1 hordered).2 hperm.cons_inv
    (List.forall_mem_cons.2 ⟨hundisturbed.1.mono fun _ => .tail _,
      fun h hh => (hothers h hh).mono fun _ => .tail _⟩)
  exact ⟨stood, .opened hproper.1 htidy, hstood⟩

/-- The record begins with a savepoint that is gone back to. -/
theorem tidy_undone {inner opened place : Nat} {body : History}
    (hproper : (scope inner opened body (some place)).Proper reading depth)
    (hundisturbed : (scope inner opened body (some place)).Undisturbed sql (post :: rest))
    (hpost : post ∈ (scope inner opened body (some place)).wins sql)
    (hperm : (post :: rest).Perm
      ((scope inner opened body (some place)).wins sql ++ others.flatMap (·.wins sql)))
    (hwins : ∀ post ∈ others.flatMap (·.wins sql), post.1.succeeded = true)
    (hbody : Tidies reading inner [body]) (htidies : Tidies reading depth others) :
    ∃ stood, Tidy reading depth (post :: rest) stood ∧
      stood.Perm ((scope inner opened body (some place)).kept ++ others.flatMap kept) := by
  have hsucceeded : ∀ post ∈ rest, post.1.succeeded = true := by
    intro post hpost
    rcases List.mem_append.1 (hperm.mem_iff.1 (.tail _ hpost)) with hmine | hothers
    · exact (mem_wins.1 hmine).2
    · exact hwins post hothers
  rw [wins_scope, List.cons_append] at hperm
  obtain rfl := eq_opened hproper hpost hordered (hperm.mem_iff.2 (.head _))
  have hrest : rest.Perm (body.wins sql ++ (⟨.script (sql.undoSavepoint inner), true⟩, place) ::
      others.flatMap (·.wins sql)) := by
    simpa using hperm.cons_inv
  have hlate := hundisturbed.mono fun _ => .tail _
  obtain ⟨mid, later, rfl, hmid, hlater⟩ := split_undone hproper hordered hsucceeded hlate hrest
  obtain ⟨hmidOrdered, hlaterOrdered, -⟩ := List.pairwise_append.1 (List.pairwise_cons.1 hordered).2
  -- the body is tidied on its own and what stood of it is lost; what follows is tidied as it was
  obtain ⟨lost, hlost, -⟩ := hbody mid hmidOrdered (by simpa using hmid)
    (List.forall_mem_singleton.2 (hlate.1.mono fun _ => List.mem_append_left _))
  obtain ⟨stood, htidy, hstood⟩ := htidies later (List.pairwise_cons.1 hlaterOrdered).2 hlater
    fun h hh => (hothers h hh).mono fun _ hpost => .tail _ (List.mem_append_right _ (.tail _ hpost))
  exact ⟨stood, .undone hproper.1 hlost htidy, hstood⟩

end Step

/-- The record begins with an exchange of the first history. -/
theorem tidy_first {depth : Nat} {h : History} {others : List History} {post : Exchange × Nat}
    {rest : List (Exchange × Nat)} (hordered : (post :: rest).Pairwise (·.2 < ·.2))
    (hproper : ∀ h' ∈ h :: others, h'.Proper reading depth)
    (hundisturbed : ∀ h' ∈ h :: others, h'.Undisturbed sql (post :: rest)) (hpost : post ∈ h.wins sql)
    (hperm : (post :: rest).Perm ((h :: others).flatMap (·.wins sql)))
    (hsmaller : ∀ {hs : List History} {depth : Nat},
      (hs.map History.size).sum < ((h :: others).map History.size).sum →
      (∀ h' ∈ hs, h'.Proper reading depth) → Tidies reading depth hs) :
    ∃ stood, Tidy reading depth (post :: rest) stood ∧ stood.Perm ((h :: others).flatMap kept) := by
  obtain ⟨hmine, hothers⟩ := List.forall_mem_cons.1 hproper
  obtain ⟨hundisturbed, hundisturbed'⟩ := List.forall_mem_cons.1 hundisturbed
  have hrest : Tidies reading depth others := hsmaller (by have := h.size_pos; simp; omega) hothers
  cases h with
  | nothing => cases hpost
  | sent place r succeeded => exact tidy_sent hordered hundisturbed' hmine hpost hperm hrest
  | scope inner opened body undone =>
    cases undone with
    | none =>
      have hopened : Tidies reading depth (body :: others) := hsmaller (by simp [size])
        (List.forall_mem_cons.2 ⟨hmine.2.2.mono (Nat.le_of_lt hmine.1), hothers⟩)
      exact tidy_opened hordered hundisturbed' hmine hundisturbed hpost hperm hopened
    | some place =>
      have hinner : Tidies reading inner [body] :=
        hsmaller (by simp [size]; omega) (List.forall_mem_singleton.2 hmine.2.2)
      refine tidy_undone hordered hundisturbed' hmine hundisturbed hpost hperm ?_ hinner hrest
      intro post hpost
      obtain ⟨h, -, hwin⟩ := List.mem_flatMap.1 hpost
      exact (mem_wins.1 hwin).2
  | both h h' =>
    have hparts : Tidies reading depth (h :: h' :: others) := hsmaller (by simp [size]; omega)
      (List.forall_mem_cons.2 ⟨hmine.1, List.forall_mem_cons.2 ⟨hmine.2, hothers⟩⟩)
    obtain ⟨stood, htidy, hstood⟩ := hparts _ hordered (by simpa using hperm)
      (List.forall_mem_cons.2 ⟨hundisturbed.1, List.forall_mem_cons.2 ⟨hundisturbed.2, hundisturbed'⟩⟩)
    exact ⟨stood, htidy, by simpa [kept] using hstood⟩

/-- **The record of histories that nobody disturbs is tidy**, by induction on how much there is of them:
it begins with an exchange of one of them, which is then shorter. -/
theorem tidies_of_proper (size : Nat) : ∀ {hs : List History} {depth : Nat},
    (hs.map History.size).sum = size → (∀ h ∈ hs, h.Proper reading depth) → Tidies reading depth hs := by
  induction size using Nat.strongRecOn with
  | ind size ih =>
  intro hs depth hsize hproper record hordered hperm hundisturbed
  cases record with
  | nil =>
    have hnothing : hs.flatMap kept = [] := by
      refine List.eq_nil_iff_forall_not_mem.2 fun post hpost => ?_
      obtain ⟨h, hh, hkept⟩ := List.mem_flatMap.1 hpost
      cases hperm.mem_iff.2 (List.mem_flatMap.2 ⟨h, hh, mem_wins_of_kept hkept⟩)
    exact ⟨[], .nil, hnothing ▸ .refl _⟩
  | cons post rest =>
    obtain ⟨h, hh, hpost⟩ := List.mem_flatMap.1 (hperm.mem_iff.1 (.head _))
    obtain ⟨before, after, rfl⟩ := List.append_of_mem hh
    have hpool : (before ++ h :: after).Perm (h :: (before ++ after)) := List.perm_middle
    have hsum : ((h :: (before ++ after)).map History.size).sum = size := by
      rw [← hsize, (hpool.map History.size).sum_nat]
    obtain ⟨stood, htidy, hstood⟩ := tidy_first hordered (fun h' hh' => hproper h' (hpool.mem_iff.2 hh'))
      (fun h' hh' => hundisturbed h' (hpool.mem_iff.2 hh')) hpost (hperm.trans (hpool.flatMap_right _))
      fun hless hproper' => ih _ (hsum ▸ hless) rfl hproper'
    exact ⟨stood, htidy, hstood.trans (hpool.flatMap_right kept).symm⟩

/-- What stands are the requests that are kept, in the order of the record. -/
theorem eq_filter_kept {h : History} {record stood : List (Exchange × Nat)}
    (hordered : record.Pairwise (·.2 < ·.2)) (hsub : stood.Sublist record) (hperm : stood.Perm h.kept) :
    stood = record.filter (· ∈ h.kept) := by
  have hnodup : record.Nodup := nodup_of_ordered hordered
  refine List.Perm.eq_of_pairwise (fun post post' _ _ hlt hlt' => absurd hlt (Nat.lt_asymm hlt'))
    (hordered.sublist hsub) (hordered.filter _) ?_
  refine (List.perm_ext_iff_of_nodup (hnodup.sublist hsub) (hnodup.filter _)).2 fun post => ?_
  simp only [List.mem_filter, decide_eq_true_eq]
  exact ⟨fun hpost => ⟨hsub.subset hpost, hperm.mem_iff.1 hpost⟩, fun hpost => hperm.mem_iff.2 hpost.2⟩

/-- No part of a history closes the transaction. -/
theorem apply_post {h : History} {depth : Nat} (hproper : h.Proper reading depth) {post : Exchange × Nat}
    (hpost : post ∈ h.posts sql) (committed : List Request) (w : Working) :
    ∃ w', Ledger.apply reading ⟨committed, some w⟩ post.1 = ⟨committed, some w'⟩ := by
  induction h generalizing depth with
  | nothing => cases hpost
  | sent place r succeeded =>
    obtain rfl := List.mem_singleton.1 hpost
    exact ⟨_, Ledger.apply_user hproper committed w succeeded⟩
  | scope inner opened body undone ih =>
    rcases List.mem_cons.1 hpost with rfl | hpost
    · exact ⟨_, Ledger.apply_control (reading.openSavepoint inner) _⟩
    rcases List.mem_append.1 hpost with hpost | hpost
    · exact ih hproper.2.2 hpost
    · obtain ⟨place, -, rfl⟩ := List.mem_map.1 hpost
      exact ⟨_, Ledger.apply_control (reading.undoSavepoint inner) _⟩
  | both h h' ih ih' =>
    rcases List.mem_append.1 hpost with hpost | hpost
    · exact ih hproper.1 hpost
    · exact ih' hproper.2 hpost

/-- **Replaying a record that nobody has disturbed** keeps what succeeded in scopes that returned a
result. -/
theorem replay_of_undisturbed {h : History} {depth : Nat} {record : List (Exchange × Nat)}
    (hordered : record.Pairwise (·.2 < ·.2)) (hperm : (h.posts sql).Perm record)
    (hproper : h.Proper reading depth) (hundisturbed : h.Undisturbed sql record) (committed : List Request)
    (w : Working) :
    ∃ stale, Ledger.replay reading ⟨committed, some w⟩ (record.map (·.1)) =
      ⟨committed, some ⟨w.pending ++ (record.filter (· ∈ h.kept)).map (·.1.request),
        stale ++ w.savepoints⟩⟩ := by
  have hwins : (record.filter (·.1.succeeded)).Perm ([h].flatMap (·.wins sql)) := by
    simpa [wins] using (hperm.filter (·.1.succeeded)).symm
  obtain ⟨stood, htidy, hstood⟩ := tidies_of_proper _ rfl (List.forall_mem_singleton.2 hproper) _
    (hordered.filter _) hwins
    (List.forall_mem_singleton.2 (hundisturbed.mono fun _ hpost => (List.mem_filter.1 hpost).1))
  obtain ⟨stale, -, hreplay⟩ := htidy.replay committed w
  have hkept := eq_filter_kept hordered (htidy.sublist.trans List.filter_sublist) (by simpa using hstood)
  refine ⟨stale, ?_⟩
  rw [← hkept, ← hreplay, ← Ledger.replay_filter, List.filter_map]
  rfl

/-- **What comes of it, disturbed or not**: the transaction stays open, and nothing is committed yet. -/
theorem replay_open {h : History} {depth : Nat} {record : List (Exchange × Nat)}
    (hperm : (h.posts sql).Perm record) (hproper : h.Proper reading depth) (committed : List Request)
    (w : Working) :
    ∃ w', Ledger.replay reading ⟨committed, some w⟩ (record.map (·.1)) = ⟨committed, some w'⟩ := by
  have hinner : ∀ post ∈ record, ∀ w, ∃ w', Ledger.apply reading ⟨committed, some w⟩ post.1 =
      ⟨committed, some w'⟩ := fun post hpost => apply_post hproper (hperm.mem_iff.2 hpost) committed
  clear hperm
  induction record generalizing w with
  | nil => exact ⟨w, rfl⟩
  | cons post record ih =>
    obtain ⟨w₁, hpost⟩ := hinner post (.head _) w
    rw [List.map_cons, Ledger.replay_cons, hpost]
    exact ih w₁ fun post hpost => hinner post (.tail _ hpost)

end History

end SqlClient
