import Mathlib.Data.List.Nodup
import SqlClient.Proofs.Migration.Phases
import SqlClient.Proofs.Migration.Series
/-!
# Migrations — runs side by side

Any number of runs on one database with atomic transactions and a lock that one transaction has at a
time, their statements interleaved in any way, over any choice of the statements that fail.
`Guarded` is the invariant, about whoever has got the lock: only one run does, and what it was told of
the recorded ids stays true until its transaction ends, since nobody else can commit rows before that.
A move of one run keeps it (`Guarded.deed`). So every recorded id is due to one run only
(`allotted_of_credits`).
-/

namespace SqlClient

open Coroutine

variable {sql : TransactionSql} {reading : sql.Reading} {dialect : Dialect} {table : String}
  {books : Bookkeeping reading dialect table} {β : Type} {view : β → Vault} {lock : Request}

/-! ## Sessions -/

namespace Vault

variable {n : Nat} {v v' : Vault} {e : Reply} {d : Draft}

theorem Session.Fades.of_ne_lost {σ σ' : Session} (h : σ.Fades σ') (hσ : σ' ≠ .lost) : σ' = σ :=
  h.resolve_right hσ

/-- A lost connection stays lost, and nothing succeeds on it. -/
theorem Answers.lost (h : v.Answers books n e v') (hlost : v.session n = .lost) :
    v'.session n = .lost ∧ e.outcome.isOk = false := by
  obtain ⟨σ, done, hsession, -, hfades⟩ := h.own
  rw [hlost] at hsession
  obtain ⟨rfl, -, hfailed⟩ := hsession.of_lost
  exact ⟨hfades.elim id id, hfailed⟩

/-- A statement outside transactions leaves nothing open. -/
theorem Answers.closed (h : v.Answers books n e v') (hv : v.Closed n) (he : e.Plain reading) :
    v'.Closed n := by
  obtain ⟨σ, done, hsession, -, hfades⟩ := h.own
  rcases hv with hidle | hlost
  · rw [hidle] at hsession
    obtain ⟨rfl, -⟩ := hsession.of_plain he
    exact hfades
  · exact .inr (h.lost hlost).1

end Vault

/-! ## What holds of a run -/

namespace Migrator

namespace Phase

variable {v v' : Vault} {γ γ' : Phase} {n : Nat}

/-- What holds of a run in a phase. Once it has been told the latest recorded id, it has got the lock,
and nothing newer is recorded as long as its connection is not lost. -/
def Holds (books : Bookkeeping reading dialect table) (lock : Request) (v : Vault) : Phase → Prop
  | away _ | closing _ _ => True
  | waiting n => v.Closed n
  | working n d sound latest => v.Drafts n d ∧ (sound = true → v.Sound n d) ∧
      ∀ id, latest = some id → d.Has lock ∧
        (v.session n ≠ .lost → ∀ recorded ∈ books.ids v.committed, recorded ≤ id)

/-- The run has got the lock, on a connection that is not lost. -/
def Locks (lock : Request) (v : Vault) (γ : Phase) : Prop :=
  ∃ n d sound latest, γ = .working n d sound latest ∧ d.Has lock ∧ v.session n ≠ .lost

/-- A connection that is as it was or lost. -/
def FadesIn (v v' : Vault) (γ : Phase) : Prop :=
  ∀ n, γ.connection? = some n → (v.session n).Fades (v'.session n)

theorem Locks.of_fades (h : γ.Locks lock v') (hfades : γ.FadesIn v v') : γ.Locks lock v := by
  obtain ⟨n, d, sound, latest, rfl, hd, hlive⟩ := h
  exact ⟨n, d, sound, latest, rfl, hd, (hfades n rfl).of_ne_lost hlive ▸ hlive⟩

/-- What holds of a run goes on to do so while others move, if they record nothing while it has got the
lock. -/
theorem Holds.of_fades (h : γ.Holds books lock v) (hfades : γ.FadesIn v v')
    (hids : γ.Locks lock v → books.ids v'.committed = books.ids v.committed) :
    γ.Holds books lock v' := by
  cases γ with
  | away => trivial
  | closing => trivial
  | waiting n =>
    rcases hfades n rfl with hsame | hlost
    · exact h.imp (hsame.trans ·) (hsame.trans ·)
    · exact .inr hlost
  | working n d sound latest =>
    obtain ⟨hdrafts, hsound, hbound⟩ := h
    rcases hfades n rfl with hsame | hlost
    · refine ⟨?_, fun hok => ?_, fun id hid => ⟨(hbound id hid).1, fun hlive => ?_⟩⟩
      · rwa [Vault.Drafts, hsame]
      · have := hsound hok
        rwa [Vault.Sound, hsame]
      · rw [hsame] at hlive
        rw [hids ⟨n, d, sound, latest, rfl, (hbound id hid).1, hlive⟩]
        exact (hbound id hid).2 hlive
    · exact ⟨.inr hlost, fun _ => .inr hlost, fun id hid => ⟨(hbound id hid).1, (absurd hlost ·)⟩⟩

/-- Whoever has got the lock has it in the database. -/
theorem Locks.has (h : γ.Locks lock v) (hholds : γ.Holds books lock v) :
    ∃ n, γ.connection? = some n ∧ (v.session n).Has lock := by
  obtain ⟨n, d, sound, latest, rfl, hd, hlive⟩ := h
  obtain ⟨aborted, hinside⟩ := hholds.1.resolve_right hlive
  exact ⟨n, rfl, by rwa [hinside]⟩

end Phase

/-! ## What a move makes of a run -/

/-- **A run goes on to another phase** and adds rows to what is recorded: only with the lock, in
ascending order, and only such as are newer than all that is recorded. `W` says whether it has just
been given the lock. -/
structure Phase.Becomes (books : Bookkeeping reading dialect table) (lock : Request) (W : Prop)
    (v v' : Vault) (γ γ' : Phase) (added : List (Int64 × String)) : Prop where
  recorded : books.rows v'.committed = books.rows v.committed ++ added
  share : γ'.share = γ.share ++ added
  holds : γ'.Holds books lock v'
  locks : γ'.Locks lock v' → γ.Locks lock v ∨ W
  locked : added ≠ [] → γ.Locks lock v
  ascending : (added.map (·.1)).Pairwise (· < ·)
  newer : ∀ row ∈ added, ∀ id ∈ books.ids v.committed, id < row.1

namespace Phase

variable {v v' : Vault} {γ γ' : Phase} {n : Nat} {e : Reply} {d : Draft} {W : Prop}

/-- Nothing is recorded. -/
theorem Becomes.quiet (hrecorded : books.rows v'.committed = books.rows v.committed)
    (hshare : γ'.share = γ.share) (hholds : γ'.Holds books lock v')
    (hlocks : γ'.Locks lock v' → γ.Locks lock v ∨ W) : γ.Becomes books lock W v v' γ' [] where
  recorded := by rw [hrecorded, List.append_nil]
  share := by rw [hshare, List.append_nil]
  holds := hholds
  locks := hlocks
  locked h := absurd rfl h
  ascending := List.Pairwise.nil
  newer := List.forall_mem_nil _

/-- A phase without a transaction has no lock. -/
theorem not_locks (h : ∀ n d sound latest, γ ≠ .working n d sound latest) : ¬ γ.Locks lock v := by
  rintro ⟨n, d, sound, latest, rfl, -⟩
  exact h _ _ _ _ rfl

/-- A statement within a transaction. -/
theorem becomes_working {sound sound' : Bool} {latest latest' : Option Int64}
    (ha : v.Answers books n e v') (hdrafts : v.Drafts n d) (hin : e.Inner reading)
    (hsound : sound' = true → e.outcome.isOk = true)
    (hlocks : (d.take reading e).Has lock → d.Has lock ∨ W)
    (hlatest : ∀ id, latest' = some id → (d.take reading e).Has lock ∧
      (v.session n ≠ .lost → ∀ recorded ∈ books.ids v.committed, recorded ≤ id)) :
    (working n d sound latest).Becomes books lock W v v'
      (working n (d.take reading e) sound' latest') [] := by
  obtain ⟨hcommitted, hdrafts', hsound'⟩ := ha.drafts hdrafts hin
  have hlive : v'.session n ≠ .lost → v.session n ≠ .lost :=
    fun hlive hlost => hlive (ha.lost hlost).1
  refine .quiet (by rw [hcommitted]) rfl ⟨hdrafts', fun hok => hsound' (hsound hok), ?_⟩ ?_
  · intro id hid
    rw [Bookkeeping.ids, hcommitted]
    exact ⟨(hlatest id hid).1, fun hlive' => (hlatest id hid).2 (hlive hlive')⟩
  · rintro ⟨_, _, _, _, ⟨⟩, hd, hlive'⟩
    exact (hlocks hd).imp_left fun hd => ⟨n, d, sound, latest, rfl, hd, hlive hlive'⟩

/-- Who asks behind the lock is told what bounds all that is recorded. -/
theorem le_of_asked {found : ResultSet} {id : Int64}
    (ha : v.Answers books n ⟨asking table, .ok found⟩ v') (hdrafts : v.Drafts n d)
    (hid : latestOf found = .ok id) (hadds : books.Adds d.replies []) :
    ∀ recorded ∈ books.ids v.committed, recorded ≤ id := by
  rcases hdrafts with ⟨aborted, hinside⟩ | hlost
  · have hlatest := ha.latest rfl hid
    rw [hinside, Vault.Session.replies, Bookkeeping.ids, hadds, List.append_nil] at hlatest
    exact hlatest.le
  · cases (ha.lost hlost).2

/-- A run gets replies on its own connection. -/
theorem Turns.connection (h : γ.Turns books lock n e γ') :
    γ.connection? = some n ∧ ∀ m, γ'.connection? = some m → m = n := by
  cases h with
  | begun =>
    refine ⟨rfl, fun m hm => ?_⟩
    split at hm <;> exact (Option.some.inj hm).symm
  | _ => exact ⟨rfl, fun m hm => (Option.some.inj hm).symm⟩

/-- **What a reply makes of a run**, case by case. -/
theorem Turns.becomes (h : γ.Turns books lock n e γ') (ha : v.Answers books n e v')
    (hholds : γ.Holds books lock v) :
    ∃ added, γ.Becomes books lock (e.request = lock ∧ e.outcome.isOk = true) v v' γ' added := by
  cases h with
  | alone hplain hspares =>
    have hsame : books.rows v'.committed = books.rows v.committed := by
      -- a statement outside transactions may commit itself, but records nothing
      rcases ha.alone hholds hplain with hmore | ⟨hsame, -⟩
      · rw [hmore]
        exact hspares v.committed e.outcome
      · rw [hsame]
    exact ⟨[], .quiet hsame rfl (ha.closed hholds hplain) (absurd · (not_locks nofun))⟩
  | begun hc =>
    obtain ⟨hsame, hsound⟩ := ha.begin hholds hc
    by_cases hok : e.outcome.isOk = true
    · rw [if_pos hok]
      refine ⟨[], .quiet (by rw [hsame]) rfl ⟨(hsound hok).drafts, fun _ => hsound hok, nofun⟩ ?_⟩
      rintro ⟨_, _, _, _, ⟨⟩, ⟨_, hnothing⟩, -⟩
      cases hnothing
    · rw [if_neg hok]
      exact ⟨[], .quiet (by rw [hsame]) rfl trivial (absurd · (not_locks nofun))⟩
  | locked hrequest hplain =>
    refine ⟨[], becomes_working ha hholds.1 hplain.inner id (fun hd => .inr ?_) nofun⟩
    -- the lock is the first statement of the transaction, so this reply has given it
    obtain ⟨done, hdone⟩ := hd
    rw [Draft.take_plain hplain] at hdone
    obtain rfl := List.mem_singleton.1 hdone
    exact ⟨hrequest, rfl⟩
  | @worked d sound latest hin hd hd' =>
    exact ⟨[], becomes_working ha hholds.1 hin id (fun _ => .inl hd)
      fun id hid => ⟨hd', (hholds.2.2 id hid).2⟩⟩
  | @asked d sound found id he hid hd hadds =>
    subst he
    have hplain : Reply.Plain reading ⟨asking table, .ok found⟩ := books.plain .asking
    refine ⟨[], becomes_working ha hholds.1 hplain.inner (fun _ => rfl) (fun _ => .inl hd) ?_⟩
    rintro _ ⟨⟩
    exact ⟨hd.plain hplain, fun _ => le_of_asked ha hholds.1 hid hadds⟩
  | @committed d id share hc hok hadds hascending hnewer =>
    obtain ⟨hdrafts, hsound, hlatest⟩ := hholds
    obtain ⟨hd, hbound⟩ := hlatest id rfl
    -- COMMIT has succeeded, so the connection is not lost and the lock was held until now
    have hlive : v.session n ≠ .lost := fun hlost => by
      rw [(ha.lost hlost).2] at hok
      cases hok
    refine ⟨share, ?_, rfl, trivial, (absurd · (not_locks nofun)), fun _ => ?_, hascending, ?_⟩
    · rw [ha.committed (hsound rfl) hc hok, hadds]
    · exact ⟨n, d, true, some id, rfl, hd, hlive⟩
    · intro row hrow recorded hrecorded
      exact Int64.lt_of_le_of_lt (hbound hlive recorded hrecorded) (hnewer row hrow)
  | uncommitted hc hfailed =>
    exact ⟨[], .quiet (by rw [ha.uncommitted hholds.1 hc hfailed]) rfl trivial (absurd · (not_locks nofun))⟩
  | undone hc =>
    exact ⟨[], .quiet (by rw [ha.undone hc]) rfl trivial (absurd · (not_locks nofun))⟩
  | undoneAgain hc =>
    exact ⟨[], .quiet (by rw [ha.undone hc]) rfl trivial (absurd · (not_locks nofun))⟩

end Phase

/-! ## Credits -/

/-- **Every row that was recorded is credited to one run**: `initial` are the rows that were there at
first, and `credits` those that were recorded since, each with the place of its run. -/
structure Credited (books : Bookkeeping reading dialect table) (initial : List (Int64 × String))
    (past : List Reply) (credits : List (Nat × (Int64 × String)))
    (share : Nat → List (Int64 × String)) : Prop where
  recorded : books.rows past = initial ++ credits.map (·.2)
  shares : ∀ i, (credits.filter (·.1 = i)).map (·.2) = share i
  nodup : (credits.map (·.2.1)).Nodup
  newer : ∀ row ∈ initial, ∀ credit ∈ credits, row.1 ≠ credit.2.1

namespace Credited

variable {initial added : List (Int64 × String)} {past past' : List Reply}
  {credits : List (Nat × (Int64 × String))} {share share' : Nat → List (Int64 × String)} {i : Nat}

/-- All that is recorded is a row from before or credited to a run. -/
theorem mem_ids (h : Credited books initial past credits share) {id : Int64} :
    id ∈ books.ids past ↔ (∃ row ∈ initial, row.1 = id) ∨ ∃ credit ∈ credits, credit.2.1 = id := by
  simp [Bookkeeping.ids, h.recorded]

/-- **One run records rows** in ascending order that are newer than all that is recorded. -/
theorem add (h : Credited books initial past credits share)
    (hrecorded : books.rows past' = books.rows past ++ added)
    (hascending : (added.map (·.1)).Pairwise (· < ·))
    (hnewer : ∀ row ∈ added, ∀ id ∈ books.ids past, id < row.1)
    (hshare : ∀ j, share' j = share j ++ if j = i then added else []) :
    Credited books initial past' (credits ++ added.map (i, ·)) share' := by
  -- newer ids are other ids
  have hne : ∀ row ∈ added, ∀ id ∈ books.ids past, id ≠ row.1 := by
    rintro row hrow id hid rfl
    exact Int64.lt_irrefl (hnewer row hrow _ hid)
  refine ⟨?_, fun j => ?_, ?_, ?_⟩
  · simp [hrecorded, h.recorded, Function.comp_def]
  · rw [List.filter_append, List.map_append, h.shares j, hshare j]
    by_cases hj : j = i
    · simp [hj, List.filter_map, Function.comp_def]
    · simp [hj, Ne.symm hj, List.filter_map, Function.comp_def]
  · have hids : (added.map (i, ·)).map (·.2.1) = added.map (·.1) := by simp [Function.comp_def]
    rw [List.map_append, hids, List.nodup_append]
    refine ⟨h.nodup, hascending.imp fun hlt => Int64.ne_of_lt hlt, ?_⟩
    rintro _ hold _ hnew
    obtain ⟨credit, hcredit, rfl⟩ := List.mem_map.1 hold
    obtain ⟨row, hrow, rfl⟩ := List.mem_map.1 hnew
    exact hne row hrow _ (h.mem_ids.2 (.inr ⟨credit, hcredit, rfl⟩))
  · intro row hrow credit hcredit
    rcases List.mem_append.1 hcredit with hcredit | hcredit
    · exact h.newer row hrow credit hcredit
    · obtain ⟨new, hnew, rfl⟩ := List.mem_map.1 hcredit
      exact hne new hnew _ (h.mem_ids.2 (.inl ⟨row, hrow, rfl⟩))

end Credited

/-! ## The invariant -/

/-- **The invariant of runs side by side.** -/
structure Guarded (books : Bookkeeping reading dialect table) (lock : Request) (view : β → Vault)
    (initial : List (Int64 × String)) (s : Store β) (credits : List (Nat × (Int64 × String)))
    (phase : Nat → Phase) : Prop where
  credited : Credited books initial (view s.backend).committed credits fun i => (phase i).share
  holds : ∀ i, (phase i).Holds books lock (view s.backend)
  within : ∀ i n, (phase i).connection? = some n → n ≤ s.attempts
  /-- Everyone has a connection of its own. -/
  own : ∀ i j n, (phase i).connection? = some n → (phase j).connection? = some n → i = j
  /-- Only one has got the lock. -/
  alone : ∀ i j, (phase i).Locks lock (view s.backend) → (phase j).Locks lock (view s.backend) → i = j

namespace Guarded

variable {initial added : List (Int64 × String)} {s s' : Store β}
  {credits : List (Nat × (Int64 × String))} {phase : Nat → Phase} {i : Nat} {γ' : Phase}

/-- What is true of one phase at most stays so when another phase comes in the place of one, if it is
not true of both that and someone else's. -/
theorem eq_of_update {A : Phase → Prop} (hmine : ∀ j, j ≠ i → A (phase j) → ¬ A γ')
    (hothers : ∀ j k, j ≠ i → k ≠ i → A (phase j) → A (phase k) → j = k) {j k : Nat}
    (hj : A (Function.update phase i γ' j)) (hk : A (Function.update phase i γ' k)) : j = k := by
  by_cases hji : j = i <;> by_cases hki : k = i
  · exact hji.trans hki.symm
  · subst hji
    rw [Function.update_self] at hj
    rw [Function.update_of_ne hki] at hk
    exact absurd hj (hmine k hki hk)
  · subst hki
    rw [Function.update_self] at hk
    rw [Function.update_of_ne hji] at hj
    exact absurd hk (hmine j hji hj)
  · rw [Function.update_of_ne hji] at hj
    rw [Function.update_of_ne hki] at hk
    exact hothers j k hji hki hj hk

/-- **One run moves**, whatever it does: the connections of others are as they were or lost, and if it
is given the lock nobody else has got it. -/
theorem move {W : Prop} (h : Guarded books lock view initial s credits phase)
    (hbecomes : (phase i).Becomes books lock W (view s.backend) (view s'.backend) γ' added)
    (hattempts : s.attempts ≤ s'.attempts)
    (hothers : ∀ n, n ≤ s.attempts → (phase i).connection? ≠ some n →
      ((view s.backend).session n).Fades ((view s'.backend).session n))
    (hconnection : ∀ n, γ'.connection? = some n →
      n ≤ s'.attempts ∧ ((phase i).connection? = some n ∨ s.attempts < n))
    (hwon : W → ∀ j, j ≠ i → ¬ (phase j).Locks lock (view s.backend)) :
    Guarded books lock view initial s' (credits ++ added.map (i, ·)) (Function.update phase i γ') := by
  -- everyone has connections of its own, so those of others fade at most
  have hfades : ∀ j, j ≠ i → (phase j).FadesIn (view s.backend) (view s'.backend) :=
    fun j hj n hn => hothers n (h.within j n hn) fun hi => hj (h.own j i n hn hi)
  have hown : ∀ j n, j ≠ i → (phase j).connection? = some n → γ'.connection? ≠ some n := by
    intro j n hj hn hmine
    rcases (hconnection n hmine).2 with hi | hnew
    · exact hj (h.own j i n hn hi)
    · exact absurd (h.within j n hn) (Nat.not_le.2 hnew)
  -- whoever has got the lock had it before, unless it is being given
  have halone : ∀ j, j ≠ i → (phase j).Locks lock (view s'.backend) →
      ¬ γ'.Locks lock (view s'.backend) := by
    intro j hj hlocked hmine
    have hbefore := hlocked.of_fades (hfades j hj)
    rcases hbecomes.locks hmine with hi | hwins
    · exact hj (h.alone j i hbefore hi)
    · exact hwon hwins j hj hbefore
  refine ⟨h.credited.add hbecomes.recorded hbecomes.ascending hbecomes.newer fun j => ?_, fun j => ?_,
    fun j n hn => ?_, fun j k n hj hk => ?_, fun j k hj hk => ?_⟩
  · by_cases hj : j = i
    · subst hj
      simp [hbecomes.share]
    · simp [hj]
  · by_cases hj : j = i
    · subst hj
      rw [Function.update_self]
      exact hbecomes.holds
    · rw [Function.update_of_ne hj]
      refine (h.holds j).of_fades (hfades j hj) fun hlocked => ?_
      -- rows are added only behind the lock, and here somebody else has got it
      have hnone : added = [] := by
        by_contra hsome
        exact hj (h.alone j i hlocked (hbecomes.locked hsome))
      rw [Bookkeeping.ids, hbecomes.recorded, hnone, List.append_nil, Bookkeeping.ids]
  · by_cases hj : j = i
    · subst hj
      rw [Function.update_self] at hn
      exact (hconnection n hn).1
    · rw [Function.update_of_ne hj] at hn
      exact Nat.le_trans (h.within j n hn) hattempts
  · exact eq_of_update (A := fun γ => γ.connection? = some n) (fun j hj hn => hown j n hj hn)
      (fun j k _ _ hj hk => h.own j k n hj hk) hj hk
  · exact eq_of_update halone (fun j k hji hki hj hk =>
      h.alone j k (hj.of_fades (hfades j hji)) (hk.of_fades (hfades k hki))) hj hk

/-- Nobody has a connection that is concerned. -/
theorem aside (h : Guarded books lock view initial s credits phase) (haside : s.Aside view s')
    (hshare : γ'.share = (phase i).share) (hholds : γ'.Holds books lock (view s'.backend))
    (hlocks : γ'.Locks lock (view s'.backend) → (phase i).Locks lock (view s.backend))
    (hconnection : ∀ n, γ'.connection? = some n → (phase i).connection? = some n) :
    Guarded books lock view initial s' credits (Function.update phase i γ') := by
  have hbecomes : (phase i).Becomes books lock False (view s.backend) (view s'.backend) γ' [] :=
    .quiet (by rw [haside.fades.committed]) hshare hholds fun hlocked => .inl (hlocks hlocked)
  have hmoved := h.move hbecomes (Nat.le_of_eq haside.attempts.symm)
    (fun n _ _ => haside.fades.session n)
    (fun n hn => ⟨haside.attempts ▸ h.within i n (hconnection n hn), .inl (hconnection n hn)⟩) False.elim
  rwa [List.map_nil, List.append_nil] at hmoved

/-- Others let time pass, or connections are lost. -/
theorem others (h : Guarded books lock view initial s credits phase) (haside : s.Aside view s') :
    Guarded books lock view initial s' credits phase := by
  have hfades : (phase 0).FadesIn (view s.backend) (view s'.backend) := fun n _ => haside.fades.session n
  have hkept := h.aside (i := 0) haside rfl
    ((h.holds 0).of_fades hfades fun _ => by rw [haside.fades.committed])
    (fun hlocked => hlocked.of_fades hfades) fun _ hn => hn
  rwa [Function.update_eq_self] at hkept

/-- **A deed of a run keeps the invariant**, and what it adds to what is recorded is credited to the
run. -/
theorem deed (h : Guarded books lock view initial s credits phase)
    (hdeed : Deed books lock view (phase i) s γ' s') :
    ∃ added, books.rows (view s'.backend).committed = books.rows (view s.backend).committed ++ added ∧
      Guarded books lock view initial s' (credits ++ added.map (i, ·)) (Function.update phase i γ') := by
  have hholds := h.holds i
  generalize hγ : phase i = γ at hdeed hholds
  -- what nobody's connection is concerned in adds nothing
  have hnothing : ∀ {phase'}, s.Aside view s' → Guarded books lock view initial s' credits phase' →
      ∃ added, books.rows (view s'.backend).committed = books.rows (view s.backend).committed ++ added ∧
        Guarded books lock view initial s' (credits ++ added.map (i, ·)) phase' := by
    intro phase' haside hguarded
    refine ⟨[], by rw [haside.fades.committed, List.append_nil], ?_⟩
    rwa [List.map_nil, List.append_nil]
  cases hdeed with
  | aside haside =>
    rw [← hγ, Function.update_eq_self]
    exact hnothing haside (h.others haside)
  | leaves haside =>
    exact hnothing haside (h.aside haside (by rw [hγ]; rfl) trivial (absurd · (Phase.not_locks nofun)) nofun)
  | leavesClosed haside =>
    exact hnothing haside (h.aside haside (by rw [hγ]; rfl) trivial (absurd · (Phase.not_locks nofun)) nofun)
  | connects hγ' hconnects hattempts =>
    have hquiet : γ'.share = [] ∧ γ'.Holds books lock (view s'.backend) ∧
        ¬ γ'.Locks lock (view s'.backend) ∧ ∀ n, γ'.connection? = some n → n = s.attempts + 1 := by
      rcases hγ' with rfl | rfl
      · exact ⟨rfl, trivial, Phase.not_locks nofun, nofun⟩
      · exact ⟨rfl, hconnects.own, Phase.not_locks nofun, fun n hn => (Option.some.inj hn).symm⟩
    obtain ⟨hshare, hholds', hnolock, hnew⟩ := hquiet
    refine ⟨[], by rw [hconnects.committed, List.append_nil], h.move (W := False)
      (.quiet (by rw [hconnects.committed]) (by rw [hγ, hshare]; rfl) hholds' (absurd · hnolock))
      (by omega) (fun n hn _ => hconnects.others n (by omega)) (fun n hn => ?_) False.elim⟩
    have := hnew n hn
    omega
  | @answered n e _ _ _ _ hanswers hattempts hlock hturns =>
    obtain ⟨added, hbecomes⟩ := hturns.becomes hanswers hholds
    obtain ⟨hmine, hmine'⟩ := hturns.connection
    have hn : (phase i).connection? = some n := hγ ▸ hmine
    have hrecorded := hbecomes.recorded
    rw [← hγ] at hbecomes
    refine ⟨added, hrecorded, h.move hbecomes (Nat.le_of_eq hattempts.symm)
      (fun m _ hm => hanswers.others m ?_) (fun m hm => ?_) fun ⟨hrequest, hok⟩ j hj hlocked => ?_⟩
    · rintro rfl
      exact hm hn
    · obtain rfl := hmine' m hm
      exact ⟨hattempts ▸ h.within i m hn, .inl hn⟩
    · -- the lock is given only while no other connection has it
      obtain ⟨m, hm, hhas⟩ := hlocked.has (h.holds j)
      refine hlock hrequest hok m ?_ hhas
      rintro rfl
      exact hj (h.own j i m hm hn)

/-- At first nobody has a connection, and nothing is credited. -/
theorem start (books : Bookkeeping reading dialect table) (lock : Request) (view : β → Vault)
    (s : Store β) :
    Guarded books lock view (books.rows (view s.backend).committed) s [] fun _ => .away [] where
  credited := ⟨(List.append_nil _).symm, fun _ => rfl, List.nodup_nil, fun _ _ => List.forall_mem_nil _⟩
  holds _ := trivial
  within _ _ := nofun
  own _ _ _ := nofun
  alone _ _ := (absurd · (Phase.not_locks nofun))

end Guarded

/-! ## Runs side by side -/

/-- Every caller keeps to the rules from the phase on that it is in, and hands back what it has
committed. -/
def Tracked (books : Bookkeeping reading dialect table) (lock : Request) (view : β → Vault)
    (callers : List (Coroutine (Store β) (Outcome (List (Int64 × String))))) (phase : Nat → Phase) : Prop :=
  ∀ (i : Nat) (c : Coroutine (Store β) (Outcome (List (Int64 × String)))), callers[i]? = some c →
    c.Tracks (tracking books lock view) [] (phase i) fun γ o => γ = .away (handed o)

variable {callers : List (Coroutine (Store β) (Outcome (List (Int64 × String))))}
  {credits : List (Nat × (Int64 × String))} {s : Store β}
  {q : Ensemble (Store β) (Outcome (List (Int64 × String)))}

theorem getElem?_middle {α : Type _} {l r : List α} {a a' b : α} {j : Nat}
    (h : (l ++ a' :: r)[j]? = some b) : j = l.length ∧ b = a' ∨ j ≠ l.length ∧ (l ++ a :: r)[j]? = some b := by
  by_cases hj : j = l.length
  · subst hj
    rw [List.getElem?_append_right (Nat.le_refl _), Nat.sub_self] at h
    exact .inl ⟨rfl, (Option.some.inj h).symm⟩
  · refine .inr ⟨hj, ?_⟩
    rw [← h, List.getElem?_append, List.getElem?_append]
    split
    · rfl
    · obtain ⟨k, hk⟩ := Nat.exists_eq_succ_of_ne_zero (n := j - l.length) (by omega)
      rw [hk, List.getElem?_cons_succ, List.getElem?_cons_succ]

/-- **The invariant holds throughout**, by induction on the interleaving. -/
theorem guarded_of_credits
    (htracks : Tracked books lock view callers fun _ => .away [])
    (hcredits : Ensemble.Credits (fun s => books.rows (view s.backend).committed) (Store.Aside view)
      ⟨s, callers, []⟩ credits q) :
    ∃ phase, Guarded books lock view (books.rows (view s.backend).committed) q.state credits phase ∧
      q.tasks = [] ∧ Tracked books lock view q.callers phase := by
  induction hcredits with
  | refl => exact ⟨_, .start books lock view s, rfl, htracks⟩
  | @caller _ s₁ s' l r c c' _ _ _ hshifts ih =>
    obtain ⟨phase, hguarded, rfl, hcode⟩ := ih
    obtain ⟨rfl, γ', hdoes, hc'⟩ := (hcode l.length c (by simp)).shifts hshifts
    have hcode' : Tracked books lock view (l ++ c' :: r) (Function.update phase l.length γ') := by
      intro j b hb
      rcases getElem?_middle (a := c) hb with ⟨rfl, rfl⟩ | ⟨hj, hb⟩
      · rwa [Function.update_self]
      · rw [Function.update_of_ne hj]
        exact hcode j b hb
    refine ⟨Function.update phase l.length γ', ?_, rfl, hcode'⟩
    rcases hdoes with hdeed | ⟨rfl, rfl⟩
    · obtain ⟨added, hrecorded, hguarded'⟩ := hguarded.deed hdeed
      rwa [hrecorded, List.drop_left]
    · rw [Function.update_eq_self]
      simpa using hguarded
  | @task _ _ _ _ l _ _ _ _ _ _ ih =>
    obtain ⟨-, -, hnone, -⟩ := ih
    -- no run starts a task
    simp at hnone
  | others _ haside ih =>
    obtain ⟨phase, hguarded, htasks, hcode⟩ := ih
    exact ⟨phase, hguarded.others haside, htasks, hcode⟩

/-- **What runs side by side have recorded**, from `p` to `q`. `credits` are the rows that were recorded
on the way, each with the place of the run that has committed it. -/
structure Allotted (books : Bookkeeping reading dialect table) (view : β → Vault)
    (p q : Ensemble (Store β) (Outcome (List (Int64 × String))))
    (credits : List (Nat × (Int64 × String))) : Prop where
  /-- Nothing else was recorded, and nothing is gone. -/
  recorded : books.rows (view q.state.backend).committed =
    books.rows (view p.state.backend).committed ++ credits.map (·.2)
  /-- Every id is committed by one run at most, and once. -/
  once : ∀ i j row row', (i, row) ∈ credits → (j, row') ∈ credits → row.1 = row'.1 →
    i = j ∧ row = row'
  /-- No id is committed that was recorded before. -/
  newer : ∀ i row, (i, row) ∈ credits → row.1 ∉ books.ids (view p.state.backend).committed
  distinct : (books.ids (view p.state.backend).committed).Nodup →
    (books.ids (view q.state.backend).committed).Nodup
  /-- A run that returns a result has committed just that. -/
  returned : ∀ (i : Nat) list, q.callers[i]? = some (.done (.ok list)) →
    (credits.filter (·.1 = i)).map (·.2) = list
  /-- A run that fails has committed nothing. -/
  failed : ∀ (i : Nat) e, q.callers[i]? = some (.done (.error e)) → ∀ row, (i, row) ∉ credits
  disjoint : ∀ (i j : Nat) (list list' : List (Int64 × String)), i ≠ j →
    q.callers[i]? = some (.done (.ok list)) → q.callers[j]? = some (.done (.ok list')) →
    (list.map (·.1)).Disjoint (list'.map (·.1))

/-- What the invariant says of what has been recorded. -/
theorem Guarded.allotted {phase : Nat → Phase}
    (h : Guarded books lock view (books.rows (view s.backend).committed) q.state credits phase)
    (htracked : Tracked books lock view q.callers phase) :
    Allotted books view ⟨s, callers, []⟩ q credits := by
  -- a run that has come to an end is away, and its share is what it hands back
  have hends : ∀ (i : Nat) o, q.callers[i]? = some (.done o) →
      (credits.filter (·.1 = i)).map (·.2) = handed o := by
    intro i o ho
    have hphase : phase i = .away (handed o) := htracked i _ ho
    rw [h.credited.shares i, hphase]
    rfl
  have honce : ∀ i j row row', (i, row) ∈ credits → (j, row') ∈ credits → row.1 = row'.1 →
      i = j ∧ row = row' := fun i j row row' hi hj heq =>
    Prod.ext_iff.1 (List.inj_on_of_nodup_map h.credited.nodup hi hj heq)
  have hnewer : ∀ i row, (i, row) ∈ credits → row.1 ∉ books.ids (view s.backend).committed := by
    intro i row hrow hid
    obtain ⟨old, hold, heq⟩ := List.mem_map.1 hid
    exact h.credited.newer old hold (i, row) hrow heq
  refine ⟨h.credited.recorded, honce, hnewer, fun hinitial => ?_, fun i list => hends i _, ?_, ?_⟩
  · rw [Bookkeeping.ids, h.credited.recorded, List.map_append, List.map_map]
    refine List.nodup_append.2 ⟨hinitial, h.credited.nodup, ?_⟩
    rintro _ hold _ hnew rfl
    obtain ⟨⟨i, row⟩, hrow, rfl⟩ := List.mem_map.1 hnew
    exact hnewer i row hrow hold
  · intro i e he row hrow
    have hnone := hends i _ he
    have hmem : row ∈ (credits.filter (·.1 = i)).map (·.2) :=
      List.mem_map.2 ⟨(i, row), List.mem_filter.2 ⟨hrow, by simp⟩, rfl⟩
    rw [hnone] at hmem
    cases hmem
  · intro i j list list' hij hi hj id hid hid'
    have hmem : ∀ {k : Nat} {l : List (Int64 × String)}, q.callers[k]? = some (.done (.ok l)) →
        id ∈ l.map (·.1) → ∃ row, (k, row) ∈ credits ∧ row.1 = id := by
      intro k l hk hid
      obtain ⟨row, hrow, rfl⟩ := List.mem_map.1 hid
      rw [← show (credits.filter (·.1 = k)).map (·.2) = l from hends k _ hk] at hrow
      obtain ⟨⟨k', row⟩, hfiltered, rfl⟩ := List.mem_map.1 hrow
      obtain ⟨hcredit, hk⟩ := List.mem_filter.1 hfiltered
      obtain rfl : k' = k := of_decide_eq_true hk
      exact ⟨row, hcredit, rfl⟩
    obtain ⟨row, hrow, rfl⟩ := hmem hi hid
    obtain ⟨row', hrow', heq⟩ := hmem hj hid'
    exact hij (honce i j row row' hrow hrow' heq.symm).1

variable [Backend β] {body : Migration β → Program Unit}

/-- Two runs side by side that apply two scripts. -/
def twoRuns : List (Migrator (IdealDatabase (booksOf .postgres)) × Client) :=
  [(twoScripts, clientOf .postgres), (twoScripts, clientOf .postgres)]

/-- Before anything is recorded. -/
def emptyStore : Store (IdealDatabase (booksOf .postgres)) := .start ⟨[], []⟩ .default

/-- An interleaving of the two, with its credits. -/
def TwoRuns (credits : List (Nat × (Int64 × String)))
    (q : Ensemble (Store (IdealDatabase (booksOf .postgres))) (Outcome (List (Int64 × String)))) : Prop :=
  Ensemble.Credits (fun s => (booksOf .postgres).rows (IdealDatabase.view s.backend).committed)
    (Store.Aside IdealDatabase.view) ⟨emptyStore, twoRuns.map fun run => (run.1.run run.2).run, []⟩ credits q

/-- One may come after the other. It has nothing left to apply. -/
theorem twoRuns_inTurn : ∃ credits q, TwoRuns credits q ∧
    q.callers[0]? = some (.done (.ok [(1, "people"), (2, "pets")])) ∧
    q.callers[1]? = some (.done (.ok [])) ∧
    (booksOf .postgres).rows q.state.backend.view.committed = [(1, "people"), (2, "pets")] := by
  obtain ⟨list, s₁, ⟨_, hfirst⟩, hidle, hscripts⟩ := twoScripts_returns (s := emptyStore) fun _ => rfl
  obtain ⟨rfl, hboth⟩ := hscripts.first rfl
  obtain ⟨list', s₂, ⟨_, hsecond⟩, -, hscripts'⟩ := twoScripts_returns hidle
  obtain ⟨rfl, hrows⟩ := hscripts'.again hboth
  have hstart : TwoRuns [] ⟨emptyStore, twoRuns.map fun run => (run.1.run run.2).run, []⟩ := .refl
  obtain ⟨_, hhalf⟩ := hfirst.walks.credits (l := []) (r := [(twoScripts.run (clientOf .postgres)).run]) hstart
  obtain ⟨credits, hcredits⟩ := hsecond.walks.credits (l := [.done _]) (r := []) hhalf
  exact ⟨credits, _, hcredits, rfl, rfl, hrows⟩

end Migrator

end SqlClient
