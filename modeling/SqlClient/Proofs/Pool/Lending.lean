import SqlClient.Pool.Run
import SqlClient.Proofs.Coroutine.Conduct
/-!
# Pools — connections that are out

A connection that was handed out is not idle, and the pool leaves it to its user: whatever others do with
the pool meanwhile, what the pool knows of that connection stays the same (`Does.lent`). The code of
others does nothing else, in whatever way it is put together (`obeys_take`, `obeys_run`, `obeys_release`).
The same holds of a connection that was closed: it stays closed, and nobody is handed it again
(`ne_of_takers`).
-/

namespace SqlClient

namespace Pool

open Coroutine

variable {β : Type} [PooledBackend β] {n m : Nat} {entry : Option PooledConnection} {p q : Pool β}

/-- The connection `n` was opened and is not idle: it is out with the given entry, or was closed if there
is none. -/
structure Lent (n : Nat) (entry : Option PooledConnection) (p : Pool β) : Prop where
  numbered : 0 < n
  entries : (p.connections.filter fun c => c.number = n) = entry.toList
  used : n ≤ p.attempts
  off : n ∉ p.idle

omit [PooledBackend β] in
/-- A connection is out once it was handed out. -/
theorem lent_takeIdle {rest : List Nat} (hidle : p.idle = n :: rest) (hnodup : p.idle.Nodup)
    (hentries : (p.connections.filter fun c => c.number = n) = entry.toList) (hnumbered : 0 < n)
    (hused : n ≤ p.attempts) : Lent n entry p.takeIdle.2 := by
  rw [takeIdle, hidle]
  rw [hidle] at hnodup
  exact ⟨hnumbered, hentries, hused, (List.nodup_cons.1 hnodup).1⟩

/-! ## What others do -/

/-- Changes of a pool by others than the user of the connection `n`. -/
inductive Does (n : Nat) : Pool β → Pool β → Prop
  /-- Looking at the pool. -/
  | look {p : Pool β} : Does n p p
  | elapse {p p' : Pool β} : Clocked.advance p = some p' → Does n p p'
  | setTimer {p : Pool β} (ms : Nat) : Does n p (p.setTimer ms).2
  | approve {p : Pool β} (k : Nat) : Does n p (p.approve k).2
  | connect {p : Pool β} : Does n p p.connect.2
  | abandonOpening {p : Pool β} : Does n p p.abandonOpening
  | enter {p : Pool β} : Does n p p.enter
  | leave {p : Pool β} : Does n p p.leave
  | takeIdle {p : Pool β} : Does n p p.takeIdle.2
  | changeFitness {p : Pool β} {m : Nat} (f : Fitness → Fitness) : m ≠ n → Does n p (p.changeFitness m f)
  | send {p : Pool β} (m : Nat) (r : Request) : Does n p (p.send m r).2
  | receive {p : Pool β} (m : Nat) (r : Request) : Does n p (p.receive m r).2
  | discard {p : Pool β} {m : Nat} : m ≠ n → Does n p (p.discard m).2
  | giveBack {p : Pool β} {m : Nat} : m ≠ n → Does n p (p.giveBack m).2
  | closeIdle {p : Pool β} : Does n p p.closeIdle
  /-- The database changes by itself. -/
  | database {p : Pool β} (backend : β) : Does n p { p with backend }

namespace Lent

omit [PooledBackend β]

theorem find? (h : Lent n entry p) : (p.connections.find? fun c => c.number = n) = entry := by
  rw [← List.head?_filter, h.entries]
  cases entry <;> rfl

/-- Entries, idle connections and attempts are all that counts. -/
theorem of_same (h : Lent n entry p) (hconnections : q.connections = p.connections)
    (hattempts : q.attempts = p.attempts) (hidle : ∀ k ∈ q.idle, k ∈ p.idle) : Lent n entry q :=
  ⟨h.numbered, by rw [hconnections, h.entries], by rw [hattempts]; exact h.used, fun hn => h.off (hidle n hn)⟩

/-- A connection that is opened is a new one. -/
theorem connect [Backend β] (h : Lent n entry p) : Lent n entry p.connect.2 := by
  have hnew : p.attempts + 1 ≠ n := Nat.ne_of_gt (Nat.lt_succ_of_le h.used)
  simp only [Pool.connect]
  split
  case h_1 => exact ⟨h.numbered, h.entries, Nat.le_succ_of_le h.used, h.off⟩
  case h_2 =>
    refine ⟨h.numbered, ?_, Nat.le_succ_of_le h.used, ?_⟩
    · simp only [note, List.filter_append, h.entries]
      simp [hnew]
    · simpa [note, hnew.symm] using h.off

theorem takeIdle (h : Lent n entry p) : Lent n entry p.takeIdle.2 := by
  rw [Pool.takeIdle]
  split
  case h_1 k rest hidle =>
    refine h.of_same rfl rfl fun i hi => ?_
    rw [hidle]
    exact List.mem_cons_of_mem k hi
  case h_2 => exact h.of_same rfl rfl fun _ hi => hi

/-- Nobody is handed out a connection that is not idle. -/
theorem ne_of_takeIdle (h : Lent n entry p) (hm : p.takeIdle.1.1 = some m) : m ≠ n := by
  rintro rfl
  rw [Pool.takeIdle] at hm
  split at hm
  case h_1 k rest hidle =>
    obtain rfl : k = m := Option.some.inj hm
    exact h.off (hidle ▸ List.mem_cons_self)
  case h_2 => cases hm

theorem changeFitness (h : Lent n entry p) (hm : m ≠ n) (f : Fitness → Fitness) :
    Lent n entry (p.changeFitness m f) := by
  refine ⟨h.numbered, ?_, h.used, h.off⟩
  have hnumber : ∀ c : PooledConnection,
      (if c.number = m then { c with fitness := f c.fitness } else c).number = c.number := by
    intro c
    split <;> rfl
  have hentry : ∀ c ∈ entry.toList,
      (if c.number = m then { c with fitness := f c.fitness } else c) = c := by
    intro c hc
    rw [← h.entries] at hc
    have hcn : c.number = n := by simpa using (List.mem_filter.1 hc).2
    rw [if_neg fun hcm => hm (hcm.symm.trans hcn)]
  simp only [Pool.changeFitness, List.filter_map, Function.comp_def, hnumber, h.entries]
  exact (List.map_congr_left hentry).trans (List.map_id _)

theorem discard (h : Lent n entry p) (hm : m ≠ n) : Lent n entry (p.discard m).2 := by
  refine ⟨h.numbered, ?_, h.used, h.off⟩
  have hentries := h.entries
  rw [← hentries]
  simp only [Pool.discard, refill, approve, note, List.filter_filter]
  refine List.filter_congr fun c _ => ?_
  by_cases hc : c.number = n <;> simp [hc, Ne.symm hm]

theorem giveBack [PooledBackend β] (h : Lent n entry p) (hm : m ≠ n) :
    Lent n entry (p.giveBack m).2 := by
  rw [Pool.giveBack]
  split
  · split
    · exact ⟨h.numbered, h.entries, h.used, by simpa [Ne.symm hm] using h.off⟩
    · exact h.discard hm
  · exact h

/-- Idle connections are closed, which this one is not among. -/
theorem closeIdle (h : Lent n entry p) : Lent n entry p.closeIdle := by
  refine ⟨h.numbered, ?_, h.used, List.not_mem_nil⟩
  have hentries := h.entries
  rw [← hentries]
  simp only [Pool.closeIdle, List.filter_filter]
  refine List.filter_congr fun c _ => ?_
  by_cases hc : c.number = n <;> simp [hc, h.off]

end Lent

/-- **What others do leaves a connection that is out as it is.** -/
theorem Does.lent (hdoes : Does n p q) (h : Lent n entry p) : Lent n entry q := by
  cases hdoes with
  | look => exact h
  | elapse helapse =>
    obtain ⟨clock, -, rfl⟩ := Option.map_eq_some_iff.1 helapse
    exact h.of_same rfl rfl fun _ hi => hi
  | connect => exact h.connect
  | takeIdle => exact h.takeIdle
  | changeFitness f hm => exact h.changeFitness hm f
  | discard hm => exact h.discard hm
  | giveBack hm => exact h.giveBack hm
  | closeIdle => exact h.closeIdle
  | setTimer | approve | abandonOpening | enter | leave | send | receive | database =>
    exact h.of_same rfl rfl fun _ hi => hi

/-! ## The code of others -/

/-- Among others a connection stays as it is. -/
def lending (n : Nat) (entry : Option PooledConnection) : Conduct (Pool β) where
  holds := Lent n entry
  may := Does n
  waits _ := True

variable {α : Type}

theorem obeys_perform {ρ : Type} {f : Pool β → ρ × Pool β} {Q : ρ → Prop} (hdoes : ∀ p, Does n p (f p).2)
    (hQ : ∀ p, Lent n entry p → Q (f p).1) : (perform f).Obeys (lending n entry) Q :=
  fun p h => ⟨hdoes p, (hdoes p).lent h, hQ p h⟩

theorem obeys_change {f : Pool β → Pool β} (hdoes : ∀ p, Does n p (f p)) :
    (change f).Obeys (lending n entry) fun _ => True :=
  obeys_perform (f := fun p => ((), f p)) hdoes fun _ _ => trivial

theorem obeys_inspect {ρ : Type} (f : Pool β → ρ) :
    (inspect f).Obeys (lending n entry) fun _ => True :=
  obeys_perform (f := fun p => (f p, p)) (fun _ => .look) fun _ _ => trivial

theorem obeys_waitFor (ready : Pool β → Bool) :
    (waitFor ready).Obeys (lending n entry) fun _ => True :=
  ⟨trivial, trivial⟩

theorem obeys_sleep (ms : Nat) : (sleep (β := β) ms).Obeys (lending n entry) fun _ => True :=
  (obeys_perform (Q := fun _ => True) (fun _ => .setTimer ms) fun _ _ => trivial).bind fun _ _ =>
    obeys_waitFor _

theorem obeys_openWithin (begun limit last : Nat) :
    (openWithin (β := β) begun limit last).Obeys (lending n entry) fun _ => True := by
  induction limit generalizing last with
  | zero => trivial
  | succ limit ih =>
    refine (obeys_perform (Q := fun _ => True) (fun _ => .connect) fun _ _ => trivial).bind fun o _ => ?_
    cases o with
    | ok => trivial
    | error e =>
      refine (obeys_inspect _).bind fun patience _ => (obeys_inspect _).bind fun now _ => ?_
      split
      · trivial
      · refine (obeys_sleep _).bind fun _ _ => (obeys_inspect _).bind fun fault _ => ?_
        split
        · trivial
        · exact ih _

theorem obeys_replenish (granted : Nat) :
    (replenish (β := β) granted).Obeys (lending n entry) fun _ => True := by
  rw [replenish]
  induction granted with
  | zero => trivial
  | succ granted ih =>
    refine ⟨?_, ih⟩
    refine (obeys_inspect _).bind fun now _ => (obeys_inspect _).bind fun patience _ => ?_
    refine (obeys_openWithin _ _ _).bind fun o _ => ?_
    cases o with
    | ok => trivial
    | error e => exact obeys_change fun _ => .abandonOpening

theorem obeys_exchange (m : Nat) (r : Request) :
    (exchange (β := β) m r).Obeys (lending n entry) fun _ => True := by
  refine (obeys_perform (Q := fun _ => True) (fun _ => .send m r) fun _ _ => trivial).bind fun _ _ => ?_
  refine (obeys_giveWay _).bind fun _ _ => ?_
  refine (obeys_perform (Q := fun _ => True) (fun _ => .receive m r) fun _ _ => trivial).bind
    fun response _ => ?_
  cases response with
  | answer o => trivial
  | never => exact (obeys_waitFor _).bind fun _ _ => trivial

/-- Requests on another connection. -/
theorem obeys_run (hm : m ≠ n) (r : Request) :
    (run (β := β) m r).Obeys (lending n entry) fun _ => True :=
  (obeys_change fun _ => .changeFitness _ hm).bind fun _ _ =>
    (obeys_exchange m r).bind fun _ _ => (obeys_change fun _ => .changeFitness _ hm).bind fun _ _ => trivial

theorem obeys_answers (m : Nat) : (answers (β := β) m).Obeys (lending n entry) fun _ => True :=
  (obeys_exchange m _).bind fun o _ => by cases o <;> trivial

theorem obeys_takeAnswering (hn : 0 < n) (limit : Nat) :
    (takeAnswering (β := β) limit).Obeys (lending n entry) (· ≠ n) := by
  induction limit with
  | zero => exact (obeys_waitFor _).bind fun _ _ => Nat.ne_of_lt hn
  | succ limit ih =>
    refine (obeys_perform (Q := fun next => ∀ m, next.1 = some m → m ≠ n) (fun _ => .takeIdle)
      fun p h m hm => h.ne_of_takeIdle hm).bind fun next hnext => ?_
    obtain ⟨next, granted⟩ := next
    refine (obeys_replenish granted).bind fun _ _ => ?_
    cases next with
    | none => exact (obeys_waitFor _).bind fun _ _ => ih
    | some m =>
      refine (obeys_answers m).bind fun answering _ => ?_
      cases answering with
      | true => exact hnext m rfl
      | false =>
        refine (obeys_perform (Q := fun _ => True) (fun _ => .discard (hnext m rfl))
          fun _ _ => trivial).bind fun granted _ => ?_
        exact (obeys_replenish granted).bind fun _ _ => ih

/-- **Whoever takes a connection is not handed one that is out.** -/
theorem obeys_take (hn : 0 < n) : (take (β := β)).Obeys (lending n entry) (· ≠ .ok n) := by
  refine (obeys_inspect _).bind fun patience _ => ?_
  refine (obeys_perform (Q := fun _ => True) (fun _ => .setTimer patience) fun _ _ => trivial).bind
    fun deadline _ => (obeys_change fun _ => .enter).bind fun _ _ => ?_
  have hleaves (p : Pool β) (h : Lent n entry p) : Does n p p.leave ∧ Lent n entry p.leave :=
    ⟨.leave, Does.lent .leave h⟩
  have hsearch : (ensuring leave (takeAnswering (β := β) turnLimit)).Obeys (lending n entry) (· ≠ n) :=
    ⟨hleaves, (· ≠ n), obeys_takeAnswering hn _, fun m hm p h => ⟨(hleaves p h).1, (hleaves p h).2, hm⟩⟩
  have hpatient : (giveUpWhen (hasCome deadline) (ensuring leave (takeAnswering (β := β) turnLimit))).Obeys
      (lending n entry) fun next => next ≠ some n :=
    ⟨fun p h => ⟨.look, h⟩, (· ≠ n), hsearch, fun m hm heq => hm (Option.some.inj heq), fun heq => by cases heq⟩
  refine hpatient.bind fun next hnext => ?_
  cases next with
  | some m => exact fun heq => hnext (congrArg some (Except.ok.inj heq))
  | none => exact fun heq => by cases heq

/-- Giving another connection back. -/
theorem obeys_release (hm : m ≠ n) :
    (release (β := β) m).Obeys (lending n entry) fun _ => True :=
  (obeys_perform (Q := fun _ => True) (fun _ => .giveBack hm) fun _ _ => trivial).bind fun granted _ =>
    obeys_replenish granted

/-- What another user does who takes a connection, runs a request on it and gives it back. -/
def visit (r : Request) : Coroutine (Pool β) Unit := do
  match ← take with
  | .error _ => return ()
  | .ok m => do
    let _ ← run m r
    release m

theorem obeys_visit (hn : 0 < n) (r : Request) :
    (visit (β := β) r).Obeys (lending n entry) fun _ => True := by
  refine (obeys_take hn).bind fun o ho => ?_
  cases o with
  | error e => trivial
  | ok m =>
    have hm : m ≠ n := fun heq => ho (congrArg Except.ok heq)
    exact (obeys_run hm r).bind fun _ _ => obeys_release hm

/-! ## Coming back -/

omit [PooledBackend β] in
/-- Closing a connection that was out takes its entry away for good. -/
theorem Lent.close (h : Lent n entry p) : Lent n none (p.discard n).2 := by
  refine ⟨h.numbered, ?_, h.used, h.off⟩
  simp only [Pool.discard, refill, approve, note, List.filter_filter]
  refine List.filter_eq_nil_iff.2 fun c _ => ?_
  by_cases hc : c.number = n <;> simp [hc]

/-- A connection that cannot be used again is closed. -/
theorem giveBack_of_isUnfit {c : PooledConnection}
    (hc : (p.connections.find? fun c => c.number = n) = some c)
    (hunfit : ∀ closed, c.fitness.isUnfit closed = true) : p.giveBack n = p.discard n := by
  have hreusable : p.isReusable c = false := by simp [isReusable, hunfit]
  simp [giveBack, hc, hreusable]

/-- **Nobody is handed a connection that was closed**, however many ask for one, whatever others do
meanwhile and in whatever order they take their moves. -/
theorem ne_of_takers (h : Lent n none p) {tasks : List (Coroutine (Pool β) Unit)}
    (htasks : ∀ t ∈ tasks, t.Obeys (lending n none) fun _ => True) {k : Nat}
    {ε : Type} {note : Pool β → Pool β → List ε} {es : List ε} {q : Ensemble (Pool β) (Outcome Nat)}
    (hruns : Ensemble.Runs (Ensemble.Goes (Does n)) note ⟨p, List.replicate k take, tasks⟩ es q)
    {taker : Coroutine (Pool β) (Outcome Nat)} (htaker : taker ∈ q.callers) : taker ≠ .done (.ok n) := by
  have hcallers : ∀ c ∈ List.replicate k (take (β := β)), c.Obeys (lending n none) (· ≠ .ok n) := by
    intro c hc
    rw [(List.mem_replicate.1 hc).2]
    exact obeys_take h.numbered
  obtain ⟨-, hobeys, -⟩ := Ensemble.obeys_of_runs hruns (fun _ _ hs hdoes => hdoes.lent hs) h hcallers htasks
  rintro rfl
  have hne : Except.ok n ≠ Except.ok n := hobeys _ htaker
  exact hne rfl

end Pool

end SqlClient
