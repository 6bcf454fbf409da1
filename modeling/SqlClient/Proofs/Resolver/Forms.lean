import SqlClient.Proofs.Coroutine.Joining
import SqlClient.Proofs.Resolver.Matching
import SqlClient.Proofs.Resolver.Sharing
/-!
# Resolvers — one answer for each input

There are six forms of batch functions, of two kinds: `Joint` ones hand the whole batch to one
query, `Separate` ones run a query for each input. Either way a batch function is its queries and
nothing else, with a function of their outcomes behind them (`batch_joint`, `batch_separate`). So
others can come in between only while queries run, and what remains to be said is which outcomes an
answer looks at (`Form.Answered`).

What fails before the rows are there fails the whole batch; a row fails alone.
-/

namespace SqlClient

open Coroutine

namespace Resolver

variable {β : Type}

/-! ## Forms -/

/-- A form with one query for the batch: how its rows answer the inputs. -/
inductive Joint
  | positional (row : Shape)
  | void
  | byKey (row : Shape) (requestKey : Input → String) (rowKey : Row → Option String)
  | byKeyAll (row : Shape) (requestKey : Input → String) (rowKey : Row → Option String)

/-- A form with one query for each input. -/
inductive Separate
  | single (row : Shape)
  | singleOption (row : Shape)

/-- A form with the function that runs its queries. -/
inductive Form (β : Type)
  | joint (kind : Joint) (run : Client → List Json → Work β ResultSet)
  | separate (kind : Separate) (run : Client → Json → Work β ResultSet)

/-- The batch function of a form. -/
def Form.batch (request : Shape) : Form β → BatchFunction β
  | .joint (.positional row) run => Batch.positional request row run
  | .joint .void run => Batch.void request run
  | .joint (.byKey row requestKey rowKey) run => Batch.byKey request row requestKey rowKey run
  | .joint (.byKeyAll row requestKey rowKey) run =>
    Batch.byKeyAll request row requestKey rowKey run
  | .separate (.single row) run => Batch.single request row run
  | .separate (.singleOption row) run => Batch.singleOption request row run

/-- The queries of a batch. -/
def Form.queries (client : Client) (encoded : List Json) :
    Form β → List (Coroutine (Store β) (Outcome ResultSet))
  | .joint _ run => [(run client encoded).run]
  | .separate _ run => encoded.map fun one => (run client one).run

/-! ## Answers -/

/-- What rows answer the inputs of a batch. Where they are matched by key, everything is written to
a place that there is, whichever of the rows have come. -/
def Joint.Answered (inputs : List Input) (rows : List Row) (answers : List (Outcome Json)) :
    Joint → Prop
  | .positional row =>
    (rows.length ≠ inputs.length →
      answers = inputs.map fun _ => .error (.lengthMismatch inputs.length rows.length)) ∧
    (rows.length = inputs.length → answers = rows.map (Schema.decodeRow row))
  | .void => answers = inputs.map fun _ => .ok .null
  | .byKey row requestKey rowKey =>
    answers = (inputs.map fun x =>
      (Answers.firstAnswer rowKey (Schema.decodeRow row) rows (requestKey x)).map (·.getD .null)) ∧
    ∀ before after, rows = before ++ after →
      let state := before.foldl (Answers.answerFirst rowKey (Schema.decodeRow row))
        (Answers.Waiting.ofKeys (inputs.map requestKey), List.replicate inputs.length (.ok none))
      Answers.InRange state.1 state.2
  | .byKeyAll row requestKey rowKey =>
    answers = (inputs.map fun x =>
      (Answers.allAnswer rowKey (Schema.decodeRow row) rows (requestKey x)).map Json.array) ∧
    ∀ before after, rows = before ++ after →
      Answers.InRange (Answers.Waiting.ofKeys (inputs.map requestKey))
        (Answers.byKeyAll rowKey (Schema.decodeRow row) (inputs.map requestKey) before)

/-- What the rows of its own query answer an input. -/
def Separate.answer (rows : List Row) : Separate → Outcome Json
  | .single row => Answers.firstRow (Schema.decodeRow row) rows
  | .singleOption row => (Answers.firstRow? (Schema.decodeRow row) rows).map (·.getD .null)

/-- What the outcomes of its queries answer the inputs of a batch. -/
def Form.Answered (inputs : List Input) (outcomes : List (Outcome ResultSet))
    (answers : List (Outcome Json)) : Form β → Prop
  | .joint kind _ => ∃ outcome, outcomes = [outcome] ∧
    (∀ e, outcome = .error e → answers = inputs.map fun _ => .error e) ∧
    ∀ result, outcome = .ok result → kind.Answered inputs result.toRows answers
  | .separate kind _ => outcomes.length = inputs.length ∧
    answers = outcomes.map fun outcome => outcome.bind fun result => kind.answer result.toRows

theorem failAll_eq_map {ι α : Type} (inputs : List ι) (e : Error) :
    (Answers.failAll inputs.length e : List (Outcome α)) = inputs.map fun _ => .error e :=
  (List.map_const' ..).symm

variable {request : Shape} {client : Client} {inputs : List Input} {encoded : List Json} {e : Error}

/-! ## Batch functions as programs -/

/-- What the rows of the one query make of the answers. -/
def Joint.answers (inputs : List Input) (rows : List Row) : Joint → List (Outcome Json)
  | .positional row => Answers.positional (Schema.decodeRow row) inputs.length rows
  | .void => inputs.map fun _ => .ok .null
  | .byKey row requestKey rowKey =>
    (Answers.byKey rowKey (Schema.decodeRow row) (inputs.map requestKey) rows).map fun answer =>
      answer.map (·.getD .null)
  | .byKeyAll row requestKey rowKey =>
    (Answers.byKeyAll rowKey (Schema.decodeRow row) (inputs.map requestKey) rows).map fun answer =>
      answer.map Json.array

theorem Form.batch_joint (kind : Joint) (run : Client → List Json → Work β ResultSet) :
    (Form.joint kind run).batch request = Batch.query request run fun inputs rows =>
      kind.answers inputs rows := by
  cases kind <;> rfl

theorem Form.batch_separate (kind : Separate) (run : Client → Json → Work β ResultSet) :
    (Form.separate kind run).batch request =
      Batch.perRequest request run fun rows => kind.answer rows := by
  cases kind <;> rfl

/-- What any outcome of the one query makes of the answers. -/
def Joint.ofOutcome (kind : Joint) (inputs : List Input) :
    Outcome ResultSet → List (Outcome Json)
  | .error e => Answers.failAll inputs.length e
  | .ok result => kind.answers inputs result.toRows

theorem batch_joint (kind : Joint) (run : Client → List Json → Work β ResultSet)
    (h : inputs.map (Schema.encode request) = encoded.map .ok) :
    (Form.joint kind run).batch request client inputs =
      (run client encoded).run.bind fun outcome => .done (kind.ofOutcome inputs outcome) := by
  rw [Form.batch_joint, Batch.query, Answers.encodeAll, mapM_of_map_ok h]
  refine congrArg (Coroutine.bind _) (funext fun outcome => ?_)
  cases outcome <;> rfl

theorem batch_separate (kind : Separate) (run : Client → Json → Work β ResultSet)
    (h : inputs.map (Schema.encode request) = encoded.map .ok) :
    (Form.separate kind run).batch request client inputs =
      (all ((Form.separate kind run).queries client encoded)).bind fun outcomes =>
        .done (outcomes.map fun outcome =>
          outcome.bind fun result => kind.answer result.toRows) := by
  rw [Form.batch_separate, Batch.perRequest, Answers.encodeAll, mapM_of_map_ok h]
  rfl

/-- **An input that cannot be encoded** is the error of the whole batch, whatever would run it. -/
theorem batch_of_encode_error (f : Form β)
    (h : inputs.mapM (Schema.encode request) = .error e) :
    f.batch request client inputs = .done (inputs.map fun _ => .error e) := by
  rw [← failAll_eq_map]
  cases f with
  | joint kind run =>
    rw [Form.batch_joint, Batch.query, Answers.encodeAll, h]
    rfl
  | separate kind run =>
    rw [Form.batch_separate, Batch.perRequest, Answers.encodeAll, h]
    rfl

/-! ## What the answers look at -/

theorem Joint.answered (kind : Joint) (inputs : List Input) (rows : List Row) :
    kind.Answered inputs rows (kind.answers inputs rows) := by
  cases kind with
  | positional row =>
    refine ⟨fun hne => ?_, fun heq => if_pos heq⟩
    rw [answers, Answers.positional, if_neg hne, failAll_eq_map]
  | void => rfl
  | byKey row requestKey rowKey =>
    refine ⟨?_, fun before after _ => ?_⟩
    · rw [answers, Answers.byKey_eq, List.map_map, List.map_map]
      rfl
    · have hunderway := (Answers.underway_start rowKey (Schema.decodeRow row)
        (inputs.map requestKey)).run (Answers.shuffled_foldl _ _ before _)
      rw [List.length_map] at hunderway
      exact hunderway.inRange
  | byKeyAll row requestKey rowKey =>
    refine ⟨?_, fun before after _ => Answers.inRange_byKeyAll _ _ _ before⟩
    rw [answers, Answers.byKeyAll_eq, List.map_map, List.map_map]
    rfl

theorem Joint.length_answers {kind : Joint} {rows : List Row} {answers : List (Outcome Json)}
    (h : kind.Answered inputs rows answers) : answers.length = inputs.length := by
  cases kind with
  | positional row =>
    by_cases heq : rows.length = inputs.length
    · rw [h.2 heq, List.length_map, heq]
    · rw [h.1 heq, List.length_map]
  | void => rw [show answers = _ from h, List.length_map]
  | byKey row requestKey rowKey => rw [h.1, List.length_map]
  | byKeyAll row requestKey rowKey => rw [h.1, List.length_map]

/-- There are as many answers as inputs. -/
theorem Form.Answered.length_eq {f : Form β} {outcomes : List (Outcome ResultSet)}
    {answers : List (Outcome Json)} (h : f.Answered inputs outcomes answers) :
    answers.length = inputs.length := by
  cases f with
  | joint kind run =>
    obtain ⟨outcome, -, herror, hok⟩ := h
    cases outcome with
    | error e => rw [herror e rfl, List.length_map]
    | ok result => exact Joint.length_answers (hok result rfl)
  | separate kind run =>
    obtain ⟨hlength, hanswers⟩ := h
    rw [hanswers, List.length_map, hlength]

theorem Joint.answered_ofOutcome (kind : Joint) (run : Client → List Json → Work β ResultSet)
    (inputs : List Input) (outcome : Outcome ResultSet) :
    (Form.joint kind run).Answered inputs [outcome] (kind.ofOutcome inputs outcome) := by
  refine ⟨outcome, rfl, ?_, ?_⟩
  · rintro e rfl
    exact failAll_eq_map inputs e
  · rintro result rfl
    exact kind.answered inputs result.toRows

/-! ## Runs of batches -/

/-- **One answer for each input.** If an input cannot be encoded, the first such error is every
answer and no query is run. Otherwise the queries of the batch, each among the others and whatever
else goes on, leave what the batch leaves. When they have finished, the batch is done in its next
turn, and its answers look at the outcomes as `Form.Answered` says. -/
theorem one_answer_each (f : Form β) (request : Shape) (client : Client) (inputs : List Input) :
    (∀ before x after e, inputs = before ++ x :: after →
      (∀ y ∈ before, ∃ j, Schema.encode request y = .ok j) → Schema.encode request x = .error e →
      f.batch request client inputs = .done (inputs.map fun _ => .error e)) ∧
    ∀ encoded : List Json, inputs.map (Schema.encode request) = encoded.map .ok →
      ∀ {ι : Type} (note : Store β → Store β → List ι), (∀ s, note s s = []) → ∀ w es c' w',
        Trail note (f.batch request client inputs) w es c' w' →
        ∃ ess left, Trails note w w' (f.queries client encoded) ess left ∧ ess.flatten.Perm es ∧
          (∀ answers, c' = .done answers →
            ∃ outcomes : List (Outcome ResultSet), left = outcomes.map .done) ∧
          ∀ outcomes : List (Outcome ResultSet), left = outcomes.map .done → ∃ answers,
            answers.length = inputs.length ∧ f.Answered inputs outcomes answers ∧
            ∀ turn, ∃ turn', c'.poll turn = (.done answers, turn') := by
  refine ⟨?_, fun encoded hencoded ι note hstill w es c' w' htrail => ?_⟩
  · rintro before x after e rfl hbefore hx
    exact batch_of_encode_error f (mapM_of_first_error hbefore hx)
  · have hsize : encoded.length = inputs.length := by
      simpa using (congrArg List.length hencoded).symm
    cases f with
    | joint kind run =>
      rw [batch_joint kind run hencoded] at htrail
      obtain ⟨query, hquery, rfl⟩ := htrail.bind_done hstill
      -- the one query leaves the whole trail
      refine ⟨[es], [query], .cons hquery .nil, by simp, ?_, ?_⟩
      · intro answers hanswers
        obtain ⟨outcome, rfl⟩ := done_of_bind_eq_done hanswers
        exact ⟨[outcome], rfl⟩
      · intro outcomes houtcomes
        obtain ⟨outcome, rest, rfl, rfl, hrest⟩ := List.map_eq_cons_iff.1 houtcomes.symm
        obtain rfl := List.map_eq_nil_iff.1 hrest
        have hanswered := kind.answered_ofOutcome run inputs outcome
        exact ⟨_, hanswered.length_eq, hanswered, fun turn => ⟨turn, rfl⟩⟩
    | separate kind run =>
      rw [batch_separate kind run hencoded] at htrail
      obtain ⟨queries, hqueries, rfl⟩ := htrail.bind_done hstill
      -- the queries run side by side, and their outcomes are joined in the order of the inputs
      obtain ⟨ess, left, htrails, hbeside, hperm⟩ := hqueries.beside hstill (beside_all _)
      refine ⟨ess, left, htrails, hperm, ?_, ?_⟩
      · intro answers hanswers
        obtain ⟨outcomes, rfl⟩ := done_of_bind_eq_done hanswers
        exact ⟨outcomes, hbeside.eq_map_done rfl⟩
      · rintro outcomes rfl
        have hanswered : (Form.separate kind run).Answered inputs outcomes
            (outcomes.map fun outcome =>
              outcome.bind fun result => kind.answer result.toRows) := by
          refine ⟨?_, rfl⟩
          have hleft := htrails.length_eq
          rw [List.length_map, Form.queries, List.length_map] at hleft
          omega
        refine ⟨_, hanswered.length_eq, hanswered, fun turn => ?_⟩
        obtain ⟨turn', hpoll⟩ := hbeside.poll_done turn
        exact ⟨turn', poll_bind hpoll⟩

/-! ### Batches on a mirror -/

/-- Each input asks the mirror for its own row. -/
def mirrorForm : Form (Observed Mirror) :=
  .separate (.single .any) fun client one => askMirror client [one]

/-- What a batch of them answers. -/
def mirrorAnswers : List (Outcome Json) :=
  ["a", "b", "a", "c"].map fun text => .ok (.object [("value", .string text)])

theorem run_mirrorForm :
    ((mirrorForm.batch .any plainClient fourInputs).run mirrorStore).map (·.1) =
      some mirrorAnswers := by
  with_unfolding_all rfl

/-- A batch with an input that has no text fails with this, whatever else is wrong with it. Four
inputs that have one are answered with the outcomes of their own queries. -/
theorem one_answer_each_mirrored :
    mirrorForm.batch .any plainClient [.ok (.string "a"), .error "no text", .error "no number"] =
      .done (List.replicate 3 (.error (.schema .request ["no text"]))) ∧
    ∃ outcomes, mirrorForm.Answered fourInputs outcomes mirrorAnswers := by
  refine ⟨?_, ?_⟩
  · refine (one_answer_each mirrorForm .any plainClient _).1 [.ok (.string "a")] (.error "no text")
      [.error "no number"] _ rfl (fun y hy => ?_) rfl
    rw [List.mem_singleton.1 hy]
    exact ⟨_, rfl⟩
  · have hencoded : fourInputs.map (Schema.encode .any) =
        (["a", "b", "a", "c"].map Json.string).map .ok := rfl
    have horderly : (mirrorForm.batch .any plainClient fourInputs).Orderly := by
      rw [mirrorForm, batch_separate _ _ hencoded]
      refine Orderly.bind (orderly_all fun c hc => ?_) fun _ => trivial
      obtain ⟨one, -, rfl⟩ := List.mem_map.1 hc
      exact orderly_query plainClient _
    obtain ⟨⟨answers, s'⟩, hrun, rfl⟩ := Option.map_eq_some_iff.1 run_mirrorForm
    -- the run is a trail from the start to the answers, which the theorem takes apart
    have htrail : ∃ es n, Trail (fun s s' : Store (Observed Mirror) => s'.log.drop s.log.length)
        (mirrorForm.batch .any plainClient fourInputs) (mirrorStore, 0) es (.done mirrorAnswers)
        (s', n) :=
      trail_of_run hrun horderly
    obtain ⟨es, n, htrail⟩ := htrail
    obtain ⟨_, left, -, -, hdone, hanswers⟩ :=
      (one_answer_each mirrorForm .any plainClient fourInputs).2 _ hencoded _ (fun s => by simp)
        _ _ _ _ htrail
    obtain ⟨outcomes, houtcomes⟩ := hdone _ rfl
    obtain ⟨answers', -, hanswered, hpoll⟩ := hanswers outcomes houtcomes
    obtain ⟨turn', hturn⟩ := hpoll (.start s' false)
    cases hturn
    exact ⟨outcomes, hanswered⟩

end Resolver

end SqlClient
