import SqlClient.Proofs.Coroutine.Tracking
import SqlClient.Transaction.Run
/-!
# Clients — following requests

Code that sends over a connection, followed move by move. Rules that overlook the line for a
connection and requests that are never answered (`Tracking.Overlooks`) need only say what is done when
a request is sent, when its answer comes, and after it; what they say of one request then holds of the
code around it, in a line or not.
-/

namespace SqlClient

open Coroutine

variable {β Γ : Type}

/-! ## Work -/

namespace Work

variable {α δ : Type} {P : Tracking (Store β) Γ} {guards : List (Guard (Store β))} {γ : Γ}
  {Q : Γ → Outcome α → Prop} {Q' : Γ → Outcome δ → Prop}

/-- Work goes on after a result, and ends with a failure. -/
theorem tracks_bind {w : Work β α} {f : α → Work β δ} (h : w.run.Tracks P guards γ Q)
    (hok : ∀ γ' a, Q γ' (.ok a) → (f a).run.Tracks P guards γ' Q')
    (herror : ∀ γ' e, Q γ' (.error e) → Q' γ' (.error e)) :
    (w >>= f).run.Tracks P guards γ Q' := by
  refine Tracks.bind (c := w.run) h ?_
  rintro γ' (e | a) hend
  · exact herror γ' e hend
  · exact hok γ' a hend

end Work

/-! ## Around a body -/

section Around

variable {P : Tracking (Store β) Γ} {guards : List (Guard (Store β))} {γ : Γ}

/-- A connection is let go of in the end. -/
theorem tracks_holding {ρ : Type} {n : Nat} {body : Coroutine (Store β) ρ} {Q Q' : Γ → ρ → Prop}
    (hbody : body.Tracks P (⟨Store.letGo n, none⟩ :: guards) γ Q)
    (hletGo : ∀ γ' a, Q γ' a → ∀ s, ∃ γ'', P.does γ' s γ'' (s.letGo n) ∧ Q' γ'' a) :
    (Connection.holding n body).Tracks P guards γ Q' :=
  ⟨Q, hbody, hletGo⟩

variable [Backend β]

/-- The guard around a scope, which ends it and starts its rescue. -/
def scopeGuard (scope : Scope) (rollback : String) : Guard (Store β) :=
  ⟨fun s => (s.endScope scope).hold scope.connection,
    some (Transaction.rescue scope.connection rollback (scope.depth == 0))⟩

/-- A scope ends between its operation and what closes it. -/
theorem tracks_closing {α : Type} {scope : Scope} {rollback : String}
    {operation : Coroutine (Store β) (Outcome α)} {close : Outcome α → Coroutine (Store β) (Outcome α)}
    {Q Q' : Γ → Outcome α → Prop}
    (hoperation : operation.Tracks P (scopeGuard scope rollback :: guards) γ Q)
    (hend : ∀ γ' s, P.does γ' s γ' (s.endScope scope))
    (hclose : ∀ γ' o, Q γ' o → (close o).Tracks P (scopeGuard scope rollback :: guards) γ' Q') :
    (Transaction.closing scope rollback operation close).Tracks P guards γ Q' := by
  refine ⟨Q', hoperation.bind ?_, fun _ _ h => h⟩
  intro γ' o ho s
  exact ⟨γ', hend γ' s, hclose γ' o ho⟩

end Around

/-! ## Requests -/

namespace Coroutine

variable [Backend β]

/-- **Rules that overlook minor changes**, in every stage and before giving up. What concerns only the
line for a connection is minor, and so is a request that is never answered. -/
structure Tracking.Overlooks (P : Tracking (Store β) Γ) (minor : Store β → Store β → Prop) : Prop where
  does : ∀ {γ s s'}, minor s s' → P.does γ s γ s'
  quits : ∀ {γ s s₁ s' ts}, minor s s₁ → P.quits γ s₁ s' ts → P.quits γ s s' ts
  takeTicket : ∀ n s, minor s (s.takeTicket n).2
  returnTicket : ∀ n ticket s, minor s (s.returnTicket n ticket)
  never : ∀ {n r s}, (s.receive n r).1 = .never → minor s (s.receive n r).2
  stalled : ∀ s, minor s { s with stalled := true }

namespace Tracking.Overlooks

variable {P : Tracking (Store β) Γ} {minor : Store β → Store β → Prop} (h : P.Overlooks minor)
  {guards : List (Guard (Store β))} {γ : Γ} {n : Nat} {Q : Γ → Outcome ResultSet → Prop}

include h

/-- One more guard that does only what is minor. -/
theorem parts_cons {cleanup : Store β → Store β} (hcleanup : ∀ s, minor s (cleanup s))
    (hparts : P.Parts guards γ) : P.Parts (⟨cleanup, none⟩ :: guards) γ :=
  fun s => h.quits (hcleanup s) (hparts (cleanup s))

theorem inTurn {ρ : Type} {body : Coroutine (Store β) ρ} {Q : Γ → ρ → Prop}
    (hparts : P.Parts guards γ)
    (hbody : ∀ ticket, body.Tracks P (⟨Store.returnTicket n ticket, none⟩ :: guards) γ Q) :
    (Connection.inTurn n body).Tracks P guards γ Q := by
  intro s
  refine ⟨γ, h.does (h.takeTicket n s), Q, ⟨?_, fun _ _ => hbody _⟩, fun γ' a ha s' => ?_⟩
  · exact h.parts_cons (h.returnTicket n _) hparts
  · exact ⟨γ', h.does (h.returnTicket n _ s'), ha⟩

/-- **A request**, whose answer may lead to another stage. -/
theorem exchange {r : Request} (hparts : P.Parts guards γ)
    (hsend : ∀ s, P.does γ s γ (s.send n r).2)
    (hanswer : ∀ s o, (s.receive n r).1 = .answer o → ∃ γ', P.does γ s γ' (s.receive n r).2 ∧ Q γ' o)
    (hfinish : ∀ γ' o, Q γ' o → ∀ s : Store β, P.does γ' s γ' (s.finish n)) :
    (Connection.exchange n r).Tracks P guards γ Q := by
  intro s
  refine ⟨γ, hsend s, (tracks_giveWay hparts _).bind ?_⟩
  rintro γ' _ rfl s₁
  cases hresponse : (s₁.receive n r).1 with
  | answer o =>
    obtain ⟨γ₁, hdoes, ho⟩ := hanswer s₁ o hresponse
    exact ⟨γ₁, hdoes, fun s₂ => ⟨γ₁, hfinish γ₁ o ho s₂, ho⟩⟩
  | never =>
    refine ⟨γ', h.does (h.never hresponse), fun s₂ => ⟨γ', h.does (h.stalled s₂), ?_⟩⟩
    exact ⟨hparts, fun s₃ hnever => by cases hnever⟩

theorem share {r : Request} (hparts : P.Parts guards γ)
    (hsend : ∀ s, P.does γ s γ (s.send n r).2)
    (hanswer : ∀ s o, (s.receive n r).1 = .answer o → ∃ γ', P.does γ s γ' (s.receive n r).2 ∧ Q γ' o)
    (hfinish : ∀ γ' o, Q γ' o → ∀ s : Store β, P.does γ' s γ' (s.finish n)) :
    (Connection.share n r).Tracks P guards γ Q :=
  h.inTurn hparts fun ticket =>
    h.exchange (h.parts_cons (h.returnTicket n ticket) hparts) hsend hanswer hfinish

/-- A script tells only whether it has succeeded. -/
theorem shareScript {text : String} (hparts : P.Parts guards γ)
    (hsend : ∀ s, P.does γ s γ (s.send n (.script text)).2)
    (hanswer : ∀ s o, (s.receive n (.script text)).1 = .answer o →
      ∃ γ', P.does γ s γ' (s.receive n (.script text)).2 ∧ Q γ' o)
    (hfinish : ∀ γ' o, Q γ' o → ∀ s : Store β, P.does γ' s γ' (s.finish n)) :
    (Connection.shareScript n text).Tracks P guards γ fun γ' u => ∃ o, Q γ' o ∧ u = o.map fun _ => () :=
  (h.share hparts hsend hanswer hfinish).bind fun _ o ho => ⟨o, ho, rfl⟩

theorem markBroken {γ' : Γ} (hparts : P.Parts guards γ)
    (hbroken : ∀ s : Store β, P.does γ s γ' (s.markBroken n)) :
    (Connection.markBroken n).Tracks P guards γ fun γ'' _ => γ'' = γ' :=
  h.inTurn hparts fun _ s => ⟨γ', hbroken s, rfl⟩

end Tracking.Overlooks

end Coroutine

end SqlClient
