import SqlClient.Proofs.Coroutine.Alone
import SqlClient.Proofs.Coroutine.Interleaving
import SqlClient.Proofs.Coroutine.Protocol
/-!
# Coroutines — tracking

Code that may be given up owes something at every point where it waits, and what becomes of that is
decided by all the guards around the point together: an inner one may start a task that takes over what
an outer one lets go of. `Tracks` follows code with the stack of its guards, and asks at every point
where it waits that giving it up there, with all its guards, is in order. The code is followed move by
move (`Tracks.moves`), and a turn is moves in a row that end where the code waits (`Tracks.poll`).
-/

namespace SqlClient

namespace Coroutine

variable {σ Γ : Type}

/-! ## Guards -/

/-- What happens if a body is given up. -/
structure Guard (σ : Type) where
  cleanup : σ → σ
  rescue : Option (Coroutine σ Unit)

/-- What guards make of a state; the first one is the innermost and acts first. -/
def unwind (guards : List (Guard σ)) (s : σ) : σ := guards.foldl (fun s g => g.cleanup s) s

/-- The tasks that guards start. -/
def bequest (guards : List (Guard σ)) : List (Coroutine σ Unit) :=
  guards.flatMap fun g => g.rescue.toList

theorem unwind_append (inner outer : List (Guard σ)) (s : σ) :
    unwind (inner ++ outer) s = unwind outer (unwind inner s) :=
  List.foldl_append

theorem bequest_append (inner outer : List (Guard σ)) :
    bequest (inner ++ outer) = bequest inner ++ bequest outer :=
  List.flatMap_append

/-! ## Code and its guards -/

/-- Rules for code that may be given up. -/
structure Tracking (σ Γ : Type) where
  /-- What may be done in one move. -/
  does : Acts σ Γ
  /-- What giving up may make of a state, and the tasks that it may start. -/
  quits : Γ → σ → σ → List (Coroutine σ Unit) → Prop

/-- In a stage, code may be given up with these guards around it. -/
def Tracking.Parts (P : Tracking σ Γ) (guards : List (Guard σ)) (γ : Γ) : Prop :=
  ∀ s, P.quits γ s (unwind guards s) (bequest guards)

/-- `c.Tracks P guards γ Q`: with these guards around it, the coroutine does from the stage `γ` on what
the rules let it do, and may be given up wherever it waits. If it finishes, its stage and its result
satisfy `Q`. -/
def Tracks (P : Tracking σ Γ) :
    {α : Type} → Coroutine σ α → List (Guard σ) → Γ → (Γ → α → Prop) → Prop
  | _, .done a, _, γ, Q => Q γ a
  | _, .step f k, guards, γ, Q =>
    ∀ s, ∃ γ', P.does γ s γ' (f s).2 ∧ (k (f s).1).Tracks P guards γ' Q
  | _, .await ready k, guards, γ, Q =>
    P.Parts guards γ ∧ ∀ s, ready s = true → k.Tracks P guards γ Q
  | _, .pause _ k, guards, γ, Q => P.Parts guards γ ∧ k.Tracks P guards γ Q
  | _, .guarded cleanup rescue body k, guards, γ, Q =>
    ∃ Q' : Γ → _ → Prop, body.Tracks P (⟨cleanup, rescue⟩ :: guards) γ Q' ∧
      ∀ γ' a, Q' γ' a → (k a).Tracks P guards γ' Q
  | _, _, _, _, _ => False
termination_by structural _ c => c

variable {P : Tracking σ Γ}

theorem Tracks.bind : ∀ {α β : Type} {c : Coroutine σ α} {f : α → Coroutine σ β}
    {guards : List (Guard σ)} {γ : Γ} {Q : Γ → α → Prop} {Q' : Γ → β → Prop},
    c.Tracks P guards γ Q → (∀ γ' a, Q γ' a → (f a).Tracks P guards γ' Q') →
    (c.bind f).Tracks P guards γ Q'
  | _, _, .done a, _, _, _, _, _, h, hf => hf _ a h
  | _, _, .step _ _, _, _, _, _, _, h, hf => fun s =>
    let ⟨γ', hdoes, hk⟩ := h s
    ⟨γ', hdoes, hk.bind hf⟩
  | _, _, .await _ _, _, _, _, _, _, h, hf => ⟨h.1, fun s hs => (h.2 s hs).bind hf⟩
  | _, _, .pause _ k, _, _, _, _, _, h, hf => ⟨h.1, bind (c := k) h.2 hf⟩
  | _, _, .guarded _ _ _ _, _, _, _, _, _, h, hf =>
    let ⟨Q₁, hbody, hk⟩ := h
    ⟨Q₁, hbody, fun γ' a ha => (hk γ' a ha).bind hf⟩

/-- Code may come to more than is asked. -/
theorem Tracks.mono : ∀ {α : Type} {c : Coroutine σ α} {guards : List (Guard σ)} {γ : Γ}
    {Q Q' : Γ → α → Prop}, c.Tracks P guards γ Q → (∀ γ' a, Q γ' a → Q' γ' a) →
    c.Tracks P guards γ Q'
  | _, .done _, _, _, _, _, h, hQ => hQ _ _ h
  | _, .step _ _, _, _, _, _, h, hQ => fun s =>
    let ⟨γ', hdoes, hk⟩ := h s
    ⟨γ', hdoes, hk.mono hQ⟩
  | _, .await _ _, _, _, _, _, h, hQ => ⟨h.1, fun s hs => (h.2 s hs).mono hQ⟩
  | _, .pause _ k, _, _, _, _, h, hQ => ⟨h.1, mono (c := k) h.2 hQ⟩
  | _, .guarded _ _ _ _, _, _, _, _, h, hQ =>
    let ⟨Q₁, hbody, hk⟩ := h
    ⟨Q₁, hbody, fun γ' a ha => (hk γ' a ha).mono hQ⟩

theorem tracks_giveWay {guards : List (Guard σ)} {γ : Γ} (hparts : P.Parts guards γ) (turns : Nat) :
    (giveWay turns).Tracks P guards γ fun γ' _ => γ' = γ := by
  induction turns with
  | zero => rfl
  | succ turns ih => exact ⟨hparts, ih⟩

/-! ## Moves -/

variable {α : Type} {c c' : Coroutine σ α} {guards : List (Guard σ)} {γ : Γ} {Q : Γ → α → Prop}
  {s s' : σ} {ts : List (Coroutine σ Unit)}

/-- **A move of code that is followed** starts no task. It does what the rules let it do, or leaves the
state as it is. -/
theorem Tracks.moves (h : c.Tracks P guards γ Q) (hm : Moves c s c' s' ts) :
    ts = [] ∧ ∃ γ', (P.does γ s γ' s' ∨ γ' = γ ∧ s' = s) ∧ c'.Tracks P guards γ' Q := by
  induction hm generalizing guards γ with
  | @step _ _ f k s =>
    obtain ⟨γ', hdoes, hk⟩ := h s
    exact ⟨rfl, γ', .inl hdoes, hk⟩
  | await hready => exact ⟨rfl, γ, .inr ⟨rfl, rfl⟩, h.2 _ hready⟩
  | resume => exact ⟨rfl, γ, .inr ⟨rfl, rfl⟩, h.2⟩
  | pause => exact ⟨rfl, γ, .inr ⟨rfl, rfl⟩, h⟩
  | inside _ ih =>
    obtain ⟨Q₁, hbody, hk⟩ := h
    obtain ⟨hts, γ', hdoes, hbody'⟩ := ih hbody
    exact ⟨hts, γ', hdoes, Q₁, hbody', hk⟩
  | leave =>
    obtain ⟨Q₁, hdone, hk⟩ := h
    exact ⟨rfl, γ, .inr ⟨rfl, rfl⟩, hk γ _ hdone⟩
  | settle | left | right | joined | member | gathered | racing | won | lost | spawn => exact h.elim

/-- Code that is followed runs nobody side by side, so there is no order to change. -/
theorem Tracks.eq_of_reordered (h : c.Tracks P guards γ Q) (hr : Reordered c c') : c' = c := by
  induction hr generalizing guards γ with
  | refl => rfl
  | inside _ ih =>
    obtain ⟨Q₁, hbody, -⟩ := h
    rw [ih hbody]
  | order | member | left | right | racing => exact h.elim

/-- **A step of code that is followed.** -/
theorem Tracks.shifts (h : c.Tracks P guards γ Q) (hs : Shifts c s c' s' ts) :
    ts = [] ∧ ∃ γ', (P.does γ s γ' s' ∨ γ' = γ ∧ s' = s) ∧ c'.Tracks P guards γ' Q := by
  rcases hs with hm | ⟨hr, rfl, rfl⟩
  · exact h.moves hm
  · rw [h.eq_of_reordered hr]
    exact ⟨rfl, γ, .inr ⟨rfl, rfl⟩, h⟩

/-- Moves in a row that start no task. -/
def Walks (c : Coroutine σ α) (s : σ) (c' : Coroutine σ α) (s' : σ) : Prop :=
  Relation.ReflTransGen (fun x y : Coroutine σ α × σ => Moves x.1 x.2 y.1 y.2 []) (c, s) (c', s')

theorem Walks.refl : Walks c s c s := Relation.ReflTransGen.refl

theorem Walks.head {c₁ : Coroutine σ α} {s₁ : σ} (hm : Moves c s c₁ s₁ [])
    (h : Walks c₁ s₁ c' s') : Walks c s c' s' :=
  Relation.ReflTransGen.head (b := (c₁, s₁)) hm h

theorem Walks.inside {β : Type} {cleanup : σ → σ} {rescue : Option (Coroutine σ Unit)}
    {k : α → Coroutine σ β} (h : Walks c s c' s') :
    Walks (.guarded cleanup rescue c k) s (.guarded cleanup rescue c' k) s' := by
  have hlift := Relation.ReflTransGen.lift
    (p := fun x y : Coroutine σ β × σ => Moves x.1 x.2 y.1 y.2 [])
    (fun x : Coroutine σ α × σ => (Coroutine.guarded cleanup rescue x.1 k, x.2))
    (fun _ _ hm => Moves.inside hm)
  exact hlift _ _ h

theorem Walks.trans {c₁ : Coroutine σ α} {s₁ : σ} (h : Walks c s c₁ s₁) (h' : Walks c₁ s₁ c' s') :
    Walks c s c' s' :=
  Relation.ReflTransGen.trans h h'

/-- **A coroutine that finishes alone** gets there by moves in a row. -/
theorem CompletesIn.walks {n : Nat} {a : α} (h : CompletesIn n c s a s') : Walks c s (.done a) s' := by
  induction h with
  | done => exact .refl
  | step _ ih => exact .head .step ih
  | await hready _ ih => exact .head (.await hready) ih
  | pause _ ih => exact .head .pause (.head .resume ih)
  | resume _ ih => exact .head .resume ih
  | guarded _ _ ihbody ih => exact ihbody.inside.trans (.head .leave ih)

/-- A caller may take moves in a row while nobody else does. -/
theorem Walks.credits {ι β : Type} {c c' : Coroutine σ β} {items : σ → List ι} {others : σ → σ → Prop}
    {p : Ensemble σ β} {credits : List (Nat × ι)} {l r : List (Coroutine σ β)} (hw : Walks c s c' s')
    (h : Ensemble.Credits items others p credits ⟨s, l ++ c :: r, []⟩) :
    ∃ credits', Ensemble.Credits items others p credits' ⟨s', l ++ c' :: r, []⟩ := by
  suffices hall : ∀ x : Coroutine σ β × σ,
      Relation.ReflTransGen (fun x y : Coroutine σ β × σ => Moves x.1 x.2 y.1 y.2 []) (c, s) x →
      ∃ credits', Ensemble.Credits items others p credits' ⟨x.2, l ++ x.1 :: r, []⟩ from hall (c', s') hw
  intro x hx
  induction hx with
  | refl => exact ⟨credits, h⟩
  | tail _ hm ih =>
    obtain ⟨_, hcredits⟩ := ih
    exact ⟨_, hcredits.caller (.inl hm)⟩

/-- **A turn of code that is followed** is moves in a row. It starts no task, and ends where the code
waits or has finished. -/
theorem Tracks.poll : ∀ {α : Type} {c : Coroutine σ α} {guards : List (Guard σ)} {γ : Γ}
    {Q : Γ → α → Prop} (w : Turn σ), c.Tracks P guards γ Q →
    Walks c w.state (c.poll w).1 (c.poll w).2.state ∧ (c.poll w).2.spawned = w.spawned ∧
      ((∃ a, (c.poll w).1 = .done a) ∨ (c.poll w).1.Waits) ∧
      ∃ γ', (c.poll w).1.Tracks P guards γ' Q
  | _, .done a, _, γ, _, _, h => ⟨.refl, rfl, .inl ⟨a, rfl⟩, γ, h⟩
  | _, .step f k, guards, γ, Q, w, h => by
    obtain ⟨γ₁, -, hk⟩ := h w.state
    obtain ⟨hwalks, hrest⟩ := hk.poll { w with state := (f w.state).2 }
    exact ⟨.head .step hwalks, hrest⟩
  | _, .await ready k, guards, γ, Q, w, h => by
    rw [Coroutine.poll]
    split
    case isTrue hready =>
      obtain ⟨hwalks, hrest⟩ := (h.2 w.state hready).poll w
      exact ⟨.head (.await hready) hwalks, hrest⟩
    case isFalse => exact ⟨.refl, rfl, .inr trivial, γ, h⟩
  | _, .pause true k, guards, γ, Q, w, h => by
    obtain ⟨hwalks, hrest⟩ := Tracks.poll (c := k) w h.2
    exact ⟨.head .resume hwalks, hrest⟩
  | _, .pause false k, guards, γ, Q, w, h => ⟨.head .pause .refl, rfl, .inr trivial, γ, h⟩
  | _, .guarded cleanup rescue body k, guards, γ, Q, w, h => by
    obtain ⟨Q₁, hbody, hk⟩ := h
    obtain ⟨hwalks, hspawned, hends, γ₁, hbody'⟩ := hbody.poll w
    rw [Coroutine.poll]
    generalize body.poll w = polled at *
    obtain ⟨body', w'⟩ := polled
    have hinside : Walks (.guarded cleanup rescue body k) w.state (.guarded cleanup rescue body' k) w'.state :=
      hwalks.inside
    -- if the body has finished, the turn goes on with what comes after it
    rcases hends with ⟨a, rfl⟩ | hwaits
    · obtain ⟨hlater, hspawned', hrest⟩ := (hk γ₁ a hbody').poll w'
      exact ⟨hinside.trans (.head .leave hlater), hspawned'.trans hspawned, hrest⟩
    · have htracks : (Coroutine.guarded cleanup rescue body' k).Tracks P guards γ₁ Q := ⟨Q₁, hbody', hk⟩
      cases body' with
      | done a => exact hwaits.elim
      | _ => exact ⟨hinside, hspawned, .inr hwaits, γ₁, htracks⟩

/-! ## Giving up -/

/-- **Giving up code that is followed**, where it waits, is what its guards make of the state, those
around it included. -/
theorem Tracks.drop_append : ∀ {α : Type} {c : Coroutine σ α} {guards : List (Guard σ)} {γ : Γ}
    {Q : Γ → α → Prop} (w : Turn σ), c.Tracks P guards γ Q → c.Waits →
    ∃ inner, (c.drop w).state = unwind inner w.state ∧
      (c.drop w).spawned = w.spawned ++ bequest inner ∧ P.Parts (inner ++ guards) γ
  | _, .await _ _, _, _, _, w, h, _ => ⟨[], rfl, (List.append_nil _).symm, h.1⟩
  | _, .pause _ _, _, _, _, w, h, _ => ⟨[], rfl, (List.append_nil _).symm, h.1⟩
  | _, .guarded cleanup rescue body k, guards, γ, Q, w, h, hwaits => by
    obtain ⟨Q₁, hbody, -⟩ := h
    obtain ⟨inner, hstate, hspawned, hparts⟩ := hbody.drop_append w hwaits
    refine ⟨inner ++ [⟨cleanup, rescue⟩], ?_, ?_, ?_⟩
    · rw [Coroutine.drop, hstate, unwind_append]
      rfl
    · rw [Coroutine.drop, hspawned, bequest_append, List.append_assoc]
      simp [bequest]
    · rwa [List.append_assoc, List.singleton_append]

/-- Code with no more guards around it. -/
theorem Tracks.drop (h : c.Tracks P [] γ Q) (hwaits : c.Waits) (busy : Bool) :
    P.quits γ s (c.drop (Turn.start s busy)).state (c.drop (Turn.start s busy)).spawned := by
  obtain ⟨inner, hstate, hspawned, hparts⟩ := h.drop_append (Turn.start s busy) hwaits
  rw [List.append_nil] at hparts
  rw [hstate, hspawned]
  exact hparts s

end Coroutine

end SqlClient
