import Mathlib.Logic.Relation
import SqlClient.Coroutine.Basic
/-!
# Coroutines — protocols

A coroutine that is polled on its own, among others that are polled in between, keeps to a `Protocol`:
it is in a stage, each of its changes of the state takes it from a stage to another, and it waits and is
given up in some stages only. `Plays` reads this off the code. A poll of code that plays is a row of
what the protocol lets it do, and ends in a stage in which it may wait (`Plays.poll`); so does giving
the code up (`Plays.drop`).
-/

namespace SqlClient

namespace Coroutine

/-- Changes of the state by someone who is in one stage before and in another after. -/
abbrev Acts (σ Γ : Type) := Γ → σ → Γ → σ → Prop

namespace Acts

variable {σ Γ : Type} {acts : Acts σ Γ} {γ γ₁ γ' : Γ} {s s₁ s' : σ}

/-- Several acts without interruption. -/
def Row (acts : Acts σ Γ) (γ : Γ) (s : σ) (γ' : Γ) (s' : σ) : Prop :=
  Relation.ReflTransGen (fun x y : Γ × σ => acts x.1 x.2 y.1 y.2) (γ, s) (γ', s')

theorem Row.refl : Row acts γ s γ s := Relation.ReflTransGen.refl

theorem Row.single (h : acts γ s γ' s') : Row acts γ s γ' s' := Relation.ReflTransGen.single h

theorem Row.trans (h : Row acts γ s γ₁ s₁) (h' : Row acts γ₁ s₁ γ' s') : Row acts γ s γ' s' :=
  Relation.ReflTransGen.trans h h'

theorem Row.tail (h : Row acts γ s γ₁ s₁) (h' : acts γ₁ s₁ γ' s') : Row acts γ s γ' s' :=
  Relation.ReflTransGen.tail h h'

/-- What every act keeps, a row of them keeps. -/
theorem Row.keeps {I : Γ → σ → Prop} (h : Row acts γ s γ' s') (hγ : I γ s)
    (hacts : ∀ γ s γ' s', acts γ s γ' s' → I γ s → I γ' s') : I γ' s' := by
  suffices hall : ∀ x : Γ × σ, Relation.ReflTransGen (fun x y : Γ × σ => acts x.1 x.2 y.1 y.2) (γ, s) x →
      I x.1 x.2 from hall (γ', s') h
  intro x hx
  induction hx with
  | refl => exact hγ
  | tail _ hact ih => exact hacts _ _ _ _ hact ih

end Acts

/-- Rules for someone who is polled among others. -/
structure Protocol (σ Γ : Type) where
  /-- What may be done in a poll. -/
  does : Acts σ Γ
  /-- What may be done when the code is given up. -/
  yields : Acts σ Γ
  /-- The stages in which others may be polled. -/
  rests : Γ → Prop
  /-- The tasks that may be left behind by someone in a stage. -/
  leaves : Γ → Coroutine σ Unit → Prop

variable {σ Γ : Type}

/-- `c.Plays P γ Q D`: from the stage `γ` on the coroutine does what the protocol lets it do. If it
finishes, its stage and its result satisfy `Q`; if it is given up where it waits, it is in a stage that
satisfies `D` when its guards have acted. Code that runs others side by side does not play. -/
def Plays (P : Protocol σ Γ) : {α : Type} → Coroutine σ α → Γ → (Γ → α → Prop) → (Γ → Prop) → Prop
  | _, .done a, γ, Q, _ => Q γ a
  | _, .step f k, γ, Q, D => ∀ s, ∃ γ', P.does.Row γ s γ' (f s).2 ∧ (k (f s).1).Plays P γ' Q D
  | _, .await ready k, γ, Q, D =>
    P.rests γ ∧ D γ ∧ ∀ s, ready s = true → ∃ γ', P.does.Row γ s γ' s ∧ k.Plays P γ' Q D
  | _, .pause _ k, γ, Q, D => P.rests γ ∧ D γ ∧ k.Plays P γ Q D
  | _, .guarded cleanup rescue body k, γ, Q, D =>
    ∃ (Q' : Γ → _ → Prop) (D' : Γ → Prop), body.Plays P γ Q' D' ∧
      (∀ γ' a, Q' γ' a → (k a).Plays P γ' Q D) ∧
      ∀ γ', D' γ' → ∀ s, ∃ γ'', P.yields.Row γ' s γ'' (cleanup s) ∧ D γ'' ∧
        ∀ t ∈ rescue, P.leaves γ'' t
  | _, _, _, _, _ => False
termination_by structural _ c => c

/-- The coroutine waits. -/
def Waits : {α : Type} → Coroutine σ α → Prop
  | _, .await _ _ => True
  | _, .pause _ _ => True
  | _, .guarded _ _ body _ => body.Waits
  | _, _ => False
termination_by structural _ c => c

variable {P : Protocol σ Γ} {α β : Type} {γ : Γ} {Q : Γ → α → Prop} {D : Γ → Prop}

/-- Code that plays, followed by code that plays from every stage and result the first can have. -/
theorem Plays.bind : ∀ {α β : Type} {c : Coroutine σ α} {f : α → Coroutine σ β} {γ : Γ}
    {Q : Γ → α → Prop} {Q' : Γ → β → Prop} {D : Γ → Prop}, c.Plays P γ Q D →
    (∀ γ' a, Q γ' a → (f a).Plays P γ' Q' D) → (c.bind f).Plays P γ Q' D
  | _, _, .done a, _, _, _, _, _, h, hf => hf _ a h
  | _, _, .step _ _, _, _, _, _, _, h, hf => fun s =>
    let ⟨γ', hdoes, hk⟩ := h s
    ⟨γ', hdoes, hk.bind hf⟩
  | _, _, .await _ _, _, _, _, _, _, h, hf => ⟨h.1, h.2.1, fun s hs =>
    let ⟨γ', hdoes, hk⟩ := h.2.2 s hs
    ⟨γ', hdoes, hk.bind hf⟩⟩
  | _, _, .pause _ k, _, _, _, _, _, h, hf => ⟨h.1, h.2.1, bind (c := k) h.2.2 hf⟩
  | _, _, .guarded _ _ _ _, _, _, _, _, _, h, hf =>
    let ⟨Q₁, D₁, hbody, hk, hcleanup⟩ := h
    ⟨Q₁, D₁, hbody, fun γ' a ha => (hk γ' a ha).bind hf, hcleanup⟩

/-- Code may do better than asked. -/
theorem Plays.mono : ∀ {α : Type} {c : Coroutine σ α} {γ : Γ} {Q Q' : Γ → α → Prop}
    {D D' : Γ → Prop}, c.Plays P γ Q D → (∀ γ' a, Q γ' a → Q' γ' a) → (∀ γ', D γ' → D' γ') →
    c.Plays P γ Q' D'
  | _, .done _, _, _, _, _, _, h, hQ, _ => hQ _ _ h
  | _, .step _ _, _, _, _, _, _, h, hQ, hD => fun s =>
    let ⟨γ', hdoes, hk⟩ := h s
    ⟨γ', hdoes, hk.mono hQ hD⟩
  | _, .await _ _, _, _, _, _, _, h, hQ, hD => ⟨h.1, hD _ h.2.1, fun s hs =>
    let ⟨γ', hdoes, hk⟩ := h.2.2 s hs
    ⟨γ', hdoes, hk.mono hQ hD⟩⟩
  | _, .pause _ k, _, _, _, _, _, h, hQ, hD => ⟨h.1, hD _ h.2.1, mono (c := k) h.2.2 hQ hD⟩
  | _, .guarded _ _ _ _, _, _, _, _, _, h, hQ, hD =>
    let ⟨Q₁, D₁, hbody, hk, hcleanup⟩ := h
    ⟨Q₁, D₁, hbody, fun γ' a ha => (hk γ' a ha).mono hQ hD, fun γ' hγ s =>
      let ⟨γ'', hyields, h, hleaves⟩ := hcleanup γ' hγ s
      ⟨γ'', hyields, hD _ h, hleaves⟩⟩

/-- **A poll of code that plays** is a row of what the protocol lets it do. Then the code has finished,
or it waits in a stage in which it may. -/
theorem Plays.poll : ∀ {α : Type} {c : Coroutine σ α} {γ : Γ} {Q : Γ → α → Prop} {D : Γ → Prop}
    (w : Turn σ), c.Plays P γ Q D → ∃ γ', P.does.Row γ w.state γ' (c.poll w).2.state ∧
      (c.poll w).1.Plays P γ' Q D ∧ (c.poll w).2.spawned = w.spawned ∧
      ((∃ a, (c.poll w).1 = .done a) ∨ (c.poll w).1.Waits ∧ P.rests γ')
  | _, .done a, γ, _, _, w, h => ⟨γ, .refl, h, rfl, .inl ⟨a, rfl⟩⟩
  | _, .step f k, γ, Q, D, w, h => by
    obtain ⟨γ₁, hdoes, hk⟩ := h w.state
    obtain ⟨γ', hlater, h'⟩ := hk.poll { w with state := (f w.state).2 }
    exact ⟨γ', hdoes.trans hlater, h'⟩
  | _, .await ready k, γ, Q, D, w, h => by
    rw [Coroutine.poll]
    split
    case isTrue hready =>
      obtain ⟨γ₁, hdoes, hk⟩ := h.2.2 w.state hready
      obtain ⟨γ', hlater, h'⟩ := hk.poll w
      exact ⟨γ', hdoes.trans hlater, h'⟩
    case isFalse => exact ⟨γ, .refl, h, rfl, .inr ⟨trivial, h.1⟩⟩
  | _, .pause true k, γ, Q, D, w, h => Plays.poll (c := k) w h.2.2
  | _, .pause false k, γ, Q, D, w, h => ⟨γ, .refl, h, rfl, .inr ⟨trivial, h.1⟩⟩
  | _, .guarded cleanup rescue body k, γ, Q, D, w, h => by
    obtain ⟨Q₁, D₁, hbody, hk, hcleanup⟩ := h
    obtain ⟨γ₁, hdoes, hbody', hspawned, hrest⟩ := hbody.poll w
    rw [Coroutine.poll]
    generalize body.poll w = polled at *
    obtain ⟨body', w'⟩ := polled
    -- if the body has finished, the turn goes on with what comes after it
    rcases hrest with ⟨a, rfl⟩ | ⟨hwaits, hrests⟩
    · obtain ⟨γ', hlater, h', hspawned', hrest'⟩ := (hk γ₁ a hbody').poll w'
      exact ⟨γ', hdoes.trans hlater, h', hspawned'.trans hspawned, hrest'⟩
    · have hplays : (Coroutine.guarded cleanup rescue body' k).Plays P γ₁ Q D :=
        ⟨Q₁, D₁, hbody', hk, hcleanup⟩
      cases body' with
      | done a => exact hwaits.elim
      | _ => exact ⟨γ₁, hdoes, hplays, hspawned, .inr ⟨hwaits, hrests⟩⟩

/-- **Giving up code that plays**, where it waits. A task that is left behind was left in some stage on
the way. -/
theorem Plays.drop : ∀ {α : Type} {c : Coroutine σ α} {γ : Γ} {Q : Γ → α → Prop} {D : Γ → Prop}
    (w : Turn σ), c.Plays P γ Q D → c.Waits → ∃ γ', P.yields.Row γ w.state γ' (c.drop w).state ∧
      D γ' ∧ ∃ ts, (c.drop w).spawned = w.spawned ++ ts ∧ ∀ t ∈ ts, ∃ γ₁ s₁,
        P.yields.Row γ w.state γ₁ s₁ ∧ P.yields.Row γ₁ s₁ γ' (c.drop w).state ∧ P.leaves γ₁ t
  | _, .await _ _, γ, _, _, w, h, _ => ⟨γ, .refl, h.2.1, [], by simp [Coroutine.drop], by simp⟩
  | _, .pause _ _, γ, _, _, w, h, _ => ⟨γ, .refl, h.2.1, [], by simp [Coroutine.drop], by simp⟩
  | _, .guarded cleanup rescue body k, γ, Q, D, w, h, hwaits => by
    obtain ⟨Q₁, D₁, hbody, -, hcleanup⟩ := h
    obtain ⟨γ₁, hyields, hD₁, ts, hts, hleaves⟩ := hbody.drop w hwaits
    obtain ⟨γ', hlater, hD, hrescue⟩ := hcleanup γ₁ hD₁ (body.drop w).state
    refine ⟨γ', hyields.trans hlater, hD, ts ++ rescue.toList, ?_, fun t ht => ?_⟩
    · rw [Coroutine.drop, hts, List.append_assoc]
    · rcases List.mem_append.1 ht with ht | ht
      · obtain ⟨γ₂, s₂, hbefore, hafter, ht⟩ := hleaves t ht
        exact ⟨γ₂, s₂, hbefore, hafter.trans hlater, ht⟩
      · exact ⟨γ', _, hyields.trans hlater, .refl, hrescue t (by simpa using ht)⟩

end Coroutine

end SqlClient
