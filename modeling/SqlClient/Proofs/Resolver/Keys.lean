import SqlClient.Proofs.Json.Texts
import SqlClient.Proofs.Resolver.Books
/-!
# Resolvers — what a cache key stands for

A request is cached under its tag, its root transaction and the compact text of its input. Since the
text of a finite document tells which document it is, no two inputs meet under one key, and a caller
who finds an answer in the cache finds the answer to a request that is encoded as its own
(`key_tells_request`).
-/

namespace SqlClient

namespace Resolver

variable {β : Type} {r r' : Resolver β} {c c' : Client} {j k : Json}

/-- Only what can be written as a document has a key. -/
theorem key_eq_ok_iff {input : Input} {key : CacheKey} :
    r.key c input = .ok key ↔ ∃ j, input = .ok j ∧ key = ⟨r.tag, c.transaction?, j.write⟩ := by
  cases input with
  | error why =>
    constructor
    · rintro ⟨⟩
    · rintro ⟨j, ⟨⟩, -⟩
  | ok j =>
    constructor
    · rintro ⟨⟩
      exact ⟨j, rfl, rfl⟩
    · rintro ⟨_, ⟨⟩, rfl⟩
      rfl

/-- Keys are the same if all three of their parts are. -/
theorem key_eq_iff (hj : j.Finite) (hk : k.Finite) :
    r.key c (.ok j) = r'.key c' (.ok k) ↔
      r.tag = r'.tag ∧ c.transaction? = c'.transaction? ∧ j = k := by
  constructor
  · intro h
    have hkeys : r'.key c' (.ok k) = .ok ⟨r.tag, c.transaction?, j.write⟩ :=
      h.symm.trans (key_eq_ok_iff.2 ⟨j, rfl, rfl⟩)
    obtain ⟨_, ⟨⟩, hparts⟩ := key_eq_ok_iff.1 hkeys
    obtain ⟨htag, htransaction, htext⟩ := CacheKey.mk.inj hparts
    exact ⟨htag, htransaction, Json.eq_of_write_eq hj hk htext⟩
  · rintro ⟨htag, htransaction, rfl⟩
    rw [key, key, htag, htransaction]

/-- **A key tells the request.** Documents of one compact text are one document. So inputs that are
cached under one key, by whichever resolvers and through whichever clients, are the same document,
and every shape encodes them as the same request. -/
theorem key_tells_request :
    (∀ j k : Json, j.Finite → k.Finite → j.write = k.write → j = k) ∧
    ∀ {β : Type} (r r' : Resolver β) (c c' : Client) (x y : Input) (key : CacheKey),
      (∀ j, x = .ok j → j.Finite) → (∀ j, y = .ok j → j.Finite) →
      r.key c x = .ok key → r'.key c' y = .ok key →
        r.tag = r'.tag ∧ c.transaction? = c'.transaction? ∧
        (∃ j, x = .ok j ∧ y = .ok j) ∧
        ∀ request : Shape, Schema.encode request x = Schema.encode request y := by
  refine ⟨fun j k hj hk => Json.eq_of_write_eq hj hk, fun r r' c c' x y key hx hy h h' => ?_⟩
  obtain ⟨j, rfl, -⟩ := key_eq_ok_iff.1 h
  obtain ⟨k, rfl, -⟩ := key_eq_ok_iff.1 h'
  obtain ⟨htag, htransaction, rfl⟩ := (key_eq_iff (hx j rfl) (hy k rfl)).1 (h.trans h'.symm)
  exact ⟨htag, htransaction, ⟨j, rfl, rfl⟩, fun _ => rfl⟩

/-- A text that looks like two inside its array. -/
def quotedInput : Input := .ok (.array [.string "a\",\"b"])

/-- The two texts that it looks like. -/
def splitInput : Input := .ok (.array [.string "a", .string "b"])

/-- The one text has a key that belongs to itself, and not to the two. -/
theorem key_tells_quotedInput :
    ∃ key, echo.key plainClient quotedInput = .ok key ∧ key.input = "[\"a\\\",\\\"b\"]" ∧
      (∃ j, quotedInput = .ok j ∧ quotedInput = .ok j) ∧
      echo.key plainClient splitInput ≠ .ok key := by
  have hquoted : ∀ j, quotedInput = .ok j → j.Finite := by
    rintro j ⟨⟩
    exact ⟨trivial, trivial⟩
  have hsplit : ∀ j, splitInput = .ok j → j.Finite := by
    rintro j ⟨⟩
    exact ⟨trivial, trivial, trivial⟩
  refine ⟨_, rfl, rfl, ?_, fun h => ?_⟩
  · exact (key_tells_request.2 echo echo plainClient plainClient quotedInput quotedInput _
      hquoted hquoted rfl rfl).2.2.1
  · obtain ⟨-, -, ⟨j, hj, hj'⟩, -⟩ :=
      key_tells_request.2 echo echo plainClient plainClient quotedInput splitInput _
        hquoted hsplit rfl h
    exact absurd (Except.ok.inj (hj.trans hj'.symm)) (by decide)

end Resolver

end SqlClient
