import SqlClient.Compiler
/-!
# Compiler — chunks

What joining writes is text with placeholders in between. Chunks keep the two apart: an ordinal is
a number in a chunk rather than digits in a text, so the placeholders of a statement can be listed
and shifted. Pieces depend on what stands before them only through the number of its values
(`chunks_append`, `chunks_add`), and joining writes exactly the chunks of its pieces (`assemble_eq`).
-/

namespace SqlClient

/-- Something written at once: a text, or the placeholder of an ordinal. -/
inductive Chunk
  | text (sql : String)
  | placeholder (ordinal : Nat)
deriving DecidableEq

namespace Chunk

/-- A chunk in a style of placeholders. -/
def write (style : PlaceholderStyle) : Chunk → String
  | .text sql => sql
  | .placeholder ordinal => style.write ordinal

/-- Chunks, written one after another. -/
def written (style : PlaceholderStyle) : List Chunk → String
  | [] => ""
  | chunk :: rest => chunk.write style ++ written style rest

/-- The ordinal of a placeholder. -/
def ordinal? : Chunk → Option Nat
  | .text _ => none
  | .placeholder ordinal => some ordinal

/-- The ordinals of the placeholders among chunks, in order. -/
def ordinals (chunks : List Chunk) : List Nat := chunks.filterMap ordinal?

/-- A chunk with `n` added to its ordinal. -/
def shift (n : Nat) : Chunk → Chunk
  | .text sql => .text sql
  | .placeholder ordinal => .placeholder (n + ordinal)

variable {style : PlaceholderStyle}

theorem written_append (xs ys : List Chunk) :
    written style (xs ++ ys) = written style xs ++ written style ys := by
  induction xs with
  | nil => rw [List.nil_append, written, String.empty_append]
  | cons x xs ih => rw [List.cons_append, written, written, ih, String.append_assoc]

end Chunk

namespace Piece

/-! ## The chunks of pieces -/

/-- The chunks of pieces that `k` values stand before. -/
def chunks : Nat → List Piece → List Chunk
  | _, [] => []
  | k, .text sql :: rest => .text sql :: chunks k rest
  | k, .bound _ :: rest => .placeholder (k + 1) :: chunks (k + 1) rest
  | k, .spliced sql vs :: rest => .text sql :: chunks (k + vs.length) rest

@[simp] theorem params_append (xs ys : List Piece) :
    params (xs ++ ys) = params xs ++ params ys := by
  fun_induction params xs with
  | case1 => rfl
  | case2 _ _ ih => rw [List.cons_append, params, ih]
  | case3 _ _ ih => rw [List.cons_append, params, ih, List.cons_append]
  | case4 _ _ _ ih => rw [List.cons_append, params, ih, List.append_assoc]

/-- The chunks of later pieces know the earlier ones by the number of their values alone. -/
theorem chunks_append (k : Nat) (xs ys : List Piece) :
    chunks k (xs ++ ys) = chunks k xs ++ chunks (k + (params xs).length) ys := by
  fun_induction chunks k xs with
  | case1 => rfl
  | case2 k _ xs ih => rw [List.cons_append, chunks, ih, params, List.cons_append]
  | case3 k _ xs ih =>
    have hk : k + 1 + (params xs).length = k + (params xs).length.succ := by omega
    rw [List.cons_append, chunks, ih, params, List.length_cons, hk, List.cons_append]
  | case4 k _ vs xs ih =>
    rw [List.cons_append, chunks, ih, params, List.length_append, Nat.add_assoc, List.cons_append]

/-- Values further ahead shift every ordinal and change nothing else. -/
theorem chunks_add (n k : Nat) (xs : List Piece) :
    chunks (n + k) xs = (chunks k xs).map (Chunk.shift n) := by
  fun_induction chunks k xs with
  | case1 => rfl
  | case2 k _ xs ih => rw [chunks, ih, List.map_cons, Chunk.shift]
  | case3 k _ xs ih => rw [chunks, Nat.add_assoc, ih, List.map_cons, Chunk.shift]
  | case4 k _ vs xs ih => rw [chunks, Nat.add_assoc, ih, List.map_cons, Chunk.shift]

/-! ## Separators -/

/-- One of the separated parts, with everything before it and everything after it. -/
theorem separated_split (separator : String) (before : List (List Piece)) (part : List Piece)
    (after : List (List Piece)) :
    separated separator (before ++ part :: after) =
      before.flatMap (· ++ [.text separator]) ++ part ++ after.flatMap (.text separator :: ·) := by
  have hafter : ∀ part : List Piece, separated separator (part :: after) =
      part ++ after.flatMap (.text separator :: ·) := by
    induction after with
    | nil => simp [separated]
    | cons next after ih =>
      intro part
      rw [separated, ih, List.flatMap_cons, List.cons_append]
      exact List.cons_ne_nil _ _
  induction before with
  | nil => simpa using hafter part
  | cons first before ih =>
    rw [List.cons_append, separated, ih, List.flatMap_cons]
    · simp only [List.append_assoc, List.cons_append, List.nil_append]
    · simp

end Piece

namespace Compiler

/-! ## Joining -/

/-- Joining onto what is written adds the chunks that belong there and the values. -/
theorem foldl_addPiece (style : PlaceholderStyle) (parts : List Piece) (sql : String)
    (vs : Array Value) :
    parts.foldl (addPiece style) (sql, vs) =
      (sql ++ Chunk.written style (Piece.chunks vs.size parts), vs ++ (Piece.params parts).toArray) := by
  induction parts generalizing sql vs with
  | nil => simp [Piece.chunks, Piece.params, Chunk.written]
  | cons part parts ih =>
    cases part <;>
      simp [addPiece, ih, Piece.chunks, Piece.params, Chunk.written, Chunk.write,
        String.append_assoc]

/-- **Joining writes the chunks of its pieces**, and gathers their values. -/
theorem assemble_eq (style : PlaceholderStyle) (parts : List Piece) :
    assemble style parts = ⟨Chunk.written style (Piece.chunks 0 parts), Piece.params parts⟩ := by
  rw [assemble, foldl_addPiece]
  simp

/-- The chunks of a fragment's statement. -/
def chunks (c : Compiler) (f : Fragment) : Outcome (List Chunk) :=
  match c.pieces f with
  | .error e => .error e
  | .ok parts => .ok (Piece.chunks 0 parts)

/-- A statement is its pieces, joined. -/
theorem compile_eq_ok_iff {c : Compiler} {f : Fragment} {stmt : Compiled} :
    c.compile f = .ok stmt ↔ ∃ parts, c.pieces f = .ok parts ∧
      stmt = ⟨Chunk.written c.placeholder (Piece.chunks 0 parts), Piece.params parts⟩ := by
  rw [compile]
  cases c.pieces f with
  | error e => simp
  | ok parts => simp [assemble_eq, eq_comm]

end Compiler

end SqlClient
