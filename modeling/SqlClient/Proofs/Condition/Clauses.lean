import Mathlib.Data.List.Forall2
import SqlClient.Proofs.Compiler.Alignment
import SqlClient.Proofs.Condition.Renumbering
/-!
# Conditions — trees of clauses

A tree of `Fragment.conjunction` and `Fragment.disjunction` over clauses is compiled to a text whose
shape differs from the tree at every level: blank clauses are gone, a clause that is alone has no
parentheses around it, and where nothing is left stands a constant. `Clause.formula` is what a
database reads there, and it means what the tree means (`reads_as_tree`).
-/

namespace SqlClient

namespace Connective

/-- Two truth values, connected. -/
def op : Connective → Bool → Bool → Bool
  | .all => and
  | .any => or

/-- What connecting nothing comes to. -/
def unit : Connective → Bool
  | .all => true
  | .any => false

/-- How that is written. -/
def constant : Connective → String
  | .all => "1=1"
  | .any => "1=0"

/-- Clauses as one fragment. -/
def join : Connective → List Fragment → Fragment
  | .all => Fragment.conjunction
  | .any => Fragment.disjunction

theorem join_eq (k : Connective) (fs : List Fragment) :
    k.join fs = Fragment.join k.separator true k.constant fs := by
  cases k <;> rfl

/-- A call always writes something. -/
theorem isEmpty_join (k : Connective) (fs : List Fragment) : (k.join fs).isEmpty = false := by
  rw [join_eq, Fragment.join]
  split
  · cases k <;> rfl
  · next f hfs =>
    have hf : f ∈ fs.filter (!·.isEmpty) := hfs ▸ List.mem_singleton_self f
    simpa using (List.mem_filter.1 hf).2
  · rw [Fragment.isEmpty, Bool.not_true, Bool.and_false]

end Connective

/-! ## Trees -/

/-- A tree of clauses over leaves. -/
inductive Clause (α : Type)
  | leaf (a : α)
  | call (k : Connective) (clauses : List (Clause α))

namespace Clause

variable {α : Type} (frag : α → Fragment)

mutual

/-- The fragment that the calls build from those of the leaves. -/
def toFragment : Clause α → Fragment
  | .leaf a => frag a
  | .call k clauses => k.join (toFragments clauses)

/-- The fragments of some clauses. -/
def toFragments : List (Clause α) → List Fragment
  | [] => []
  | t :: rest => toFragment t :: toFragments rest

end

/-- Whether a clause is a leaf with nothing in it. -/
def isBlank : Clause α → Bool
  | .leaf a => (frag a).isEmpty
  | .call _ _ => false

mutual

/-- The truth of a tree, given that of its leaves. -/
def holds (v : α → Bool) : Clause α → Bool
  | .leaf a => v a
  | .call k clauses => holdsEach v k clauses

/-- The truth of connected clauses. Blank ones are left out. -/
def holdsEach (v : α → Bool) (k : Connective) : List (Clause α) → Bool
  | [] => k.unit
  | t :: rest =>
    if isBlank frag t then holdsEach v k rest else k.op (holds v t) (holdsEach v k rest)

end

mutual

/-- The leaves that are not blank, from left to right. -/
def operands : Clause α → List α
  | .leaf a => if (frag a).isEmpty then [] else [a]
  | .call _ clauses => allOperands clauses

/-- The leaves of some clauses that are not blank. -/
def allOperands : List (Clause α) → List α
  | [] => []
  | t :: rest => operands t ++ allOperands rest

end

theorem isEmpty_toFragment (t : Clause α) : (t.toFragment frag).isEmpty = t.isBlank frag := by
  cases t with
  | leaf a => rw [toFragment, isBlank]
  | call k clauses => rw [toFragment, k.isEmpty_join, isBlank]

theorem operands_of_isBlank {t : Clause α} (ht : t.isBlank frag = true) :
    t.operands frag = [] := by
  cases t with
  | leaf a => exact if_pos ht
  | call k clauses => cases ht

end Clause

/-! ## Leaves in their places -/

namespace Compiler

variable (c : Compiler)

/-- The pieces of a fragment, if it compiles. -/
def parts (f : Fragment) : List Piece :=
  match c.pieces f with
  | .ok parts => parts
  | .error _ => []

/-- The text of a fragment behind `n` values. -/
def textBehind (n : Nat) (f : Fragment) : String :=
  Chunk.written c.placeholder (Piece.chunks n (c.parts f))

/-- The values of a fragment. -/
def valuesOf (f : Fragment) : List Value := Piece.params (c.parts f)

/-- The statement of a fragment is an operand. -/
def WritesOperand (f : Fragment) : Prop :=
  ∃ stmt, c.compile f = .ok stmt ∧ Condition.IsOperand stmt.sql

end Compiler

theorem Compiler.WritesOperand.pieces {c : Compiler} {f : Fragment} (h : c.WritesOperand f) :
    c.pieces f = .ok (c.parts f) := by
  obtain ⟨stmt, hstmt, -⟩ := h
  obtain ⟨parts, hparts, -⟩ := Compiler.compile_eq_ok_iff.1 hstmt
  simp only [Compiler.parts, hparts]

theorem Compiler.WritesOperand.behind {c : Compiler} {f : Fragment} (h : c.WritesOperand f)
    (n : Nat) : Condition.IsOperand (c.textBehind n f) := by
  have hpieces := h.pieces
  obtain ⟨stmt, hstmt, hoperand⟩ := h
  obtain ⟨parts, hparts, rfl⟩ := Compiler.compile_eq_ok_iff.1 hstmt
  obtain rfl : c.parts f = parts := Except.ok.inj (hpieces.symm.trans hparts)
  exact Condition.isOperand_behind hoperand n

namespace Condition

/-- An atom of what is read: a leaf with its text, or what stands for a call without clauses. -/
inductive Atom (α : Type)
  | operand (a : α) (text : String)
  | constant (k : Connective)

namespace Atom

variable {α : Type}

/-- The text of an atom. -/
def text : Atom α → String
  | .operand _ text => text
  | .constant k => k.constant

/-- The truth of an atom, given that of the leaves. -/
def value (v : α → Bool) : Atom α → Bool
  | .operand a _ => v a
  | .constant k => k.unit

/-- The leaf of an atom, and its text. -/
def operand? : Atom α → Option (α × String)
  | .operand a text => some (a, text)
  | .constant _ => none

end Atom

end Condition

namespace Connective

variable {α : Type}

/-- Formulas from left to right, with a connective between them. -/
def connect (k : Connective) : List (Formula (Condition.Atom α)) → Formula (Condition.Atom α)
  | [] => .atom (.constant k)
  | F :: Fs => Fs.foldl k.formula F

end Connective

namespace Clause

open Condition

variable {α : Type} (c : Compiler) (frag : α → Fragment)

/-- The values of a tree. -/
def values (t : Clause α) : List Value := (t.operands frag).flatMap fun a => c.valuesOf (frag a)

/-- Leaves with their texts, each behind the values of those before it. -/
def placed : Nat → List α → List (α × String)
  | _, [] => []
  | n, a :: rest =>
    (a, trimmed (c.textBehind n (frag a)).toList) ::
      placed (n + (c.valuesOf (frag a)).length) rest

mutual

/-- What is read where a tree is written behind `n` values. -/
def formula (n : Nat) : Clause α → Formula (Atom α)
  | .leaf a => .atom (.operand a (trimmed (c.textBehind n (frag a)).toList))
  | .call k clauses => k.connect (formulas n clauses)

/-- What is read where clauses are written, without those that are blank. -/
def formulas (n : Nat) : List (Clause α) → List (Formula (Atom α))
  | [] => []
  | t :: rest =>
    if isBlank frag t then formulas n rest
    else formula n t :: formulas (n + (values c frag t).length) rest

end

end Clause

/-! ## What is read means the tree -/

namespace Connective

open Condition

variable {α : Type} (k : Connective)

theorem op_unit (b : Bool) : k.op b k.unit = b := by cases k <;> cases b <;> rfl

theorem op_assoc (a b d : Bool) : k.op (k.op a b) d = k.op a (k.op b d) := by
  cases k
  · exact Bool.and_assoc a b d
  · exact Bool.or_assoc a b d

theorem holds_formula {β : Type} (v : β → Bool) (F G : Formula β) :
    (k.formula F G).holds v = k.op (F.holds v) (G.holds v) := by
  cases k <;> rfl

theorem atoms_formula {β : Type} (F G : Formula β) :
    (k.formula F G).atoms = F.atoms ++ G.atoms := by
  cases k <;> rfl

theorem map_formula {β γ : Type} (h : β → γ) (F G : Formula β) :
    (k.formula F G).map h = k.formula (F.map h) (G.map h) := by
  cases k <;> rfl

theorem holds_foldl {β : Type} (v : β → Bool) (F : Formula β) (Fs : List (Formula β)) :
    (Fs.foldl k.formula F).holds v =
      k.op (F.holds v) ((Fs.map (Formula.holds v)).foldr k.op k.unit) := by
  induction Fs generalizing F with
  | nil => rw [List.foldl_nil, List.map_nil, List.foldr_nil, op_unit]
  | cons G Fs ih =>
    rw [List.foldl_cons, ih, holds_formula, op_assoc, List.map_cons, List.foldr_cons]

theorem atoms_foldl {β : Type} (F : Formula β) (Fs : List (Formula β)) :
    (Fs.foldl k.formula F).atoms = F.atoms ++ Fs.flatMap Formula.atoms := by
  induction Fs generalizing F with
  | nil => rw [List.foldl_nil, List.flatMap_nil, List.append_nil]
  | cons G Fs ih =>
    rw [List.foldl_cons, ih, atoms_formula, List.flatMap_cons, List.append_assoc]

theorem map_foldl {β γ : Type} (h : β → γ) (F : Formula β) (Fs : List (Formula β)) :
    (Fs.foldl k.formula F).map h = (Fs.map (Formula.map h)).foldl k.formula (F.map h) := by
  induction Fs generalizing F with
  | nil => rfl
  | cons G Fs ih => rw [List.foldl_cons, ih, map_formula, List.map_cons, List.foldl_cons]

theorem holds_connect (v : α → Bool) (Fs : List (Formula (Atom α))) :
    (k.connect Fs).holds (Atom.value v) =
      (Fs.map (Formula.holds (Atom.value v))).foldr k.op k.unit := by
  cases Fs with
  | nil => rfl
  | cons F Fs => exact k.holds_foldl _ F Fs

end Connective

namespace Clause

open Condition

variable {α : Type} {c : Compiler} {frag : α → Fragment}

mutual

/-- **What is read means the tree**, wherever the tree stands. -/
theorem holds_formula (v : α → Bool) : ∀ (t : Clause α) (n : Nat),
    (t.formula c frag n).holds (Atom.value v) = t.holds frag v
  | .leaf a, n => rfl
  | .call k clauses, n => by
    rw [formula, k.holds_connect, holds_formulas v k clauses n, holds]

theorem holds_formulas (v : α → Bool) (k : Connective) : ∀ (clauses : List (Clause α)) (n : Nat),
    ((formulas c frag n clauses).map (Formula.holds (Atom.value v))).foldr k.op k.unit =
      holdsEach frag v k clauses
  | [], n => rfl
  | t :: rest, n => by
    rw [formulas, holdsEach]
    split
    · exact holds_formulas v k rest n
    · rw [List.map_cons, List.foldr_cons, holds_formula v t n, holds_formulas v k rest]

end

/-! ## The operands keep their order -/

theorem placed_append (n : Nat) (as bs : List α) :
    placed c frag n (as ++ bs) =
      placed c frag n as ++
        placed c frag (n + (as.flatMap fun a => c.valuesOf (frag a)).length) bs := by
  induction as generalizing n with
  | nil => rfl
  | cons a as ih =>
    rw [List.cons_append, placed, placed, ih, List.cons_append, List.flatMap_cons,
      List.length_append, Nat.add_assoc]

mutual

/-- **The operands that are read are the leaves in their order.** -/
theorem operands_formula : ∀ (t : Clause α) (n : Nat), t.isBlank frag = false →
    (t.formula c frag n).atoms.filterMap Atom.operand? = placed c frag n (t.operands frag)
  | .leaf a, n, ht => by
    rw [isBlank] at ht
    rw [operands, ht]
    rfl
  | .call k clauses, n, _ => by
    rw [formula, operands, ← operands_formulas clauses n]
    cases formulas c frag n clauses with
    | nil => rfl
    | cons F Fs => rw [Connective.connect, k.atoms_foldl, List.flatMap_cons]

theorem operands_formulas : ∀ (clauses : List (Clause α)) (n : Nat),
    ((formulas c frag n clauses).flatMap Formula.atoms).filterMap Atom.operand? =
      placed c frag n (allOperands frag clauses)
  | [], n => rfl
  | t :: rest, n => by
    rw [formulas, allOperands]
    split
    · next ht => rw [operands_of_isBlank frag ht, List.nil_append, operands_formulas rest n]
    · next ht =>
      rw [List.flatMap_cons, List.filterMap_append, operands_formula t n (by simpa using ht),
        operands_formulas rest, placed_append, values]

end

end Clause

/-! ## What is written is read so -/

namespace Condition

/-- The tokens of pieces that `n` values stand before. -/
def tokensAt (style : PlaceholderStyle) (n : Nat) (parts : List Piece) : List Token :=
  tokens (Chunk.written style (Piece.chunks n parts)).toList

/-- The tokens of items, each behind the values of those before it and `n` more. -/
def itemTokens (style : PlaceholderStyle) : Nat → List (List Piece) → List (List Token)
  | _, [] => []
  | n, part :: rest =>
    tokensAt style n part :: itemTokens style (n + (Piece.params part).length) rest

variable {style : PlaceholderStyle}

theorem tokensAt_parenthesized (n : Nat) (parts : List Piece) :
    tokensAt style n (.text "(" :: (parts ++ [.text ")"])) =
      .opening :: (tokensAt style n parts ++ [.closing]) := by
  have hopening : "(".toList = ['('] := by decide
  have hclosing : (")" ++ "").toList = [')'] := by decide
  rw [tokensAt, Piece.chunks, Piece.chunks_append, Chunk.written, Chunk.write, Chunk.written_append,
    Piece.chunks, Piece.chunks, Chunk.written, Chunk.written, Chunk.write, String.toList_append,
    String.toList_append, hopening, hclosing, List.singleton_append, tokens_opening,
    tokens_closing, tokensAt]

theorem tokensAt_separated (k : Connective) (n : Nat) (part : List Piece)
    (rest : List (List Piece)) :
    tokensAt style n (Piece.separated k.separator (part :: rest)) =
      tokensAt style n part ++
        (itemTokens style (n + (Piece.params part).length) rest).flatMap (.connective k :: ·) := by
  induction rest generalizing n part with
  | nil => rw [Piece.separated, itemTokens, List.flatMap_nil, List.append_nil]
  | cons next rest ih =>
    have hseparated : Piece.separated k.separator (part :: next :: rest) =
        part ++ .text k.separator :: Piece.separated k.separator (next :: rest) := rfl
    rw [tokensAt, hseparated, Piece.chunks_append, Chunk.written_append, Piece.chunks,
      Chunk.written, Chunk.write, String.toList_append, String.toList_append, tokens_separator,
      ← tokensAt, ← tokensAt, ih, itemTokens, List.flatMap_cons, List.cons_append]

end Condition

/-- Each item of a list has its pieces. -/
theorem Compiler.forall₂_of_itemPieces {c : Compiler} {fs : List Fragment}
    {parts : List (List Piece)} (h : c.itemPieces fs = .ok parts) :
    List.Forall₂ (fun f part => c.pieces f = .ok part) fs parts := by
  induction fs generalizing parts with
  | nil =>
    cases h
    exact .nil
  | cons f fs ih =>
    obtain ⟨_, part, rest, hnil, hpart, hrest, rfl⟩ := @itemPieces_split c [] fs f parts h
    cases hnil
    exact .cons hpart (ih hrest)

namespace Connective

open Condition

variable (k : Connective) {c : Compiler}

/-- The pieces of a call, given those of its clauses. -/
def joined : List (List Piece) → List Piece
  | [] => [.text k.constant]
  | [part] => part
  | parts => .text "(" :: (Piece.separated k.separator parts ++ [.text ")"])

theorem joined_several (first second : List Piece) (rest : List (List Piece)) :
    k.joined (first :: second :: rest) =
      .text "(" :: (Piece.separated k.separator (first :: second :: rest) ++ [.text ")"]) := rfl

theorem pieces_join {fs : List Fragment} {parts : List (List Piece)}
    (h : c.itemPieces (fs.filter (!·.isEmpty)) = .ok parts) :
    c.pieces (k.join fs) = .ok (k.joined parts) := by
  -- there is one part for each clause that is left, so both sides fall into the same case
  have hparts := Compiler.forall₂_of_itemPieces h
  rw [join_eq, Fragment.join]
  split
  · next hfs =>
    rw [hfs] at hparts
    cases hparts
    rfl
  · next f hfs =>
    rw [hfs] at hparts
    obtain ⟨part, rest, hf, hrest, rfl⟩ := List.forall₂_cons_left_iff.1 hparts
    cases hrest
    exact hf
  · next hnone hone =>
    rw [Compiler.pieces, h]
    match parts, hparts with
    | [], hparts => exact absurd (List.forall₂_nil_right_iff.1 hparts) hnone
    | [part], hparts =>
      obtain ⟨f, rest, -, hrest, hfs⟩ := List.forall₂_cons_right_iff.1 hparts
      rw [List.forall₂_nil_right_iff.1 hrest] at hfs
      exact absurd hfs (hone f)
    | _ :: _ :: _, _ => rfl

theorem params_joined (parts : List (List Piece)) :
    Piece.params (k.joined parts) = parts.flatMap Piece.params := by
  have hseparated : Piece.params (Piece.separated k.separator parts) =
      parts.flatMap Piece.params := by
    rw [Piece.params_eq, Piece.bindings_separated, List.flatMap_assoc]
    exact congrArg parts.flatMap (funext fun part => (Piece.params_eq part).symm)
  match parts with
  | [] => rfl
  | [part] => exact (List.append_nil _).symm
  | first :: second :: rest =>
    rw [joined_several, Piece.params, Piece.params_append, hseparated]
    exact List.append_nil _

theorem derives_constant : Derives .primary (tokens k.constant.toList) (.atom k.constant) := by
  have hoperand : IsOperand k.constant := by cases k <;> exact ⟨by decide, by decide⟩
  have htrimmed : trimmed k.constant.toList = k.constant := by cases k <;> decide
  have hderives := Derives.of_isOperand hoperand
  rwa [htrimmed] at hderives

/-- **A call is read as one operand**, given that its clauses are. -/
theorem derives_joined {style : PlaceholderStyle} {n : Nat} {parts : List (List Piece)} {α : Type}
    {Fs : List (Formula (Atom α))}
    (h : List.Forall₂ (Derives .primary) (itemTokens style n parts)
      (Fs.map (Formula.map Atom.text))) :
    Derives .primary (tokensAt style n (k.joined parts)) ((k.connect Fs).map Atom.text) := by
  match parts, Fs, h with
  | [], [], _ =>
    have hwritten : Chunk.written style (Piece.chunks n [.text k.constant]) = k.constant :=
      String.append_empty
    rw [joined, tokensAt, hwritten]
    exact k.derives_constant
  | [part], [F], h => exact (List.forall₂_cons.1 h).1
  | _ :: _ :: _, F :: Fs, h =>
    obtain ⟨hfirst, hrest⟩ := List.forall₂_cons.1 h
    rw [joined_several, tokensAt_parenthesized, tokensAt_separated, connect, k.map_foldl]
    exact hfirst.list hrest

end Connective

namespace Clause

open Condition

variable {α : Type} {c : Compiler} {frag : α → Fragment}

mutual

/-- A tree that is not blank compiles, and what it writes derives its formula in every place. -/
theorem pieces_toFragment : ∀ t : Clause α, t.isBlank frag = false →
    (∀ a ∈ t.operands frag, c.WritesOperand (frag a)) →
      ∃ parts, c.pieces (t.toFragment frag) = .ok parts ∧ Piece.params parts = t.values c frag ∧
        ∀ n, Derives .primary (tokensAt c.placeholder n parts) ((t.formula c frag n).map Atom.text)
  | .leaf a, ht, h => by
    rw [isBlank] at ht
    have ha : c.WritesOperand (frag a) := h a (by simp [operands, ht])
    refine ⟨c.parts (frag a), ha.pieces, ?_, fun n => .of_isOperand (ha.behind n)⟩
    simp [values, operands, ht, Compiler.valuesOf]
  | .call k clauses, _, h => by
    obtain ⟨parts, hparts, hparams, hderives⟩ := itemPieces_toFragments clauses h
    exact ⟨k.joined parts, k.pieces_join hparts, (k.params_joined parts).trans hparams,
      fun n => k.derives_joined (hderives n)⟩

theorem itemPieces_toFragments : ∀ clauses : List (Clause α),
    (∀ a ∈ allOperands frag clauses, c.WritesOperand (frag a)) →
      ∃ parts, c.itemPieces ((toFragments frag clauses).filter (!·.isEmpty)) = .ok parts ∧
        parts.flatMap Piece.params =
          (allOperands frag clauses).flatMap (fun a => c.valuesOf (frag a)) ∧
        ∀ n, List.Forall₂ (Derives .primary) (itemTokens c.placeholder n parts)
          ((formulas c frag n clauses).map (Formula.map Atom.text))
  | [], _ => ⟨[], rfl, rfl, fun _ => .nil⟩
  | t :: rest, h => by
    rw [allOperands] at h ⊢
    obtain ⟨parts, hparts, hparams, hderives⟩ :=
      itemPieces_toFragments rest fun a ha => h a (List.mem_append_right _ ha)
    rw [toFragments, List.filter_cons, isEmpty_toFragment]
    -- a clause that writes nothing is left out of the text and of the formula alike
    cases ht : t.isBlank frag with
    | true =>
      refine ⟨parts, hparts, ?_, fun n => ?_⟩
      · rw [operands_of_isBlank frag ht, List.nil_append, hparams]
      · rw [formulas, if_pos ht]
        exact hderives n
    | false =>
      obtain ⟨part, hpart, hvalues, hfirst⟩ :=
        pieces_toFragment t ht fun a ha => h a (List.mem_append_left _ ha)
      refine ⟨part :: parts, ?_, ?_, fun n => ?_⟩
      · rw [Bool.not_false, if_pos rfl, Compiler.itemPieces, hpart, hparts]
      · rw [List.flatMap_cons, hvalues, hparams, values, List.flatMap_append]
      · rw [formulas, ht, if_neg Bool.false_ne_true, List.map_cons, itemTokens, hvalues]
        exact .cons (hfirst n) (hderives _)

end

end Clause

namespace Condition

variable {α : Type}

/-- **A call is read as the tree it was made from.** Let each leaf of the tree be blank or write one
operand. The call compiles, and its text is read as a formula that holds whenever the tree does:
blank leaves are left out, and a call without clauses counts as true for `AND` and as false for
`OR`. The operands that are read and the values bound are those of the leaves, in their order. -/
theorem reads_as_tree (c : Compiler) (frag : α → Fragment) (k : Connective)
    (clauses : List (Clause α))
    (h : ∀ a ∈ (Clause.call k clauses).operands frag, c.WritesOperand (frag a)) :
    ∃ (stmt : Compiled) (F : Formula (Atom α)),
      c.compile ((Clause.call k clauses).toFragment frag) = .ok stmt ∧
      read stmt.sql = some (F.map Atom.text) ∧
      (∀ v, F.holds (Atom.value v) = (Clause.call k clauses).holds frag v) ∧
      F.atoms.filterMap Atom.operand? =
        Clause.placed c frag 0 ((Clause.call k clauses).operands frag) ∧
      stmt.params = (Clause.call k clauses).values c frag := by
  obtain ⟨parts, hparts, hparams, hderives⟩ := Clause.pieces_toFragment (.call k clauses) rfl h
  refine ⟨_, (Clause.call k clauses).formula c frag 0,
    Compiler.compile_eq_ok_iff.2 ⟨parts, hparts, rfl⟩,
    read_eq_some_iff.2 (hderives 0).factor.term, ?_, ?_, hparams⟩
  · exact fun v => Clause.holds_formula v (.call k clauses) 0
  · exact Clause.operands_formula (.call k clauses) 0 rfl

/-- White space and three conditions. -/
def conditions : Fin 4 → Fragment
  | 0 => .raw " "
  | 1 => .concat [.raw "a = ", .param (.int 1)]
  | 2 => .concat [.raw "b < ", .param (.int 2)]
  | 3 => .raw "c"

/-- A call with a blank clause, a call without clauses, and an alternative. -/
def guarded : Clause (Fin 4) :=
  .call .all [.leaf 0, .leaf 1, .call .any [], .call .any [.leaf 2, .leaf 3]]

/-- The alternative keeps its parentheses, and its value the place behind the other. -/
theorem reads_guarded :
    ∃ F : Formula (Atom (Fin 4)),
      (Compiler.ofDialect .postgres).compile (guarded.toFragment conditions) =
        .ok ⟨"(a = $1 AND 1=0 AND (b < $2 OR c))", [.int 1, .int 2]⟩ ∧
      read "(a = $1 AND 1=0 AND (b < $2 OR c))" = some (F.map Atom.text) ∧
      (∀ v, F.holds (Atom.value v) = (v 1 && (false && ((v 2 || (v 3 || false)) && true)))) ∧
      F.atoms.filterMap Atom.operand? = [(1, "a = $1"), (2, "b < $2"), (3, "c")] := by
  have hcompile : (Compiler.ofDialect .postgres).compile (guarded.toFragment conditions) =
      .ok ⟨"(a = $1 AND 1=0 AND (b < $2 OR c))", [.int 1, .int 2]⟩ := rfl
  have hleaves : ∀ a ∈ guarded.operands conditions,
      (Compiler.ofDialect .postgres).WritesOperand (conditions a) := by
    intro a ha
    match a with
    | 0 => exact absurd ha (by decide)
    | 1 => exact ⟨⟨"a = $1", [.int 1]⟩, rfl, by decide, by decide⟩
    | 2 => exact ⟨⟨"b < $1", [.int 2]⟩, rfl, by decide, by decide⟩
    | 3 => exact ⟨⟨"c", []⟩, rfl, by decide, by decide⟩
  obtain ⟨stmt, F, hstmt, hread, hholds, hoperands, -⟩ := reads_as_tree _ conditions .all _ hleaves
  obtain rfl : stmt = _ := Except.ok.inj (hstmt.symm.trans hcompile)
  exact ⟨F, hcompile, hread, hholds, hoperands⟩

end Condition

end SqlClient
