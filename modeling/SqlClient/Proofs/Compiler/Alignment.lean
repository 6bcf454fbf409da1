import SqlClient.Proofs.Compiler.Bindings
/-!
# Compiler — placeholders and values in line

The values of a statement are what its tree binds, and the placeholder written for a bound value
carries the position of that value. A `Context` is a tree with a place left open: what stands around
the place shifts the ordinals of what is put there and leaves everything else as it was
(`pieces_plug`).
-/

namespace SqlClient

namespace Binding

/-- With nothing spliced in, the positions are those of all values. -/
theorem positions_eq_range' {bindings : List Binding} (h : ∀ b ∈ bindings, ∃ v, b = .bound v)
    (k : Nat) : positions k bindings = List.range' (k + 1) (bindings.flatMap values).length := by
  induction bindings generalizing k with
  | nil => rfl
  | cons b bindings ih =>
    obtain ⟨v, rfl⟩ := h b List.mem_cons_self
    rw [positions, ih fun b hb => h b (List.mem_cons_of_mem _ hb)]
    rfl

end Binding

namespace Fragment

/-! ## Trees without finished text -/

theorem bound_of_mem_recordBindings {records : List Record} {b : Binding}
    (h : b ∈ recordBindings records) : ∃ v, b = .bound v := by
  cases records with
  | nil => cases h
  | cons first rest =>
    obtain ⟨r, -, hb⟩ := List.mem_flatMap.1 h
    obtain ⟨v, -, rfl⟩ := List.mem_map.1 hb
    exact ⟨v, rfl⟩

mutual

/-- Only finished text brings values without placeholders. -/
theorem bound_of_mem_bindings {d : Dialect} {b : Binding} :
    ∀ {f : Fragment}, f.hasSplice = false → b ∈ f.bindings d → ∃ v, b = .bound v
  | .raw _, _, h => by cases h
  | .ident _, _, h => by cases h
  | .param v, _, h => ⟨v, List.mem_singleton.1 h⟩
  | .list _ _ _, hf, h => by
    rw [hasSplice] at hf
    rw [bindings] at h
    exact bound_of_mem_allBindings hf h
  | .insert _, _, h => by
    rw [bindings] at h
    exact bound_of_mem_recordBindings h
  | .update _ _, _, h => by
    rw [bindings] at h
    obtain ⟨e, -, rfl⟩ := List.mem_map.1 h
    exact ⟨e.2, rfl⟩
  | .array _, _, h => by
    rw [bindings] at h
    obtain ⟨v, -, rfl⟩ := List.mem_map.1 h
    exact ⟨v, rfl⟩
  | .json doc, _, h => ⟨Compiler.documentValue d doc, List.mem_singleton.1 h⟩
  | .values _ _, _, h => by
    rw [bindings] at h
    exact bound_of_mem_recordBindings h
  | .spliced _ _, hf, _ => by cases hf

theorem bound_of_mem_allBindings {d : Dialect} {b : Binding} :
    ∀ {items : List Fragment}, anySplice items = false → b ∈ allBindings d items →
      ∃ v, b = .bound v
  | [], _, h => by cases h
  | _ :: _, hitems, h => by
    rw [anySplice, Bool.or_eq_false_iff] at hitems
    rw [allBindings, List.mem_append] at h
    rcases h with h | h
    · exact bound_of_mem_bindings hitems.1 h
    · exact bound_of_mem_allBindings hitems.2 h

end

/-! ## Contexts -/

/-- A tree with a place left open, inside as many lists as it takes. -/
inductive Context
  | here
  | item (separator : String) (before : List Fragment) (inner : Context) (after : List Fragment)
      (parenthesized : Bool)

namespace Context

/-- The tree with a fragment in the open place. -/
def plug (g : Fragment) : Context → Fragment
  | .here => g
  | .item separator before inner after parenthesized =>
    .list separator (before ++ inner.plug g :: after) parenthesized

/-- What is bound before the open place. -/
def earlier (d : Dialect) : Context → List Binding
  | .here => []
  | .item _ before inner _ _ => allBindings d before ++ inner.earlier d

/-- What is bound after the open place. -/
def later (d : Dialect) : Context → List Binding
  | .here => []
  | .item _ _ inner after _ => inner.later d ++ allBindings d after

/-- How many values are bound before the open place. -/
def offset (d : Dialect) (K : Context) : Nat := ((K.earlier d).flatMap Binding.values).length

/-- What a plugged context binds comes in three runs. -/
theorem bindings_plug (d : Dialect) (K : Context) (g : Fragment) :
    (K.plug g).bindings d = K.earlier d ++ g.bindings d ++ K.later d := by
  induction K with
  | here => simp [plug, earlier, later]
  | item separator before inner after parenthesized ih =>
    rw [plug, bindings, allBindings_append, allBindings, ih, earlier, later]
    simp only [List.append_assoc]

end Context

end Fragment

namespace Compiler

/-- The items of a list are flattened one by one. -/
theorem itemPieces_split {c : Compiler} {before after : List Fragment} {g : Fragment}
    {parts : List (List Piece)} (h : c.itemPieces (before ++ g :: after) = .ok parts) :
    ∃ earlier part later, c.itemPieces before = .ok earlier ∧ c.pieces g = .ok part ∧
      c.itemPieces after = .ok later ∧ parts = earlier ++ part :: later := by
  induction before generalizing parts with
  | nil =>
    rw [List.nil_append, itemPieces] at h
    split at h
    · cases h
    · rename_i part hpart
      split at h
      · cases h
      · rename_i later hlater
        cases h
        exact ⟨[], part, later, rfl, hpart, hlater, rfl⟩
  | cons f before ih =>
    rw [List.cons_append, itemPieces] at h
    split at h
    · cases h
    · rename_i first hfirst
      split at h
      · cases h
      · rename_i rest hrest
        cases h
        obtain ⟨earlier, part, later, hearlier, hpart, hlater, rfl⟩ := ih hrest
        refine ⟨first :: earlier, part, later, ?_, hpart, hlater, rfl⟩
        rw [itemPieces, hfirst, hearlier]

/-- **A context only surrounds.** Flattening a plugged context puts pieces before and after those of
the fragment in the open place, and these bind what the context binds. -/
theorem pieces_plug {c : Compiler} {K : Fragment.Context} {g : Fragment} {parts : List Piece}
    (h : c.pieces (K.plug g) = .ok parts) :
    ∃ left inner right, c.pieces g = .ok inner ∧ parts = left ++ inner ++ right ∧
      Piece.bindings left = K.earlier c.dialect ∧ Piece.bindings right = K.later c.dialect := by
  induction K generalizing parts with
  | here => exact ⟨[], parts, [], h, by simp, rfl, rfl⟩
  | item separator before K after parenthesized ih =>
    rw [Fragment.Context.plug, pieces] at h
    split at h
    · cases h
    · rename_i items hitems
      obtain ⟨earlier, part, later, hearlier, hpart, hlater, rfl⟩ := itemPieces_split hitems
      obtain ⟨left, inner, right, hinner, rfl, hleft, hright⟩ := ih hpart
      -- separators and parentheses are text: they surround the place and bind nothing
      obtain ⟨before', after', hbody, hbefore, hafter⟩ : ∃ before' after',
          Piece.separated separator (earlier ++ (left ++ inner ++ right) :: later) =
            before' ++ inner ++ after' ∧
          Piece.bindings before' = Fragment.allBindings c.dialect before ++ K.earlier c.dialect ∧
          Piece.bindings after' = K.later c.dialect ++ Fragment.allBindings c.dialect after := by
        refine ⟨earlier.flatMap (· ++ [.text separator]) ++ left,
          right ++ later.flatMap (.text separator :: ·), ?_, ?_, ?_⟩
        · rw [Piece.separated_split]
          simp only [List.append_assoc]
        · rw [Piece.bindings_append, Piece.bindings_flatMap, hleft, ← bindings_itemPieces hearlier]
          simp
        · rw [Piece.bindings_append, Piece.bindings_flatMap, hright, ← bindings_itemPieces hlater]
          simp
      rw [hbody] at h
      cases parenthesized with
      | false =>
        cases h
        exact ⟨before', inner, after', hinner, rfl, hbefore, hafter⟩
      | true =>
        cases h
        refine ⟨.text "(" :: before', inner, after' ++ [.text ")"], hinner, by simp, hbefore, ?_⟩
        rw [Piece.bindings_append, hafter]
        exact List.append_nil _

/-! ## Alignment -/

theorem chunks_of_pieces {c : Compiler} {f : Fragment} {parts : List Piece}
    (h : c.pieces f = .ok parts) : c.chunks f = .ok (Piece.chunks 0 parts) := by
  rw [chunks, h]

/-- A bound value of the tree is a piece, and its placeholder carries its position. -/
theorem placeholder_of_bound {parts : List Piece} {before after : List Binding} {v : Value}
    (h : Piece.bindings parts = before ++ .bound v :: after) :
    ∃ left right,
      Piece.chunks 0 parts =
        left ++ .placeholder ((before.flatMap Binding.values).length + 1) :: right ∧
      Chunk.ordinals left = Binding.positions 0 before ∧
      (Piece.params parts)[(before.flatMap Binding.values).length]? = some v := by
  obtain ⟨xs, ys, rfl, hxs, hys⟩ := List.filterMap_eq_append_iff.1 h
  obtain ⟨texts, part, zs, rfl, htexts, hpart, -⟩ := List.filterMap_eq_cons_iff.1 hys
  obtain rfl : part = .bound v := by
    cases part <;> simp_all [Piece.binding?]
  -- texts may stand between the last binding before the value and the value itself
  have hbefore : Piece.bindings (xs ++ texts) = before := by
    rw [Piece.bindings_append, Piece.bindings, Piece.bindings, hxs,
      List.filterMap_eq_nil_iff.2 htexts, List.append_nil]
  have hparams : Piece.params (xs ++ texts) = before.flatMap Binding.values := by
    rw [Piece.params_eq, hbefore]
  refine ⟨Piece.chunks 0 (xs ++ texts),
    Piece.chunks ((before.flatMap Binding.values).length + 1) zs, ?_, ?_, ?_⟩
  · rw [← List.append_assoc, Piece.chunks_append, hparams, Nat.zero_add, Piece.chunks]
  · rw [Piece.ordinals_chunks, hbefore]
  · rw [← List.append_assoc, Piece.params_append, hparams, Piece.params,
      List.getElem?_append_right (Nat.le_refl _), Nat.sub_self, List.getElem?_cons_zero]

/-- Inside a context the same chunks are written, with the ordinals moved on by the values that the
context binds before. -/
theorem chunks_of_plug {c : Compiler} {K : Fragment.Context} {g : Fragment} {parts : List Piece}
    (h : c.pieces (K.plug g) = .ok parts) :
    ∃ alone inner left right, c.compile g = .ok alone ∧ c.chunks g = .ok inner ∧
      alone.sql = Chunk.written c.placeholder inner ∧
      Piece.chunks 0 parts = left ++ inner.map (Chunk.shift (K.offset c.dialect)) ++ right ∧
      Piece.params parts = (K.earlier c.dialect).flatMap Binding.values ++ alone.params ++
        (K.later c.dialect).flatMap Binding.values := by
  obtain ⟨left, inner, right, hinner, rfl, hleft, hright⟩ := pieces_plug h
  have hparams : Piece.params left = (K.earlier c.dialect).flatMap Binding.values := by
    rw [Piece.params_eq, hleft]
  have hshift : Piece.chunks (0 + (Piece.params left).length) inner =
      (Piece.chunks 0 inner).map (Chunk.shift (K.offset c.dialect)) := by
    rw [hparams, Nat.zero_add, ← Piece.chunks_add]
    rfl
  refine ⟨_, Piece.chunks 0 inner, Piece.chunks 0 left,
    Piece.chunks (0 + (Piece.params (left ++ inner)).length) right,
    compile_eq_ok_iff.2 ⟨inner, hinner, rfl⟩, chunks_of_pieces hinner, rfl, ?_, ?_⟩
  · rw [Piece.chunks_append, Piece.chunks_append, hshift]
  · rw [Piece.params_append, Piece.params_append, hparams, Piece.params_eq right, hright]

/-- **Placeholders and values stay in line.** The values of a statement are what its tree binds,
from left to right. Its text has a placeholder for every bound value and for nothing else, with the
position of that value as its ordinal. Without finished text in the tree the ordinals are therefore
all positions in turn. A part of the tree is written as it is on its own, with the number of values
before it added to its ordinals. -/
theorem aligned_of_compile {c : Compiler} {f : Fragment} {stmt : Compiled}
    (h : c.compile f = .ok stmt) :
    ∃ chunks, c.chunks f = .ok chunks ∧
      stmt.sql = Chunk.written c.placeholder chunks ∧
      stmt.params = (f.bindings c.dialect).flatMap Binding.values ∧
      Chunk.ordinals chunks = Binding.positions 0 (f.bindings c.dialect) ∧
      (∀ before v after, f.bindings c.dialect = before ++ .bound v :: after →
        ∃ left right,
          chunks = left ++ .placeholder ((before.flatMap Binding.values).length + 1) :: right ∧
          stmt.sql = Chunk.written c.placeholder left ++
            c.placeholder.write ((before.flatMap Binding.values).length + 1) ++
              Chunk.written c.placeholder right ∧
          Chunk.ordinals left = Binding.positions 0 before ∧
          stmt.params[(before.flatMap Binding.values).length]? = some v) ∧
      (f.hasSplice = false → Chunk.ordinals chunks = List.range' 1 stmt.params.length) ∧
      (∀ (K : Fragment.Context) (g : Fragment), f = K.plug g →
        ∃ alone inner left right, c.compile g = .ok alone ∧ c.chunks g = .ok inner ∧
          alone.sql = Chunk.written c.placeholder inner ∧
          chunks = left ++ inner.map (Chunk.shift (K.offset c.dialect)) ++ right ∧
          stmt.sql = Chunk.written c.placeholder left ++
            Chunk.written c.placeholder (inner.map (Chunk.shift (K.offset c.dialect))) ++
              Chunk.written c.placeholder right ∧
          stmt.params = (K.earlier c.dialect).flatMap Binding.values ++ alone.params ++
            (K.later c.dialect).flatMap Binding.values) := by
  obtain ⟨parts, hparts, rfl⟩ := compile_eq_ok_iff.1 h
  have hbindings : Piece.bindings parts = f.bindings c.dialect := bindings_pieces hparts
  have hparams : Piece.params parts = (f.bindings c.dialect).flatMap Binding.values := by
    rw [Piece.params_eq, hbindings]
  have hordinals : Chunk.ordinals (Piece.chunks 0 parts) =
      Binding.positions 0 (f.bindings c.dialect) := by
    rw [Piece.ordinals_chunks, hbindings]
  refine ⟨Piece.chunks 0 parts, chunks_of_pieces hparts, rfl, hparams, hordinals, ?_, ?_, ?_⟩
  · intro before v after hsplit
    obtain ⟨left, right, hchunks, hleft, hvalue⟩ := placeholder_of_bound (hbindings.trans hsplit)
    refine ⟨left, right, hchunks, ?_, hleft, hvalue⟩
    rw [hchunks, Chunk.written_append, Chunk.written, Chunk.write, String.append_assoc]
  · -- without finished text every binding has one position, so they make a range
    intro hsplice
    have hbound : ∀ b ∈ f.bindings c.dialect, ∃ v, b = .bound v :=
      fun _ hb => Fragment.bound_of_mem_bindings hsplice hb
    rw [hordinals, Binding.positions_eq_range' hbound, hparams]
  · -- on its own the part begins at position 0, within the tree at its offset
    rintro K g rfl
    obtain ⟨alone, inner, left, right, halone, hinner, hsql, hchunks, hvalues⟩ :=
      chunks_of_plug hparts
    refine ⟨alone, inner, left, right, halone, hinner, hsql, hchunks, ?_, hvalues⟩
    rw [hchunks, Chunk.written_append, Chunk.written_append]

/-- Bound values around finished text that brings a value of its own. -/
def guardedList : Fragment :=
  .concat [.raw "id IN ", .inList [.int 1, .int 2], .spliced " AND kind = $3" [.text "a"],
    .raw " AND owner = ", .param (.int 7)]

/-- The spliced value takes the third place and no placeholder. -/
theorem aligned_guardedList :
    (ofDialect .postgres).compile guardedList =
      .ok ⟨"id IN ($1, $2) AND kind = $3 AND owner = $4", [.int 1, .int 2, .text "a", .int 7]⟩ ∧
    ∃ chunks, (ofDialect .postgres).chunks guardedList = .ok chunks ∧
      Chunk.ordinals chunks = [1, 2, 4] := by
  have h : (ofDialect .postgres).compile guardedList =
      .ok ⟨"id IN ($1, $2) AND kind = $3 AND owner = $4", [.int 1, .int 2, .text "a", .int 7]⟩ := rfl
  obtain ⟨chunks, hchunks, -, -, hordinals, -⟩ := aligned_of_compile h
  exact ⟨h, chunks, hchunks, hordinals⟩

end Compiler

end SqlClient
