import SqlClient.Proofs.Compiler.Chunks
import SqlClient.Proofs.Lists
/-!
# Compiler — what empty fragments write

A fragment counts as empty if all of its items do, and nothing asks for what stands between the items. So
an empty fragment binds nothing and compiles everywhere to one text, but what is not blank in this text are
the separators of its lists (`ink_texts`): it is white space if they are (`compile_of_isEmpty`).
-/

namespace SqlClient

/-! ## Ink -/

/-- The characters of a text that are no white space. -/
def ink (s : String) : List Char := s.toList.filter (!Unicode.isBlank ·)

theorem isBlankText_iff {s : String} : isBlankText s = true ↔ ink s = [] := by
  rw [isBlankText, List.all_eq_true, ink, List.filter_eq_nil_iff]
  exact forall₂_congr fun c _ => by rw [Bool.not_eq_true', Bool.not_eq_false]

theorem ink_join (ss : List String) : ink (String.join ss) = ss.flatMap ink := by
  rw [ink, String.toList_join, List.filter_flatMap]
  rfl

/-! ## Texts and separators -/

namespace Fragment

mutual

/-- The texts of a fragment that has nothing else, from left to right. -/
def texts : Fragment → List String
  | .raw sql => [sql]
  | .list separator items _ => [separator].intercalate (itemTexts items)
  | _ => []

/-- The texts of each item of a list. -/
def itemTexts : List Fragment → List (List String)
  | [] => []
  | f :: rest => texts f :: itemTexts rest

end

mutual

/-- The separators that stand between the items of the lists in a fragment, from left to right. -/
def separators : Fragment → List String
  | .list separator items _ => [separator].intercalate (itemSeparators items)
  | _ => []

/-- The separators within each item of a list. -/
def itemSeparators : List Fragment → List (List String)
  | [] => []
  | f :: rest => separators f :: itemSeparators rest

end

mutual

/-- **What an empty fragment writes besides white space are its separators.** -/
theorem ink_texts : ∀ {f : Fragment}, f.isEmpty = true → f.texts.flatMap ink = f.separators.flatMap ink
  | .raw sql, h => by
    rw [isEmpty, isBlankText_iff] at h
    simp [texts, separators, h]
  | .list separator items parenthesized, h => by
    rw [isEmpty, Bool.and_eq_true] at h
    rw [texts, separators, flatMap_intercalate, flatMap_intercalate, ink_itemTexts h.1]
  | .ident _, h | .param _, h | .insert _, h | .update _ _, h | .array _, h | .json _, h | .values _ _, h
  | .spliced _ _, h => by cases h

theorem ink_itemTexts : ∀ {items : List Fragment}, allEmpty items = true →
    (itemTexts items).map (List.flatMap ink) = (itemSeparators items).map (List.flatMap ink)
  | [], _ => rfl
  | f :: rest, h => by
    rw [allEmpty, Bool.and_eq_true] at h
    rw [itemTexts, itemSeparators, List.map_cons, List.map_cons, ink_texts h.1, ink_itemTexts h.2]

end

end Fragment

/-! ## Compiling -/

theorem Piece.separated_map_text (separator : String) (tss : List (List String)) :
    separated separator (tss.map (List.map .text)) = ([separator].intercalate tss).map .text := by
  induction tss with
  | nil => rfl
  | cons ts tss ih =>
    cases tss with
    | nil => rw [List.map_singleton, separated, List.intercalate_singleton]
    | cons ts' tss =>
      rw [List.map_cons, separated, ih, List.intercalate_cons_cons, List.map_append, List.map_append,
        List.append_assoc]
      · rfl
      · exact List.cons_ne_nil _ _

namespace Compiler

mutual

/-- An empty fragment is flattened to its texts. -/
theorem pieces_of_isEmpty (c : Compiler) : ∀ {f : Fragment}, f.isEmpty = true →
    c.pieces f = .ok (f.texts.map .text)
  | .raw sql, _ => rfl
  | .list separator items parenthesized, h => by
    rw [Fragment.isEmpty, Bool.and_eq_true, Bool.not_eq_true'] at h
    rw [pieces, itemPieces_of_allEmpty c h.1, Fragment.texts, h.2]
    exact congrArg _ (Piece.separated_map_text separator _)
  | .ident _, h | .param _, h | .insert _, h | .update _ _, h | .array _, h | .json _, h | .values _ _, h
  | .spliced _ _, h => by cases h

theorem itemPieces_of_allEmpty (c : Compiler) : ∀ {items : List Fragment},
    Fragment.allEmpty items = true →
      c.itemPieces items = .ok ((Fragment.itemTexts items).map (List.map .text))
  | [], _ => rfl
  | f :: rest, h => by
    rw [Fragment.allEmpty, Bool.and_eq_true] at h
    rw [itemPieces, pieces_of_isEmpty c h.1, itemPieces_of_allEmpty c h.2]
    rfl

end

theorem written_chunks_map_text (style : PlaceholderStyle) (k : Nat) (ts : List String) :
    Chunk.written style (Piece.chunks k (ts.map .text)) = String.join ts := by
  induction ts with
  | nil => rfl
  | cons t ts ih => rw [List.map_cons, Piece.chunks, Chunk.written, ih, String.join_cons, Chunk.write]

theorem params_map_text (ts : List String) : Piece.params (ts.map .text) = [] := by
  induction ts with
  | nil => rfl
  | cons t ts ih => rw [List.map_cons, Piece.params, ih]

/-- **An empty fragment writes its separators and white space.** It compiles with every compiler, to one
text and no values. In this text only the separators of its lists are no white space, so it is blank exactly
if they all are. Among clauses that are joined it makes no difference. -/
theorem compile_of_isEmpty {f : Fragment} (h : f.isEmpty = true) :
    (∃ sql, (∀ c : Compiler, c.compile f = .ok ⟨sql, []⟩) ∧
      ink sql = f.separators.flatMap ink ∧
      (isBlankText sql = true ↔ ∀ separator ∈ f.separators, isBlankText separator = true)) ∧
    ∀ literal parens fallback before after,
      Fragment.join literal parens fallback (before ++ f :: after) =
        Fragment.join literal parens fallback (before ++ after) := by
  have hink : ink (String.join f.texts) = f.separators.flatMap ink := by
    rw [ink_join, Fragment.ink_texts h]
  refine ⟨⟨String.join f.texts, fun c => ?_, hink, ?_⟩,
    fun literal parens fallback before after => ?_⟩
  · refine compile_eq_ok_iff.2 ⟨f.texts.map .text, pieces_of_isEmpty c h, ?_⟩
    rw [written_chunks_map_text, params_map_text]
  · rw [isBlankText_iff, hink, List.flatMap_eq_nil_iff]
    exact forall₂_congr fun separator _ => isBlankText_iff.symm
  · rw [Fragment.join, Fragment.join, List.filter_append, List.filter_append, List.filter_cons, h]
    rfl

/-- Blank texts on lines of their own. -/
def blankLines : Fragment := .list "\n" [.raw " ", .list "" [.raw "", .raw "\t"] false, .raw ""] false

/-- Blank separators leave a blank text. -/
theorem compile_of_isEmpty_blankLines :
    blankLines.isEmpty = true ∧
      ∃ sql, (ofDialect .postgres).compile blankLines = .ok ⟨sql, []⟩ ∧ isBlankText sql = true := by
  have h : blankLines.isEmpty = true := by decide
  obtain ⟨⟨sql, hcompile, -, hblank⟩, -⟩ := compile_of_isEmpty h
  exact ⟨h, sql, hcompile _, hblank.2 (by decide)⟩

/-- Two empty texts with a comma between them. -/
def barePair : Fragment := .list ", " [.raw "", .raw ""] false

/-- Where a separator is not blank, an empty fragment renders it, unless it is left out among clauses. -/
theorem barePair_renders :
    barePair.isEmpty = true ∧
      (∀ d, (ofDialect d).compile barePair = .ok ⟨", ", []⟩) ∧
      isBlankText ", " = false ∧
      Fragment.conjunction [barePair, .raw "a = 1"] = .raw "a = 1" :=
  ⟨by decide, fun d => by cases d <;> rfl, by decide, rfl⟩

end Compiler

end SqlClient
