import SqlClient.Proofs.Compiler.Chunks
import SqlClient.Proofs.Condition.Reading
import SqlClient.Proofs.Text.Digits
/-!
# Conditions — operands in other places

What a fragment writes depends on its place by the numbers of its placeholders alone. Numbers belong
to words that are no connectives (`mark_of_digit`), so a text is an operand in every place if it is
one in its own statement (`isOperand_of_renumbered`).
-/

namespace SqlClient

namespace Condition

/-- Texts with other numbers at the same places. -/
inductive Renumbered : List Char → List Char → Prop
  | nil : Renumbered [] []
  | cons (c : Char) {cs ds : List Char} : Renumbered cs ds → Renumbered (c :: cs) (c :: ds)
  | number (n m : Nat) {cs ds : List Char} : Renumbered cs ds →
    Renumbered ((toString n).toList ++ cs) ((toString m).toList ++ ds)

theorem Renumbered.append {cs ds : List Char} (h : Renumbered cs ds) :
    ∀ text : List Char, Renumbered (text ++ cs) (text ++ ds)
  | [] => h
  | c :: text => .cons c (h.append text)

/-! ## Digits -/

theorem toUpper_of_isDigit {c : Char} (hc : c.isDigit = true) : c.toUpper = c := by
  have hdigit := toNat_of_isDigit hc
  have hsmall : 'a'.val.toNat = 97 := rfl
  have hchar : c.toNat = c.val.toNat := rfl
  refine dif_neg ?_
  rw [UInt32.le_iff_toNat_le]
  omega

theorem isWordChar_of_isDigit {c : Char} (hc : c.isDigit = true) : isWordChar c = true := by
  simp [isWordChar, Char.isAlphanum, hc]

theorem mark_of_digit {w : List Char} (hw : w.any Char.isDigit = true) : mark? w = none := by
  obtain ⟨c, hc, hdigit⟩ := List.any_eq_true.1 hw
  have hmem : c ∈ w.map Char.toUpper := toUpper_of_isDigit hdigit ▸ List.mem_map_of_mem hc
  have hne : ∀ v : List Char, v.all (fun c => !c.isDigit) = true → c ∉ v := by
    intro v hv h
    have := List.all_eq_true.1 hv c h
    rw [hdigit] at this
    cases this
  rw [mark?, if_neg, if_neg, if_neg, if_neg]
  · exact fun h => hne ['O', 'R'] (by decide) (h ▸ hmem)
  · exact fun h => hne ['A', 'N', 'D'] (by decide) (h ▸ hmem)
  · exact fun h => hne [')'] (by decide) (h ▸ hc)
  · exact fun h => hne ['('] (by decide) (h ▸ hc)

/-- Lexemes that are the same but for their numbers. -/
structure Alike (w v : List Char) : Prop where
  word : w.head?.any isWordChar = v.head?.any isWordChar
  same : w = v ∨ w.any Char.isDigit = true ∧ v.any Char.isDigit = true

namespace Alike

theorem refl (w : List Char) : Alike w w := ⟨rfl, .inl rfl⟩

theorem mark {w v : List Char} (h : Alike w v) : mark? w = mark? v := by
  obtain rfl | ⟨hw, hv⟩ := h.same
  · rfl
  · rw [mark_of_digit hw, mark_of_digit hv]

theorem append {w w' v v' : List Char} (h : Alike w v) (h' : Alike w' v') (hw : w ≠ [])
    (hv : v ≠ []) : Alike (w ++ w') (v ++ v') where
  word := by rw [List.head?_append_of_ne_nil _ hw, List.head?_append_of_ne_nil _ hv, h.word]
  same := by
    simp only [List.any_append, Bool.or_eq_true]
    obtain rfl | ⟨hw, hv⟩ := h.same
    · obtain rfl | ⟨hw, hv⟩ := h'.same
      · exact .inl rfl
      · exact .inr ⟨.inr hw, .inr hv⟩
    · exact .inr ⟨.inl hw, .inl hv⟩

theorem prepend {w v : List Char} (h : Alike w v) (hw : w ≠ []) (hv : v ≠ [])
    {ws vs : List (List Char)} (hs : List.Forall₂ Alike ws vs) :
    List.Forall₂ Alike (Condition.prepend w ws) (Condition.prepend v vs) := by
  cases hs with
  | nil => exact .cons h .nil
  | cons hfirst hrest =>
    rw [Condition.prepend, Condition.prepend, hfirst.word]
    split
    · exact .cons (h.append hfirst hw hv) hrest
    · exact .cons h (.cons hfirst hrest)

end Alike

theorem lexemes_word_append {word : List Char} (hne : word ≠ [])
    (hword : ∀ c ∈ word, isWordChar c = true) (cs : List Char) :
    lexemes (word ++ cs) = prepend word (lexemes cs) := by
  induction word with
  | nil => exact absurd rfl hne
  | cons c word ih =>
    rw [List.cons_append, lexemes, if_pos (hword c List.mem_cons_self)]
    cases word with
    | nil => rfl
    | cons d word =>
      have hd : isWordChar d = true := hword d (List.mem_cons_of_mem _ List.mem_cons_self)
      rw [ih (List.cons_ne_nil d word) fun e he => hword e (List.mem_cons_of_mem _ he)]
      cases lexemes cs with
      | nil => simp [prepend, hd]
      | cons w ws =>
        rw [prepend, prepend]
        split <;> simp [prepend, hd]

theorem alike_toString (n m : Nat) : Alike (toString n).toList (toString m).toList := by
  have hdigit (n : Nat) : ∃ c rest, (toString n).toList = c :: rest ∧ c.isDigit = true := by
    obtain ⟨c, rest, h⟩ := List.exists_cons_of_ne_nil (toString_ne_nil n)
    exact ⟨c, rest, h, isDigit_toString (h ▸ List.mem_cons_self)⟩
  obtain ⟨c, rest, hn, hc⟩ := hdigit n
  obtain ⟨d, rest', hm, hd⟩ := hdigit m
  rw [hn, hm]
  constructor
  · simp [isWordChar_of_isDigit hc, isWordChar_of_isDigit hd]
  · simp [hc, hd]

theorem alike_lexemes {cs ds : List Char} (h : Renumbered cs ds) :
    List.Forall₂ Alike (lexemes cs) (lexemes ds) := by
  induction h with
  | nil => exact .nil
  | cons c _ ih =>
    rw [lexemes, lexemes]
    split
    · exact (Alike.refl [c]).prepend (List.cons_ne_nil _ _) (List.cons_ne_nil _ _) ih
    · exact .cons (.refl [c]) ih
  | number n m _ ih =>
    have hword (n : Nat) : ∀ c ∈ (toString n).toList, isWordChar c = true :=
      fun c hc => isWordChar_of_isDigit (isDigit_toString hc)
    rw [lexemes_word_append (toString_ne_nil n) (hword n),
      lexemes_word_append (toString_ne_nil m) (hword m)]
    exact (alike_toString n m).prepend (toString_ne_nil n) (toString_ne_nil m) ih

/-! ## Operands -/

theorem all_blank_toString_append (n : Nat) (cs : List Char) :
    ((toString n).toList ++ cs).all Unicode.isBlank = false := by
  obtain ⟨c, hc⟩ := List.exists_mem_of_ne_nil _ (toString_ne_nil n)
  refine List.all_eq_false.2 ⟨c, List.mem_append_left _ hc, ?_⟩
  rw [isBlank_of_isDigit (isDigit_toString hc)]
  exact Bool.false_ne_true

theorem all_blank_of_renumbered {cs ds : List Char} (h : Renumbered cs ds) :
    cs.all Unicode.isBlank = ds.all Unicode.isBlank := by
  induction h with
  | nil => rfl
  | cons c _ ih => rw [List.all_cons, List.all_cons, ih]
  | number n m _ _ => rw [all_blank_toString_append, all_blank_toString_append]

theorem map_mark_of_alike {ws vs : List (List Char)} (h : List.Forall₂ Alike ws vs) :
    ws.map mark? = vs.map mark? := by
  induction h with
  | nil => rfl
  | cons hfirst _ ih => rw [List.map_cons, List.map_cons, hfirst.mark, ih]

/-- **Numbers do not settle whether a text is an operand.** -/
theorem isOperand_of_renumbered {text text' : String} (h : Renumbered text.toList text'.toList)
    (hoperand : IsOperand text) : IsOperand text' := by
  refine ⟨?_, fun v hv => ?_⟩
  · rw [isBlankText, ← all_blank_of_renumbered h]
    exact hoperand.1
  · have hmark : mark? v ∈ (lexemes text.toList).map mark? :=
      map_mark_of_alike (alike_lexemes h) ▸ List.mem_map_of_mem hv
    obtain ⟨w, hw, hsame⟩ := List.mem_map.1 hmark
    rw [← hsame, hoperand.2 w hw]

/-! ## Placeholders -/

variable {style : PlaceholderStyle}

theorem renumbered_write (n : Nat) (chunk : Chunk) {cs ds : List Char} (h : Renumbered cs ds) :
    Renumbered ((chunk.write style).toList ++ cs) (((chunk.shift n).write style).toList ++ ds) := by
  cases chunk with
  | text sql => exact h.append _
  | placeholder ordinal =>
    cases style with
    | question => exact h.append _
    | _ =>
      simp only [Chunk.shift, Chunk.write, PlaceholderStyle.write, String.toList_append,
        List.append_assoc]
      exact Renumbered.append (.number _ _ h) _

theorem renumbered_written (n : Nat) (chunks : List Chunk) :
    Renumbered (Chunk.written style chunks).toList
      (Chunk.written style (chunks.map (Chunk.shift n))).toList := by
  induction chunks with
  | nil => exact .nil
  | cons chunk chunks ih =>
    rw [List.map_cons, Chunk.written, Chunk.written, String.toList_append, String.toList_append]
    exact renumbered_write n chunk ih

/-- What is an operand in its own statement is one behind any number of values. -/
theorem isOperand_behind {parts : List Piece}
    (h : IsOperand (Chunk.written style (Piece.chunks 0 parts))) (n : Nat) :
    IsOperand (Chunk.written style (Piece.chunks n parts)) := by
  rw [← Nat.add_zero n, Piece.chunks_add]
  exact isOperand_of_renumbered (renumbered_written n _) h

end Condition

end SqlClient
