import Mathlib.Data.List.DropRight
import SqlClient.Unicode.Classes
/-!
# Conditions — how a text is read

A condition is read as a database reads one: parentheses first, then `AND`, then `OR`. What stands
between these is an operand, which is taken as it is. `Derives` is the grammar; the reader goes
through the tokens once, with a level for each parenthesis that is still open, and finds what the
grammar allows (`read_eq_some_iff`).
-/

namespace SqlClient

/-! ## Formulas -/

/-- A Boolean formula over atoms. -/
inductive Formula (α : Type)
  | atom (a : α)
  | and (f g : Formula α)
  | or (f g : Formula α)
deriving DecidableEq, Repr

namespace Formula

variable {α β : Type}

/-- The formula with other atoms. -/
def map (h : α → β) : Formula α → Formula β
  | .atom a => .atom (h a)
  | .and f g => .and (map h f) (map h g)
  | .or f g => .or (map h f) (map h g)

/-- The atoms, from left to right. -/
def atoms : Formula α → List α
  | .atom a => [a]
  | .and f g => atoms f ++ atoms g
  | .or f g => atoms f ++ atoms g

/-- The truth of a formula, given that of its atoms. -/
def holds (v : α → Bool) : Formula α → Bool
  | .atom a => v a
  | .and f g => holds v f && holds v g
  | .or f g => holds v f || holds v g

end Formula

/-- The two ways to connect conditions. -/
inductive Connective
  | all
  | any
deriving DecidableEq, Repr

namespace Connective

/-- Two formulas, connected. -/
def formula {α : Type} : Connective → Formula α → Formula α → Formula α
  | .all => .and
  | .any => .or

/-- What is written between two conditions. -/
def separator : Connective → String
  | .all => " AND "
  | .any => " OR "

end Connective

namespace Condition

/-! ## Tokens -/

/-- The tokens of a condition. -/
inductive Token
  | opening
  | closing
  | connective (k : Connective)
  | operand (text : String)
deriving DecidableEq, Repr

/-- Characters that words are made of. Dialects take all of these in names, and all beyond ASCII. -/
def isWordChar (c : Char) : Bool := c.isAlphanum || c == '_' || c == '$' || 0x80 ≤ c.toNat

/-- Puts part of a word in front of lexemes: into the first one if that is a word. -/
def prepend (part : List Char) : List (List Char) → List (List Char)
  | [] => [part]
  | w :: rest => if w.head?.any isWordChar then (part ++ w) :: rest else part :: w :: rest

/-- The whole words of a text, and the characters between them one by one. -/
def lexemes : List Char → List (List Char)
  | [] => []
  | c :: cs => if isWordChar c then prepend [c] (lexemes cs) else [c] :: lexemes cs

/-- What a lexeme marks, unless it is part of an operand. Words are connectives in either case. -/
def mark? (w : List Char) : Option Token :=
  if w = ['('] then some .opening
  else if w = [')'] then some .closing
  else if w.map Char.toUpper = ['A', 'N', 'D'] then some (.connective .all)
  else if w.map Char.toUpper = ['O', 'R'] then some (.connective .any)
  else none

/-- A text without the white space around it. -/
def trimmed (cs : List Char) : String :=
  String.ofList ((cs.dropWhile Unicode.isBlank).rdropWhile Unicode.isBlank)

/-- The operand that a text is, if there is anything in it. -/
def operandOf (cs : List Char) : List Token :=
  if cs.all Unicode.isBlank then [] else [.operand (trimmed cs)]

/-- The tokens of lexemes behind what is pending of an operand. -/
def tokensFrom (pending : List Char) : List (List Char) → List Token
  | [] => operandOf pending
  | w :: rest =>
    match mark? w with
    | some t => operandOf pending ++ t :: tokensFrom [] rest
    | none => tokensFrom (pending ++ w) rest

/-- The tokens of a text. -/
def tokens (cs : List Char) : List Token := tokensFrom [] (lexemes cs)

/-- Something in a text, and no parenthesis or connective. -/
def IsOperand (text : String) : Prop :=
  isBlankText text = false ∧ ∀ w ∈ lexemes text.toList, mark? w = none

/-! ## Reading -/

/-- What an open parenthesis has in front of the operand that is read: alternatives that an `OR` has
ended, and factors that an `AND` goes on from. -/
structure Level where
  sum : Option (Formula String)
  product : Option (Formula String)

/-- Connects a formula to what is there before it, if there is anything. -/
def extend (k : Connective) : Option (Formula String) → Formula String → Formula String
  | none, f => f
  | some before, f => k.formula before f

mutual

/-- Reads on where an operand has to come. -/
def expect (outer : List Level) (l : Level) : List Token → Option (Formula String)
  | .operand text :: rest => follow outer l.sum (extend .all l.product (.atom text)) rest
  | .opening :: rest => expect (l :: outer) ⟨none, none⟩ rest
  | _ => none

/-- Reads on behind an operand, which is the last factor of `product`. -/
def follow (outer : List Level) (sum : Option (Formula String)) (product : Formula String) :
    List Token → Option (Formula String)
  | [] =>
    match outer with
    | [] => some (extend .any sum product)
    | _ :: _ => none
  | .connective .all :: rest => expect outer ⟨sum, some product⟩ rest
  | .connective .any :: rest => expect outer ⟨some (extend .any sum product), none⟩ rest
  | .closing :: rest =>
    match outer with
    | [] => none
    | l :: outer => follow outer l.sum (extend .all l.product (extend .any sum product)) rest
  | _ => none

end

/-- Reads a condition, with its operands as atoms. -/
def read (text : String) : Option (Formula String) := expect [] ⟨none, none⟩ (tokens text.toList)

/-- `AND` binds before `OR`, and parentheses before both. -/
example : read "a OR b and (c Or d)" =
    some (.or (.atom "a") (.and (.atom "b") (.or (.atom "c") (.atom "d")))) := by decide

/-! ## Lexemes -/

theorem lexemes_cons_of_not_word {s : Char} (hs : isWordChar s = false) (cs : List Char) :
    lexemes (s :: cs) = [s] :: lexemes cs := by
  rw [lexemes, hs, if_neg Bool.false_ne_true]

theorem flatten_prepend (part : List Char) (ws : List (List Char)) :
    (prepend part ws).flatten = part ++ ws.flatten := by
  cases ws with
  | nil => rfl
  | cons w ws =>
    rw [prepend]
    split
    · simp only [List.flatten_cons, List.append_assoc]
    · rfl

/-- Nothing of a text is lost. -/
theorem flatten_lexemes (cs : List Char) : (lexemes cs).flatten = cs := by
  induction cs with
  | nil => rfl
  | cons c cs ih =>
    rw [lexemes]
    split
    · rw [flatten_prepend, ih, List.singleton_append]
    · rw [List.flatten_cons, ih, List.singleton_append]

/-- A character that belongs to no word keeps apart what is before it and what is behind it. -/
theorem lexemes_append_cons {s : Char} (hs : isWordChar s = false) (a b : List Char) :
    lexemes (a ++ s :: b) = lexemes a ++ [s] :: lexemes b := by
  induction a with
  | nil => exact lexemes_cons_of_not_word hs b
  | cons c a ih =>
    rw [List.cons_append, lexemes, lexemes, ih]
    split
    · cases lexemes a with
      | nil => simp [prepend, hs]
      | cons w ws =>
        rw [List.cons_append, prepend, prepend]
        split <;> rfl
    · rfl

/-! ## The tokens of a text -/

theorem operandOf_blank_cons {b : Char} (hb : Unicode.isBlank b = true) (cs : List Char) :
    operandOf (b :: cs) = operandOf cs := by
  simp only [operandOf, trimmed, List.all_cons, hb, Bool.true_and, List.dropWhile_cons_of_pos]

theorem operandOf_append_blank {b : Char} (hb : Unicode.isBlank b = true) (cs : List Char) :
    operandOf (cs ++ [b]) = operandOf cs := by
  have hall : (cs ++ [b]).all Unicode.isBlank = cs.all Unicode.isBlank := by
    rw [List.all_append, List.all_cons, hb, List.all_nil, Bool.and_true, Bool.and_true]
  rw [operandOf, operandOf, hall]
  split
  · rfl
  · next hblank =>
    have hdrop : (cs ++ [b]).dropWhile Unicode.isBlank = cs.dropWhile Unicode.isBlank ++ [b] := by
      rw [List.dropWhile_append, if_neg]
      rw [List.isEmpty_iff, List.dropWhile_eq_nil_iff]
      exact fun h => hblank (List.all_eq_true.2 h)
    rw [trimmed, hdrop, List.rdropWhile_concat_pos _ _ _ hb, trimmed]

/-- A mark ends the operand before it. -/
theorem tokensFrom_mark {w : List Char} {t : Token} (hw : mark? w = some t)
    (pending : List Char) (xs ys : List (List Char)) :
    tokensFrom pending (xs ++ w :: ys) = tokensFrom pending xs ++ t :: tokensFrom [] ys := by
  induction xs generalizing pending with
  | nil => simp only [List.nil_append, tokensFrom, hw]
  | cons x xs ih =>
    rw [List.cons_append, tokensFrom, tokensFrom]
    cases mark? x with
    | none => exact ih _
    | some u =>
      simp only
      rw [ih, List.append_assoc, List.cons_append]

theorem tokensFrom_blank_cons {b : Char} (hb : Unicode.isBlank b = true) (pending : List Char)
    (ws : List (List Char)) : tokensFrom (b :: pending) ws = tokensFrom pending ws := by
  induction ws generalizing pending with
  | nil => exact operandOf_blank_cons hb pending
  | cons w ws ih =>
    rw [tokensFrom, tokensFrom]
    cases mark? w with
    | none => exact ih _
    | some t => simp only [operandOf_blank_cons hb]

theorem tokensFrom_append_blank {b : Char} (hb : Unicode.isBlank b = true)
    (hmark : mark? [b] = none) (pending : List Char) (ws : List (List Char)) :
    tokensFrom pending (ws ++ [[b]]) = tokensFrom pending ws := by
  induction ws generalizing pending with
  | nil =>
    simp only [List.nil_append, tokensFrom, hmark]
    exact operandOf_append_blank hb pending
  | cons w ws ih =>
    rw [List.cons_append, tokensFrom, tokensFrom]
    cases mark? w with
    | none => exact ih _
    | some t => simp only [ih]

/-- Lexemes without a mark are one operand. -/
theorem tokensFrom_of_unmarked {ws : List (List Char)} (h : ∀ w ∈ ws, mark? w = none)
    (pending : List Char) : tokensFrom pending ws = operandOf (pending ++ ws.flatten) := by
  induction ws generalizing pending with
  | nil => rw [tokensFrom, List.flatten_nil, List.append_nil]
  | cons w ws ih =>
    rw [tokensFrom, h w List.mem_cons_self]
    simp only
    rw [ih (fun v hv => h v (List.mem_cons_of_mem _ hv)), List.flatten_cons, List.append_assoc]

theorem tokens_of_isOperand {text : String} (h : IsOperand text) :
    tokens text.toList = [.operand (trimmed text.toList)] := by
  rw [tokens, tokensFrom_of_unmarked h.2, flatten_lexemes, List.nil_append, operandOf, if_neg]
  rw [← isBlankText, h.1]
  exact Bool.false_ne_true

theorem tokens_opening (cs : List Char) : tokens ('(' :: cs) = .opening :: tokens cs := by
  rw [tokens, lexemes_cons_of_not_word (by decide)]
  exact tokensFrom_mark (by decide) [] [] (lexemes cs)

theorem tokens_closing (cs : List Char) : tokens (cs ++ [')']) = tokens cs ++ [.closing] := by
  rw [tokens, lexemes_append_cons (by decide), tokensFrom_mark (t := .closing) (by decide)]
  rfl

/-- A connective between two texts, with white space on both sides. -/
theorem tokens_separator (k : Connective) (a b : List Char) :
    tokens (a ++ (k.separator.toList ++ b)) = tokens a ++ .connective k :: tokens b := by
  obtain ⟨word, hseparator, hlexemes, hmark⟩ : ∃ word,
      k.separator.toList = ' ' :: (word ++ [' ']) ∧ lexemes word = [word] ∧
        mark? word = some (.connective k) := by
    cases k with
    | all => exact ⟨['A', 'N', 'D'], by decide⟩
    | any => exact ⟨['O', 'R'], by decide⟩
  have hblank : Unicode.isBlank ' ' = true := by decide
  have hword : isWordChar ' ' = false := by decide
  have hwords : lexemes (a ++ (k.separator.toList ++ b)) =
      (lexemes a ++ [[' ']]) ++ word :: [' '] :: lexemes b := by
    rw [hseparator, List.cons_append, lexemes_append_cons hword, List.append_assoc,
      List.cons_append, List.nil_append, lexemes_append_cons hword, hlexemes, List.append_assoc]
    rfl
  have hbehind : tokensFrom [] ([' '] :: lexemes b) = tokens b :=
    tokensFrom_blank_cons hblank [] (lexemes b)
  rw [tokens, hwords, tokensFrom_mark hmark, tokensFrom_append_blank hblank (by decide), hbehind]
  rfl

/-! ## The grammar -/

/-- What a run of tokens can be, from what binds most to what binds least. -/
inductive Rank
  | primary
  | product
  | sum

/-- The grammar of conditions, in which connectives of one kind group from the left. -/
inductive Derives : Rank → List Token → Formula String → Prop
  | operand (text : String) : Derives .primary [.operand text] (.atom text)
  | parens {ts : List Token} {F : Formula String} :
    Derives .sum ts F → Derives .primary (.opening :: (ts ++ [.closing])) F
  | factor {ts : List Token} {F : Formula String} : Derives .primary ts F → Derives .product ts F
  | and {ts us : List Token} {F G : Formula String} :
    Derives .product ts F → Derives .primary us G →
      Derives .product (ts ++ .connective .all :: us) (.and F G)
  | term {ts : List Token} {F : Formula String} : Derives .product ts F → Derives .sum ts F
  | or {ts us : List Token} {F G : Formula String} :
    Derives .sum ts F → Derives .product us G →
      Derives .sum (ts ++ .connective .any :: us) (.or F G)

namespace Derives

variable {ts us : List Token} {F G : Formula String}

theorem of_isOperand {text : String} (h : IsOperand text) :
    Derives .primary (tokens text.toList) (.atom (trimmed text.toList)) := by
  rw [tokens_of_isOperand h]
  exact .operand _

theorem all_series (h : Derives .product ts F) {tss : List (List Token)}
    {Gs : List (Formula String)} (hs : List.Forall₂ (Derives .primary) tss Gs) :
    Derives .product (ts ++ tss.flatMap (.connective .all :: ·)) (Gs.foldl .and F) := by
  induction hs generalizing ts F with
  | nil => simpa using h
  | cons hus _ ih => simpa using ih (h.and hus)

theorem any_series (h : Derives .sum ts F) {tss : List (List Token)}
    {Gs : List (Formula String)} (hs : List.Forall₂ (Derives .primary) tss Gs) :
    Derives .sum (ts ++ tss.flatMap (.connective .any :: ·)) (Gs.foldl .or F) := by
  induction hs generalizing ts F with
  | nil => simpa using h
  | cons hus _ ih => simpa using ih (h.or hus.factor)

/-- **Operands with one connective between them are one operand in parentheses.** -/
theorem list {k : Connective} (h : Derives .primary ts F) {tss : List (List Token)}
    {Gs : List (Formula String)} (hs : List.Forall₂ (Derives .primary) tss Gs) :
    Derives .primary (.opening :: (ts ++ tss.flatMap (.connective k :: ·) ++ [.closing]))
      (Gs.foldl k.formula F) := by
  cases k with
  | all => exact (all_series h.factor hs).term.parens
  | any => exact (any_series h.factor.term hs).parens

end Derives

/-! ## The reader finds what the grammar allows -/

/-- How the reader gets over a run of tokens. -/
def Reads (ts : List Token) (F : Formula String) : Rank → Prop
  | .primary => ∀ outer l rest,
    expect outer l (ts ++ rest) = follow outer l.sum (extend .all l.product F) rest
  | .product => ∀ outer sum rest, expect outer ⟨sum, none⟩ (ts ++ rest) = follow outer sum F rest
  | .sum => ∀ outer rest, ∃ sum product, extend .any sum product = F ∧
    expect outer ⟨none, none⟩ (ts ++ rest) = follow outer sum product rest

theorem reads_of_derives {r : Rank} {ts : List Token} {F : Formula String} (h : Derives r ts F) :
    Reads ts F r := by
  induction h with
  | operand text =>
    intro outer l rest
    rw [List.singleton_append, expect]
  | parens _ ih =>
    intro outer l rest
    obtain ⟨sum, product, rfl, hread⟩ := ih (l :: outer) (.closing :: rest)
    rw [List.cons_append, List.append_assoc, List.singleton_append, expect, hread, follow]
  | factor _ ih => exact fun outer sum rest => ih outer ⟨sum, none⟩ rest
  | and _ _ ihF ihG =>
    intro outer sum rest
    rw [List.append_assoc, List.cons_append, ihF, follow, ihG]
    rfl
  | term _ ih => exact fun outer rest => ⟨none, _, rfl, ih outer none rest⟩
  | @or ts us F G _ _ ihF ihG =>
    intro outer rest
    obtain ⟨sum, product, rfl, hread⟩ := ihF outer (.connective .any :: (us ++ rest))
    -- the `OR` makes a sum of all before it, and the next term is a product of its own
    refine ⟨some (extend .any sum product), G, rfl, ?_⟩
    rw [List.append_assoc, List.cons_append, hread, follow, ihG]

/-! ## The reader keeps to the grammar -/

/-- What may be waiting in a level for an operand of a connective, and its tokens. -/
inductive Waiting : Connective → Option (Formula String) → List Token → Prop
  | none (k : Connective) : Waiting k none []
  | product {ts : List Token} {F : Formula String} :
    Derives .product ts F → Waiting .all (some F) (ts ++ [.connective .all])
  | sum {ts : List Token} {F : Formula String} :
    Derives .sum ts F → Waiting .any (some F) (ts ++ [.connective .any])

theorem Waiting.primary {before : Option (Formula String)} {ts us : List Token}
    {F : Formula String} (h : Waiting .all before us) (hF : Derives .primary ts F) :
    Derives .product (us ++ ts) (extend .all before F) := by
  cases h with
  | none => exact hF.factor
  | product h =>
    rw [List.append_assoc]
    exact h.and hF

theorem Waiting.term {before : Option (Formula String)} {ts us : List Token}
    {F : Formula String} (h : Waiting .any before us) (hF : Derives .product ts F) :
    Derives .sum (us ++ ts) (extend .any before F) := by
  cases h with
  | none => exact hF.term
  | sum h =>
    rw [List.append_assoc]
    exact h.or hF

/-- The tokens up to the last parenthesis that is open. -/
inductive Opened : List Level → List Token → Prop
  | nil : Opened [] []
  | cons {outer : List Level} {l : Level} {pre ts us : List Token} : Opened outer pre →
    Waiting .any l.sum ts → Waiting .all l.product us →
      Opened (l :: outer) (pre ++ ts ++ us ++ [.opening])

mutual

/-- What is read derives from the tokens up to here and those that are left. -/
theorem derives_of_expect {outer : List Level} {l : Level} {pre ts us : List Token}
    {F : Formula String} (hpre : Opened outer pre) (hts : Waiting .any l.sum ts)
    (hus : Waiting .all l.product us) : ∀ rest : List Token,
    expect outer l rest = some F → Derives .sum (pre ++ ts ++ us ++ rest) F
  | .operand text :: rest, h => by
    rw [expect] at h
    simpa using derives_of_follow hpre hts (hus.primary (.operand text)) rest h
  | .opening :: rest, h => by
    rw [expect] at h
    simpa using derives_of_expect (.cons hpre hts hus) (.none .any) (.none .all) rest h
  | [], h => by cases h
  | .closing :: _, h => by cases h
  | .connective _ :: _, h => by cases h
termination_by structural rest => rest

theorem derives_of_follow {outer : List Level} {sum : Option (Formula String)}
    {pre ts us : List Token} {product F : Formula String} (hpre : Opened outer pre)
    (hts : Waiting .any sum ts) (hus : Derives .product us product) : ∀ rest : List Token,
    follow outer sum product rest = some F → Derives .sum (pre ++ ts ++ us ++ rest) F
  | [], h => by
    cases hpre with
    | nil =>
      cases h
      simpa using hts.term hus
    | cons => cases h
  | .connective .all :: rest, h => by
    rw [follow] at h
    simpa using derives_of_expect hpre hts (.product hus) rest h
  | .connective .any :: rest, h => by
    rw [follow] at h
    simpa using derives_of_expect hpre (.sum (hts.term hus)) (.none .all) rest h
  | .closing :: rest, h => by
    cases hpre with
    | nil => cases h
    | cons hpre hts' hus' =>
      -- all that stands in the parentheses is one operand of the level around them
      rw [follow] at h
      simpa using derives_of_follow hpre hts' (hus'.primary (hts.term hus).parens) rest h
  | .opening :: _, h => by cases h
  | .operand _ :: _, h => by cases h
termination_by structural rest => rest

end

/-- **Reading is the grammar.** A text is read as a formula exactly if its tokens derive it, so no
text has two readings. -/
theorem read_eq_some_iff {text : String} {F : Formula String} :
    read text = some F ↔ Derives .sum (tokens text.toList) F := by
  rw [read]
  constructor
  · intro h
    simpa using derives_of_expect .nil (.none .any) (.none .all) _ h
  · intro h
    obtain ⟨sum, product, rfl, hread⟩ := reads_of_derives h [] []
    rw [List.append_nil] at hread
    rw [hread, follow]

end Condition

end SqlClient
