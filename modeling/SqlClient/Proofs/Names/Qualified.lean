import SqlClient.Proofs.Identifier.RoundTrip
import SqlClient.Proofs.Lists
/-!
# Names — qualified names

A name is changed as a whole and then quoted segment by segment. So it depends on the change whether a
qualified name is written as its parts are: a change that looks at one character at a time leaves the
parts to themselves, while one that treats the first character of a name in its own way does so for the
first part only (`quoteIdentifier_qualified`).
-/

namespace SqlClient

/-! ## Segments of a qualified name -/

namespace QuoteStyle

variable {q : QuoteStyle}

theorem segments_ne_nil (name : List Char) : segments name ≠ [] := by
  rw [segments_eq_splitOn]
  exact List.splitOn_ne_nil '.' name

/-- The segments of a qualified name are those of its parts. -/
theorem segments_append_dot (a b : List Char) : segments (a ++ '.' :: b) = segments a ++ segments b := by
  induction a with
  | nil => rfl
  | cons c a ih =>
    rw [List.cons_append, segments, segments, ih]
    split
    · rfl
    · obtain ⟨first, others, h⟩ := List.exists_cons_of_ne_nil (segments_ne_nil a)
      rw [h]
      rfl

/-- A qualified name is quoted as its parts are. -/
theorem quoteName_append_dot (q : QuoteStyle) (a b : List Char) :
    q.quoteName (a ++ '.' :: b) = q.quoteName a ++ '.' :: q.quoteName b := by
  rw [quoteName, quoteName, quoteName, segments_append_dot, List.map_append,
    intercalate_append (by simpa using segments_ne_nil a) (by simpa using segments_ne_nil b),
    List.append_assoc, List.singleton_append]

/-- No two names are quoted alike. -/
theorem quoteName_injective (q : QuoteStyle) : Function.Injective q.quoteName := by
  intro a b h
  have hsegments := (quoted_quoteName q a).unique (h ▸ quoted_quoteName q b)
  have hname := congrArg (List.intercalate ['.']) hsegments
  rwa [List.intercalate_splitOn, List.intercalate_splitOn] at hname

end QuoteStyle

/-! ## Changes of a qualified name -/

namespace Names

open Unicode (isCapital toSmall)

theorem lowerChars_append (a b : List Char) : lowerChars (a ++ b) = lowerChars a ++ lowerChars b :=
  List.flatMap_append

/-- A dot has no case. -/
theorem lowerChars_append_dot (a b : List Char) :
    lowerChars (a ++ '.' :: b) = lowerChars a ++ '.' :: lowerChars b :=
  lowerChars_append a ('.' :: b)

/-- Only the first character of the whole name is the first one. -/
theorem unpascalChars_append_dot (a b : List Char) :
    unpascalChars (a ++ '.' :: b) = unpascalChars a ++ '.' :: lowerChars b := by
  cases a with
  | nil => rfl
  | cons c a =>
    rw [List.cons_append, unpascalChars, unpascalChars, lowerChars_append_dot, List.append_assoc]

/-- As a first character and as any other, a character without case is written alike, and a capital is
not: it has no underscore in front as the first one. -/
theorem lowerChars_eq_unpascalChars_iff (cs : List Char) : lowerChars cs = unpascalChars cs ↔
    ∀ first ∈ cs.head?, isCapital first = false ∧ toSmall first = [first] := by
  cases cs with
  | nil => exact iff_of_true rfl fun first h => by cases h
  | cons c cs =>
    rw [lowerChars, List.flatMap_cons, ← lowerChars, unpascalChars, List.append_cancel_right_eq]
    simp only [List.head?_cons, Option.mem_some_iff, forall_eq']
    cases hc : isCapital c with
    | true =>
      rw [if_pos rfl]
      exact iff_of_false (fun h => List.cons_ne_self _ _ h) fun h => by cases h.1
    | false =>
      rw [if_neg (by decide), and_iff_right rfl]
      exact eq_comm

theorem map_append_dot {f : Char → Char} (hdot : f '.' = '.') (a b : List Char) :
    (a ++ '.' :: b).map f = a.map f ++ '.' :: b.map f := by
  rw [List.map_append, List.map_cons, hdot]

end Names

/-! ## Written names -/

namespace Compiler

/-- The names of a program with these transforms. -/
def naming (c : Compiler) (transforms : NameTransforms) : Compiler :=
  { c with transform := transforms.query }

/-- The qualified name of `b` in `a` is written as these are on their own. -/
def ByParts (c : Compiler) (a b : String) : Prop :=
  c.quoteIdentifier (a ++ "." ++ b) = c.quoteIdentifier a ++ "." ++ c.quoteIdentifier b

/-- A name that is changed into two parts with a dot between them is written as these are. -/
theorem quoteIdentifier_of_transformed {c : Compiler} {name : String} {a b : List Char}
    (h : (c.transformed name).toList = a ++ '.' :: b) :
    c.quoteIdentifier name =
      String.ofList (c.quote.quoteName a) ++ "." ++ String.ofList (c.quote.quoteName b) := by
  rw [← String.toList_inj, toList_quoteIdentifier, h, QuoteStyle.quoteName_append_dot]
  simp only [String.toList_append, String.toList_ofList, List.append_assoc]
  rfl

theorem ofList_quoteName (c : Compiler) (name : String) :
    String.ofList (c.quote.quoteName (c.transformed name).toList) = c.quoteIdentifier name := by
  rw [← toList_quoteIdentifier, String.ofList_toList]

theorem byParts_of_transformed {c : Compiler} {a b : String}
    (h : (c.transformed (a ++ "." ++ b)).toList =
      (c.transformed a).toList ++ '.' :: (c.transformed b).toList) : c.ByParts a b := by
  rw [ByParts, quoteIdentifier_of_transformed h, ofList_quoteName, ofList_quoteName]

section presets

variable (c : Compiler) (name : String)

theorem transformed_camelCase :
    ((c.naming .camelCase).transformed name).toList = Names.lowerChars name.toList :=
  String.toList_ofList

theorem transformed_pascalCase :
    ((c.naming .pascalCase).transformed name).toList = Names.unpascalChars name.toList :=
  String.toList_ofList

theorem transformed_kebabCase : ((c.naming .kebabCase).transformed name).toList =
    name.toList.map fun c => if c = '-' then '_' else c :=
  String.toList_ofList

end presets

theorem toList_qualified (a b : String) : (a ++ "." ++ b).toList = a.toList ++ '.' :: b.toList := by
  rw [String.toList_append, String.toList_append, List.append_assoc]
  rfl

/-- Behind a dot Pascal case is camel case. -/
theorem quoteIdentifier_pascalCase (c : Compiler) (a b : String) :
    (c.naming .pascalCase).quoteIdentifier (a ++ "." ++ b) =
      (c.naming .pascalCase).quoteIdentifier a ++ "." ++ (c.naming .camelCase).quoteIdentifier b := by
  have h : ((c.naming .pascalCase).transformed (a ++ "." ++ b)).toList =
      ((c.naming .pascalCase).transformed a).toList ++
        '.' :: ((c.naming .camelCase).transformed b).toList := by
    rw [transformed_pascalCase, transformed_pascalCase, transformed_camelCase, toList_qualified,
      Names.unpascalChars_append_dot]
  rw [quoteIdentifier_of_transformed h, ofList_quoteName]
  exact congrArg _ (ofList_quoteName (c.naming .camelCase) b)

/-- **Qualified names.** In camel case and in kebab case a qualified name is written as its parts are.
In Pascal case this holds of the first part only: the second one is written as in camel case, which is
as on its own exactly if its first character is no capital and its own small form. -/
theorem quoteIdentifier_qualified (c : Compiler) (a b : String) :
    (c.naming .camelCase).ByParts a b ∧ (c.naming .kebabCase).ByParts a b ∧
      (c.naming .pascalCase).quoteIdentifier (a ++ "." ++ b) =
        (c.naming .pascalCase).quoteIdentifier a ++ "." ++ (c.naming .camelCase).quoteIdentifier b ∧
      ((c.naming .pascalCase).ByParts a b ↔
        ∀ first ∈ b.toList.head?, Unicode.isCapital first = false ∧ Unicode.toSmall first = [first]) := by
  refine ⟨byParts_of_transformed ?_, byParts_of_transformed ?_, quoteIdentifier_pascalCase c a b, ?_⟩
  · rw [transformed_camelCase, transformed_camelCase, transformed_camelCase, toList_qualified,
      Names.lowerChars_append_dot]
  · rw [transformed_kebabCase, transformed_kebabCase, transformed_kebabCase, toList_qualified,
      Names.map_append_dot (by decide)]
  · calc (c.naming .pascalCase).ByParts a b
        ↔ (c.naming .camelCase).quoteIdentifier b = (c.naming .pascalCase).quoteIdentifier b := by
          rw [ByParts, quoteIdentifier_pascalCase, String.append_right_inj]
      _ ↔ Names.lowerChars b.toList = Names.unpascalChars b.toList := by
          rw [← String.toList_inj, toList_quoteIdentifier, toList_quoteIdentifier,
            transformed_camelCase, transformed_pascalCase]
          exact (QuoteStyle.quoteName_injective c.quote).eq_iff
      _ ↔ _ := Names.lowerChars_eq_unpascalChars_iff b.toList

/-- The table behind a schema gets an underscore in front that it does not have on its own. -/
theorem pascalCase_not_byParts :
    ((ofDialect .postgres).naming .pascalCase).quoteIdentifier "App.PeopleTable" =
        "\"app\".\"_people_table\"" ∧
      ((ofDialect .postgres).naming .pascalCase).quoteIdentifier "App" = "\"app\"" ∧
      ((ofDialect .postgres).naming .pascalCase).quoteIdentifier "PeopleTable" = "\"people_table\"" ∧
      ¬ ∀ transforms ∈ [NameTransforms.camelCase, .pascalCase, .kebabCase], ∀ dialect : Dialect,
        ∀ a b : String, a ≠ "" → b ≠ "" → ((ofDialect dialect).naming transforms).ByParts a b := by
  refine ⟨by decide, by decide, by decide, fun h => ?_⟩
  have hparts := h .pascalCase (by simp) .postgres "App" "PeopleTable" (by decide) (by decide)
  exact absurd hparts (by rw [ByParts]; decide)

end Compiler

end SqlClient
