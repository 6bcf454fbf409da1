import SqlClient.Compiler
/-!
# Identifiers — what was quoted reads back

`Quoted` is the grammar of quoted names: segments between marks, with the closing mark only in
doubled form inside, and dots between the segments. The reader accepts exactly the grammar as long
as what follows cannot continue the name (`readName_eq_some_iff`): a closing mark would double the
last one, and a dot would announce another segment. Quoting writes the grammar's text for the
segments of a name, so no name gets out of its quotes and none is confused with another
(`quoteIdentifier_reads`).
-/

namespace SqlClient

namespace QuoteStyle

variable {q : QuoteStyle}

/-! ## The grammar -/

/-- `Body q text segment`: the text is the rest of a quoted segment after its opening mark, up to
and with the closing one. -/
inductive Body (q : QuoteStyle) : List Char → List Char → Prop
  | close : Body q [q.closing] []
  | doubled {text segment : List Char} :
      Body q text segment → Body q (q.closing :: q.closing :: text) (q.closing :: segment)
  | char {c : Char} {text segment : List Char} :
      c ≠ q.closing → Body q text segment → Body q (c :: text) (c :: segment)

/-- `Quoted q text segments`: the text is a quoted name of these segments. -/
inductive Quoted (q : QuoteStyle) : List Char → List (List Char) → Prop
  | one {text segment : List Char} : Body q text segment → Quoted q (q.opening :: text) [segment]
  | dot {text segment rest : List Char} {segments : List (List Char)} :
      Body q text segment → Quoted q rest segments →
      Quoted q (q.opening :: (text ++ '.' :: rest)) (segment :: segments)

theorem closing_ne_dot (q : QuoteStyle) : q.closing ≠ '.' := by
  cases q <;> decide

theorem Body.ne_nil {text segment : List Char} (h : Body q text segment) : text ≠ [] := by
  cases h <;> exact List.cons_ne_nil _ _

/-- Every segment takes a character of the text. -/
theorem Quoted.length_le {text : List Char} {segments : List (List Char)}
    (h : Quoted q text segments) : segments.length ≤ text.length := by
  induction h with
  | one => simp
  | dot _ _ ih =>
    simp only [List.length_cons, List.length_append]
    omega

/-! ## Reading is the grammar -/

/-- A segment is read to its closing mark, which is single: no closing mark follows it. -/
theorem readBody_of_body {text segment rest : List Char} (h : Body q text segment)
    (hrest : rest.head? ≠ some q.closing) : q.readBody (text ++ rest) = some (segment, rest) := by
  induction h with
  | close =>
    cases rest with
    | nil => simp [readBody]
    | cons d rest =>
      have hd : d ≠ q.closing := fun hd => hrest (congrArg some hd)
      simp [readBody, hd]
  | doubled _ ih => simp [readBody, ih]
  | @char c text segment hc hbody ih =>
    -- the reader looks one character ahead, and the body always has one more
    obtain ⟨d, text', rfl⟩ := List.exists_cons_of_ne_nil hbody.ne_nil
    simp only [List.cons_append] at ih ⊢
    rw [readBody, if_neg hc, ih]
    rfl

/-- What is read as a segment is one, and the closing mark is not followed by another. -/
theorem body_of_readBody {cs segment rest : List Char} (h : q.readBody cs = some (segment, rest)) :
    ∃ text, cs = text ++ rest ∧ Body q text segment := by
  fun_induction readBody q cs generalizing segment with
  | case1 => cases h
  | case2 =>
    cases h
    exact ⟨_, rfl, .close⟩
  | case3 => cases h
  | case4 cs ih =>
    obtain ⟨⟨segment', rest'⟩, hread, heq⟩ := Option.map_eq_some_iff.1 h
    cases heq
    obtain ⟨text, rfl, hbody⟩ := ih hread
    exact ⟨_, rfl, .doubled hbody⟩
  | case5 =>
    cases h
    exact ⟨_, rfl, .close⟩
  | case6 c d cs hc ih =>
    obtain ⟨⟨segment', rest'⟩, hread, heq⟩ := Option.map_eq_some_iff.1 h
    cases heq
    obtain ⟨text, htext, hbody⟩ := ih hread
    exact ⟨c :: text, by rw [htext, List.cons_append], .char hc hbody⟩

/-- Segments are read for as long as dots follow them. -/
theorem readSegments_of_quoted {text rest : List Char} {segments : List (List Char)}
    (h : Quoted q text segments) (hclosing : rest.head? ≠ some q.closing)
    (hdot : rest.head? ≠ some '.') {fuel : Nat} (hfuel : segments.length ≤ fuel) :
    q.readSegments fuel (text ++ rest) = some (segments, rest) := by
  induction h generalizing fuel with
  | @one text segment hbody =>
    obtain ⟨fuel, rfl⟩ : ∃ f, fuel = f + 1 := ⟨fuel - 1, by simp at hfuel; omega⟩
    have hread : q.readSegment (q.opening :: text ++ rest) = some (segment, rest) := by
      rw [List.cons_append, readSegment, if_pos rfl, readBody_of_body hbody hclosing]
    rw [readSegments, hread]
    split
    · rename_i heq
      cases heq
    · rename_i heq
      cases heq
      exact absurd rfl hdot
    · rename_i heq
      cases heq
      rfl
  | @dot text segment rest' segments hbody _ ih =>
    obtain ⟨fuel, rfl⟩ : ∃ f, fuel = f + 1 := ⟨fuel - 1, by simp at hfuel; omega⟩
    -- a dot is no closing mark, whatever the style, so the segment ends before it
    have hread : q.readBody (text ++ '.' :: (rest' ++ rest)) = some (segment, '.' :: (rest' ++ rest)) :=
      readBody_of_body hbody fun h => closing_ne_dot q (Option.some.inj h).symm
    have hothers := @ih fuel (by simpa using hfuel)
    simp only [List.cons_append, List.append_assoc, readSegments, readSegment, if_pos, hread, hothers]
    rfl

/-- What is read as a name is one. -/
theorem quoted_of_readSegments {fuel : Nat} {cs rest : List Char} {segments : List (List Char)}
    (h : q.readSegments fuel cs = some (segments, rest)) :
    ∃ text, cs = text ++ rest ∧ Quoted q text segments := by
  induction fuel generalizing cs segments with
  | zero => cases h
  | succ fuel ih =>
    -- a segment begins with the opening quote
    have hsegment : ∀ {segment after}, q.readSegment cs = some (segment, after) →
        ∃ text, cs = q.opening :: (text ++ after) ∧ Body q text segment := by
      intro segment after hread
      cases cs with
      | nil => cases hread
      | cons c cs =>
        rw [readSegment] at hread
        split at hread
        · rename_i hc
          obtain ⟨text, rfl, hbody⟩ := body_of_readBody hread
          exact ⟨text, by rw [hc], hbody⟩
        · cases hread
    rw [readSegments] at h
    split at h
    · cases h
    · rename_i segment after hread
      obtain ⟨text, rfl, hbody⟩ := hsegment hread
      obtain ⟨⟨others, rest'⟩, hothers, heq⟩ := Option.map_eq_some_iff.1 h
      cases heq
      obtain ⟨text', rfl, hquoted⟩ := ih hothers
      exact ⟨_, by simp, .dot hbody hquoted⟩
    · rename_i segment after _ hread
      obtain ⟨text, rfl, hbody⟩ := hsegment hread
      cases h
      exact ⟨_, rfl, .one hbody⟩

/-- **The reader accepts exactly the grammar**, in front of anything that does not continue the
name. -/
theorem readName_eq_some_iff {text rest : List Char} {segments : List (List Char)}
    (hclosing : rest.head? ≠ some q.closing) (hdot : rest.head? ≠ some '.') :
    q.readName (text ++ rest) = some (segments, rest) ↔ Quoted q text segments := by
  constructor
  · intro h
    obtain ⟨text', heq, hquoted⟩ := quoted_of_readSegments h
    rwa [List.append_cancel_right heq]
  · intro h
    refine readSegments_of_quoted h hclosing hdot ?_
    have := h.length_le
    rw [List.length_append]
    omega

/-! ## Quoting writes the grammar -/

/-- The segments of a name are what stands between its dots. -/
theorem segments_eq_splitOn (name : List Char) : segments name = name.splitOn '.' := by
  induction name with
  | nil => rfl
  | cons c rest ih =>
    rw [segments, List.splitOn_cons_eq_if_modifyHead, ih]
    by_cases hc : c = '.'
    · simp [hc]
    · rw [if_neg hc, if_neg (by simpa using hc)]
      obtain ⟨first, others, h⟩ := List.exists_cons_of_ne_nil (List.splitOn_ne_nil '.' rest)
      rw [h]
      rfl

theorem body_doubled (q : QuoteStyle) (segment : List Char) :
    Body q (q.doubled segment ++ [q.closing]) segment := by
  induction segment with
  | nil => exact .close
  | cons c segment ih =>
    rw [doubled, List.flatMap_cons, ← doubled]
    by_cases hc : c = q.closing
    · rw [if_pos hc, hc]
      exact .doubled ih
    · rw [if_neg hc]
      exact .char hc ih

/-- Quoted segments with dots between them are a quoted name. -/
theorem quoted_intercalate (q : QuoteStyle) (first : List Char) (others : List (List Char)) :
    Quoted q (['.'].intercalate ((first :: others).map q.quoteSegment)) (first :: others) := by
  induction others generalizing first with
  | nil => simpa [quoteSegment] using Quoted.one (body_doubled q first)
  | cons second others ih =>
    have h := Quoted.dot (body_doubled q first) (ih second)
    simpa [quoteSegment, List.intercalate_cons_cons] using h

theorem quoted_quoteName (q : QuoteStyle) (name : List Char) :
    Quoted q (q.quoteName name) (name.splitOn '.') := by
  rw [quoteName, segments_eq_splitOn]
  obtain ⟨first, others, h⟩ := List.exists_cons_of_ne_nil (List.splitOn_ne_nil '.' name)
  rw [h]
  exact quoted_intercalate q first others

/-- A text is a quoted name in one way at most. -/
theorem Quoted.unique {text : List Char} {segments segments' : List (List Char)}
    (h : Quoted q text segments) (h' : Quoted q text segments') : segments = segments' := by
  have hread : q.readName (text ++ []) = some (segments, []) :=
    (readName_eq_some_iff (by simp) (by simp)).2 h
  have hread' : q.readName (text ++ []) = some (segments', []) :=
    (readName_eq_some_iff (by simp) (by simp)).2 h'
  rw [hread] at hread'
  exact congrArg Prod.fst (Option.some.inj hread')

end QuoteStyle

/-! ## Identifiers -/

namespace Compiler

/-- The name that is written for a name. -/
def transformed (c : Compiler) (name : String) : String :=
  match c.transform with
  | some transform => transform name
  | none => name

theorem toList_quoteIdentifier (c : Compiler) (name : String) :
    (c.quoteIdentifier name).toList = c.quote.quoteName (c.transformed name).toList := by
  rw [quoteIdentifier, String.toList_ofList]
  rfl

/-- **No name gets out of its quotes.** A written name is a quoted name of exactly the segments of
the transformed name. In front of any text that begins with neither the closing mark nor a dot, it
is read to its end and no further, and there is no other place to cut it off from that text. Two
names are written alike only if their transforms agree. -/
theorem quoteIdentifier_reads (c : Compiler) (name : String) :
    (∀ segments, c.quote.Quoted (c.quoteIdentifier name).toList segments ↔
      segments = (c.transformed name).toList.splitOn '.') ∧
    (∀ rest : List Char, rest.head? ≠ some c.quote.closing → rest.head? ≠ some '.' →
      c.quote.readName ((c.quoteIdentifier name).toList ++ rest) =
        some ((c.transformed name).toList.splitOn '.', rest) ∧
      ∀ text segments rest', c.quote.Quoted text segments →
        rest'.head? ≠ some c.quote.closing → rest'.head? ≠ some '.' →
        text ++ rest' = (c.quoteIdentifier name).toList ++ rest →
          text = (c.quoteIdentifier name).toList ∧ rest' = rest) ∧
    (∀ other, c.quoteIdentifier name = c.quoteIdentifier other ↔
      c.transformed name = c.transformed other) := by
  have hquoted : ∀ name, c.quote.Quoted (c.quoteIdentifier name).toList
      ((c.transformed name).toList.splitOn '.') := by
    intro name
    rw [toList_quoteIdentifier]
    exact QuoteStyle.quoted_quoteName _ _
  refine ⟨fun segments => ⟨fun h => h.unique (hquoted name), fun h => h ▸ hquoted name⟩, ?_, ?_⟩
  · intro rest hclosing hdot
    have hread := (QuoteStyle.readName_eq_some_iff hclosing hdot).2 (hquoted name)
    refine ⟨hread, ?_⟩
    intro text segments rest' htext hclosing' hdot' heq
    have hread' := (QuoteStyle.readName_eq_some_iff hclosing' hdot').2 htext
    rw [heq, hread] at hread'
    obtain rfl : rest = rest' := congrArg Prod.snd (Option.some.inj hread')
    exact ⟨List.append_cancel_right heq, rfl⟩
  · intro other
    constructor
    · intro h
      -- equal segments with dots between them are equal names
      have hsegments := (hquoted name).unique (h ▸ hquoted other)
      have hlist := congrArg (List.intercalate ['.']) hsegments
      rwa [List.intercalate_splitOn, List.intercalate_splitOn, String.toList_inj] at hlist
    · intro h
      rw [← String.toList_inj, toList_quoteIdentifier, toList_quoteIdentifier, h]

/-- A closing mark next to a dot, and a dot at the end. -/
example : (ofDialect .mssql).quoteIdentifier "a]." = "[a]]].[]" := by decide

end Compiler

end SqlClient
