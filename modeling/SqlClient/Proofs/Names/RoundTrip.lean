import Mathlib.Data.List.Basic
import SqlClient.Names
import SqlClient.Proofs.Text.Digits
/-!
# Names — which names come back

A preset changes the names of a database for the program, and those of the program for the database.
Neither change keeps all that a name says: a capital stands for an underscore with a letter behind it,
so an underscore that no letter follows is lost, and so is the difference between a first letter and
its capital. For the names that are usual on either side it is said which of them come back
(`names_come_back`). A name that does not come back is the name of something else.
-/

namespace SqlClient

namespace Unicode

variable {c : Char}

/-! ## Case in ASCII -/

/-- What holds of the first code points holds of the characters of ASCII. -/
theorem forall_ascii {P : Char → Prop} (h : ∀ n < 128, P (Char.ofNat n)) (hc : c.toNat < 128) :
    P c := by
  have hP := h c.toNat hc
  rwa [Char.ofNat_toNat] at hP

theorem ascii_of_isLower (hc : c.isLower = true) : c.toNat < 128 := by
  have hle : c.val ≤ 'z'.val := of_decide_eq_true (Bool.and_eq_true_iff.1 hc).2
  exact Nat.lt_of_le_of_lt (UInt32.le_iff_toNat_le.1 hle) (by decide)

theorem ascii_of_isUpper (hc : c.isUpper = true) : c.toNat < 128 := by
  have hle : c.val ≤ 'Z'.val := (of_decide_eq_true hc).2
  exact Nat.lt_of_le_of_lt (UInt32.le_iff_toNat_le.1 hle) (by decide)

theorem ascii_of_isDigit (hc : c.isDigit = true) : c.toNat < 128 :=
  Nat.lt_of_le_of_lt (toNat_of_isDigit hc).2 (by decide)

theorem isCapital_ascii (hc : c.toNat < 128) : isCapital c = c.isUpper := if_pos hc

theorem toCapital_ascii (hc : c.toNat < 128) : toCapital c = [c.toUpper] := if_pos hc

theorem toSmall_ascii (hc : c.toNat < 128) : toSmall c = [c.toLower] := if_pos hc

/-- A small letter has a capital, whose small form it is. -/
theorem toCapital_of_isLower (hc : c.isLower = true) :
    ∃ d, toCapital c = [d] ∧ isCapital d = true ∧ toSmall d = [c] := by
  have hascii := ascii_of_isLower hc
  have hcase : c.isLower = true →
      c.toUpper.toNat < 128 ∧ c.toUpper.isUpper = true ∧ c.toUpper.toLower = c :=
    forall_ascii (P := fun c => c.isLower = true →
      c.toUpper.toNat < 128 ∧ c.toUpper.isUpper = true ∧ c.toUpper.toLower = c) (by decide) hascii
  obtain ⟨hascii', hupper, hlower⟩ := hcase hc
  exact ⟨_, toCapital_ascii hascii, by rw [isCapital_ascii hascii', hupper],
    by rw [toSmall_ascii hascii', hlower]⟩

/-- A capital has a small letter, whose capital it is. -/
theorem toSmall_of_isUpper (hc : c.isUpper = true) :
    ∃ d, toSmall c = [d] ∧ d.isLower = true ∧ toCapital d = [c] := by
  have hascii := ascii_of_isUpper hc
  have hcase : c.isUpper = true →
      c.toLower.toNat < 128 ∧ c.toLower.isLower = true ∧ c.toLower.toUpper = c :=
    forall_ascii (P := fun c => c.isUpper = true →
      c.toLower.toNat < 128 ∧ c.toLower.isLower = true ∧ c.toLower.toUpper = c) (by decide) hascii
  obtain ⟨hascii', hlower, hupper⟩ := hcase hc
  exact ⟨_, toSmall_ascii hascii, hlower, by rw [toCapital_ascii hascii', hupper]⟩

/-- Other characters of ASCII have no case. -/
theorem toCapital_of_not_isLower (hascii : c.toNat < 128) (hc : c.isLower = false) :
    toCapital c = [c] := by
  have hcase : c.isLower = false → c.toUpper = c :=
    forall_ascii (P := fun c => c.isLower = false → c.toUpper = c) (by decide) hascii
  rw [toCapital_ascii hascii, hcase hc]

theorem toSmall_of_not_isUpper (hascii : c.toNat < 128) (hc : c.isUpper = false) :
    toSmall c = [c] := by
  have hcase : c.isUpper = false → c.toLower = c :=
    forall_ascii (P := fun c => c.isUpper = false → c.toLower = c) (by decide) hascii
  rw [toSmall_ascii hascii, hcase hc]

end Unicode

namespace Names

open Unicode (isCapital toCapital toSmall)

variable {c : Char} {cs : List Char}

/-! ## Small letters and capitals -/

theorem lowerChars_cons_capital (hc : isCapital c = true) (cs : List Char) :
    lowerChars (c :: cs) = '_' :: (toSmall c ++ lowerChars cs) := by
  rw [lowerChars, List.flatMap_cons, if_pos hc]
  rfl

theorem lowerChars_cons_other (hc : isCapital c = false) (cs : List Char) :
    lowerChars (c :: cs) = c :: lowerChars cs := by
  rw [lowerChars, List.flatMap_cons, if_neg (by rw [hc]; decide)]
  rfl

theorem raise_underscore (raised : Bool) (cs : List Char) : raise raised ('_' :: cs) = raise true cs := by
  rw [raise, if_pos rfl]

theorem raise_true_cons (hc : c ≠ '_') (cs : List Char) :
    raise true (c :: cs) = toCapital c ++ raise false cs := by
  rw [raise, if_neg hc, if_pos rfl]

theorem raise_false_cons (hc : c ≠ '_') (cs : List Char) :
    raise false (c :: cs) = c :: raise false cs := by
  rw [raise, if_neg hc, if_neg (by decide)]

theorem ne_underscore_of_isLower (hc : c.isLower = true) : c ≠ '_' :=
  fun h => absurd (h ▸ hc) (by decide)

theorem ne_underscore_of_isDigit (hc : c.isDigit = true) : c ≠ '_' :=
  fun h => absurd (h ▸ hc) (by decide)

/-! ## Snake case and back -/

/-- A character of snake case: a small letter, a digit or an underscore. -/
def IsSnake (c : Char) : Prop := c.isLower = true ∨ c.isDigit = true ∨ c = '_'

instance : DecidablePred IsSnake := fun c =>
  inferInstanceAs (Decidable (c.isLower = true ∨ c.isDigit = true ∨ c = '_'))

/-- Every underscore has a letter right behind it. -/
def Followed (cs : List Char) : Prop :=
  ∀ i, cs[i]? = some '_' → cs[i + 1]?.any Char.isAlpha = true

theorem followed_nil : Followed [] := fun i hi => by cases hi

theorem followed_cons : Followed (c :: cs) ↔
    (c = '_' → cs[0]?.any Char.isAlpha = true) ∧ Followed cs := by
  constructor
  · intro h
    exact ⟨fun hc => h 0 (by rw [hc]; rfl), fun i => h (i + 1)⟩
  · rintro ⟨hfirst, h⟩ i hi
    cases i with
    | zero => exact hfirst (Option.some.inj hi)
    | succ i => exact h i hi

instance decidableFollowed : DecidablePred Followed
  | [] => .isTrue followed_nil
  | _ :: cs => have := decidableFollowed cs; decidable_of_iff' _ followed_cons

theorem followed_cons_of_ne (hc : c ≠ '_') : Followed (c :: cs) ↔ Followed cs := by
  rw [followed_cons, and_iff_right fun h => absurd h hc]

theorem IsSnake.ascii (hc : IsSnake c) : c.toNat < 128 := by
  rcases hc with h | h | rfl
  · exact Unicode.ascii_of_isLower h
  · exact Unicode.ascii_of_isDigit h
  · decide

theorem IsSnake.isCapital_eq (hc : IsSnake c) : isCapital c = false := by
  rw [Unicode.isCapital_ascii hc.ascii]
  exact Unicode.forall_ascii (P := fun c => IsSnake c → c.isUpper = false) (by decide) hc.ascii hc

theorem IsSnake.toSmall_eq (hc : IsSnake c) : toSmall c = [c] := by
  refine Unicode.toSmall_of_not_isUpper hc.ascii ?_
  rw [← Unicode.isCapital_ascii hc.ascii, hc.isCapital_eq]

/-- Where no underscore is pending, a character stays. -/
theorem lowerChars_raise_false (hc : IsSnake c) (hne : c ≠ '_') (cs : List Char) :
    lowerChars (raise false (c :: cs)) = c :: lowerChars (raise false cs) := by
  rw [raise_false_cons hne, lowerChars_cons_other hc.isCapital_eq]

/-- A letter behind an underscore brings it back. -/
theorem lowerChars_raise_true_letter (hc : c.isLower = true) (cs : List Char) :
    lowerChars (raise true (c :: cs)) = '_' :: c :: lowerChars (raise false cs) := by
  obtain ⟨d, hcapital, hd, hsmall⟩ := Unicode.toCapital_of_isLower hc
  rw [raise_true_cons (ne_underscore_of_isLower hc), hcapital, List.singleton_append,
    lowerChars_cons_capital hd, hsmall]
  rfl

/-- Another character behind an underscore does not. -/
theorem lowerChars_raise_true_digit (hc : c.isDigit = true) (cs : List Char) :
    lowerChars (raise true (c :: cs)) = c :: lowerChars (raise false cs) := by
  have hsnake : IsSnake c := .inr (.inl hc)
  have hlower : c.isLower = false :=
    Unicode.forall_ascii (P := fun c => c.isDigit = true → c.isLower = false) (by decide)
      hsnake.ascii hc
  rw [raise_true_cons (ne_underscore_of_isDigit hc), Unicode.toCapital_of_not_isLower hsnake.ascii hlower,
    List.singleton_append, lowerChars_cons_other hsnake.isCapital_eq]

/-- What is left of a name has no more characters than the name with its pending underscore. -/
theorem length_lowerChars_raise (h : ∀ c ∈ cs, IsSnake c) (raised : Bool) :
    (lowerChars (raise raised cs)).length ≤ cs.length + raised.toNat := by
  induction cs generalizing raised with
  | nil => exact Nat.zero_le _
  | cons c cs ih =>
    obtain ⟨hc, hcs⟩ := List.forall_mem_cons.1 h
    have htrue := ih hcs true
    have hfalse := ih hcs false
    simp only [Bool.toNat_true, Bool.toNat_false] at htrue hfalse
    -- an underscore that is taken off comes back before the capital behind it, if at all
    by_cases hunderscore : c = '_'
    · subst hunderscore
      rw [raise_underscore, List.length_cons]
      omega
    · cases raised with
      | false =>
        rw [lowerChars_raise_false hc hunderscore, List.length_cons, List.length_cons]
        omega
      | true =>
        rcases hc with hletter | hdigit | h
        · rw [lowerChars_raise_true_letter hletter]
          simp only [List.length_cons, Bool.toNat_true]
          omega
        · rw [lowerChars_raise_true_digit hdigit]
          simp only [List.length_cons, Bool.toNat_true]
          omega
        · exact absurd h hunderscore

/-- **An underscore comes back if a letter follows it.** Without a pending underscore it is the name
that comes back, and with one the name behind an underscore. -/
theorem lowerChars_raise_iff (h : ∀ c ∈ cs, IsSnake c) :
    (lowerChars (raise false cs) = cs ↔ Followed cs) ∧
      (lowerChars (raise true cs) = '_' :: cs ↔ Followed ('_' :: cs)) := by
  induction cs with
  | nil =>
    refine ⟨iff_of_true rfl followed_nil, iff_of_false (fun h => by cases h) fun h => ?_⟩
    cases (followed_cons.1 h).1 rfl
  | cons c cs ih =>
    obtain ⟨hc, hcs⟩ := List.forall_mem_cons.1 h
    obtain ⟨hfalse, htrue⟩ := ih hcs
    -- a pending underscore asks for a letter, which neither a digit nor an underscore is
    have hpending : Followed ('_' :: c :: cs) ↔ c.isAlpha = true ∧ Followed (c :: cs) := by
      rw [followed_cons]
      exact and_congr_left' ⟨fun h => h rfl, fun h _ => h⟩
    rcases hc with hletter | hdigit | rfl
    · have hne := ne_underscore_of_isLower hletter
      have halpha : c.isAlpha = true := Bool.or_eq_true_iff.2 (.inr hletter)
      rw [hpending, followed_cons_of_ne hne, and_iff_right halpha,
        lowerChars_raise_false (.inl hletter) hne, lowerChars_raise_true_letter hletter,
        List.cons_inj_right, List.cons_inj_right, List.cons_inj_right]
      exact ⟨hfalse, hfalse⟩
    · have hne := ne_underscore_of_isDigit hdigit
      have halpha : c.isAlpha = false :=
        Unicode.forall_ascii (P := fun c => c.isDigit = true → c.isAlpha = false) (by decide)
          (Unicode.ascii_of_isDigit hdigit) hdigit
      rw [hpending, followed_cons_of_ne hne, halpha, lowerChars_raise_false (.inr (.inl hdigit)) hne,
        lowerChars_raise_true_digit hdigit, List.cons_inj_right]
      exact ⟨hfalse, iff_of_false (fun h => hne (List.head_eq_of_cons_eq h)) fun h => by cases h.1⟩
    · rw [hpending, raise_underscore, raise_underscore]
      refine ⟨htrue, iff_of_false (fun h => ?_) fun h => absurd h.1 (by decide)⟩
      have hlength := length_lowerChars_raise hcs true
      rw [h, List.length_cons, List.length_cons, Bool.toNat_true] at hlength
      omega

/-- The first character of a name stays, whatever it is. -/
theorem lowerChars_camelChars_iff (h : ∀ c ∈ cs, IsSnake c) :
    lowerChars (camelChars cs) = cs ↔ Followed (cs.drop 1) := by
  cases cs with
  | nil => exact iff_of_true rfl followed_nil
  | cons c cs =>
    obtain ⟨hc, hcs⟩ := List.forall_mem_cons.1 h
    rw [camelChars, lowerChars_cons_other hc.isCapital_eq, List.cons_inj_right]
    exact (lowerChars_raise_iff hcs).1

/-- The first character of a name comes back from its capital. -/
theorem unpascalChars_pascalChars_iff (h : ∀ c ∈ cs, IsSnake c) :
    unpascalChars (pascalChars cs) = cs ↔ Followed (cs.drop 1) := by
  cases cs with
  | nil => exact iff_of_true rfl followed_nil
  | cons c cs =>
    obtain ⟨hc, hcs⟩ := List.forall_mem_cons.1 h
    have hcapital : ∃ d, toCapital c = [d] ∧ toSmall d = [c] := by
      cases hlower : c.isLower with
      | true =>
        obtain ⟨d, hcapital, -, hsmall⟩ := Unicode.toCapital_of_isLower hlower
        exact ⟨d, hcapital, hsmall⟩
      | false => exact ⟨c, Unicode.toCapital_of_not_isLower hc.ascii hlower, hc.toSmall_eq⟩
    obtain ⟨d, hd, hsmall⟩ := hcapital
    rw [pascalChars, camelChars]
    simp only [hd, List.singleton_append, unpascalChars, hsmall, List.cons_inj_right]
    exact (lowerChars_raise_iff hcs).1

/-! ## Letters and digits and back -/

theorem ascii_of_isAlphanum (hc : c.isAlphanum = true) : c.toNat < 128 := by
  rcases Bool.or_eq_true_iff.1 hc with hletter | hdigit
  · rcases Bool.or_eq_true_iff.1 hletter with hupper | hlower
    · exact Unicode.ascii_of_isUpper hupper
    · exact Unicode.ascii_of_isLower hlower
  · exact Unicode.ascii_of_isDigit hdigit

theorem ne_underscore_of_isAlphanum (hc : c.isAlphanum = true) : c ≠ '_' :=
  fun h => absurd (h ▸ hc) (by decide)

/-- **A capital comes back.** It is the letter behind its underscore. -/
theorem raise_lowerChars (h : ∀ c ∈ cs, c.isAlphanum = true) : raise false (lowerChars cs) = cs := by
  induction cs with
  | nil => rfl
  | cons c cs ih =>
    obtain ⟨hc, hcs⟩ := List.forall_mem_cons.1 h
    cases hupper : c.isUpper with
    | true =>
      obtain ⟨d, hsmall, hlower, hcapital⟩ := Unicode.toSmall_of_isUpper hupper
      rw [lowerChars_cons_capital (by rw [Unicode.isCapital_ascii (ascii_of_isAlphanum hc), hupper]),
        hsmall, raise_underscore, List.singleton_append,
        raise_true_cons (ne_underscore_of_isLower hlower), hcapital, List.singleton_append, ih hcs]
    | false =>
      rw [lowerChars_cons_other (by rw [Unicode.isCapital_ascii (ascii_of_isAlphanum hc), hupper]),
        raise_false_cons (ne_underscore_of_isAlphanum hc), ih hcs]

/-- A capital in front puts an underscore there, which stays. -/
theorem camelChars_lowerChars_iff (h : ∀ c ∈ cs, c.isAlphanum = true) :
    camelChars (lowerChars cs) = cs ↔ ∀ c ∈ cs.head?, c.isUpper = false := by
  cases cs with
  | nil => exact iff_of_true rfl fun c hc => by cases hc
  | cons c cs =>
    obtain ⟨hc, hcs⟩ := List.forall_mem_cons.1 h
    have hcapital := Unicode.isCapital_ascii (ascii_of_isAlphanum hc)
    simp only [List.head?_cons, Option.mem_some_iff, forall_eq']
    cases hupper : c.isUpper with
    | true =>
      rw [lowerChars_cons_capital (hcapital.trans hupper), camelChars]
      refine iff_of_false (fun h => ?_) (by decide)
      exact ne_underscore_of_isAlphanum hc (List.head_eq_of_cons_eq h).symm
    | false =>
      rw [lowerChars_cons_other (hcapital.trans hupper), camelChars, raise_lowerChars hcs]
      exact iff_of_true rfl rfl

/-- A small letter in front comes back as a capital. -/
theorem pascalChars_unpascalChars_iff (h : ∀ c ∈ cs, c.isAlphanum = true) :
    pascalChars (unpascalChars cs) = cs ↔ ∀ c ∈ cs.head?, c.isLower = false := by
  cases cs with
  | nil => exact iff_of_true rfl fun c hc => by cases hc
  | cons c cs =>
    obtain ⟨hc, hcs⟩ := List.forall_mem_cons.1 h
    have hascii := ascii_of_isAlphanum hc
    simp only [List.head?_cons, Option.mem_some_iff, forall_eq']
    -- the first character as it comes back
    have hfirst : ∀ d, toSmall c = [d] →
        pascalChars (unpascalChars (c :: cs)) = toCapital d ++ cs := by
      intro d hd
      rw [unpascalChars, hd, List.singleton_append, pascalChars, camelChars, raise_lowerChars hcs]
    cases hupper : c.isUpper with
    | true =>
      obtain ⟨d, hsmall, -, hcapital⟩ := Unicode.toSmall_of_isUpper hupper
      have hlower : c.isLower = false :=
        Unicode.forall_ascii (P := fun c => c.isUpper = true → c.isLower = false) (by decide)
          hascii hupper
      rw [hfirst d hsmall, hcapital]
      exact iff_of_true rfl hlower
    | false =>
      rw [hfirst c (Unicode.toSmall_of_not_isUpper hascii hupper)]
      cases hlower : c.isLower with
      | true =>
        obtain ⟨d, hcapital, hd, -⟩ := Unicode.toCapital_of_isLower hlower
        rw [hcapital]
        refine iff_of_false (fun h => ?_) (by decide)
        rw [List.head_eq_of_cons_eq h, Unicode.isCapital_ascii hascii, hupper] at hd
        cases hd
      | false =>
        rw [Unicode.toCapital_of_not_isLower hascii hlower]
        exact iff_of_true rfl rfl

/-! ## Kebab case and back -/

/-- A hyphen comes back as an underscore, and every other character as itself. -/
theorem fromKebab_toKebab_iff (name : String) :
    fromKebab (toKebab name) = name ↔ '-' ∉ name.toList := by
  have hchar : ∀ c : Char, (if (if c = '_' then '-' else c) = '-' then '_' else
      if c = '_' then '-' else c) = c ↔ c ≠ '-' := by
    intro c
    by_cases hunderscore : c = '_'
    · subst hunderscore
      decide
    · rw [if_neg hunderscore]
      by_cases hhyphen : c = '-'
      · subst hhyphen
        decide
      · rw [if_neg hhyphen]
        exact iff_of_true rfl hhyphen
  have hmap (g : Char → Char) : name.toList.map g = name.toList ↔ ∀ c ∈ name.toList, g c = c := by
    have h := List.map_inj_left (l := name.toList) (f := g) (g := id)
    rwa [List.map_id] at h
  rw [fromKebab, toKebab, replaceChar, replaceChar, ← String.toList_inj, String.toList_ofList,
    String.toList_ofList, List.map_map, hmap]
  refine (forall₂_congr fun c _ => hchar c).trans ?_
  exact ⟨fun h hmem => h _ hmem rfl, fun h c hc heq => h (heq ▸ hc)⟩

/-! ## The presets -/

theorem fromCamel_toCamel_iff {name : String} (h : ∀ c ∈ name.toList, IsSnake c) :
    fromCamel (toCamel name) = name ↔ Followed (name.toList.drop 1) := by
  rw [← lowerChars_camelChars_iff h, fromCamel, toCamel, ← String.toList_inj, String.toList_ofList,
    String.toList_ofList]

theorem fromPascal_toPascal_iff {name : String} (h : ∀ c ∈ name.toList, IsSnake c) :
    fromPascal (toPascal name) = name ↔ Followed (name.toList.drop 1) := by
  rw [← unpascalChars_pascalChars_iff h, fromPascal, toPascal, ← String.toList_inj,
    String.toList_ofList, String.toList_ofList]

theorem toCamel_fromCamel_iff {name : String} (h : ∀ c ∈ name.toList, c.isAlphanum = true) :
    toCamel (fromCamel name) = name ↔ ∀ c ∈ name.toList.head?, c.isUpper = false := by
  rw [← camelChars_lowerChars_iff h, fromCamel, toCamel, ← String.toList_inj, String.toList_ofList,
    String.toList_ofList]

theorem toPascal_fromPascal_iff {name : String} (h : ∀ c ∈ name.toList, c.isAlphanum = true) :
    toPascal (fromPascal name) = name ↔ ∀ c ∈ name.toList.head?, c.isLower = false := by
  rw [← pascalChars_unpascalChars_iff h, fromPascal, toPascal, ← String.toList_inj,
    String.toList_ofList, String.toList_ofList]

end Names

namespace NameTransforms

open Names (IsSnake Followed)

/-- A name of the program as the database has it. -/
def outgoing (transforms : NameTransforms) (name : String) : String :=
  (transforms.query.getD id) name

/-- A name of the database as the program has it. -/
def incoming (transforms : NameTransforms) (name : String) : String :=
  (transforms.result.getD id) name

/-- **Names that come back.** A name in snake case comes back from camel case and from Pascal case
exactly if every underscore behind its first character has a letter right behind it. A name of letters
and digits comes back from the database exactly if its first character is no capital, for camel case,
and no small letter, for Pascal case. A name comes back from kebab case exactly if it has no hyphen. -/
theorem names_come_back :
    (∀ name : String, (∀ c ∈ name.toList, IsSnake c) →
      (camelCase.outgoing (camelCase.incoming name) = name ↔ Followed (name.toList.drop 1)) ∧
      (pascalCase.outgoing (pascalCase.incoming name) = name ↔ Followed (name.toList.drop 1))) ∧
    (∀ name : String, (∀ c ∈ name.toList, c.isAlphanum = true) →
      (camelCase.incoming (camelCase.outgoing name) = name ↔
        ∀ c ∈ name.toList.head?, c.isUpper = false) ∧
      (pascalCase.incoming (pascalCase.outgoing name) = name ↔
        ∀ c ∈ name.toList.head?, c.isLower = false)) ∧
    ∀ name : String, kebabCase.outgoing (kebabCase.incoming name) = name ↔ '-' ∉ name.toList :=
  ⟨fun _ h => ⟨Names.fromCamel_toCamel_iff h, Names.fromPascal_toPascal_iff h⟩,
    fun _ h => ⟨Names.toCamel_fromCamel_iff h, Names.toPascal_fromPascal_iff h⟩,
    Names.fromKebab_toKebab_iff⟩

/-- The underscore in front of `_user_id` is kept by its place, and the one of `user_2` is lost. -/
theorem names_come_back_underscores :
    camelCase.outgoing (camelCase.incoming "_user_id") = "_user_id" ∧
      pascalCase.outgoing (pascalCase.incoming "user_2") ≠ "user_2" ∧
      camelCase.incoming (camelCase.outgoing "userId2") = "userId2" ∧
      kebabCase.outgoing (kebabCase.incoming "user-id") ≠ "user-id" := by
  obtain ⟨hsnake, hprogram, hkebab⟩ := names_come_back
  have hsnake₁ : ∀ c ∈ "_user_id".toList, IsSnake c := List.forall_iff_forall_mem.1 (by decide)
  have hsnake₂ : ∀ c ∈ "user_2".toList, IsSnake c := List.forall_iff_forall_mem.1 (by decide)
  have halnum : ∀ c ∈ "userId2".toList, c.isAlphanum = true :=
    List.forall_iff_forall_mem.1 (by decide)
  refine ⟨(hsnake "_user_id" hsnake₁).1.2 (by decide), fun h => ?_,
    (hprogram "userId2" halnum).1.2 ?_, fun h => (hkebab "user-id").1 h (by decide)⟩
  · exact absurd ((hsnake "user_2" hsnake₂).2.1 h) (by decide)
  · rintro _ ⟨⟩
    rfl

end NameTransforms

end SqlClient
