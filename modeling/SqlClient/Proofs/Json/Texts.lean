import Std.Data.String.ToInt
import SqlClient.Json.Read
import SqlClient.Json.Write
import SqlClient.Proofs.Lists
import SqlClient.Proofs.Number.Texts
import SqlClient.Shape
/-!
# JSON — the text of a document

The compact text of a document tells which document it is (`eq_of_write_eq`). Strings and the items of
arrays and objects say where they end, and numbers end where a character comes that no number has. So a
text with more behind it can be taken apart in one way only (`chars_inj`).
-/

namespace SqlClient

namespace Json

/-! ## Finite documents -/

mutual

/-- Every double of the document is a finite number. -/
def Finite : Json → Prop
  | .number (.double x) => x.isFinite = true
  | .array items => FiniteItems items
  | .object members => FiniteMembers members
  | _ => True

/-- Every item is finite. -/
def FiniteItems : List Json → Prop
  | [] => True
  | x :: xs => Finite x ∧ FiniteItems xs

/-- Every member is finite. -/
def FiniteMembers : List (String × Json) → Prop
  | [] => True
  | (_, x) :: xs => Finite x ∧ FiniteMembers xs

end

/-! ## Numbers -/

open DoubleLayout (isNumeric)

theorem isNumeric_toString {i : Int} {c : Char} (hc : c ∈ (toString i).toList) :
    c.isDigit = true ∨ c = '-' := by
  rw [Int.toString_eq_repr, Int.repr_eq_if] at hc
  split at hc
  · exact .inl (isDigit_toString hc)
  · rw [String.toList_append] at hc
    rcases List.mem_append.1 hc with hc | hc
    · exact .inr (List.mem_singleton.1 hc)
    · exact .inl (isDigit_toString hc)

/-- A number that is finite, if it is a double. -/
def FiniteNumber (n : JsonNumber) : Prop := Finite (.number n)

variable {n m : JsonNumber}

theorem isNumeric_writeNumber (hn : FiniteNumber n) {c : Char} (hc : c ∈ (writeNumber n).toList) :
    isNumeric c = true := by
  cases n with
  | int i =>
    rcases isNumeric_toString hc with hc | rfl
    · exact DoubleLayout.isNumeric_of_isDigit hc
    · rfl
  | double x =>
    have hx : x.isFinite = true := hn
    rw [writeNumber, if_pos hx] at hc
    exact doubleLayout.isNumeric_write hc

theorem writeNumber_ne_nil (hn : FiniteNumber n) : (writeNumber n).toList ≠ [] := by
  cases n with
  | int i =>
    rw [writeNumber, Int.toString_eq_repr, Int.repr_eq_if]
    split
    · exact toString_ne_nil _
    · simp
  | double x =>
    have hx : x.isFinite = true := hn
    rw [writeNumber, if_pos hx]
    exact (doubleLayout.marked_write x).elim List.ne_nil_of_mem List.ne_nil_of_mem

/-- An integer and a double have different texts. -/
theorem writeNumber_int_ne (i : Int) (x : Double) : toString i ≠ doubleLayout.write x := by
  intro h
  have hmarked := doubleLayout.marked_write x
  rw [← h] at hmarked
  rcases hmarked with h | h <;> rcases isNumeric_toString h with h | h <;> cases h

/-- The text of a number tells which one it is. -/
theorem writeNumber_inj (hn : FiniteNumber n) (hm : FiniteNumber m) (h : writeNumber n = writeNumber m) :
    n = m := by
  cases n with
  | int i =>
    cases m with
    | int j => exact congrArg _ (Int.repr_injective h)
    | double y =>
      have hy : y.isFinite = true := hm
      rw [writeNumber, writeNumber, if_pos hy] at h
      exact absurd h (writeNumber_int_ne i y)
  | double x =>
    have hx : x.isFinite = true := hn
    cases m with
    | int j =>
      rw [writeNumber, writeNumber, if_pos hx] at h
      exact absurd h.symm (writeNumber_int_ne j x)
    | double y =>
      have hy : y.isFinite = true := hm
      rw [writeNumber, writeNumber, if_pos hx, if_pos hy] at h
      exact congrArg _ (doubleLayout.write_injective h)

/-! ## Strings -/

theorem hexValue?_hexDigit : ∀ n < 16, hexValue? (hexDigit n) = some n := by decide

theorem readUnit_hexDigits {n : Nat} (hn : n < 65536) (rest : List Char) :
    readUnit (hexDigits 4 n ++ rest) = some (n, rest) := by
  have hdigits : hexDigits 4 n ++ rest = hexDigit (n / 16 / 16 / 16 % 16) ::
      hexDigit (n / 16 / 16 % 16) :: hexDigit (n / 16 % 16) :: hexDigit (n % 16) :: rest := rfl
  have hvalue (k : Nat) : hexValue? (hexDigit (k % 16)) = some (k % 16) :=
    hexValue?_hexDigit _ (Nat.mod_lt _ (by decide))
  have hsum : n / 16 / 16 / 16 % 16 * 4096 + n / 16 / 16 % 16 * 256 + n / 16 % 16 * 16 + n % 16 = n := by
    omega
  rw [hdigits, readUnit, hvalue, hvalue, hvalue, hvalue]
  exact congrArg (fun n => some (n, rest)) hsum

section Read

variable {c : Char} (fuel : Nat) (acc rest : List Char)

/-- A control character is written by its number. -/
theorem readString_unit (hc : c.toNat < 32) :
    readString (fuel + 1) acc (['\\', 'u'] ++ hexDigits 4 c.toNat ++ rest) =
      readString fuel (c :: acc) rest := by
  have hread : readEscapedUnit (hexDigits 4 c.toNat ++ rest) = some (c, rest) := by
    rw [readEscapedUnit, readUnit_hexDigits (by omega)]
    dsimp only
    rw [if_neg (by omega), if_neg (by omega), Char.ofNat_toNat]
  rw [List.append_assoc, List.cons_append, List.cons_append, List.nil_append, readString, hread]

/-- Most characters are written as they are. -/
theorem readString_plain (hquote : c ≠ '"') (hslash : c ≠ '\\') (hc : ¬ c.toNat < 32) :
    readString (fuel + 1) acc (c :: rest) = readString fuel (c :: acc) rest := by
  rw [readString.eq_def]
  dsimp only
  split
  case h_1 h => cases h
  case h_2 h => exact absurd (List.cons.inj h).1 hquote
  case h_3 h => exact absurd (List.cons.inj h).1 hslash
  case h_4 h => exact absurd (List.cons.inj h).1 hslash
  case h_5 h =>
    obtain ⟨rfl, rfl⟩ := List.cons.inj h
    rw [if_neg]
    simpa [hslash] using hc

/-- **What a character is written as is read as that character.** -/
theorem readString_escapeChar (c : Char) :
    readString (fuel + 1) acc (escapeChar c ++ rest) = readString fuel (c :: acc) rest := by
  rw [escapeChar]
  split_ifs with hquote hslash hnewline hreturn htab hbackspace hfeed hcontrol
  · subst hquote
    rfl
  · subst hslash
    rfl
  · subst hnewline
    rfl
  · subst hreturn
    rfl
  · subst htab
    rfl
  · obtain rfl : c = '\x08' := Char.toNat_inj.1 hbackspace
    rfl
  · obtain rfl : c = '\x0c' := Char.toNat_inj.1 hfeed
    rfl
  · exact readString_unit fuel acc rest hcontrol
  · exact readString_plain fuel acc rest hquote hslash hcontrol

theorem readString_flatMap {s : List Char} (hfuel : s.length < fuel) :
    readString fuel acc (s.flatMap escapeChar ++ '"' :: rest) =
      some (String.ofList (acc.reverse ++ s), rest) := by
  induction s generalizing fuel acc with
  | nil =>
    obtain ⟨fuel, rfl⟩ := Nat.exists_eq_add_one_of_ne_zero hfuel.ne'
    rw [List.append_nil]
    rfl
  | cons c s ih =>
    obtain ⟨fuel, rfl⟩ := Nat.exists_eq_add_one_of_ne_zero (Nat.ne_zero_of_lt hfuel)
    rw [List.flatMap_cons, List.append_assoc, readString_escapeChar, ih _ _ (Nat.lt_of_succ_lt_succ hfuel)]
    simp

end Read

theorem toList_writeString (s : String) :
    (writeString s).toList = '"' :: (s.toList.flatMap escapeChar ++ ['"']) := by
  simp [writeString]

/-- Strings end at their quotes. -/
theorem writeString_append_inj {s t : String} {r r' : List Char}
    (h : (writeString s).toList ++ r = (writeString t).toList ++ r') : s = t ∧ r = r' := by
  rw [toList_writeString, toList_writeString, List.cons_append, List.cons_append, List.append_assoc,
    List.append_assoc] at h
  have hs := readString_flatMap (s.toList.length + t.toList.length + 1) [] r (s := s.toList) (by omega)
  have ht := readString_flatMap (s.toList.length + t.toList.length + 1) [] r' (s := t.toList) (by omega)
  rw [← List.singleton_append, (List.cons.inj h).2, List.singleton_append, ht] at hs
  obtain ⟨hst, hr⟩ := Prod.mk.inj (Option.some.inj hs)
  simp only [List.reverse_nil, List.nil_append, String.ofList_toList] at hst
  exact ⟨hst.symm, hr.symm⟩

/-! ## Documents -/

mutual

/-- The text of a document. -/
def chars : Json → List Char
  | .null => ['n', 'u', 'l', 'l']
  | .bool b => (if b then "true" else "false").toList
  | .number n => (writeNumber n).toList
  | .string s => (writeString s).toList
  | .array [] => ['[', ']']
  | .array (x :: xs) => '[' :: (chars x ++ charsItems xs)
  | .object [] => ['\x7b', '\x7d']
  | .object ((k, x) :: xs) => '\x7b' :: ((writeString k).toList ++ ':' :: (chars x ++ charsMembers xs))

/-- The text of the items after the first, up to the end of the array. -/
def charsItems : List Json → List Char
  | [] => [']']
  | x :: xs => ',' :: (chars x ++ charsItems xs)

/-- The text of the members after the first, up to the end of the object. -/
def charsMembers : List (String × Json) → List Char
  | [] => ['\x7d']
  | (k, x) :: xs => ',' :: ((writeString k).toList ++ ':' :: (chars x ++ charsMembers xs))

end

mutual

theorem toList_writeOnto : ∀ (out : String) (j : Json), (writeOnto out j).toList = out.toList ++ chars j
  | out, .null => by simp [writeOnto, chars]
  | out, .bool b => by cases b <;> simp [writeOnto, chars]
  | out, .number n => by simp [writeOnto, chars]
  | out, .string s => by simp [writeOnto, chars]
  | out, .array [] => by simp [writeOnto, chars]
  | out, .array (x :: xs) => by
    rw [writeOnto, toList_writeItems, toList_writeOnto _ x, chars]
    simp
  | out, .object [] => by simp [writeOnto, chars]
  | out, .object ((k, x) :: xs) => by
    rw [writeOnto, toList_writeMembers, toList_writeOnto _ x, chars]
    simp

theorem toList_writeItems : ∀ (out : String) (xs : List Json),
    (writeItems out xs ++ "]").toList = out.toList ++ charsItems xs
  | out, [] => by simp [writeItems, charsItems]
  | out, x :: xs => by
    rw [writeItems, toList_writeItems, toList_writeOnto _ x, charsItems]
    simp

theorem toList_writeMembers : ∀ (out : String) (xs : List (String × Json)),
    (writeMembers out xs ++ "\x7d").toList = out.toList ++ charsMembers xs
  | out, [] => by simp [writeMembers, charsMembers]
  | out, (k, x) :: xs => by
    rw [writeMembers, toList_writeMembers, toList_writeOnto _ x, charsMembers]
    simp

end

/-- The kinds of documents, which the first characters of their texts tell. -/
inductive Kind
  | null | bool | number | string | array | object
deriving DecidableEq

/-- The kind of a document. -/
def kind : Json → Kind
  | .null => .null
  | .bool _ => .bool
  | .number _ => .number
  | .string _ => .string
  | .array _ => .array
  | .object _ => .object

/-- The kind of the documents that begin with a character. -/
def kindOf (c : Char) : Kind :=
  if c = 'n' then .null
  else if c = 't' ∨ c = 'f' then .bool
  else if c = '"' then .string
  else if c = '[' then .array
  else if c = '\x7b' then .object
  else .number

theorem kindOf_of_isNumeric {c : Char} (hc : isNumeric c = true) : kindOf c = .number := by
  have hne (c' : Char) (hc' : isNumeric c' = false) : c ≠ c' := by
    rintro rfl
    rw [hc] at hc'
    cases hc'
  rw [kindOf, if_neg (hne 'n' rfl), if_neg (not_or.2 ⟨hne 't' rfl, hne 'f' rfl⟩), if_neg (hne '"' rfl),
    if_neg (hne '[' rfl), if_neg (hne '\x7b' rfl)]

theorem head_chars {j : Json} (hj : j.Finite) : ∃ c cs, j.chars = c :: cs ∧ kindOf c = j.kind ∧ c ≠ ']' := by
  cases j with
  | null => exact ⟨'n', _, rfl, rfl, by decide⟩
  | bool b =>
    cases b with
    | true => exact ⟨'t', _, rfl, rfl, by decide⟩
    | false => exact ⟨'f', _, rfl, rfl, by decide⟩
  | number n =>
    obtain ⟨c, cs, htext⟩ := List.exists_cons_of_ne_nil (writeNumber_ne_nil hj)
    have hc : isNumeric c = true := isNumeric_writeNumber hj (htext ▸ .head _)
    refine ⟨c, cs, by rw [chars, htext], kindOf_of_isNumeric hc, ?_⟩
    rintro rfl
    cases hc
  | string s => exact ⟨'"', _, by rw [chars, toList_writeString], rfl, by decide⟩
  | array xs =>
    cases xs with
    | nil => exact ⟨'[', _, by rw [chars], rfl, by decide⟩
    | cons x xs => exact ⟨'[', _, by rw [chars], rfl, by decide⟩
  | object xs =>
    cases xs with
    | nil => exact ⟨'\x7b', _, by rw [chars], rfl, by decide⟩
    | cons x xs => exact ⟨'\x7b', _, by rw [chars], rfl, by decide⟩

/-- No number goes on with a text. -/
def Ends (r : List Char) : Prop := ∀ c ∈ r.head?, isNumeric c = false

theorem ends_charsItems (xs : List Json) (r : List Char) : Ends (charsItems xs ++ r) := by
  cases xs with
  | nil =>
    rintro _ ⟨⟩
    rfl
  | cons x xs =>
    rw [charsItems]
    rintro _ ⟨⟩
    rfl

theorem ends_charsMembers (xs : List (String × Json)) (r : List Char) : Ends (charsMembers xs ++ r) := by
  cases xs with
  | nil =>
    rintro _ ⟨⟩
    rfl
  | cons x xs =>
    rw [charsMembers]
    rintro _ ⟨⟩
    rfl

theorem kind_eq_of_chars {j k : Json} {r r' : List Char} (hj : j.Finite) (hk : k.Finite)
    (h : j.chars ++ r = k.chars ++ r') : j.kind = k.kind := by
  obtain ⟨c, cs, hc, hkind, -⟩ := head_chars hj
  obtain ⟨c', cs', hc', hkind', -⟩ := head_chars hk
  rw [hc, hc', List.cons_append, List.cons_append] at h
  rw [← hkind, ← hkind', (List.cons.inj h).1]

/-- An array that has items does not end at once. -/
theorem bracket_ne {j : Json} (hj : j.Finite) {r r' : List Char} : ']' :: r ≠ chars j ++ r' := by
  obtain ⟨c, cs, htext, -, hne⟩ := head_chars hj
  rw [htext, List.cons_append]
  exact fun h => hne (List.cons.inj h).1.symm

mutual

/-- **A text that begins with a document can be taken apart in one way only.** -/
theorem chars_inj : ∀ (j k : Json) {r r' : List Char}, j.Finite → k.Finite → Ends r → Ends r' →
    j.chars ++ r = k.chars ++ r' → j = k ∧ r = r'
  | .null, k, r, r', hj, hk, hr, hr', h => by
    have hkind := kind_eq_of_chars hj hk h
    cases k with
    | null => exact ⟨rfl, List.append_cancel_left h⟩
    | _ => cases hkind
  | .bool b, k, r, r', hj, hk, hr, hr', h => by
    have hkind := kind_eq_of_chars hj hk h
    cases k with
    | bool b' =>
      cases b <;> cases b'
      · exact ⟨rfl, List.append_cancel_left h⟩
      · cases (List.cons.inj h).1
      · cases (List.cons.inj h).1
      · exact ⟨rfl, List.append_cancel_left h⟩
    | _ => cases hkind
  | .number n, k, r, r', hj, hk, hr, hr', h => by
    have hkind := kind_eq_of_chars hj hk h
    cases k with
    | number m =>
      -- a number has no end of its own: what follows it begins with no character of numbers
      obtain ⟨htext, hrest⟩ := append_inj_of_forall (fun _ hc => isNumeric_writeNumber hj hc)
        (fun _ hc => isNumeric_writeNumber hk hc) hr hr' h
      exact ⟨congrArg _ (writeNumber_inj hj hk (String.toList_inj.1 htext)), hrest⟩
    | _ => cases hkind
  | .string s, k, r, r', hj, hk, hr, hr', h => by
    have hkind := kind_eq_of_chars hj hk h
    cases k with
    | string t =>
      obtain ⟨rfl, hrest⟩ := writeString_append_inj h
      exact ⟨rfl, hrest⟩
    | _ => cases hkind
  | .array xs, k, r, r', hj, hk, hr, hr', h => by
    have hkind := kind_eq_of_chars hj hk h
    cases k with
    | array ys =>
      cases xs with
      | nil =>
        cases ys with
        | nil => exact ⟨rfl, List.append_cancel_left h⟩
        | cons y ys =>
          -- no item begins with the bracket that closes an empty array
          simp only [chars, List.cons_append, List.append_assoc, List.cons.injEq, true_and] at h
          exact absurd h (bracket_ne hk.1)
      | cons x xs =>
        cases ys with
        | nil =>
          simp only [chars, List.cons_append, List.append_assoc, List.cons.injEq, true_and] at h
          exact absurd h.symm (bracket_ne hj.1)
        | cons y ys =>
          rw [chars, chars, List.cons_append, List.cons_append] at h
          have hitems : charsItems (x :: xs) ++ r = charsItems (y :: ys) ++ r' := by
            rw [charsItems, charsItems, List.cons_append, List.cons_append, (List.cons.inj h).2]
          obtain ⟨hsame, hrest⟩ := charsItems_inj (x :: xs) (y :: ys) hj hk hitems
          exact ⟨congrArg _ hsame, hrest⟩
    | _ => cases hkind
  | .object xs, k, r, r', hj, hk, hr, hr', h => by
    have hkind := kind_eq_of_chars hj hk h
    cases k with
    | object ys =>
      cases xs with
      | nil =>
        cases ys with
        | nil => exact ⟨rfl, List.append_cancel_left h⟩
        | cons y ys =>
          rw [chars, chars, toList_writeString] at h
          cases (List.cons.inj (List.cons.inj h).2).1
      | cons x xs =>
        cases ys with
        | nil =>
          rw [chars, chars, toList_writeString] at h
          cases (List.cons.inj (List.cons.inj h).2).1
        | cons y ys =>
          rw [chars, chars, List.cons_append, List.cons_append] at h
          have hmembers : charsMembers (x :: xs) ++ r = charsMembers (y :: ys) ++ r' := by
            rw [charsMembers, charsMembers, List.cons_append, List.cons_append, (List.cons.inj h).2]
          obtain ⟨hsame, hrest⟩ := charsMembers_inj (x :: xs) (y :: ys) hj hk hmembers
          exact ⟨congrArg _ hsame, hrest⟩
    | _ => cases hkind

theorem charsItems_inj : ∀ (xs ys : List Json) {r r' : List Char}, FiniteItems xs → FiniteItems ys →
    charsItems xs ++ r = charsItems ys ++ r' → xs = ys ∧ r = r'
  | [], [], r, r', _, _, h => ⟨rfl, List.append_cancel_left h⟩
  | [], y :: ys, r, r', _, _, h => by cases (List.cons.inj h).1
  | x :: xs, [], r, r', _, _, h => by cases (List.cons.inj h).1
  | x :: xs, y :: ys, r, r', hx, hy, h => by
    rw [charsItems, charsItems, List.cons_append, List.cons_append, List.append_assoc,
      List.append_assoc] at h
    obtain ⟨rfl, hrest⟩ := chars_inj x y hx.1 hy.1 (ends_charsItems xs r) (ends_charsItems ys r')
      (List.cons.inj h).2
    obtain ⟨rfl, hend⟩ := charsItems_inj xs ys hx.2 hy.2 hrest
    exact ⟨rfl, hend⟩

theorem charsMembers_inj : ∀ (xs ys : List (String × Json)) {r r' : List Char}, FiniteMembers xs →
    FiniteMembers ys → charsMembers xs ++ r = charsMembers ys ++ r' → xs = ys ∧ r = r'
  | [], [], r, r', _, _, h => ⟨rfl, List.append_cancel_left h⟩
  | [], y :: ys, r, r', _, _, h => by cases (List.cons.inj h).1
  | x :: xs, [], r, r', _, _, h => by cases (List.cons.inj h).1
  | (key, x) :: xs, (key', y) :: ys, r, r', hx, hy, h => by
    rw [charsMembers, charsMembers, List.cons_append, List.cons_append, List.append_assoc,
      List.append_assoc] at h
    obtain ⟨rfl, hvalue⟩ := writeString_append_inj (List.cons.inj h).2
    rw [List.cons_append, List.cons_append, List.append_assoc, List.append_assoc] at hvalue
    obtain ⟨rfl, hrest⟩ := chars_inj x y hx.1 hy.1 (ends_charsMembers xs r) (ends_charsMembers ys r')
      (List.cons.inj hvalue).2
    obtain ⟨rfl, hend⟩ := charsMembers_inj xs ys hx.2 hy.2 hrest
    exact ⟨rfl, hend⟩

end

/-- **The text of a document tells which one it is.** -/
theorem eq_of_write_eq {j k : Json} (hj : j.Finite) (hk : k.Finite) (h : j.write = k.write) : j = k := by
  have hchars : j.chars ++ [] = k.chars ++ [] := by
    have htext := congrArg String.toList h
    rw [write, write, toList_writeOnto, toList_writeOnto] at htext
    simpa using htext
  exact (chars_inj j k hj hk (fun _ hc => by cases hc) (fun _ hc => by cases hc) hchars).1

end Json

namespace Schema

/-- Inputs that are written as the same text are the same. -/
theorem eq_of_key_eq {x y : Input} (hx : ∀ j, x = .ok j → j.Finite) (hy : ∀ j, y = .ok j → j.Finite)
    (h : key x = key y) : x = y := by
  cases x with
  | error why =>
    cases y with
    | error why' =>
      cases h
      rfl
    | ok k => cases h
  | ok j =>
    cases y with
    | error why' => cases h
    | ok k => exact congrArg _ (Json.eq_of_write_eq (hx j rfl) (hy k rfl) (Except.ok.inj h))

end Schema

end SqlClient
