import SqlClient.Number.Power
/-!
# Text — bytes

A text as its UTF-8 bytes. Main statement: what was encoded is read back. Bytes that encode no text
can still be shown: what is wrong appears as replacement characters.
-/

namespace SqlClient

/-- The bytes of a text. -/
def encodeText (s : String) : List UInt8 := s.toUTF8.data.toList

/-- The text that bytes encode, if they encode one. -/
def decodeText? (bytes : List UInt8) : Option String := String.fromUTF8? ⟨bytes.toArray⟩

theorem decodeText?_encodeText (s : String) : decodeText? (encodeText s) = some s := by
  have h : (⟨(encodeText s).toArray⟩ : ByteArray) = s.toByteArray := rfl
  simpa [decodeText?, h, String.fromUTF8?, String.fromUTF8] using s.isValidUTF8

theorem decodeText?_eq_some_iff {bytes : List UInt8} {s : String} :
    decodeText? bytes = some s ↔ bytes = encodeText s := by
  refine ⟨fun h => ?_, fun h => h ▸ decodeText?_encodeText s⟩
  rw [decodeText?, String.fromUTF8?] at h
  split at h
  · rw [← Option.some.inj h]
    rfl
  · cases h

theorem encodeText_injective {s s' : String} (h : encodeText s = encodeText s') : s = s' := by
  have hsame : some s = some s' := by rw [← decodeText?_encodeText, h, decodeText?_encodeText]
  exact Option.some.inj hsame

/-! ## Showing -/

/-- The bytes that may come second after a leading byte: fewer of them where others would make a
longer encoding than there need be, a surrogate, or too large a number. -/
def secondBytes (lead : Nat) : Nat × Nat :=
  if lead = 0xE0 then (0xA0, 0xBF)
  else if lead = 0xED then (0x80, 0x9F)
  else if lead = 0xF0 then (0x90, 0xBF)
  else if lead = 0xF4 then (0x80, 0x8F)
  else (0x80, 0xBF)

/-- How many bytes follow a leading byte; none follow a byte that leads nothing. -/
def followersOf (lead : Nat) : Nat :=
  if 0xC2 ≤ lead ∧ lead ≤ 0xDF then 1
  else if 0xE0 ≤ lead ∧ lead ≤ 0xEF then 2
  else if 0xF0 ≤ lead ∧ lead ≤ 0xF4 then 3
  else 0

/-- Reads bytes that belong to one character: `count` of them, the next one within `range` and the
others within the usual one. Tells the number that all of them make, if they are there, and what
follows those that fit. -/
def readFollowers : Nat → Nat × Nat → Nat → List UInt8 → Option Nat × List UInt8
  | 0, _, code, bytes => (some code, bytes)
  | _ + 1, _, _, [] => (none, [])
  | count + 1, range, code, b :: rest =>
    if range.1 ≤ b.toNat ∧ b.toNat ≤ range.2 then
      readFollowers count (0x80, 0xBF) (code * 64 + b.toNat % 64) rest
    else (none, b :: rest)

/-- Reads one character, or a replacement for bytes that begin none: as many of them as could begin
one are replaced together. -/
def showByte (lead : UInt8) (rest : List UInt8) : Char × List UInt8 :=
  let n := lead.toNat
  if n < 0x80 then (Char.ofNat n, rest)
  else
    match followersOf n with
    | 0 => ('\uFFFD', rest)
    | count =>
      match readFollowers count (secondBytes n) (n % pow2 (6 - count)) rest with
      | (some code, rest) => (Char.ofNat code, rest)
      | (none, rest) => ('\uFFFD', rest)

/-- Shows bytes, at most `fuel` characters of them. -/
def showBytes : Nat → List UInt8 → List Char
  | 0, _ => []
  | _, [] => []
  | fuel + 1, b :: rest =>
    let (c, rest) := showByte b rest
    c :: showBytes fuel rest

/-- The text that bytes show. -/
def shownBytes (bytes : List UInt8) : String := String.ofList (showBytes bytes.length bytes)

end SqlClient
