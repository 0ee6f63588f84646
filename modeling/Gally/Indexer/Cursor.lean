import Gally.Indexer.Handlers
import Gally.Indexer.IpAddr
import Gally.Library.Decimal
import Gally.Library.Numeral

/-!
# Cursor tokens (`api/extractors.rs`)

A cursor travels as the hexadecimal digits of its parts, joined by U+001F. Ids and digests are
texts on the wire; an id is read back from its text, so that ids compare as the numbers they are
(their texts have one width).
-/

namespace Gally.Indexer

/-! ## Texts of ids and digests -/

def hexDigits : List Char := "0123456789abcdef".toList

def base58Digits : List Char := "123456789ABCDEFGHJKLMNPQRSTUVWXYZabcdefghijkmnopqrstuvwxyz".toList

/-- The text of an id or an address: 64 hexadecimal digits. -/
def idText (id : ID) : String :=
  String.ofList ('0' :: 'x' :: Numeral.padded hexDigits (64 - (Nat.digits 16 id).length) id)

/-- The id a text denotes. -/
def parseId (s : String) : Option ID :=
  let id := Numeral.value hexDigits (s.toList.drop 2)
  if idText id = s then some id else none

/-- The text of a digest: 32 bytes in base 58, a one for each leading zero byte. -/
def digestText (digest : Digest) : String :=
  String.ofList (Numeral.padded base58Digits (32 - (Nat.digits 256 digest).length) digest)

/-- The hexadecimal digits are distinct. -/
theorem hexDigits_nodup : hexDigits.Nodup := by decide

/-- The digits of Base58 are distinct. -/
theorem base58Digits_nodup : base58Digits.Nodup := by decide

/-- An id is read back from its text. -/
@[simp] theorem parseId_idText (id : ID) : parseId (idText id) = some id := by
  have hvalue : Numeral.value hexDigits ((idText id).toList.drop 2) = id := by
    rw [idText, String.toList_ofList]
    exact Numeral.value_padded hexDigits_nodup (by decide)
  rw [parseId, hvalue]
  exact if_pos rfl

/-- Different digests have different texts. -/
theorem digestText_injective {d d' : Digest} (h : digestText d = digestText d') : d = d' :=
  Numeral.padded_injective base58Digits_nodup (by decide) (String.ofList_injective h)

/-! ## Tokens -/

/-- The character between the parts. -/
def separator : Char := Char.ofNat 0x1f

def encodeCursor (parts : List String) : String :=
  hexEncode (String.ofList ([separator].intercalate (parts.map String.toList))).toUTF8.data.toList

/-- The bytes that pairs of hexadecimal digits denote. -/
def hexDecode : List Char → Option Bytes
  | [] => some []
  | [_] => none
  | hi :: lo :: rest => do
    let hi ← toDigit 16 hi
    let lo ← toDigit 16 lo
    return UInt8.ofNat (hi * 16 + lo) :: (← hexDecode rest)

def decodeCursor (token : String) : Option (List String) := do
  let bytes ← hexDecode token.toList
  let s ← String.fromUTF8? ⟨bytes.toArray⟩
  return (s.toList.splitOn separator).map String.ofList

/-- `s.parse::<i64>()` -/
def parseBigint (s : String) : Option ℤ :=
  (Decimal.parseInt s).filter fun v => -2 ^ 63 ≤ v ∧ v < 2 ^ 63

/-- The value of a `BIGINT` column. -/
def Bigint (v : ℤ) : Prop := -2 ^ 63 ≤ v ∧ v < 2 ^ 63

def decodeCursorII (parts : List String) : Option (ℤ × ℤ) :=
  match parts with
  | [a, b] => do return (← parseBigint a, ← parseBigint b)
  | _ => none

def decodeCursorIS (parts : List String) : Option (ℤ × String) :=
  match parts with
  | [a, b] => do return (← parseBigint a, b)
  | _ => none

def decodeCursorISI (parts : List String) : Option (ℤ × String × ℤ) :=
  match parts with
  | [a, b, c] => do return (← parseBigint a, b, ← parseBigint c)
  | _ => none

/-! ## Round trips -/

/-- A digit below 16 is read back from its character. -/
theorem toDigit_digitChar {n : ℕ} (h : n < 16) : toDigit 16 (Nat.digitChar n) = some n := by
  interval_cases n <;> decide

/-- Bytes are read back from their hexadecimal digits. -/
theorem hexDecode_hexEncode (bytes : Bytes) : hexDecode (hexEncode bytes).toList = some bytes := by
  rw [hexEncode, String.toList_ofList]
  induction bytes with
  | nil => rfl
  | cons b bytes ih =>
    -- a byte is its two digits
    have hlt : b.toNat < 256 := b.toNat_lt
    have hhi := toDigit_digitChar (n := b.toNat / 16) (by omega)
    have hlo := toDigit_digitChar (n := b.toNat % 16) (by omega)
    have hbyte : UInt8.ofNat (b.toNat / 16 * 16 + b.toNat % 16) = b := by
      rw [Nat.div_add_mod']
      exact UInt8.ofNat_toNat
    rw [List.flatMap_cons, List.cons_append, List.cons_append, List.nil_append, hexDecode, hhi, hlo]
    simp only [Option.bind_eq_bind, Option.bind_some, ih, hbyte, Option.pure_def]

/-- The token of parts without a separator is read back. -/
theorem decodeCursor_encodeCursor {parts : List String} (hne : parts ≠ [])
    (hparts : ∀ p ∈ parts, separator ∉ p.toList) :
    decodeCursor (encodeCursor parts) = some parts := by
  -- a text is decoded from its own UTF-8 bytes
  have hutf8 : ∀ s : String, String.fromUTF8? ⟨s.toUTF8.data.toList.toArray⟩ = some s := by
    intro s
    have hbytes : (⟨s.toUTF8.data.toList.toArray⟩ : ByteArray) = s.toUTF8 := by
      rw [Array.toArray_toList]
    rw [hbytes, String.toUTF8_eq_toByteArray, String.fromUTF8?, dif_pos s.isValidUTF8]
    rfl
  -- no part contains the separator, so the text splits where it was joined
  have hsplit : ([separator].intercalate (parts.map String.toList)).splitOn separator =
      parts.map String.toList := by
    refine List.splitOn_intercalate separator ?_ ?_
    · intro l hl
      obtain ⟨p, hp, rfl⟩ := List.mem_map.mp hl
      exact hparts p hp
    · exact fun h => hne (List.map_eq_nil_iff.mp h)
  unfold decodeCursor encodeCursor
  rw [hexDecode_hexEncode]
  simp only [Option.bind_eq_bind, Option.bind_some, hutf8, String.toList_ofList, hsplit,
    Option.pure_def, List.map_map, Option.some.injEq]
  exact (List.map_congr_left fun p _ => String.ofList_toList).trans (List.map_id _)

/-- A `BIGINT` is read back from its numeral. -/
theorem parseBigint_ofInt {v : ℤ} (h : Bigint v) : parseBigint (Decimal.ofInt v) = some v := by
  rw [parseBigint, Decimal.parseInt_ofInt]
  exact Option.filter_some_pos (decide_eq_true h)

end Gally.Indexer
