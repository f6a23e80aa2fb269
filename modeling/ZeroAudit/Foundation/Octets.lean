import Mathlib.Data.Int.Basic
import Mathlib.Tactic.IntervalCases
import ZeroAudit.Foundation.Text

namespace Foundation

/-!
# Byte-string codecs: hexadecimal and 16-bit little-endian words

Each codec comes as an encoder and a decoder with the round trip between
them.  Encoders of a fixed width carry their length law, because the texts
built from them are later split by position.
-/

/-! ## White space -/

/-- What `str.strip` takes off. -/
def isSpace : PyChar -> Bool
  | .scalar c => (9 ≤ c.toNat && c.toNat ≤ 13) || (28 ≤ c.toNat && c.toNat ≤ 32) ||
      [0x85, 0xa0, 0x1680, 0x2028, 0x2029, 0x202f, 0x205f, 0x3000].contains c.toNat ||
      (0x2000 ≤ c.toNat && c.toNat ≤ 0x200a)
  | .surrogate _ => false

def strip (text : PyStr) : PyStr := ((text.dropWhile isSpace).reverse.dropWhile isSpace).reverse

theorem strip_of_visible {text : PyStr} (visible : ∀ c ∈ text, isSpace c = false) : strip text = text := by
  have untouched : ∀ own : PyStr, (∀ c ∈ own, isSpace c = false) -> own.dropWhile isSpace = own := by
    intro own visible
    cases own with
    | nil => rfl
    | cons c rest => exact List.dropWhile_cons_of_neg (by rw [visible c List.mem_cons_self]; exact Bool.false_ne_true)
  rw [strip, untouched text visible, untouched text.reverse fun c member => visible c (List.mem_reverse.mp member),
    List.reverse_reverse]

/-! ## Hexadecimal -/

/-- The lower-case digit of a nibble. -/
def hexDigit (nibble : Nat) : Char := "0123456789abcdef".toList.getD nibble '0'

/-- `bytes.hex()` and `hexdigest()`. -/
def hex : Bytes -> PyStr
  | [] => []
  | byte :: rest =>
      .scalar (hexDigit (byte.toNat / 16)) :: .scalar (hexDigit (byte.toNat % 16)) :: hex rest

/-- Membership in the text `"0123456789abcdef"`. -/
def isHexDigit : PyChar -> Bool
  | .scalar c => decide (c ∈ "0123456789abcdef".toList)
  | .surrogate _ => false

/-- The value of a hexadecimal digit of either case. -/
def hexValue : PyChar -> Option Nat
  | .scalar c =>
      if '0' ≤ c ∧ c ≤ '9' then some (c.toNat - 48)
      else if 'a' ≤ c ∧ c ≤ 'f' then some (c.toNat - 87)
      else if 'A' ≤ c ∧ c ≤ 'F' then some (c.toNat - 55)
      else none
  | .surrogate _ => none

/-- The ASCII white space a hexadecimal text may carry between bytes. -/
def isAsciiSpace (c : PyChar) : Bool :=
  decide (c ∈ [' ', '\t', '\n', '\r', '\x0b', '\x0c'].map PyChar.scalar)

/-- `bytes.fromhex`: pairs of digits, white space allowed between pairs. -/
def fromHex : PyStr -> Option Bytes
  | [] => some []
  | c :: rest =>
      if isAsciiSpace c then fromHex rest
      else
        match hexValue c, rest with
        | some high, d :: rest => do
            let low ← hexValue d
            let tail ← fromHex rest
            return UInt8.ofNat (high * 16 + low) :: tail
        | _, _ => none

theorem hexDigit_facts : ∀ nibble < 16, isHexDigit (.scalar (hexDigit nibble)) = true ∧
    isAsciiSpace (.scalar (hexDigit nibble)) = false ∧
    hexValue (.scalar (hexDigit nibble)) = some nibble := by
  decide

private theorem highNibble_lt (byte : UInt8) : byte.toNat / 16 < 16 := by
  have := byte.toNat_lt
  omega

theorem length_hex (bytes : Bytes) : (hex bytes).length = 2 * bytes.length := by
  induction bytes with
  | nil => rfl
  | cons byte rest inductionHypothesis =>
      simp only [hex, List.length_cons, inductionHypothesis]
      omega

theorem isHexDigit_of_mem_hex {bytes : Bytes} {c : PyChar} (member : c ∈ hex bytes) :
    isHexDigit c = true := by
  induction bytes with
  | nil => cases member
  | cons byte rest inductionHypothesis =>
      rcases List.mem_cons.mp member with rfl | member
      · exact (hexDigit_facts _ (highNibble_lt byte)).1
      · rcases List.mem_cons.mp member with rfl | member
        · exact (hexDigit_facts _ (Nat.mod_lt _ (by decide))).1
        · exact inductionHypothesis member

theorem isSpace_of_mem_hex {bytes : Bytes} {c : PyChar} (member : c ∈ hex bytes) : isSpace c = false := by
  have digit := isHexDigit_of_mem_hex member
  cases c with
  | surrogate index => cases digit
  | scalar c =>
      have visible : "0123456789abcdef".toList.all (fun d => !isSpace (.scalar d)) = true := by decide
      have own := List.all_eq_true.mp visible c (of_decide_eq_true digit)
      simpa using own

private theorem fromHex_pair {c d : PyChar} {rest : PyStr} {high low : Nat}
    (noSpace : isAsciiSpace c = false) (highValue : hexValue c = some high)
    (lowValue : hexValue d = some low) :
    fromHex (c :: d :: rest) = (fromHex rest).map (UInt8.ofNat (high * 16 + low) :: ·) := by
  rw [fromHex.eq_2 _ _ _ _ highValue, noSpace, lowValue]
  cases fromHex rest <;> rfl

/-- Decoding the lower-case form gives the bytes back. -/
@[simp] theorem fromHex_hex (bytes : Bytes) : fromHex (hex bytes) = some bytes := by
  induction bytes with
  | nil => rfl
  | cons byte rest inductionHypothesis =>
      rcases hexDigit_facts _ (highNibble_lt byte) with ⟨-, noSpace, highValue⟩
      rcases hexDigit_facts (byte.toNat % 16) (Nat.mod_lt _ (by decide)) with ⟨-, -, lowValue⟩
      have recombined : byte.toNat / 16 * 16 + byte.toNat % 16 = byte.toNat := by omega
      rw [hex, fromHex_pair noSpace highValue lowValue, inductionHypothesis, recombined,
        UInt8.ofNat_toNat, Option.map_some]

theorem hex_injective {left right : Bytes} (equal : hex left = hex right) : left = right := by
  have decoded := congrArg fromHex equal
  simpa only [fromHex_hex, Option.some.injEq] using decoded

/-- Hexadecimal text is ASCII, one byte a character. -/
theorem utf8_of_hexDigits {text : PyStr} (digits : ∀ c ∈ text, isHexDigit c = true) :
    ∃ bytes, PyStr.utf8 text = some bytes ∧ bytes.length = text.length := by
  induction text with
  | nil => exact ⟨[], rfl, rfl⟩
  | cons c rest inductionHypothesis =>
      rcases inductionHypothesis (fun d member => digits d (List.mem_cons_of_mem _ member)) with
          ⟨tail, tailBytes, tailLength⟩
      cases c with
      | surrogate index => cases digits _ List.mem_cons_self
      | scalar c =>
          have listed : c ∈ "0123456789abcdef".toList :=
            of_decide_eq_true (digits _ List.mem_cons_self)
          have narrow : (String.utf8EncodeChar c).length = 1 := by
            have ascii : "0123456789abcdef".toList.all
                (fun d => decide ((String.utf8EncodeChar d).length = 1)) = true := by
              decide
            exact of_decide_eq_true (List.all_eq_true.mp ascii c listed)
          refine ⟨String.utf8EncodeChar c ++ tail, ?_, ?_⟩
          · exact (PyStr.utf8_cons_eq_some_iff ..).mpr ⟨_, tail, rfl, tailBytes, rfl⟩
          · simp only [List.length_append, List.length_cons, narrow, tailLength]
            omega

/-! ## Little-endian 16-bit words -/

/-- `struct.pack("<%dH", ...)`: a word outside the 16-bit range is an error. -/
def packWords : List Int -> Option Bytes
  | [] => some []
  | word :: rest =>
      if 0 ≤ word ∧ word < 65536 then do
        let tail ← packWords rest
        return UInt8.ofNat (word.toNat % 256) :: UInt8.ofNat (word.toNat / 256) :: tail
      else none

/-- `struct.unpack("<%dH", ...)` of as many words as the bytes hold. -/
def unpackWords : Bytes -> Option (List Int)
  | [] => some []
  | [_] => none
  | low :: high :: rest => do
      let tail ← unpackWords rest
      return ((low.toNat + 256 * high.toNat : Nat) : Int) :: tail

/-- Words in range always pack, at two bytes a word. -/
theorem packWords_of_range {words : List Int} (range : ∀ w ∈ words, 0 ≤ w ∧ w < 65536) :
    ∃ bytes, packWords words = some bytes ∧ bytes.length = 2 * words.length := by
  induction words with
  | nil => exact ⟨[], rfl, rfl⟩
  | cons word rest inductionHypothesis =>
      rcases inductionHypothesis (fun w member => range w (List.mem_cons_of_mem _ member)) with
          ⟨tail, packed, tailLength⟩
      refine ⟨UInt8.ofNat (word.toNat % 256) :: UInt8.ofNat (word.toNat / 256) :: tail, ?_, ?_⟩
      · simp only [packWords, if_pos (range word List.mem_cons_self), packed,
          Option.bind_eq_bind, Option.bind_some, Option.pure_def]
      · simp only [List.length_cons, tailLength]
        omega

/-- Whatever was packed is read back, and was in range. -/
theorem unpackWords_of_packWords {words : List Int} {bytes : Bytes}
    (packed : packWords words = some bytes) :
    unpackWords bytes = some words ∧ ∀ w ∈ words, 0 ≤ w ∧ w < 65536 := by
  induction words generalizing bytes with
  | nil =>
      cases packed
      exact ⟨rfl, fun w member => absurd member List.not_mem_nil⟩
  | cons word rest inductionHypothesis =>
      simp only [packWords] at packed
      split at packed
      · next range =>
          rcases Option.bind_eq_some_iff.mp packed with ⟨tail, tailPacked, bytesEq⟩
          cases bytesEq
          rcases inductionHypothesis tailPacked with ⟨tailRead, tailRange⟩
          have value : (((UInt8.ofNat (word.toNat % 256)).toNat +
              256 * (UInt8.ofNat (word.toNat / 256)).toNat : Nat) : Int) = word := by
            simp only [UInt8.toNat_ofNat']
            omega
          refine ⟨?_, ?_⟩
          · simp only [unpackWords, tailRead, value, Option.bind_eq_bind, Option.bind_some,
              Option.pure_def]
          · intro w member
            rcases List.mem_cons.mp member with rfl | member
            · exact range
            · exact tailRange w member
      · cases packed

/-- Dropping words is dropping twice as many bytes. -/
theorem unpackWords_drop {bytes : Bytes} {words : List Int} (read : unpackWords bytes = some words)
    (count : Nat) : unpackWords (bytes.drop (2 * count)) = some (words.drop count) := by
  induction count generalizing bytes words with
  | zero => exact read
  | succ count inductionHypothesis =>
      match bytes with
      | [] =>
          cases read
          rfl
      | [_] => cases read
      | low :: high :: rest =>
          rcases Option.bind_eq_some_iff.mp read with ⟨tail, tailRead, wordsEq⟩
          cases wordsEq
          exact inductionHypothesis tailRead

theorem unpackWords_take {bytes : Bytes} {words : List Int} (read : unpackWords bytes = some words)
    (count : Nat) : unpackWords (bytes.take (2 * count)) = some (words.take count) := by
  induction count generalizing bytes words with
  | zero => rfl
  | succ count inductionHypothesis =>
      match bytes with
      | [] =>
          cases read
          rfl
      | [_] => cases read
      | low :: high :: rest =>
          rcases Option.bind_eq_some_iff.mp read with ⟨tail, tailRead, wordsEq⟩
          cases wordsEq
          change unpackWords (low :: high :: rest.take (2 * count)) = _
          simp only [unpackWords, inductionHypothesis tailRead, Option.bind_eq_bind,
            Option.bind_some, Option.pure_def, List.take_succ_cons]

end Foundation
