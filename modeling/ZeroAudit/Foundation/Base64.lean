import ZeroAudit.Foundation.Octets

namespace Foundation
namespace Base64

/-!
# Base64 with the permissive decoder

The decoder follows the non-strict `binascii.a2b_base64`: characters outside
the alphabet are skipped, padding is honoured only where it can end a quad,
and text after a completed padding is ignored.  Many texts therefore decode
to the same bytes.  Only the direction encode-then-decode is an identity, and
that is the direction proved here.
-/

/-- What the decoder refuses.  The count is the one its message reports. -/
inductive DecodeError where
  | nonAscii
  | oneExtra (dataCharacters : Nat)
  | incorrectPadding
  deriving DecidableEq

/-- The text of the exception, as the standard library words it. -/
def DecodeError.message : DecodeError -> String
  | .nonAscii => "string argument should contain only ASCII characters"
  | .oneExtra dataCharacters =>
      "Invalid base64-encoded string: number of data characters (" ++ toString dataCharacters ++
        ") cannot be 1 more than a multiple of 4"
  | .incorrectPadding => "Incorrect padding"

def alphabet : List Char :=
  "ABCDEFGHIJKLMNOPQRSTUVWXYZabcdefghijklmnopqrstuvwxyz0123456789+/".toList

/-- The character of a six-bit value. -/
def digit (sextet : Nat) : Char := alphabet.getD sextet 'A'

/-- The six-bit value of a character of the alphabet. -/
def sextet (c : Char) : Option Nat :=
  if 'A' ≤ c ∧ c ≤ 'Z' then some (c.toNat - 65)
  else if 'a' ≤ c ∧ c ≤ 'z' then some (c.toNat - 71)
  else if '0' ≤ c ∧ c ≤ '9' then some (c.toNat + 4)
  else if c = '+' then some 62
  else if c = '/' then some 63
  else none

/-- `base64.b64encode` as characters. -/
def encodeChars : Bytes -> List Char
  | a :: b :: c :: rest =>
      digit (a.toNat / 4) :: digit (a.toNat % 4 * 16 + b.toNat / 16) ::
        digit (b.toNat % 16 * 4 + c.toNat / 64) :: digit (c.toNat % 64) :: encodeChars rest
  | [a, b] =>
      [digit (a.toNat / 4), digit (a.toNat % 4 * 16 + b.toNat / 16), digit (b.toNat % 16 * 4), '=']
  | [a] => [digit (a.toNat / 4), digit (a.toNat % 4 * 16), '=', '=']
  | [] => []

/-- The decoding loop.  `quadPos` is the position inside a quad, `leftover`
the bits of the previous character not yet written, `pads` the padding seen
since the last data character, and `produced` the number of bytes written. -/
def scan (quadPos leftover pads produced : Nat) : List Char -> Except DecodeError Bytes
  | [] =>
      if quadPos = 0 then .ok []
      else if quadPos = 1 then .error (.oneExtra (produced / 3 * 4 + 1))
      else .error .incorrectPadding
  | c :: rest =>
      if c = '=' then
        if 2 ≤ quadPos then
          if 4 ≤ quadPos + (pads + 1) then .ok [] else scan quadPos leftover (pads + 1) produced rest
        else scan quadPos leftover pads produced rest
      else
        match sextet c with
        | none => scan quadPos leftover pads produced rest
        | some value =>
            match quadPos with
            | 0 => scan 1 value 0 produced rest
            | 1 => do
                let tail ← scan 2 (value % 16) 0 (produced + 1) rest
                return UInt8.ofNat (leftover * 4 + value / 16) :: tail
            | 2 => do
                let tail ← scan 3 (value % 4) 0 (produced + 1) rest
                return UInt8.ofNat (leftover * 16 + value / 4) :: tail
            | _ => do
                let tail ← scan 0 0 0 (produced + 1) rest
                return UInt8.ofNat (leftover * 64 + value) :: tail

/-- `s.encode("ascii")`, kept as characters. -/
def asciiChars : PyStr -> Option (List Char)
  | [] => some []
  | .scalar c :: rest => if c.toNat < 128 then (asciiChars rest).map (c :: ·) else none
  | .surrogate _ :: _ => none

/-- `base64.b64encode(bytes).decode()`. -/
def encode (bytes : Bytes) : PyStr := (encodeChars bytes).map PyChar.scalar

/-- `base64.b64decode(text)` of a string. -/
def decode (text : PyStr) : Except DecodeError Bytes :=
  match asciiChars text with
  | some chars => scan 0 0 0 0 chars
  | none => .error .nonAscii

/-! ## The round trip -/

private theorem digit_facts : ∀ value < 64,
    sextet (digit value) = some value ∧ digit value ≠ '=' ∧ (digit value).toNat < 128 := by
  decide +kernel

private theorem scan_digit {value : Nat} (small : value < 64)
    (quadPos leftover pads produced : Nat) (rest : List Char) :
    scan quadPos leftover pads produced (digit value :: rest) =
      match quadPos with
      | 0 => scan 1 value 0 produced rest
      | 1 => (scan 2 (value % 16) 0 (produced + 1) rest).map
          (UInt8.ofNat (leftover * 4 + value / 16) :: ·)
      | 2 => (scan 3 (value % 4) 0 (produced + 1) rest).map
          (UInt8.ofNat (leftover * 16 + value / 4) :: ·)
      | _ => (scan 0 0 0 (produced + 1) rest).map (UInt8.ofNat (leftover * 64 + value) :: ·) := by
  rcases digit_facts value small with ⟨valueEq, notPad, -⟩
  simp only [scan, if_neg notPad, valueEq]
  split <;> rfl

private theorem byte_eq {byte : UInt8} {value : Nat} (same : value = byte.toNat) :
    UInt8.ofNat value = byte := by
  rw [same, UInt8.ofNat_toNat]

/-- Decoding what was encoded gives the bytes back, from any byte count. -/
theorem scan_encodeChars (bytes : Bytes) (produced : Nat) :
    scan 0 0 0 produced (encodeChars bytes) = .ok bytes := by
  induction bytes using encodeChars.induct generalizing produced with
  | case1 a b c rest inductionHypothesis =>
      have aSmall := a.toNat_lt
      have bSmall := b.toNat_lt
      have cSmall := c.toNat_lt
      have first : UInt8.ofNat (a.toNat / 4 * 4 + (a.toNat % 4 * 16 + b.toNat / 16) / 16) = a :=
        byte_eq (by omega)
      have second : UInt8.ofNat ((a.toNat % 4 * 16 + b.toNat / 16) % 16 * 16 +
          (b.toNat % 16 * 4 + c.toNat / 64) / 4) = b := byte_eq (by omega)
      have third : UInt8.ofNat ((b.toNat % 16 * 4 + c.toNat / 64) % 4 * 64 + c.toNat % 64) = c :=
        byte_eq (by omega)
      rw [encodeChars]
      simp (disch := omega) only [scan_digit, inductionHypothesis, Except.map, first, second, third]
  | case2 a b =>
      have aSmall := a.toNat_lt
      have bSmall := b.toNat_lt
      have first : UInt8.ofNat (a.toNat / 4 * 4 + (a.toNat % 4 * 16 + b.toNat / 16) / 16) = a :=
        byte_eq (by omega)
      have second : UInt8.ofNat ((a.toNat % 4 * 16 + b.toNat / 16) % 16 * 16 +
          (b.toNat % 16 * 4) / 4) = b := byte_eq (by omega)
      rw [encodeChars]
      simp (disch := omega) only [scan_digit, Except.map, first, second]
      simp only [scan, if_true, Nat.reduceLeDiff, Nat.reduceAdd]
  | case3 a =>
      have aSmall := a.toNat_lt
      have first : UInt8.ofNat (a.toNat / 4 * 4 + a.toNat % 4 * 16 / 16) = a :=
        byte_eq (by omega)
      rw [encodeChars]
      simp (disch := omega) only [scan_digit, Except.map, first]
      simp only [scan, if_true, Nat.reduceLeDiff, Nat.reduceAdd, if_false]
  | case4 => rfl

private theorem asciiChars_map_scalar {chars : List Char} (ascii : ∀ c ∈ chars, c.toNat < 128) :
    asciiChars (chars.map PyChar.scalar) = some chars := by
  induction chars with
  | nil => rfl
  | cons c rest inductionHypothesis =>
      rw [List.map_cons, asciiChars, if_pos (ascii c List.mem_cons_self),
        inductionHypothesis (fun d member => ascii d (List.mem_cons_of_mem _ member)),
        Option.map_some]

private theorem encodeChars_ascii (bytes : Bytes) : ∀ c ∈ encodeChars bytes, c.toNat < 128 := by
  have digitAscii : ∀ value < 64, (digit value).toNat < 128 :=
    fun value small => (digit_facts value small).2.2
  have padAscii : '='.toNat < 128 := by decide
  induction bytes using encodeChars.induct with
  | case1 a b c rest inductionHypothesis =>
      have aSmall := a.toNat_lt
      have bSmall := b.toNat_lt
      have cSmall := c.toNat_lt
      simp only [encodeChars, List.forall_mem_cons]
      exact ⟨digitAscii _ (by omega), digitAscii _ (by omega), digitAscii _ (by omega),
        digitAscii _ (by omega), inductionHypothesis⟩
  | case2 a b =>
      have aSmall := a.toNat_lt
      have bSmall := b.toNat_lt
      simp only [encodeChars, List.forall_mem_cons]
      exact ⟨digitAscii _ (by omega), digitAscii _ (by omega), digitAscii _ (by omega), padAscii,
        fun d member => absurd member List.not_mem_nil⟩
  | case3 a =>
      have aSmall := a.toNat_lt
      simp only [encodeChars, List.forall_mem_cons]
      exact ⟨digitAscii _ (by omega), digitAscii _ (by omega), padAscii, padAscii,
        fun d member => absurd member List.not_mem_nil⟩
  | case4 => exact fun d member => absurd member List.not_mem_nil

theorem digit_mem (sextet : Nat) : digit sextet ∈ alphabet := by
  rw [digit, List.getD_eq_getElem?_getD]
  cases found : alphabet[sextet]? with
  | none => decide
  | some c => exact List.mem_of_getElem? found

/-- A text is made of the alphabet and the padding. -/
theorem mem_encodeChars {bytes : Bytes} {c : Char} (member : c ∈ encodeChars bytes) : c ∈ '=' :: alphabet := by
  induction bytes using encodeChars.induct with
  | case1 a b d rest inductionHypothesis =>
      simp only [encodeChars, List.mem_cons] at member
      rcases member with rfl | rfl | rfl | rfl | member
      · exact List.mem_cons_of_mem _ (digit_mem _)
      · exact List.mem_cons_of_mem _ (digit_mem _)
      · exact List.mem_cons_of_mem _ (digit_mem _)
      · exact List.mem_cons_of_mem _ (digit_mem _)
      · exact inductionHypothesis member
  | case2 a b =>
      simp only [encodeChars, List.mem_cons, List.not_mem_nil, or_false] at member
      rcases member with rfl | rfl | rfl | rfl
      · exact List.mem_cons_of_mem _ (digit_mem _)
      · exact List.mem_cons_of_mem _ (digit_mem _)
      · exact List.mem_cons_of_mem _ (digit_mem _)
      · exact List.mem_cons_self
  | case3 a =>
      simp only [encodeChars, List.mem_cons, List.not_mem_nil, or_false] at member
      rcases member with rfl | rfl | rfl | rfl
      · exact List.mem_cons_of_mem _ (digit_mem _)
      · exact List.mem_cons_of_mem _ (digit_mem _)
      · exact List.mem_cons_self
      · exact List.mem_cons_self
  | case4 => cases member

theorem isSpace_of_mem_encode {bytes : Bytes} {c : PyChar} (member : c ∈ encode bytes) : isSpace c = false := by
  rcases List.mem_map.mp member with ⟨own, inside, rfl⟩
  have visible : ('=' :: alphabet).all (fun d => !isSpace (.scalar d)) = true := by decide
  have here := List.all_eq_true.mp visible own (mem_encodeChars inside)
  simpa using here

theorem asciiChars_of_hexDigits {text : PyStr} (digits : ∀ c ∈ text, isHexDigit c = true) :
    ∃ chars, asciiChars text = some chars := by
  induction text with
  | nil => exact ⟨[], rfl⟩
  | cons c rest inductionHypothesis =>
      rcases inductionHypothesis (fun d member => digits d (List.mem_cons_of_mem _ member)) with
          ⟨tail, tailAscii⟩
      cases c with
      | surrogate index => cases digits _ List.mem_cons_self
      | scalar c =>
          have listed : c ∈ "0123456789abcdef".toList :=
            of_decide_eq_true (digits _ List.mem_cons_self)
          have ascii : "0123456789abcdef".toList.all (fun d => decide (d.toNat < 128)) = true := by
            decide
          have small := of_decide_eq_true (List.all_eq_true.mp ascii c listed)
          exact ⟨c :: tail, by rw [asciiChars, if_pos small, tailAscii, Option.map_some]⟩

@[simp] theorem decode_encode (bytes : Bytes) : decode (encode bytes) = .ok bytes := by
  rw [decode, encode, asciiChars_map_scalar (encodeChars_ascii bytes)]
  exact scan_encodeChars bytes 0

theorem encode_ne_nil {bytes : Bytes} (nonempty : bytes ≠ []) : encode bytes ≠ [] := by
  intro empty
  have decoded := decode_encode bytes
  rw [empty] at decoded
  exact nonempty (Except.ok.inj decoded).symm

end Base64
end Foundation
