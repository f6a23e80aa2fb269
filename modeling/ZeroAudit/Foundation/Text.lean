import Mathlib.Data.List.Basic
import Mathlib.Data.List.Induction
import Mathlib.Data.Option.Basic

namespace Foundation

/-!
# Character strings with lone surrogates, and their UTF-8 form

A dynamic-language string is a sequence of code points, and a JSON document
may put a lone surrogate into one.  Such a string is an ordinary value until
it is encoded; encoding is therefore a partial function here.  On the strings
it accepts it is a monoid homomorphism and injective, which is what lets an
equation between hashed or signed byte strings be read as an equation between
the texts they came from.
-/

abbrev Bytes := List UInt8

/-- One code point: a Unicode scalar value, or one of the 2048 surrogates. -/
inductive PyChar where
  | scalar (c : Char)
  | surrogate (index : Fin 2048)
  deriving DecidableEq

abbrev PyStr := List PyChar

namespace PyStr

/-- A literal of the host language, which contains scalar values only. -/
def ofString (s : String) : PyStr := s.toList.map PyChar.scalar

@[simp] theorem ofString_inj (s t : String) : ofString s = ofString t ↔ s = t := by
  constructor
  · intro equal
    have injective : Function.Injective PyChar.scalar := fun _ _ same => PyChar.scalar.inj same
    exact String.toList_injective (List.map_injective_iff.mpr injective equal)
  · intro equal
    rw [equal]

/-- The UTF-8 bytes of one code point, if it has any. -/
def utf8Char : PyChar -> Option Bytes
  | .scalar c => some (String.utf8EncodeChar c)
  | .surrogate _ => none

/-- UTF-8 encoding.  It has no value on a string with a lone surrogate. -/
def utf8 : PyStr -> Option Bytes
  | [] => some []
  | c :: rest => do
      let head ← utf8Char c
      let tail ← utf8 rest
      return head ++ tail

@[simp] theorem utf8_nil : utf8 [] = some [] := rfl

theorem utf8_cons_eq_some_iff (c : PyChar) (rest : PyStr) (bytes : Bytes) :
    utf8 (c :: rest) = some bytes ↔
      ∃ head tail, utf8Char c = some head ∧ utf8 rest = some tail ∧ head ++ tail = bytes := by
  simp only [utf8, Option.bind_eq_bind, Option.bind_eq_some_iff, Option.pure_def, Option.some.injEq]
  constructor
  · rintro ⟨head, first, tail, second, equal⟩
    exact ⟨head, tail, first, second, equal⟩
  · rintro ⟨head, tail, first, second, equal⟩
    exact ⟨head, first, tail, second, equal⟩

/-- Encoding a concatenation encodes the parts, and fails when a part does. -/
theorem utf8_append_eq_some_iff (left right : PyStr) (bytes : Bytes) :
    utf8 (left ++ right) = some bytes ↔
      ∃ first second, utf8 left = some first ∧ utf8 right = some second ∧
        first ++ second = bytes := by
  induction left generalizing bytes with
  | nil => simp
  | cons c rest inductionHypothesis =>
      rw [List.cons_append, utf8_cons_eq_some_iff]
      constructor
      · rintro ⟨head, tail, charBytes, restBytes, rfl⟩
        rcases (inductionHypothesis tail).mp restBytes with
            ⟨middle, second, leftBytes, rightBytes, rfl⟩
        refine ⟨head ++ middle, second, ?_, rightBytes, List.append_assoc ..⟩
        exact (utf8_cons_eq_some_iff ..).mpr ⟨head, middle, charBytes, leftBytes, rfl⟩
      · rintro ⟨first, second, leftBytes, rightBytes, rfl⟩
        rcases (utf8_cons_eq_some_iff ..).mp leftBytes with
            ⟨head, middle, charBytes, restBytes, rfl⟩
        refine ⟨head, middle ++ second, charBytes, ?_, (List.append_assoc ..).symm⟩
        exact (inductionHypothesis _).mpr ⟨middle, second, restBytes, rightBytes, rfl⟩

/-- The first encoded character of a byte string is determined by it.  This
is the decoding theorem of the standard library, read as left cancellation. -/
private theorem utf8EncodeChar_append_cancel {c d : Char} {left right : Bytes}
    (equal : String.utf8EncodeChar c ++ left = String.utf8EncodeChar d ++ right) :
    c = d ∧ left = right := by
  have arrays : (String.utf8EncodeChar c).toByteArray ++ left.toByteArray =
      (String.utf8EncodeChar d).toByteArray ++ right.toByteArray := by
    rw [← List.toByteArray_append, ← List.toByteArray_append, equal]
  have decoded := congrArg (fun bytes => bytes.utf8DecodeChar? 0) arrays
  simp only [ByteArray.utf8DecodeChar?_utf8EncodeChar_append, Option.some.injEq] at decoded
  subst decoded
  exact ⟨rfl, List.append_cancel_left equal⟩

/-- Two encodable strings with the same bytes are the same string. -/
theorem utf8_injective {left right : PyStr} {bytes : Bytes}
    (leftBytes : utf8 left = some bytes) (rightBytes : utf8 right = some bytes) :
    left = right := by
  induction left generalizing right bytes with
  | nil =>
      cases right with
      | nil => rfl
      | cons d rest =>
          rcases (utf8_cons_eq_some_iff ..).mp rightBytes with ⟨head, tail, charBytes, -, joined⟩
          cases d with
          | surrogate index => cases charBytes
          | scalar d =>
              cases charBytes
              cases leftBytes
              exact absurd (List.append_eq_nil_iff.mp joined).1 String.utf8EncodeChar_ne_nil
  | cons c rest inductionHypothesis =>
      rcases (utf8_cons_eq_some_iff ..).mp leftBytes with ⟨head, tail, charBytes, restBytes, rfl⟩
      cases c with
      | surrogate index => cases charBytes
      | scalar c =>
          cases charBytes
          cases right with
          | nil =>
              have empty := Option.some.inj rightBytes
              exact absurd (List.append_eq_nil_iff.mp empty.symm).1 String.utf8EncodeChar_ne_nil
          | cons d others =>
              rcases (utf8_cons_eq_some_iff ..).mp rightBytes with
                  ⟨head, others', charBytes, othersBytes, joined⟩
              cases d with
              | surrogate index => cases charBytes
              | scalar d =>
                  cases charBytes
                  rcases utf8EncodeChar_append_cancel joined with ⟨rfl, rfl⟩
                  rw [inductionHypothesis restBytes othersBytes]

/-- A string of scalar values always encodes. -/
theorem utf8_map_scalar (chars : List Char) :
    utf8 (chars.map PyChar.scalar) = some (chars.flatMap String.utf8EncodeChar) := by
  induction chars with
  | nil => rfl
  | cons c rest inductionHypothesis =>
      simp only [List.map_cons, utf8, utf8Char, inductionHypothesis, List.flatMap_cons]
      rfl

/-! ## Decimal text of an integer -/

/-- `str(n)` of an integer. -/
def decimal : Int -> PyStr
  | .ofNat n => (Nat.toDigits 10 n).map PyChar.scalar
  | .negSucc n => .scalar '-' :: (Nat.toDigits 10 (n + 1)).map PyChar.scalar

private theorem toDigits_injective {m n : Nat} (equal : Nat.toDigits 10 m = Nat.toDigits 10 n) :
    m = n := by
  have values := congrArg (fun digits => Nat.ofDigitChars 10 digits 0) equal
  simpa only [Nat.ofDigitChars_ten_toDigits] using values

private theorem map_scalar_injective {left right : List Char}
    (equal : left.map PyChar.scalar = right.map PyChar.scalar) : left = right :=
  List.map_injective_iff.mpr (fun _ _ same => PyChar.scalar.inj same) equal

private theorem minus_not_mem_toDigits (n : Nat) : '-' ∉ Nat.toDigits 10 n := by
  intro member
  exact absurd (Nat.isDigit_of_mem_toDigits (by decide) (by decide) member) (by decide)

/-- Every character of a decimal text is a digit or the sign. -/
theorem mem_decimal {n : Int} {c : PyChar} (member : c ∈ decimal n) :
    ∃ character : Char, c = .scalar character ∧ (character.isDigit = true ∨ character = '-') := by
  cases n with
  | ofNat n =>
      rcases List.mem_map.mp member with ⟨character, digit, rfl⟩
      exact ⟨character, rfl, Or.inl (Nat.isDigit_of_mem_toDigits (by decide) (by decide) digit)⟩
  | negSucc n =>
      rcases List.mem_cons.mp member with rfl | tail
      · exact ⟨'-', rfl, Or.inr rfl⟩
      · rcases List.mem_map.mp tail with ⟨character, digit, rfl⟩
        exact ⟨character, rfl, Or.inl (Nat.isDigit_of_mem_toDigits (by decide) (by decide) digit)⟩

theorem decimal_injective {m n : Int} (equal : decimal m = decimal n) : m = n := by
  cases m with
  | ofNat m =>
      cases n with
      | ofNat n => rw [toDigits_injective (map_scalar_injective equal)]
      | negSucc n =>
          have sign : PyChar.scalar '-' ∈ decimal (.ofNat m) := by
            rw [equal]
            exact List.mem_cons_self
          rcases List.mem_map.mp sign with ⟨character, digit, same⟩
          cases same
          exact absurd digit (minus_not_mem_toDigits m)
  | negSucc m =>
      cases n with
      | ofNat n =>
          have sign : PyChar.scalar '-' ∈ decimal (.ofNat n) := by
            rw [← equal]
            exact List.mem_cons_self
          rcases List.mem_map.mp sign with ⟨character, digit, same⟩
          cases same
          exact absurd digit (minus_not_mem_toDigits n)
      | negSucc n =>
          have digits := toDigits_injective (map_scalar_injective (List.cons.inj equal).2)
          rw [Nat.succ.inj digits]

theorem decimal_encodable (n : Int) : ∃ bytes, utf8 (decimal n) = some bytes := by
  cases n with
  | ofNat n => exact ⟨_, utf8_map_scalar _⟩
  | negSucc n => exact ⟨_, utf8_map_scalar ('-' :: Nat.toDigits 10 (n + 1))⟩

/-! ## Reading a separated text from the right -/

/-- If neither tail contains the separator, the split at the last separator
is unique, whatever the heads contain. -/
theorem split_last {α : Type*} {separator : α} {left right tail other : List α}
    (tailFree : separator ∉ tail) (otherFree : separator ∉ other)
    (equal : left ++ separator :: tail = right ++ separator :: other) :
    left = right ∧ tail = other := by
  induction tail using List.reverseRecOn generalizing other with
  | nil =>
      cases other using List.reverseRecOn with
      | nil => exact ⟨List.append_cancel_right equal, rfl⟩
      | append_singleton other last =>
          rw [← List.cons_append, ← List.append_assoc] at equal
          have lasts := (List.append_inj' equal rfl).2
          exact absurd (by simp [(List.cons.inj lasts).1]) otherFree
  | append_singleton tail last inductionHypothesis =>
      cases other using List.reverseRecOn with
      | nil =>
          rw [← List.cons_append, ← List.append_assoc] at equal
          have lasts := (List.append_inj' equal rfl).2
          exact absurd (by simp [← (List.cons.inj lasts).1]) tailFree
      | append_singleton other last' =>
          rw [← List.cons_append, ← List.append_assoc, ← List.cons_append, ← List.append_assoc]
            at equal
          rcases List.append_inj' equal rfl with ⟨heads, lasts⟩
          obtain ⟨rfl, rfl⟩ := inductionHypothesis
            (fun member => tailFree (List.mem_append_left _ member))
            (fun member => otherFree (List.mem_append_left _ member)) heads
          exact ⟨rfl, by rw [lasts]⟩

end PyStr

end Foundation
