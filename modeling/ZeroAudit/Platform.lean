import ZeroAudit.Foundation.PyValue

namespace ZeroAudit

open Foundation

/-!
# What the services take from outside their own code

The hash functions, the extendable-output functions, HMAC, Ed25519, NumPy's
convolution and the few built-in conversions that depend on tables of the runtime
are parameters of every definition below.  A `Platform` carries the laws its parts
are documented to satisfy: output lengths, that a signer's own signature verifies,
what an entry of a convolution is and which entries are sorted.  Collision freedom
and unforgeability are not laws of a platform.  They are hypotheses of the theorems
that need them, and are stated there about the byte strings that actually occur.
-/

/-- Ed25519 on raw byte strings: keys are derived from a 32-byte seed. -/
structure Ed25519 where
  publicKey : Bytes -> Bytes
  sign : Bytes -> Bytes -> Bytes
  verify : Bytes -> Bytes -> Bytes -> Bool
  publicKey_length : ∀ seed, (publicKey seed).length = 32
  sign_length : ∀ seed message, (sign seed message).length = 64
  verify_sign : ∀ seed message, verify (publicKey seed) (sign seed message) message = true

structure Platform where
  sha3 : Bytes -> Bytes
  sha3_length : ∀ message, (sha3 message).length = 32
  shake128 : Bytes -> Nat -> Bytes
  shake128_length : ∀ message length, (shake128 message length).length = length
  shake256 : Bytes -> Nat -> Bytes
  shake256_length : ∀ message length, (shake256 message length).length = length
  hmacSha256 : Bytes -> Bytes -> Bytes
  ed25519 : Ed25519
  /-- Whether the NumPy import succeeded. -/
  numpy : Bool
  /-- `np.convolve(a, b)` of `int64` arrays. -/
  convolve : List Int -> List Int -> List Int
  convolve_entry : ∀ a b k, (∀ c ∈ a ++ b, -(2 ^ 63) ≤ c ∧ c < 2 ^ 63) -> k < a.length + b.length - 1 ->
    (convolve a b).getD k 0 =
      Int.bmod ((List.range (k + 1)).map fun i => a.getD i 0 * b.getD (k - i) 0).sum (2 ^ 64)
  /-- `str(value)` of a float or a container. -/
  strOther : Json -> PyStr
  /-- `int(text)`, where it does not raise. -/
  intOfText : PyStr -> Option Int
  /-- `float(text)`, where it does not raise. -/
  floatOfText : PyStr -> Option PyFloat
  /-- `x * y`, rounded as the runtime rounds it. -/
  floatMul : PyFloat -> PyFloat -> PyFloat
  /-- `sorted` of entries by numbers.  It is the stable sort where the numbers are ordered, which
  not-a-number is not. -/
  sorted : List (PyFloat × Dict) -> List (PyFloat × Dict)
  sorted_perm : ∀ entries, (sorted entries).Perm entries
  sorted_numbers : ∀ entries, (∀ entry ∈ entries, entry.1 ≠ .nan) ->
    sorted entries = entries.mergeSort fun a b => !b.1.lt a.1

namespace Platform

variable (P : Platform)

/-- `hashlib.sha3_256(message).hexdigest()`. -/
def sha3Hex (message : Bytes) : PyStr := hex (P.sha3 message)

theorem length_sha3Hex (message : Bytes) : (P.sha3Hex message).length = 64 := by
  rw [sha3Hex, length_hex, P.sha3_length]

theorem sha3Hex_ne_nil (message : Bytes) : P.sha3Hex message ≠ [] := by
  intro empty
  have length := P.length_sha3Hex message
  rw [empty] at length
  cases length

theorem isHexDigit_of_mem_sha3Hex {message : Bytes} {c : PyChar} (member : c ∈ P.sha3Hex message) :
    isHexDigit c = true :=
  isHexDigit_of_mem_hex member

/-- `str(value)`. -/
def str : Json -> PyStr
  | .null => PyStr.ofString "None"
  | .bool true => PyStr.ofString "True"
  | .bool false => PyStr.ofString "False"
  | .int n => PyStr.decimal n
  | .str own => own
  | value => P.strOther value

@[simp] theorem str_int (n : Int) : P.str (.int n) = PyStr.decimal n := rfl

@[simp] theorem str_str (own : PyStr) : P.str (.str own) = own := rfl

/-- `int(value)`. -/
def int : Json -> Except PyError Int
  | .bool own => .ok (if own then 1 else 0)
  | .int own => .ok own
  | .float (.finite own) => .ok (if 0 ≤ own then ⌊own⌋ else ⌈own⌉)
  | .float .nan => .error ⟨.valueError, "cannot convert float NaN to integer"⟩
  | .float _ => .error ⟨.overflowError, "cannot convert float infinity to integer"⟩
  | .str own =>
      match P.intOfText own with
      | some n => .ok n
      | none => .error ⟨.valueError, "invalid literal for int() with base 10"⟩
  | value => .error ⟨.typeError, "int() argument must be a string, a bytes-like object or " ++
      "a real number, not '" ++ value.typeName ++ "'"⟩

/-- `float(value)`. -/
def float : Json -> Except PyError PyFloat
  | .bool own => .ok (.finite (if own then 1 else 0))
  | .int own => PyFloat.ofInt own
  | .float own => .ok own
  | .str own =>
      match P.floatOfText own with
      | some x => .ok x
      | none => .error ⟨.valueError, "could not convert string to float"⟩
  | value => .error ⟨.typeError, "float() argument must be a string or a real number, not '" ++
      value.typeName ++ "'"⟩

end Platform
end ZeroAudit
