import ZeroAudit.Foundation.Base64
import ZeroAudit.Foundation.Binary64

namespace Foundation

/-!
# Dynamic values: JSON documents, exceptions, and the operations on them

A JSON document decodes into a value whose type is only known at run time, and
every operation on it may raise.  The operations below fix which argument
types each of them accepts and which exception it raises otherwise, so that a
handler that catches only some exceptions can be modelled exactly.

A floating-point number is the rational that it stands for, or one of the three
special values.  A decimal in the program text and the result of rounding to
decimal places are the doubles next to them, and so is a sum with a small
integer.  All other arithmetic is exact: that the runtime rounds the result of
every operation is not modelled.
-/

/-! ## Exceptions -/

inductive ErrorKind where
  | valueError
  | unicodeEncodeError
  | binasciiError
  | typeError
  | keyError
  | attributeError
  | overflowError
  | structError
  | invalidSignature
  deriving DecidableEq

structure PyError where
  kind : ErrorKind
  message : String

/-- `except ValueError` also catches its two subclasses. -/
def PyError.isValueError (error : PyError) : Bool :=
  match error.kind with
  | .valueError | .unicodeEncodeError | .binasciiError => true
  | _ => false

def PyError.isTypeError (error : PyError) : Bool :=
  decide (error.kind = .typeError)

/-- A successful sequence of steps passed through each of them. -/
theorem bind_eq_ok_iff {α β ε : Type} {attempt : Except ε α} {next : α -> Except ε β} {value : β} :
    attempt >>= next = .ok value ↔ ∃ result, attempt = .ok result ∧ next result = .ok value := by
  cases attempt with
  | error error => simp [bind, Except.bind]
  | ok result => simp [bind, Except.bind]

/-- Whether an attempt goes through can be tried. -/
instance decidableOk {α ε : Type} (attempt : Except ε α) : Decidable (∃ value, attempt = .ok value) :=
  match attempt with
  | .ok value => isTrue ⟨value, rfl⟩
  | .error _ => isFalse fun ⟨_, impossible⟩ => nomatch impossible

/-- Entries that correspond one by one are found on either side. -/
theorem exists_of_forall₂ {A B : Type} {related : A -> B -> Prop} {first : List A} {second : List B}
    (all : List.Forall₂ related first second) :
    (∀ a ∈ first, ∃ b ∈ second, related a b) ∧ ∀ b ∈ second, ∃ a ∈ first, related a b := by
  induction all with
  | nil => exact ⟨fun _ member => (List.not_mem_nil member).elim, fun _ member => (List.not_mem_nil member).elim⟩
  | @cons a b first second own _ inductionHypothesis =>
      constructor
      · intro other member
        rcases List.mem_cons.mp member with rfl | later
        · exact ⟨b, List.mem_cons_self, own⟩
        · rcases inductionHypothesis.1 other later with ⟨found, among, related⟩
          exact ⟨found, List.mem_cons_of_mem _ among, related⟩
      · intro other member
        rcases List.mem_cons.mp member with rfl | later
        · exact ⟨a, List.mem_cons_self, own⟩
        · rcases inductionHypothesis.2 other later with ⟨found, among, related⟩
          exact ⟨found, List.mem_cons_of_mem _ among, related⟩

/-- A loop over a list that collects results had one for each entry. -/
theorem mapM_eq_ok_iff {α β ε : Type} {attempt : α -> Except ε β} {entries : List α} {results : List β} :
    entries.mapM attempt = .ok results ↔
      List.Forall₂ (fun entry result => attempt entry = .ok result) entries results := by
  induction entries generalizing results with
  | nil =>
      rw [List.mapM_nil, List.forall₂_nil_left_iff]
      exact ⟨fun same => (Except.ok.inj same).symm, fun same => congrArg Except.ok same.symm⟩
  | cons entry rest inductionHypothesis =>
      rw [List.mapM_cons, bind_eq_ok_iff, List.forall₂_cons_left_iff]
      apply exists_congr
      intro result
      rw [bind_eq_ok_iff]
      constructor
      · rintro ⟨own, later, collected, same⟩
        cases same
        exact ⟨later, own, inductionHypothesis.mp collected, rfl⟩
      · rintro ⟨later, own, collected, rfl⟩
        exact ⟨own, later, inductionHypothesis.mpr collected, rfl⟩

/-- It comes to an end where every entry has a result. -/
theorem exists_mapM_iff {α β ε : Type} {attempt : α -> Except ε β} {entries : List α} :
    (∃ results, entries.mapM attempt = .ok results) ↔ ∀ entry ∈ entries, ∃ result, attempt entry = .ok result := by
  simp only [mapM_eq_ok_iff]
  induction entries with
  | nil => exact iff_of_true ⟨[], .nil⟩ (fun _ member => (List.not_mem_nil member).elim)
  | cons entry rest inductionHypothesis =>
      rw [List.forall_mem_cons, ← inductionHypothesis]
      constructor
      · rintro ⟨results, _ | ⟨own, later⟩⟩
        exact ⟨⟨_, own⟩, _, later⟩
      · rintro ⟨⟨result, own⟩, results, later⟩
        exact ⟨_, .cons own later⟩

/-! ## Numbers -/

inductive PyFloat where
  | finite (value : ℚ)
  | posInf
  | negInf
  | nan
  deriving DecidableEq

namespace PyFloat

def zero : PyFloat := .finite 0

/-- `x == 0`, which not-a-number never satisfies. -/
def isZero : PyFloat -> Bool
  | .finite value => decide (value = 0)
  | _ => false

/-- `x >= y`; every comparison with not-a-number is false. -/
def ge : PyFloat -> PyFloat -> Bool
  | .nan, _ => false
  | _, .nan => false
  | .posInf, _ => true
  | _, .negInf => true
  | .finite left, .finite right => decide (right ≤ left)
  | _, _ => false

/-- `x < y`. -/
def lt : PyFloat -> PyFloat -> Bool
  | .nan, _ => false
  | _, .nan => false
  | .finite left, .finite right => decide (left < right)
  | .negInf, .negInf => false
  | .negInf, _ => true
  | .posInf, _ => false
  | .finite _, .posInf => true
  | .finite _, .negInf => false

/-- The double that a decimal in the program text stands for. -/
def literal (decimal : ℚ) : PyFloat := .finite (Binary64.nearest decimal)

/-- `x + n` for a small integer. -/
def addInt : PyFloat -> Int -> PyFloat
  | .finite value, n => .finite (Binary64.nearest (value + n))
  | special, _ => special

/-- `round(x, digits)`: the double next to the decimal that the exact value is rounded to. -/
def round (x : PyFloat) (digits : Nat) : PyFloat :=
  match x with
  | .finite value => .literal (Binary64.roundHalfEven (value * 10 ^ digits) / 10 ^ digits)
  | special => special

/-- `x >= y` is an order of finite numbers. -/
theorem ge_finite_iff (left right : ℚ) : (finite left).ge (finite right) = true ↔ right ≤ left := decide_eq_true_iff

/-- Rounding to decimal places keeps the order. -/
theorem round_mono {x y : ℚ} (le : x ≤ y) (digits : Nat) :
    ((finite y).round digits).ge ((finite x).round digits) = true := by
  apply (ge_finite_iff _ _).mpr
  apply Binary64.nearest_mono
  apply div_le_div_of_nonneg_right _ (by positivity)
  exact_mod_cast Binary64.roundHalfEven_mono (mul_le_mul_of_nonneg_right le (by positivity))

/-- A decimal of so many places is rounded to its own double. -/
theorem round_literal {decimal : ℚ} {digits : Nat} {n : Int} (places : decimal * 10 ^ digits = n)
    (unit : |decimal| ≤ 1) (few : digits ≤ 15) : (literal decimal).round digits = literal decimal := by
  have scale : (0 : ℚ) < 10 ^ digits := by positivity
  have near : |Binary64.nearest decimal * 10 ^ digits - n| < 1 / 2 := by
    rw [← places, ← sub_mul, abs_mul, abs_of_pos scale]
    calc |Binary64.nearest decimal - decimal| * 10 ^ digits
        ≤ 1 / 2 ^ 53 * 10 ^ 15 := by
          apply mul_le_mul (Binary64.abs_nearest_sub_le unit) _ scale.le (by positivity)
          exact pow_le_pow_right₀ (by norm_num) few
      _ < 1 / 2 := by norm_num
  unfold literal round
  dsimp only
  rw [Binary64.roundHalfEven_of_near near, ← places, mul_div_cancel_right₀ _ scale.ne']
  rfl

/-- What is closest to nine tenths among the decimals of four places is the double of it. -/
example : (literal (89996 / 100000)).round 4 = literal (9 / 10) := by decide +kernel

/-- Conversion of an integer, which overflows where a double would. -/
def ofInt (n : Int) : Except PyError PyFloat :=
  if n.natAbs < 2 ^ 1024 - 2 ^ 970 then .ok (.finite n)
  else .error ⟨.overflowError, "int too large to convert to float"⟩

end PyFloat

/-! ## Values -/

inductive Json where
  | null
  | bool (value : Bool)
  | int (value : Int)
  | float (value : PyFloat)
  | str (value : PyStr)
  | arr (items : List Json)
  | obj (fields : List (PyStr × Json))

/-- A dictionary as the list of its bindings.  The first binding of a key is
the one that counts, and `set` keeps a key bound at most once. -/
abbrev Dict := List (PyStr × Json)

namespace Json

/-- A text literal of the program. -/
def text (s : String) : Json := .str (PyStr.ofString s)

/-- `type(value).__name__`. -/
def typeName : Json -> String
  | .null => "NoneType"
  | .bool _ => "bool"
  | .int _ => "int"
  | .float _ => "float"
  | .str _ => "str"
  | .arr _ => "list"
  | .obj _ => "dict"

/-- `bool(value)`. -/
def truthy : Json -> Bool
  | .null => false
  | .bool value => value
  | .int value => decide (value ≠ 0)
  | .float value => !value.isZero
  | .str value => decide (value ≠ [])
  | .arr items => !items.isEmpty
  | .obj fields => !fields.isEmpty

/-- `left or right`. -/
def orElse (left right : Json) : Json := if left.truthy then left else right

/-- `value == text` for a string. -/
def eqStr (value : Json) (text : PyStr) : Bool :=
  match value with
  | .str own => decide (own = text)
  | _ => false

/-- `value == n` for an integer: booleans and floats compare numerically. -/
def eqInt (value : Json) (n : Int) : Bool :=
  match value with
  | .bool own => decide ((if own then 1 else 0) = n)
  | .int own => decide (own = n)
  | .float (.finite own) => decide (own = n)
  | _ => false

/-- The numeric value of a boolean, an integer or a float. -/
def asNumber : Json -> Option PyFloat
  | .bool own => some (.finite (if own then 1 else 0))
  | .int own => some (.finite own)
  | .float own => some own
  | _ => none

/-- `value >= bound`. -/
def ge (value : Json) (bound : PyFloat) : Except PyError Bool :=
  match value.asNumber with
  | some number => .ok (number.ge bound)
  | none => .error ⟨.typeError, "'>=' not supported between instances of '" ++ value.typeName ++
      "' and 'float'"⟩

/-- `value + n`. -/
def addInt (value : Json) (n : Int) : Except PyError Json :=
  match value with
  | .bool own => .ok (.int ((if own then 1 else 0) + n))
  | .int own => .ok (.int (own + n))
  | .float own => .ok (.float (own.addInt n))
  | value => .error ⟨.typeError, "unsupported operand type(s) for +: '" ++ value.typeName ++
      "' and 'int'"⟩

/-- `left == right` of texts, numbers and `None`.  Containers do not reach the
comparisons this is used in without an exception next to them. -/
def eqScalar (left right : Json) : Bool :=
  match left, right with
  | .null, .null => true
  | .str own, .str other => decide (own = other)
  | left, right =>
      match left.asNumber, right.asNumber with
      | some first, some second => decide (first = second ∧ first ≠ .nan)
      | _, _ => false

/-- Attribute access on a value that lacks the attribute. -/
def noAttribute (value : Json) (name : String) : PyError :=
  ⟨.attributeError, "'" ++ value.typeName ++ "' object has no attribute '" ++ name ++ "'"⟩

/-- The receiver of `.get`, which only a dictionary has. -/
def asDict : Json -> Except PyError Dict
  | .obj fields => .ok fields
  | value => .error (noAttribute value "get")

/-- `value.encode()`. -/
def encode : Json -> Except PyError Bytes
  | .str own =>
      match PyStr.utf8 own with
      | some bytes => .ok bytes
      | none => .error ⟨.unicodeEncodeError, "surrogates not allowed"⟩
  | value => .error (noAttribute value "encode")

/-- `base64.b64decode(value)`. -/
def b64decode : Json -> Except PyError Bytes
  | .str own =>
      match Base64.decode own with
      | .ok bytes => .ok bytes
      | .error .nonAscii => .error ⟨.valueError, Base64.DecodeError.nonAscii.message⟩
      | .error cause => .error ⟨.binasciiError, cause.message⟩
  | value => .error ⟨.typeError,
      "argument should be a bytes-like object or ASCII string, not '" ++ value.typeName ++ "'"⟩

@[simp] theorem eqStr_str (own text : PyStr) : (Json.str own).eqStr text = decide (own = text) :=
  rfl

theorem eqStr_eq_true_iff (value : Json) (text : PyStr) :
    value.eqStr text = true ↔ value = .str text := by
  cases value with
  | str own => simp only [eqStr_str, decide_eq_true_eq, Json.str.injEq]
  | _ => simp [eqStr]

theorem encode_eq_ok_iff (value : Json) (bytes : Bytes) :
    value.encode = .ok bytes ↔ ∃ own, value = .str own ∧ PyStr.utf8 own = some bytes := by
  cases value with
  | str own =>
      simp only [encode, Json.str.injEq, exists_eq_left']
      cases PyStr.utf8 own <;> simp
  | _ => simp [encode]

theorem encode_str {own : PyStr} {bytes : Bytes} (encoded : PyStr.utf8 own = some bytes) :
    (Json.str own).encode = .ok bytes :=
  (encode_eq_ok_iff ..).mpr ⟨own, rfl, encoded⟩

@[simp] theorem b64decode_encode (bytes : Bytes) :
    (Json.str (Base64.encode bytes)).b64decode = .ok bytes := by
  simp only [b64decode, Base64.decode_encode]

@[simp] theorem truthy_str (own : PyStr) : (Json.str own).truthy = decide (own ≠ []) := rfl

theorem orElse_of_truthy {value : Json} (truthy : value.truthy = true) (other : Json) :
    value.orElse other = value := by
  rw [orElse, truthy, if_pos rfl]

/-- Zero is the only integer that its default replaces. -/
theorem orElse_int_zero (n : Int) : (Json.int n).orElse (.int 0) = .int n := by
  by_cases zero : n = 0
  · rw [zero]
    rfl
  · have nonzero : (Json.int n).truthy = true := decide_eq_true zero
    exact orElse_of_truthy nonzero _

/-- And zero is the only float. -/
theorem orElse_float_zero (x : PyFloat) : (Json.float x).orElse (.float .zero) = .float x := by
  cases falsy : x.isZero with
  | false => exact orElse_of_truthy (by rw [truthy, falsy]; rfl) _
  | true =>
      cases x with
      | finite value =>
          have zero : value = 0 := of_decide_eq_true falsy
          rw [zero]
          rfl
      | _ => cases falsy

theorem orElse_str {own : PyStr} (nonempty : own ≠ []) (other : Json) :
    (Json.str own).orElse other = .str own := by
  apply orElse_of_truthy
  exact decide_eq_true nonempty

theorem orElse_str_empty (own : PyStr) : (Json.str own).orElse (text "") = .str own := by
  by_cases empty : own = []
  · rw [empty]
    rfl
  · exact orElse_str empty _

end Json

namespace Dict

/-- The binding of a key written in the program text. -/
def find (fields : Dict) (key : String) : Option Json :=
  (List.find? (fun field => decide (field.1 = PyStr.ofString key)) fields).map Prod.snd

/-- `d.get(key, default)`. -/
def get (fields : Dict) (key : String) (default : Json) : Json :=
  (find fields key).getD default

/-- `d[key]`. -/
def require (fields : Dict) (key : String) : Except PyError Json :=
  match find fields key with
  | some value => .ok value
  | none => .error ⟨.keyError, key⟩

/-- `key in d`. -/
def has (fields : Dict) (key : String) : Bool := (find fields key).isSome

/-- `d[key] = value`. -/
def set (fields : Dict) (key : String) (value : Json) : Dict :=
  match fields with
  | [] => [(PyStr.ofString key, value)]
  | (own, old) :: rest =>
      if own = PyStr.ofString key then (own, value) :: rest else (own, old) :: set rest key value

@[simp] theorem find_nil (key : String) : find [] key = none := rfl

/-- Lookup in a literal record compares the two key texts. -/
@[simp] theorem find_cons_ofString (own key : String) (value : Json) (rest : Dict) :
    find ((PyStr.ofString own, value) :: rest) key =
      if own = key then some value else find rest key := by
  by_cases same : own = key
  · subst own
    simp [find]
  · have different : ¬PyStr.ofString own = PyStr.ofString key :=
      fun equal => same ((PyStr.ofString_inj own key).mp equal)
    simp [find, same, different]

/-- Lookup in a record that was made from a list of keys. -/
theorem find_map_ofString (value : String -> Json) {keys : List String} {key : String} (listed : key ∈ keys) :
    find (keys.map fun own => (PyStr.ofString own, value own)) key = some (value key) := by
  induction keys with
  | nil => cases listed
  | cons own rest inductionHypothesis =>
      rw [List.map_cons, find_cons_ofString]
      by_cases same : own = key
      · rw [if_pos same, same]
      · rw [if_neg same]
        apply inductionHypothesis
        exact (List.mem_cons.mp listed).resolve_left (Ne.symm same)

theorem find_set (fields : Dict) (key other : String) (value : Json) :
    find (set fields key value) other =
      if key = other then some value else find fields other := by
  induction fields with
  | nil => simp [set]
  | cons field rest inductionHypothesis =>
      rcases field with ⟨own, old⟩
      by_cases bound : own = PyStr.ofString key
      · subst own
        simp only [set, if_pos, find_cons_ofString]
        split <;> rfl
      · simp only [set, if_neg bound]
        by_cases same : key = other
        · subst other
          simp only [if_pos] at inductionHypothesis ⊢
          simpa [find, bound] using inductionHypothesis
        · simp only [if_neg same] at inductionHypothesis ⊢
          by_cases hit : own = PyStr.ofString other
          · simp [find, hit]
          · simpa [find, hit] using inductionHypothesis

/-- Writing the value a key already has changes nothing. -/
theorem set_eq_self {fields : Dict} {key : String} {value : Json}
    (found : find fields key = some value) : set fields key value = fields := by
  induction fields with
  | nil => cases found
  | cons field rest inductionHypothesis =>
      rcases field with ⟨own, old⟩
      by_cases bound : own = PyStr.ofString key
      · subst own
        rw [find_cons_ofString, if_pos rfl] at found
        cases found
        simp only [set, if_pos]
      · have later : find rest key = some value := by
          simpa [find, bound] using found
        simp only [set, if_neg bound, inductionHypothesis later]

/-- All bindings but those of one key. -/
def without (fields : Dict) (key : String) : Dict :=
  fields.filter fun field => decide (field.1 ≠ PyStr.ofString key)

theorem without_set (fields : Dict) (key : String) (value : Json) :
    without (set fields key value) key = without fields key := by
  induction fields with
  | nil => simp [without, set]
  | cons field rest inductionHypothesis =>
      rcases field with ⟨own, old⟩
      unfold without at inductionHypothesis ⊢
      by_cases bound : own = PyStr.ofString key
      · simp [set, bound]
      · simp only [set, if_neg bound, List.filter_cons, decide_eq_true bound, if_true,
          inductionHypothesis]

theorem find_without (fields : Dict) {key other : String} (different : other ≠ key) :
    find (without fields key) other = find fields other := by
  unfold find without
  rw [List.find?_filter]
  congr 2
  funext field
  by_cases hit : field.1 = PyStr.ofString other
  · simp [hit, different]
  · simp [hit]

/-- Presence of a key is a matter of the keys alone. -/
theorem has_eq_any (fields : Dict) (key : String) :
    has fields key = (fields.map Prod.fst).any fun own => decide (own = PyStr.ofString key) := by
  unfold has find
  rw [Option.isSome_map, List.isSome_find?, List.any_map]
  rfl

/-- Writing one key does not change whether another is present. -/
theorem has_set_of_ne (fields : Dict) {key other : String} (different : key ≠ other)
    (value : Json) : has (set fields key value) other = has fields other := by
  rw [has, has, find_set, if_neg different]

theorem require_eq_ok_iff {fields : Dict} {key : String} {value : Json} :
    require fields key = .ok value ↔ find fields key = some value := by
  unfold require
  cases find fields key with
  | none => simp
  | some own => simp

theorem get_of_find {fields : Dict} {key : String} {value default : Json}
    (found : find fields key = some value) : get fields key default = value := by
  rw [get, found, Option.getD_some]

end Dict

end Foundation
