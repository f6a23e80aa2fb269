import Mathlib.Data.List.Lex
import Mathlib.Data.List.Sort
import ZeroAudit.Foundation.PyValue

namespace Foundation

/-!
# JSON text in the compact form with sorted keys

This is the text of `json.dumps(value, sort_keys=True, separators=(",", ":"))`.
Strings are escaped down to printable ASCII, with surrogate pairs for the
characters beyond the basic plane.  How a float is written is left to the
runtime.
-/

namespace PyStr

/-- The code point of a character. -/
def codePoint : PyChar -> Nat
  | .scalar c => c.toNat
  | .surrogate index => 0xd800 + index.val

/-- A backslash, the letter `u`, and four hexadecimal digits. -/
def unicodeEscape (unit : Nat) : PyStr :=
  (['\\', 'u', hexDigit (unit / 4096 % 16), hexDigit (unit / 256 % 16), hexDigit (unit / 16 % 16),
    hexDigit (unit % 16)]).map PyChar.scalar

def escapeChar (c : PyChar) : PyStr :=
  let code := codePoint c
  if code = 0x22 then ofString "\\\""
  else if code = 0x5c then ofString "\\\\"
  else if code = 0x0a then ofString "\\n"
  else if code = 0x0d then ofString "\\r"
  else if code = 0x09 then ofString "\\t"
  else if code = 0x08 then ofString "\\b"
  else if code = 0x0c then ofString "\\f"
  else if 0x20 ≤ code ∧ code ≤ 0x7e then [c]
  else if code < 0x10000 then unicodeEscape code
  else unicodeEscape (0xd800 + (code - 0x10000) / 1024) ++ unicodeEscape (0xdc00 + code % 1024)

/-- A string in quotes. -/
def quote (text : PyStr) : PyStr :=
  ofString "\"" ++ text.flatMap escapeChar ++ ofString "\""

end PyStr

namespace Json

/-- Entries between commas. -/
def commaSeparated (entries : List PyStr) : PyStr :=
  List.intercalate (PyStr.ofString ",") entries

mutual

def dumps (floatText : PyFloat -> PyStr) : Json -> PyStr
  | .null => PyStr.ofString "null"
  | .bool true => PyStr.ofString "true"
  | .bool false => PyStr.ofString "false"
  | .int n => PyStr.decimal n
  | .float x => floatText x
  | .str own => PyStr.quote own
  | .arr items => PyStr.ofString "[" ++ commaSeparated (dumpsItems floatText items) ++
      PyStr.ofString "]"
  | .obj fields =>
      let sorted := (dumpsFields floatText fields).insertionSort fun left right =>
        left.1.map PyStr.codePoint ≤ right.1.map PyStr.codePoint
      PyStr.ofString "\x7b" ++
        commaSeparated (sorted.map fun field => PyStr.quote field.1 ++ PyStr.ofString ":" ++ field.2) ++
        PyStr.ofString "\x7d"

def dumpsItems (floatText : PyFloat -> PyStr) : List Json -> List PyStr
  | [] => []
  | item :: rest => dumps floatText item :: dumpsItems floatText rest

def dumpsFields (floatText : PyFloat -> PyStr) : List (PyStr × Json) -> List (PyStr × PyStr)
  | [] => []
  | (key, value) :: rest => (key, dumps floatText value) :: dumpsFields floatText rest

end

end Json

/-! ## What is written can be encoded -/

/-- Text without a surrogate. -/
def Scalars (text : PyStr) : Prop := ∀ c ∈ text, ∃ character : Char, c = .scalar character

theorem Scalars.append {left right : PyStr} (first : Scalars left) (second : Scalars right) :
    Scalars (left ++ right) := by
  intro c member
  exact (List.mem_append.mp member).elim (first c) (second c)

theorem scalars_map (chars : List Char) : Scalars (chars.map PyChar.scalar) := by
  intro c member
  rcases List.mem_map.mp member with ⟨character, -, rfl⟩
  exact ⟨character, rfl⟩

theorem scalars_ofString (s : String) : Scalars (PyStr.ofString s) := scalars_map s.toList

theorem scalars_decimal (n : Int) : Scalars (PyStr.decimal n) := by
  intro c member
  rcases PyStr.mem_decimal member with ⟨character, same, -⟩
  exact ⟨character, same⟩

theorem Scalars.encodable {text : PyStr} (scalars : Scalars text) : ∃ bytes, PyStr.utf8 text = some bytes := by
  induction text with
  | nil => exact ⟨[], rfl⟩
  | cons c rest inductionHypothesis =>
      rcases scalars c List.mem_cons_self with ⟨character, rfl⟩
      rcases inductionHypothesis fun other member => scalars other (List.mem_cons_of_mem _ member) with ⟨tail, encoded⟩
      exact ⟨_, (PyStr.utf8_cons_eq_some_iff ..).mpr ⟨_, tail, rfl, encoded, rfl⟩⟩

/-- Escapes are plain, and what is not escaped is no surrogate. -/
theorem scalars_quote (text : PyStr) : Scalars (PyStr.quote text) := by
  refine ((scalars_ofString _).append ?_).append (scalars_ofString _)
  intro c member
  rcases List.mem_flatMap.mp member with ⟨own, -, escaped⟩
  have plain : Scalars (PyStr.escapeChar own) := by
    unfold PyStr.escapeChar
    dsimp only
    iterate 7
      split
      · exact scalars_ofString _
    split
    · next printable =>
        cases own with
        | scalar character => exact scalars_map [character]
        | surrogate index =>
            have high : 0xd800 ≤ PyStr.codePoint (.surrogate index) := Nat.le_add_right _ _
            omega
    · split
      · exact scalars_map _
      · exact (scalars_map _).append (scalars_map _)
  exact plain c escaped

namespace Json

theorem scalars_commaSeparated {entries : List PyStr} (plain : ∀ entry ∈ entries, Scalars entry) :
    Scalars (commaSeparated entries) := by
  induction entries with
  | nil => exact fun _ member => (List.not_mem_nil member).elim
  | cons entry rest inductionHypothesis =>
      have own := plain entry List.mem_cons_self
      have later := inductionHypothesis fun other member => plain other (List.mem_cons_of_mem _ member)
      cases rest with
      | nil => simpa [commaSeparated] using own
      | cons next rest =>
          have split : commaSeparated (entry :: next :: rest) =
              entry ++ PyStr.ofString "," ++ commaSeparated (next :: rest) := by
            simp [commaSeparated, List.intercalate]
          rw [split]
          exact (own.append (scalars_ofString _)).append later

/-- An object is plain if its values are. -/
theorem scalars_dumps_obj {floatText : PyFloat -> PyStr} {fields : List (PyStr × Json)}
    (plain : ∀ field ∈ fields, Scalars (dumps floatText field.2)) : Scalars (dumps floatText (.obj fields)) := by
  have listed : ∀ field ∈ dumpsFields floatText fields, Scalars field.2 := by
    induction fields with
    | nil => exact fun _ member => (List.not_mem_nil member).elim
    | cons field rest inductionHypothesis =>
        rcases field with ⟨key, value⟩
        intro field member
        rw [dumpsFields] at member
        rcases List.mem_cons.mp member with rfl | later
        · exact plain (key, value) List.mem_cons_self
        · exact inductionHypothesis (fun own member => plain own (List.mem_cons_of_mem _ member)) field later
  rw [dumps]
  refine ((scalars_ofString _).append ?_).append (scalars_ofString _)
  apply scalars_commaSeparated
  intro entry member
  rcases List.mem_map.mp member with ⟨field, sorted, rfl⟩
  have own := listed field ((List.perm_insertionSort _ _).mem_iff.mp sorted)
  exact ((scalars_quote _).append (scalars_ofString _)).append own

end Json
end Foundation
