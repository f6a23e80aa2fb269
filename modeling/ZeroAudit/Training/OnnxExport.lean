import Mathlib.Data.List.TakeWhile
import ZeroAudit.Foundation.Dataflow
import ZeroAudit.Foundation.Retention
import ZeroAudit.Foundation.Text
import ZeroAudit.Training.Autoencoder

namespace ZeroAudit
namespace Training

open Foundation Foundation.Dataflow Foundation.MatrixGradient Matrix

/-!
# The exported network (`export_onnx`)

The export writes the standardisation, the layers and the error of the reconstruction as
one graph of named tensors, with the parameters rounded to the format of the graph.  The
operators of the graph have the meaning of the ONNX operators for the ranks that occur:
vectors, matrices, and a vector against every row of a matrix.  They are undefined on
other shapes, so that a graph that gives a result is one whose shapes agree.
-/

variable {K : Type*} {n a b : Nat} {sizes : List Nat}

/-! ## Scores of a network -/

section Scores

variable [Field K] (tanh : K -> K)

/-- `standardize`. -/
def standardize (X : Matrix (Fin n) (Fin a) K) (mu sigma : Fin a -> K) : Matrix (Fin n) (Fin a) K :=
  Matrix.of fun row column => (X row column - mu column) / sigma column

/-- `reconstruction_error`: the mean squared error of each row, in standardised space. -/
def reconstructionError (params : Params K a sizes a) (X : Matrix (Fin n) (Fin a) K) (mu sigma : Fin a -> K) :
    Fin n -> K :=
  let Z := standardize X mu sigma
  let recon := (forward tanh params Z).1
  fun row => (∑ column, (recon row column - Z row column) ^ 2) / a

end Scores

/-- The parameters, each rounded. -/
def Params.map (cast : K -> K) : {a b : Nat} -> {sizes : List Nat} -> Params K a sizes b -> Params K a sizes b
  | _, _, _, .output W bias => .output (W.map cast) (cast ∘ bias)
  | _, _, _, .hidden W bias rest => .hidden (W.map cast) (cast ∘ bias) (rest.map cast)

/-! ## Tensors -/

inductive Tensor (K : Type*) where
  | vector (size : Nat) (entries : Fin size -> K)
  | matrix (rows columns : Nat) (entries : Matrix (Fin rows) (Fin columns) K)

inductive Operator where
  | sub | div | mul | add | matMul | tanh
  | reduceMean (axes : List Nat) (keepdims : Bool)

namespace Tensor

/-- An operation entry by entry, on two matrices of one shape or on a vector against the
rows of a matrix. -/
def zipWith (f : K -> K -> K) : Tensor K -> Tensor K -> Option (Tensor K)
  | .matrix rows columns left, .matrix rows' columns' right =>
      if same : rows = rows' ∧ columns = columns' then
        some (.matrix rows columns (Matrix.of fun row column =>
          f (left row column) (right (row.cast same.1) (column.cast same.2))))
      else none
  | .matrix rows columns left, .vector size right =>
      if same : columns = size then
        some (.matrix rows columns (Matrix.of fun row column => f (left row column) (right (column.cast same))))
      else none
  | .vector _ _, _ => none

def map (f : K -> K) : Tensor K -> Tensor K
  | .vector size entries => .vector size (f ∘ entries)
  | .matrix rows columns entries => .matrix rows columns (entries.map f)

@[simp] theorem zipWith_matrix (rows columns : Nat) (f : K -> K -> K)
    (left right : Matrix (Fin rows) (Fin columns) K) :
    zipWith f (.matrix rows columns left) (.matrix rows columns right) =
      some (.matrix rows columns (Matrix.of fun row column => f (left row column) (right row column))) := by
  simp [zipWith]

@[simp] theorem zipWith_vector (rows columns : Nat) (f : K -> K -> K)
    (left : Matrix (Fin rows) (Fin columns) K) (right : Fin columns -> K) :
    zipWith f (.matrix rows columns left) (.vector columns right) =
      some (.matrix rows columns (Matrix.of fun row column => f (left row column) (right column))) := by
  simp [zipWith]

variable [Field K]

def matMul : Tensor K -> Tensor K -> Option (Tensor K)
  | .matrix rows inner left, .matrix inner' columns right =>
      if same : inner = inner' then
        some (.matrix rows columns (left * right.submatrix (Fin.cast same) id))
      else none
  | _, _ => none

/-- The mean along the second axis, which is kept with size one. -/
def rowMeans : Tensor K -> Option (Tensor K)
  | .matrix rows columns entries =>
      some (.matrix rows 1 (Matrix.of fun row _ => (∑ column, entries row column) / columns))
  | .vector _ _ => none

@[simp] theorem matMul_matrix (rows inner columns : Nat) (left : Matrix (Fin rows) (Fin inner) K)
    (right : Matrix (Fin inner) (Fin columns) K) :
    matMul (.matrix rows inner left) (.matrix inner columns right) =
      some (.matrix rows columns (left * right)) := by
  simp [matMul]

end Tensor

/-- What an operator computes from its operands. -/
def Operator.meaning [Field K] (tanh : K -> K) : Operator -> List (Tensor K) -> Option (Tensor K)
  | .sub, [left, right] => left.zipWith (· - ·) right
  | .div, [left, right] => left.zipWith (· / ·) right
  | .mul, [left, right] => left.zipWith (· * ·) right
  | .add, [left, right] => left.zipWith (· + ·) right
  | .matMul, [left, right] => left.matMul right
  | .tanh, [operand] => some (operand.map tanh)
  | .reduceMean [1] true, [operand] => operand.rowMeans
  | _, _ => none

/-! ## The graph -/

abbrev GraphNode := Node Operator PyStr

structure OnnxGraph (K : Type*) where
  initializers : List (PyStr × Tensor K)
  nodes : List GraphNode
  input : PyStr
  output : PyStr

namespace OnnxGraph

/-- The values before the first node: the input and the initializers. -/
def load (graph : OnnxGraph K) (X : Tensor K) : Env PyStr (Tensor K) := fun name =>
  if name = graph.input then some X else Retention.lookup name graph.initializers

/-- Run the graph on an input. -/
def run [Field K] (tanh : K -> K) (graph : OnnxGraph K) (X : Tensor K) : Option (Tensor K) := do
  let values ← evaluate (Operator.meaning tanh) (graph.load X) graph.nodes
  values graph.output

/-- The names that have a value before the first node. -/
def given (graph : OnnxGraph K) : List PyStr := graph.input :: graph.initializers.map Prod.fst

/-- What the checker of the export format demands of names: each is given a value once,
and before it is read. -/
structure WellFormed (graph : OnnxGraph K) : Prop where
  given_nodup : graph.given.Nodup
  inScope : Scoped graph.given graph.nodes
  output_mem : graph.output ∈ outputs graph.nodes

end OnnxGraph

/-! ## The export -/

/-- A name of the source such as `"W%d" % i`. -/
def numbered (tag : String) (i : Nat) : PyStr := PyStr.ofString tag ++ PyStr.decimal i

/-- `helper.make_node`. -/
def makeNode (op : Operator) (inputs : List PyStr) (output : PyStr) : GraphNode := ⟨op, inputs, output⟩

/-- The initializers of the layers, the first of which has this number. -/
def layerInitializers (cast : K -> K) :
    {a b : Nat} -> {sizes : List Nat} -> Nat -> Params K a sizes b -> List (PyStr × Tensor K)
  | a, b, _, i, .output W bias =>
      [(numbered "W" i, .matrix a b (W.map cast)), (numbered "b" i, .vector b (cast ∘ bias))]
  | a, _, c :: _, i, .hidden W bias rest =>
      [(numbered "W" i, .matrix a c (W.map cast)), (numbered "b" i, .vector c (cast ∘ bias))] ++
        layerInitializers cast (i + 1) rest

/-- The nodes of a layer before its activation. -/
def layerNodes (cur : PyStr) (i : Nat) : List GraphNode :=
  [makeNode .matMul [cur, numbered "W" i] (numbered "mm" i),
    makeNode .add [numbered "mm" i, numbered "b" i] (numbered "add" i)]

/-- The nodes of the layers, and the name of what the last one returns.  Every layer but
the last has an activation. -/
def exportLayers : {a b : Nat} -> {sizes : List Nat} -> PyStr -> Nat -> Params K a sizes b ->
    List GraphNode × PyStr
  | _, _, _, cur, i, .output _ _ => (layerNodes cur i, numbered "add" i)
  | _, _, _, cur, i, .hidden _ _ rest =>
      let later := exportLayers (numbered "h" i) (i + 1) rest
      (layerNodes cur i ++ [makeNode .tanh [numbered "add" i] (numbered "h" i)] ++ later.1, later.2)

/-- The nodes that standardise the input. -/
def standardizeNodes : List GraphNode :=
  [makeNode .sub [PyStr.ofString "features", PyStr.ofString "mu"] (PyStr.ofString "centered"),
    makeNode .div [PyStr.ofString "centered", PyStr.ofString "sigma"] (PyStr.ofString "normed")]

/-- The nodes that compute the error of a reconstruction. -/
def errorNodes (cur : PyStr) : List GraphNode :=
  [makeNode .sub [cur, PyStr.ofString "normed"] (PyStr.ofString "residual"),
    makeNode .mul [PyStr.ofString "residual", PyStr.ofString "residual"] (PyStr.ofString "sq_err"),
    makeNode (.reduceMean [1] true) [PyStr.ofString "sq_err"] (PyStr.ofString "recon_error")]

/-- `export_onnx`, for the rounding to the format of the graph. -/
def exportOnnx (cast : K -> K) (params : Params K a sizes a) (mu sigma : Fin a -> K) : OnnxGraph K :=
  let layers := exportLayers (PyStr.ofString "normed") 1 params
  { initializers :=
      [(PyStr.ofString "mu", .vector a (cast ∘ mu)), (PyStr.ofString "sigma", .vector a (cast ∘ sigma))] ++
        layerInitializers cast 1 params
    nodes := standardizeNodes ++ layers.1 ++ errorNodes layers.2
    input := PyStr.ofString "features"
    output := PyStr.ofString "recon_error" }

/-! ## Names -/

/-- A character of a decimal number. -/
def isNumeral : PyChar -> Bool
  | .scalar c => c.isDigit || c == '-'
  | .surrogate _ => false

/-- A name up to its number. -/
def stem (name : PyStr) : PyStr := name.takeWhile fun c => !isNumeral c

/-- A literal without a number in it. -/
def Plain (tag : String) : Prop := (PyStr.ofString tag).all (fun c => !isNumeral c) = true

instance (tag : String) : Decidable (Plain tag) := inferInstanceAs (Decidable (_ = true))

theorem Plain.keeps {tag : String} (plain : Plain tag) : ∀ c ∈ PyStr.ofString tag, (!isNumeral c) = true :=
  List.all_eq_true.mp plain

theorem isNumeral_of_mem_decimal {i : Int} {c : PyChar} (member : c ∈ PyStr.decimal i) : isNumeral c = true := by
  rcases PyStr.mem_decimal member with ⟨character, rfl, digit | minus⟩
  · simp [isNumeral, digit]
  · simp [isNumeral, minus]

theorem decimal_ne_nil (i : Nat) : PyStr.decimal i ≠ [] := by
  intro empty
  exact Nat.toDigits_ne_nil (List.map_eq_nil_iff.mp empty)

theorem stem_ofString {tag : String} (plain : Plain tag) : stem (PyStr.ofString tag) = PyStr.ofString tag :=
  List.takeWhile_eq_self_iff.mpr plain.keeps

theorem stem_numbered {tag : String} (plain : Plain tag) (i : Nat) :
    stem (numbered tag i) = PyStr.ofString tag := by
  have digits : (PyStr.decimal i).takeWhile (fun c => !isNumeral c) = [] := by
    cases shown : PyStr.decimal i with
    | nil => rfl
    | cons c rest =>
        have numeral := isNumeral_of_mem_decimal (shown ▸ List.mem_cons_self : c ∈ PyStr.decimal i)
        rw [List.takeWhile_cons_of_neg (by simp [numeral])]
  unfold stem numbered
  rw [List.takeWhile_append_of_pos plain.keeps, digits, List.append_nil]

/-- Numbered names agree only if their tags and their numbers do. -/
theorem numbered_inj {tag other : String} (plain : Plain tag) (otherPlain : Plain other) {i j : Nat} :
    numbered tag i = numbered other j ↔ tag = other ∧ i = j := by
  constructor
  · intro same
    have stems := congrArg stem same
    rw [stem_numbered plain, stem_numbered otherPlain, PyStr.ofString_inj] at stems
    subst stems
    exact ⟨rfl, Int.ofNat.inj (PyStr.decimal_injective (List.append_cancel_left same))⟩
  · rintro ⟨rfl, rfl⟩
    rfl

/-- A numbered name is no plain one. -/
theorem numbered_ne_ofString {tag name : String} (plain : Plain tag) (namePlain : Plain name) (i : Nat) :
    numbered tag i ≠ PyStr.ofString name := by
  intro same
  have stems := congrArg stem same
  rw [stem_numbered plain, stem_ofString namePlain] at stems
  rw [← stems] at same
  exact decimal_ne_nil i (List.append_right_eq_self.mp same)

/-! ## Names of the layers -/

/-- The names of the initializers of the layers from this number on. -/
theorem mem_layerInitializers {cast : K -> K} {params : Params K a sizes b} {i : Nat} {entry : PyStr × Tensor K}
    (member : entry ∈ layerInitializers cast i params) :
    ∃ j, i ≤ j ∧ (entry.1 = numbered "W" j ∨ entry.1 = numbered "b" j) := by
  induction params generalizing i with
  | output W bias =>
      simp only [layerInitializers, List.mem_cons, List.not_mem_nil, or_false] at member
      rcases member with rfl | rfl
      · exact ⟨i, le_rfl, Or.inl rfl⟩
      · exact ⟨i, le_rfl, Or.inr rfl⟩
  | hidden W bias rest inductionHypothesis =>
      simp only [layerInitializers, List.mem_append, List.mem_cons, List.not_mem_nil, or_false] at member
      rcases member with (rfl | rfl) | later
      · exact ⟨i, le_rfl, Or.inl rfl⟩
      · exact ⟨i, le_rfl, Or.inr rfl⟩
      · rcases inductionHypothesis later with ⟨j, after, named⟩
        exact ⟨j, by omega, named⟩

/-- The names the layers from this number on give values to. -/
theorem mem_outputs_exportLayers {params : Params K a sizes b} {cur : PyStr} {i : Nat} {name : PyStr}
    (member : name ∈ outputs (exportLayers cur i params).1) :
    ∃ j, i ≤ j ∧ (name = numbered "mm" j ∨ name = numbered "add" j ∨ name = numbered "h" j) := by
  induction params generalizing cur i with
  | output W bias =>
      simp only [exportLayers, layerNodes, makeNode, outputs_cons, outputs_nil, List.mem_cons,
        List.not_mem_nil, or_false] at member
      rcases member with rfl | rfl
      · exact ⟨i, le_rfl, Or.inl rfl⟩
      · exact ⟨i, le_rfl, Or.inr (Or.inl rfl)⟩
  | hidden W bias rest inductionHypothesis =>
      simp only [exportLayers, layerNodes, makeNode, outputs_append, outputs_cons, outputs_nil,
        List.mem_append, List.mem_cons, List.not_mem_nil, or_false] at member
      rcases member with ((rfl | rfl) | rfl) | later
      · exact ⟨i, le_rfl, Or.inl rfl⟩
      · exact ⟨i, le_rfl, Or.inr (Or.inl rfl)⟩
      · exact ⟨i, le_rfl, Or.inr (Or.inr rfl)⟩
      · rcases inductionHypothesis later with ⟨j, after, named⟩
        exact ⟨j, by omega, named⟩

/-- No initializer bears the name of an intermediate value. -/
theorem initializer_ne {cast : K -> K} {params : Params K a sizes b} {i j : Nat} {entry : PyStr × Tensor K}
    (member : entry ∈ layerInitializers cast i params) {tag : String} (plain : Plain tag)
    (other : tag ≠ "W" ∧ tag ≠ "b") : entry.1 ≠ numbered tag j := by
  rcases mem_layerInitializers member with ⟨k, -, named | named⟩
  · rw [named]
    intro same
    exact other.1 ((numbered_inj (by decide) plain).mp same).1.symm
  · rw [named]
    intro same
    exact other.2 ((numbered_inj (by decide) plain).mp same).1.symm

/-- The layers leave every plain name alone. -/
theorem ofString_not_mem_outputs {params : Params K a sizes b} {cur : PyStr} {i : Nat} {name : String}
    (plain : Plain name) : PyStr.ofString name ∉ outputs (exportLayers cur i params).1 := by
  intro member
  rcases mem_outputs_exportLayers member with ⟨j, -, named | named | named⟩
  · exact numbered_ne_ofString (by decide) plain j named.symm
  · exact numbered_ne_ofString (by decide) plain j named.symm
  · exact numbered_ne_ofString (by decide) plain j named.symm

/-! ## Scopes -/

theorem nodup_layerInitializers (cast : K -> K) (params : Params K a sizes b) (i : Nat) :
    ((layerInitializers cast i params).map Prod.fst).Nodup := by
  have apart : ∀ j, numbered "W" j ≠ numbered "b" j := fun j => by simp (disch := decide) [numbered_inj]
  induction params generalizing i with
  | output W bias => simpa [layerInitializers] using apart i
  | hidden W bias rest inductionHypothesis =>
      have later : ∀ tag, Plain tag -> numbered tag i ∉ (layerInitializers cast (i + 1) rest).map Prod.fst := by
        intro tag plain member
        rcases List.mem_map.mp member with ⟨entry, member, same⟩
        rcases mem_layerInitializers member with ⟨j, after, named | named⟩
        · have numbers := ((numbered_inj (by decide) plain).mp (named.symm.trans same)).2
          omega
        · have numbers := ((numbered_inj (by decide) plain).mp (named.symm.trans same)).2
          omega
      rw [layerInitializers, List.map_append, List.nodup_append']
      refine ⟨by simpa using apart i, inductionHypothesis (i + 1), ?_⟩
      intro name own member
      simp only [List.map_cons, List.map_nil, List.mem_cons, List.not_mem_nil, or_false] at own
      rcases own with rfl | rfl
      · exact later "W" (by decide) member
      · exact later "b" (by decide) member

/-- The initializers of the layers bear no plain name. -/
theorem ofString_not_mem_keys (cast : K -> K) (params : Params K a sizes b) (i : Nat) {name : String}
    (plain : Plain name) : PyStr.ofString name ∉ (layerInitializers cast i params).map Prod.fst := by
  intro member
  rcases List.mem_map.mp member with ⟨entry, member, same⟩
  rcases mem_layerInitializers member with ⟨j, -, named | named⟩
  · exact numbered_ne_ofString (by decide) plain j (named.symm.trans same)
  · exact numbered_ne_ofString (by decide) plain j (named.symm.trans same)

theorem given_exportOnnx (cast : K -> K) (params : Params K a sizes a) (mu sigma : Fin a -> K) :
    (exportOnnx cast params mu sigma).given =
      ["features", "mu", "sigma"].map PyStr.ofString ++ (layerInitializers cast 1 params).map Prod.fst := rfl

/-- The plain names that are given. -/
theorem ofString_mem_given_iff (cast : K -> K) (params : Params K a sizes a) (mu sigma : Fin a -> K) {name : String}
    (plain : Plain name) :
    PyStr.ofString name ∈ (exportOnnx cast params mu sigma).given ↔ name ∈ ["features", "mu", "sigma"] := by
  rw [given_exportOnnx, List.mem_append, or_iff_left (ofString_not_mem_keys cast params 1 plain)]
  simp

/-- No name is given twice before the first node. -/
theorem given_nodup (cast : K -> K) (params : Params K a sizes a) (mu sigma : Fin a -> K) :
    (exportOnnx cast params mu sigma).given.Nodup := by
  rw [given_exportOnnx, List.nodup_append']
  refine ⟨by decide, nodup_layerInitializers cast params 1, ?_⟩
  intro name own member
  have plain : ∀ name ∈ ["features", "mu", "sigma"], Plain name := by decide
  rcases List.mem_map.mp own with ⟨name, listed, rfl⟩
  exact ofString_not_mem_keys cast params 1 (plain name listed) member

theorem scoped_layerNodes {known : List PyStr} {cur : PyStr} {i : Nat} (current : cur ∈ known)
    (weights : numbered "W" i ∈ known) (biases : numbered "b" i ∈ known) (product : numbered "mm" i ∉ known)
    (sum : numbered "add" i ∉ known) : Scoped known (layerNodes cur i) := by
  refine ⟨?_, product, ?_, ?_, trivial⟩
  · simp [makeNode, current, weights]
  · simp [makeNode, biases]
  · simp (disch := decide) [makeNode, sum, numbered_inj]

/-- The layers read what they are given, their initializers and what they computed, and
name nothing twice. -/
theorem scoped_exportLayers (cast : K -> K) (params : Params K a sizes b) {known : List PyStr} {cur : PyStr}
    {i : Nat} (current : cur ∈ known) (given : ∀ entry ∈ layerInitializers cast i params, entry.1 ∈ known)
    (fresh : ∀ tag ∈ ["mm", "add", "h"], ∀ j, i ≤ j -> numbered tag j ∉ known) :
    Scoped known (exportLayers cur i params).1 ∧
      (exportLayers cur i params).2 ∈ outputs (exportLayers cur i params).1 := by
  induction params generalizing known cur i with
  | output W bias =>
      simp only [layerInitializers, List.forall_mem_cons] at given
      have own := scoped_layerNodes current given.1 given.2.1 (fresh "mm" (by decide) i le_rfl)
        (fresh "add" (by decide) i le_rfl)
      exact ⟨own, by simp [exportLayers, layerNodes, makeNode]⟩
  | hidden W bias rest inductionHypothesis =>
      simp only [layerInitializers, List.forall_mem_append, List.forall_mem_cons] at given
      rcases given with ⟨⟨weights, biases, -⟩, later⟩
      have own : Scoped known (layerNodes cur i ++ [makeNode .tanh [numbered "add" i] (numbered "h" i)]) := by
        rw [scoped_append]
        refine ⟨scoped_layerNodes current weights biases (fresh "mm" (by decide) i le_rfl)
          (fresh "add" (by decide) i le_rfl), ?_, ?_, trivial⟩
        · simp [layerNodes, makeNode]
        · simp (disch := decide) [layerNodes, makeNode, numbered_inj, fresh "h" (by decide) i le_rfl]
      -- The names of the later layers have greater numbers.
      have freshLater : ∀ tag ∈ ["mm", "add", "h"], ∀ j, i + 1 ≤ j ->
          numbered tag j ∉ known ++ outputs (layerNodes cur i ++
            [makeNode .tanh [numbered "add" i] (numbered "h" i)]) := by
        intro tag member j after inside
        have plain : ∀ tag ∈ ["mm", "add", "h"], Plain tag := by decide
        have earlier : ∀ other, Plain other -> numbered tag j ≠ numbered other i := by
          intro other otherPlain same
          have numbers := ((numbered_inj (plain tag member) otherPlain).mp same).2
          omega
        rcases List.mem_append.mp inside with old | new
        · exact fresh tag member j (by omega) old
        · simp only [layerNodes, makeNode, List.cons_append, List.nil_append, outputs_cons, outputs_nil,
            List.mem_cons, List.not_mem_nil, or_false] at new
          rcases new with same | same | same
          · exact earlier "mm" (by decide) same
          · exact earlier "add" (by decide) same
          · exact earlier "h" (by decide) same
      rcases inductionHypothesis
        (show numbered "h" i ∈ _ from List.mem_append_right known (by simp [layerNodes, makeNode]))
        (fun entry member => List.mem_append_left _ (later entry member)) freshLater with ⟨inScope, final⟩
      constructor
      · rw [exportLayers, scoped_append]
        exact ⟨own, inScope⟩
      · rw [exportLayers, outputs_append]
        exact List.mem_append_right _ final

/-- No intermediate value of a layer is given before the first node. -/
theorem numbered_not_mem_given (cast : K -> K) (params : Params K a sizes a) (mu sigma : Fin a -> K) {tag : String}
    (plain : Plain tag) (other : tag ≠ "W" ∧ tag ≠ "b") (j : Nat) :
    numbered tag j ∉ (exportOnnx cast params mu sigma).given := by
  rw [given_exportOnnx, List.mem_append, not_or]
  constructor
  · intro member
    have literals : ∀ name ∈ ["features", "mu", "sigma"], Plain name := by decide
    rcases List.mem_map.mp member with ⟨name, listed, same⟩
    exact numbered_ne_ofString plain (literals name listed) j same.symm
  · intro member
    rcases List.mem_map.mp member with ⟨entry, listed, same⟩
    exact initializer_ne listed plain other same

/-- The exported graph passes the checker, for any number of layers. -/
theorem wellFormed_exportOnnx (cast : K -> K) (params : Params K a sizes a) (mu sigma : Fin a -> K) :
    (exportOnnx cast params mu sigma).WellFormed := by
  have listed : ∀ name ∈ ["features", "mu", "sigma"],
      PyStr.ofString name ∈ (exportOnnx cast params mu sigma).given := by
    intro name member
    have literals : ∀ name ∈ ["features", "mu", "sigma"], Plain name := by decide
    exact (ofString_mem_given_iff cast params mu sigma (literals name member)).mpr member
  have unlisted : ∀ name, Plain name -> name ∉ ["features", "mu", "sigma"] ->
      PyStr.ofString name ∉ (exportOnnx cast params mu sigma).given := by
    intro name plain other member
    exact other ((ofString_mem_given_iff cast params mu sigma plain).mp member)
  have standard : Scoped (exportOnnx cast params mu sigma).given standardizeNodes := by
    refine ⟨?_, unlisted "centered" (by decide) (by decide), ?_, ?_, trivial⟩
    · simp [makeNode, listed]
    · simp [makeNode, listed]
    · simp [makeNode, unlisted "normed" (by decide) (by decide)]
  have layers := scoped_exportLayers cast params
    (show PyStr.ofString "normed" ∈ (exportOnnx cast params mu sigma).given ++ outputs standardizeNodes from
      List.mem_append_right _ (by simp [standardizeNodes, makeNode]))
    (fun entry member => List.mem_append_left _ (by
      rw [given_exportOnnx]
      exact List.mem_append_right _ (List.mem_map_of_mem member))) (by
    intro tag member j _ inside
    have tags : ∀ tag ∈ ["mm", "add", "h"], Plain tag ∧ tag ≠ "W" ∧ tag ≠ "b" := by decide
    rcases tags tag member with ⟨plain, other⟩
    rcases List.mem_append.mp inside with old | new
    · exact numbered_not_mem_given cast params mu sigma plain other j old
    · simp only [standardizeNodes, makeNode, outputs_cons, outputs_nil, List.mem_cons, List.not_mem_nil,
        or_false] at new
      rcases new with same | same
      · exact numbered_ne_ofString plain (by decide) j same
      · exact numbered_ne_ofString plain (by decide) j same)
  -- The names of the error are new after all layers.
  have unused : ∀ name, Plain name -> name ∉ ["features", "mu", "sigma", "centered", "normed"] ->
      PyStr.ofString name ∉ (exportOnnx cast params mu sigma).given ++
        outputs (standardizeNodes ++ (exportLayers (PyStr.ofString "normed") 1 params).1) := by
    intro name plain other inside
    simp only [List.mem_cons, List.not_mem_nil, or_false, not_or] at other
    rw [outputs_append, List.mem_append, List.mem_append] at inside
    rcases inside with old | new | layer
    · exact unlisted name plain (by simp [other]) old
    · simp [standardizeNodes, makeNode, other] at new
    · exact ofString_not_mem_outputs plain layer
  refine ⟨given_nodup cast params mu sigma, ?_, by simp [exportOnnx, errorNodes, makeNode]⟩
  have nodes : (exportOnnx cast params mu sigma).nodes =
      standardizeNodes ++ (exportLayers (PyStr.ofString "normed") 1 params).1 ++
        errorNodes (exportLayers (PyStr.ofString "normed") 1 params).2 := rfl
  rw [nodes, scoped_append, scoped_append]
  refine ⟨⟨standard, layers.1⟩, ?_, unused "residual" (by decide) (by decide), ?_, ?_, ?_, ?_, trivial⟩
  · simp [makeNode, standardizeNodes, layers.2]
  · simp [makeNode]
  · simpa [makeNode] using unused "sq_err" (by decide) (by decide)
  · simp [makeNode]
  · simpa [makeNode] using unused "recon_error" (by decide) (by decide)

/-- The input and the initializers are found under their names. -/
theorem load_exportOnnx (cast : K -> K) (params : Params K a sizes a) (mu sigma : Fin a -> K) (X : Tensor K) :
    (exportOnnx cast params mu sigma).load X (PyStr.ofString "features") = some X ∧
      ∀ entry ∈ (exportOnnx cast params mu sigma).initializers,
        (exportOnnx cast params mu sigma).load X entry.1 = some entry.2 := by
  have distinct := List.nodup_cons.mp (given_nodup cast params mu sigma)
  refine ⟨if_pos rfl, ?_⟩
  intro entry member
  have other : entry.1 ≠ (exportOnnx cast params mu sigma).input := by
    intro same
    exact distinct.1 (same ▸ List.mem_map_of_mem member)
  unfold OnnxGraph.load
  rw [if_neg other]
  exact Retention.lookup_of_mem distinct.2 member

/-! ## What the layers compute -/

section Meaning

variable [Field K] (tanh : K -> K) {cast : K -> K}

/-- The two nodes of a layer compute its affine map. -/
theorem evaluate_layerNodes {env : Env PyStr (Tensor K)} {cur : PyStr} {i : Nat} {h : Matrix (Fin n) (Fin a) K}
    {W : Matrix (Fin a) (Fin b) K} {bias : Fin b -> K} (current : env cur = some (.matrix n a h))
    (weights : env (numbered "W" i) = some (.matrix a b W)) (biases : env (numbered "b" i) = some (.vector b bias)) :
    evaluate (Operator.meaning tanh) env (layerNodes cur i) =
      some ((env.bind (numbered "mm" i) (.matrix n b (h * W))).bind (numbered "add" i)
        (.matrix n b (affine h W bias))) := by
  have product : (makeNode .matMul [cur, numbered "W" i] (numbered "mm" i)).result (Operator.meaning tanh) env =
      some (.matrix n b (h * W)) := by
    simp [Node.result, makeNode, Operator.meaning, current, weights]
  have untouched : (env.bind (numbered "mm" i) (.matrix n b (h * W))) (numbered "b" i) =
      some (.vector b bias) := by
    rw [Env.bind_of_ne (by simp (disch := decide) [numbered_inj]), biases]
  have sum : (makeNode .add [numbered "mm" i, numbered "b" i] (numbered "add" i)).result (Operator.meaning tanh)
      (env.bind (numbered "mm" i) (.matrix n b (h * W))) = some (.matrix n b (affine h W bias)) := by
    simp [Node.result, makeNode, Operator.meaning, untouched]
    rfl
  exact evaluate_cons_eq_some_iff.mpr ⟨_, product, evaluate_cons_eq_some_iff.mpr ⟨_, sum, rfl⟩⟩

/-- The layers compute the reconstruction of what they are given. -/
theorem evaluate_exportLayers (params : Params K a sizes b) {env : Env PyStr (Tensor K)} {cur : PyStr} {i : Nat}
    {h : Matrix (Fin n) (Fin a) K} (current : env cur = some (.matrix n a h))
    (loaded : ∀ entry ∈ layerInitializers cast i params, env entry.1 = some entry.2) :
    ∃ out, evaluate (Operator.meaning tanh) env (exportLayers cur i params).1 = some out ∧
      out (exportLayers cur i params).2 = some (.matrix n b (activations tanh (params.map cast) h).recon) := by
  induction params generalizing env cur i with
  | output W bias =>
      simp only [layerInitializers, List.forall_mem_cons] at loaded
      exact ⟨_, evaluate_layerNodes tanh current loaded.1 loaded.2.1, Env.bind_self ..⟩
  | hidden W bias rest inductionHypothesis =>
      simp only [layerInitializers, List.forall_mem_append, List.forall_mem_cons] at loaded
      rcases loaded with ⟨⟨weights, biases, -⟩, later⟩
      have layer : evaluate (Operator.meaning tanh) env (layerNodes cur i) = some _ :=
        evaluate_layerNodes tanh current weights biases
      have activation : (makeNode .tanh [numbered "add" i] (numbered "h" i)).result (Operator.meaning tanh)
          ((env.bind (numbered "mm" i) (.matrix n _ (h * W.map cast))).bind (numbered "add" i)
            (.matrix n _ (affine h (W.map cast) (cast ∘ bias)))) =
          some (.matrix n _ ((affine h (W.map cast) (cast ∘ bias)).map tanh)) := by
        simp [Node.result, makeNode, Operator.meaning, Tensor.map]
      -- The later layers find the initializers they were exported with.
      have kept : ∀ entry ∈ layerInitializers cast (i + 1) rest,
          ((((env.bind (numbered "mm" i) (.matrix n _ (h * W.map cast))).bind (numbered "add" i)
            (.matrix n _ (affine h (W.map cast) (cast ∘ bias)))).bind (numbered "h" i)
              (.matrix n _ ((affine h (W.map cast) (cast ∘ bias)).map tanh))) entry.1) = some entry.2 := by
        intro entry member
        rw [Env.bind_of_ne (initializer_ne member (by decide) (by decide)),
          Env.bind_of_ne (initializer_ne member (by decide) (by decide)),
          Env.bind_of_ne (initializer_ne member (by decide) (by decide)), later entry member]
      rcases inductionHypothesis (Env.bind_self ..) kept with ⟨out, evaluated, result⟩
      refine ⟨out, ?_, result⟩
      rw [exportLayers, List.append_assoc, evaluate_append_eq_some_iff]
      exact ⟨_, layer, evaluate_cons_eq_some_iff.mpr ⟨_, activation, evaluated⟩⟩

/-- The standardisation computes the rows that the layers are given. -/
theorem evaluate_standardizeNodes {env : Env PyStr (Tensor K)} {X : Matrix (Fin n) (Fin a) K} {mu sigma : Fin a -> K}
    (input : env (PyStr.ofString "features") = some (.matrix n a X))
    (means : env (PyStr.ofString "mu") = some (.vector a mu))
    (deviations : env (PyStr.ofString "sigma") = some (.vector a sigma)) :
    ∃ out, evaluate (Operator.meaning tanh) env standardizeNodes = some out ∧
      out (PyStr.ofString "normed") = some (.matrix n a (standardize X mu sigma)) := by
  have centered : (makeNode .sub [PyStr.ofString "features", PyStr.ofString "mu"]
      (PyStr.ofString "centered")).result (Operator.meaning tanh) env =
        some (.matrix n a (Matrix.of fun row column => X row column - mu column)) := by
    simp [Node.result, makeNode, Operator.meaning, input, means]
  have untouched : (env.bind (PyStr.ofString "centered")
      (.matrix n a (Matrix.of fun row column => X row column - mu column))) (PyStr.ofString "sigma") =
        some (.vector a sigma) := by
    rw [Env.bind_of_ne (by simp), deviations]
  have scaled : (makeNode .div [PyStr.ofString "centered", PyStr.ofString "sigma"]
      (PyStr.ofString "normed")).result (Operator.meaning tanh) (env.bind (PyStr.ofString "centered")
        (.matrix n a (Matrix.of fun row column => X row column - mu column))) =
          some (.matrix n a (standardize X mu sigma)) := by
    simp [Node.result, makeNode, Operator.meaning, untouched, standardize]
  exact ⟨_, evaluate_cons_eq_some_iff.mpr ⟨_, centered, evaluate_cons_eq_some_iff.mpr ⟨_, scaled, rfl⟩⟩,
    Env.bind_self ..⟩

/-- The last nodes compute the mean squared difference of each row. -/
theorem evaluate_errorNodes {env : Env PyStr (Tensor K)} {cur : PyStr} {recon Z : Matrix (Fin n) (Fin a) K}
    (current : env cur = some (.matrix n a recon))
    (normed : env (PyStr.ofString "normed") = some (.matrix n a Z)) :
    ∃ out, evaluate (Operator.meaning tanh) env (errorNodes cur) = some out ∧
      out (PyStr.ofString "recon_error") = some (.matrix n 1 (Matrix.of fun row _ =>
        (∑ column, (recon row column - Z row column) ^ 2) / a)) := by
  have residual : (makeNode .sub [cur, PyStr.ofString "normed"] (PyStr.ofString "residual")).result
      (Operator.meaning tanh) env =
        some (.matrix n a (Matrix.of fun row column => recon row column - Z row column)) := by
    simp [Node.result, makeNode, Operator.meaning, current, normed]
  have square : (makeNode .mul [PyStr.ofString "residual", PyStr.ofString "residual"]
      (PyStr.ofString "sq_err")).result (Operator.meaning tanh) (env.bind (PyStr.ofString "residual")
        (.matrix n a (Matrix.of fun row column => recon row column - Z row column))) =
          some (.matrix n a (Matrix.of fun row column => (recon row column - Z row column) ^ 2)) := by
    simp [Node.result, makeNode, Operator.meaning, sq]
  have mean : ∀ before : Env PyStr (Tensor K),
      (makeNode (.reduceMean [1] true) [PyStr.ofString "sq_err"] (PyStr.ofString "recon_error")).result
        (Operator.meaning tanh) (before.bind (PyStr.ofString "sq_err")
          (.matrix n a (Matrix.of fun row column => (recon row column - Z row column) ^ 2))) =
        some (.matrix n 1 (Matrix.of fun row _ =>
          (∑ column, (recon row column - Z row column) ^ 2) / a)) := by
    intro before
    simp [Node.result, makeNode, Operator.meaning, Tensor.rowMeans]
  exact ⟨_, evaluate_cons_eq_some_iff.mpr ⟨_, residual, evaluate_cons_eq_some_iff.mpr ⟨_, square,
    evaluate_cons_eq_some_iff.mpr ⟨_, mean _, rfl⟩⟩⟩, Env.bind_self ..⟩

/-! ## The whole graph -/

/-- The exported graph computes the reconstruction error of the rounded network. -/
theorem run_exportOnnx (params : Params K a sizes a) (mu sigma : Fin a -> K) (X : Matrix (Fin n) (Fin a) K) :
    (exportOnnx cast params mu sigma).run tanh (.matrix n a X) =
      some (.matrix n 1 (Matrix.of fun row _ =>
        reconstructionError tanh (params.map cast) X (cast ∘ mu) (cast ∘ sigma) row)) := by
  rcases load_exportOnnx cast params mu sigma (.matrix n a X) with ⟨input, loaded⟩
  have means := loaded (PyStr.ofString "mu", .vector a (cast ∘ mu)) (by simp [exportOnnx])
  have deviations := loaded (PyStr.ofString "sigma", .vector a (cast ∘ sigma)) (by simp [exportOnnx])
  rcases evaluate_standardizeNodes tanh input means deviations with ⟨first, standard, normed⟩
  have weights : ∀ entry ∈ layerInitializers cast 1 params, first entry.1 = some entry.2 := by
    intro entry member
    have kept : entry.1 ∉ outputs standardizeNodes := by
      intro inside
      simp only [standardizeNodes, makeNode, outputs_cons, outputs_nil, List.mem_cons, List.not_mem_nil,
        or_false] at inside
      rcases mem_layerInitializers member with ⟨j, -, named | named⟩
      · rw [named] at inside
        exact inside.elim (numbered_ne_ofString (by decide) (by decide) j)
          (numbered_ne_ofString (by decide) (by decide) j)
      · rw [named] at inside
        exact inside.elim (numbered_ne_ofString (by decide) (by decide) j)
          (numbered_ne_ofString (by decide) (by decide) j)
    rw [evaluate_frame standard kept]
    exact loaded entry (List.mem_append_right _ member)
  rcases evaluate_exportLayers tanh params normed weights with ⟨second, layers, reconstructed⟩
  have still : second (PyStr.ofString "normed") =
      some (.matrix n a (standardize X (cast ∘ mu) (cast ∘ sigma))) := by
    rw [evaluate_frame layers (ofString_not_mem_outputs (by decide)), normed]
  rcases evaluate_errorNodes tanh reconstructed still with ⟨out, error, result⟩
  have whole : evaluate (Operator.meaning tanh) ((exportOnnx cast params mu sigma).load (.matrix n a X))
      (exportOnnx cast params mu sigma).nodes = some out := by
    rw [show (exportOnnx cast params mu sigma).nodes = standardizeNodes ++
      (exportLayers (PyStr.ofString "normed") 1 params).1 ++
        errorNodes (exportLayers (PyStr.ofString "normed") 1 params).2 from rfl]
    exact evaluate_append_eq_some_iff.mpr
      ⟨second, evaluate_append_eq_some_iff.mpr ⟨first, standard, layers⟩, error⟩
  unfold OnnxGraph.run
  rw [whole]
  exact result

/-- The exported graph names every value once and before its use, and its equations have
exactly one solution for any batch.  In it the output is the reconstruction error of the
network with rounded parameters, whatever the number and the sizes of the layers. -/
theorem export_preserves_meaning (params : Params K a sizes a) (mu sigma : Fin a -> K)
    (X : Matrix (Fin n) (Fin a) K) :
    (exportOnnx cast params mu sigma).WellFormed ∧
      ∃ values, (∀ other, Solves (Operator.meaning tanh) ((exportOnnx cast params mu sigma).load (.matrix n a X))
          (exportOnnx cast params mu sigma).nodes other ↔ other = values) ∧
        values (exportOnnx cast params mu sigma).output = some (.matrix n 1 (Matrix.of fun row _ =>
          reconstructionError tanh (params.map cast) X (cast ∘ mu) (cast ∘ sigma) row)) := by
  have wellFormed := wellFormed_exportOnnx cast params mu sigma
  have ran : (exportOnnx cast params mu sigma).run tanh (.matrix n a X) = some _ :=
    run_exportOnnx tanh params mu sigma X
  rcases Option.bind_eq_some_iff.mp ran with ⟨values, evaluated, output⟩
  refine ⟨wellFormed, values, ?_, output⟩
  intro other
  rw [← evaluate_eq_some_iff wellFormed.inScope, evaluated, Option.some.injEq, eq_comm]

end Meaning

end Training
end ZeroAudit
