import ZeroAudit.Prover.Commitment

namespace ZeroAudit
namespace Keys

open Foundation Lwe Signature Commitment

/-!
# Key material (`scripts/gen_keys.py`, `prover/crypto/lwe.py`, `prover/crypto/signature.py`)

A prover takes its three secrets from the environment, once for each process.  Where a
variable is not set, or is not what it should be, the system supplies a fresh secret
instead.  What the tool prints for an operator is read back as the bytes it was drawn from.
-/

variable (P : Platform)

/-! ## The environment -/

abbrev Environ := List (PyStr × PyStr)

/-- `os.environ.get(name, "").strip()`. -/
def setting (environ : Environ) (name : String) : PyStr :=
  strip ((environ.lookup (PyStr.ofString name)).getD [])

/-- What the system draws for a process. -/
structure Entropy where
  masterKey : Bytes
  latticeSeed : Bytes
  signingSeed : Bytes
  masterKey_length : masterKey.length = 32
  latticeSeed_length : latticeSeed.length = SEED_LEN
  signingSeed_length : signingSeed.length = 32

/-- The three keys of a prover. -/
structure KeyMaterial where
  keypair : LWEKeyPair
  masterKey : Bytes
  signingKey : SigningKey

def Entropy.signingKey (entropy : Entropy) : SigningKey := ⟨entropy.signingSeed, entropy.signingSeed_length⟩

/-- The keys that these draws make. -/
def Entropy.keys (entropy : Entropy) : KeyMaterial :=
  ⟨.generate P entropy.latticeSeed, entropy.masterKey, entropy.signingKey⟩

/-- `_load_master_key`. -/
def loadMasterKey (environ : Environ) (entropy : Entropy) : Except PyError Bytes :=
  let raw := setting environ "ZEROAUDIT_MASTER_KEY"
  if raw ≠ [] then
    if raw.length = 64 then
      match fromHex raw with
      | some masterKey => .ok masterKey
      | none => (Json.str raw).encode
    else (Json.str raw).encode
  else .ok entropy.masterKey

/-- `bytes.ljust(width, b"\0")`. -/
def ljust (width : Nat) (bytes : Bytes) : Bytes := bytes ++ List.replicate (width - bytes.length) 0

/-- The seed of the lattice keypair: 32 bytes, however many the variable has. -/
def latticeSeedOf (environ : Environ) (entropy : Entropy) : Bytes :=
  let seedHex := setting environ "LWE_SEED_HEX"
  if seedHex ≠ [] then
    match fromHex seedHex with
    | some seed => ljust SEED_LEN (seed.take SEED_LEN)
    | none => entropy.latticeSeed
  else entropy.latticeSeed

/-- The signing key of the variable, or one for this process only. -/
def signingKeyOf (environ : Environ) (entropy : Entropy) : SigningKey :=
  let raw := setting environ "SGX_SIGNING_KEY_B64"
  if raw ≠ [] then
    match Base64.decode raw with
    | .ok decoded => if length : decoded.length = 32 then ⟨decoded, length⟩ else entropy.signingKey
    | .error _ => entropy.signingKey
  else entropy.signingKey

/-! ## The keys of a process -/

/-- `_KEYPAIR`, `_MASTER_KEY` and `_SIGNING_KEY`. -/
structure KeyRing where
  keypair : Option LWEKeyPair
  masterKey : Option Bytes
  signingKey : Option SigningKey

namespace KeyRing

def empty : KeyRing := ⟨none, none, none⟩

variable (ring : KeyRing) (environ : Environ) (entropy : Entropy)

def getKeypair : LWEKeyPair × KeyRing :=
  match ring.keypair with
  | some keypair => (keypair, ring)
  | none =>
      let keypair := LWEKeyPair.generate P (latticeSeedOf environ entropy)
      (keypair, { ring with keypair := some keypair })

def getMasterKey : Except PyError Bytes × KeyRing :=
  match ring.masterKey with
  | some masterKey => (.ok masterKey, ring)
  | none =>
      match loadMasterKey environ entropy with
      | .ok masterKey => (.ok masterKey, { ring with masterKey := some masterKey })
      | .error error => (.error error, ring)

def getSigningKey : SigningKey × KeyRing :=
  match ring.signingKey with
  | some signingKey => (signingKey, ring)
  | none =>
      let signingKey := signingKeyOf environ entropy
      (signingKey, { ring with signingKey := some signingKey })

/-- `CommitmentStore(ledger, ring_size)`, in a process with these keys. -/
def initStore {L : Type} (calls : LedgerCalls L) (ledger : Option L) (ringSize : Nat) :
    Except PyError (CommitmentStore L) × KeyRing :=
  let first := ring.getKeypair P environ entropy
  let second := first.2.getMasterKey environ entropy
  match second.1 with
  | .error error => (.error error, second.2)
  | .ok masterKey =>
      let third := second.2.getSigningKey environ entropy
      (.ok (.new calls ledger ringSize first.1 masterKey third.1), third.2)

end KeyRing

/-! ## The tool -/

/-- A line that sets a variable. -/
def assignment (name : String) (value : PyStr) : PyStr := PyStr.ofString name ++ .scalar '=' :: value

/-- The lines that `gen_keys` prints for these draws. -/
def genKeys (drawn : Entropy) : List PyStr :=
  [PyStr.ofString "# ZEROAUDIT key material - generated by scripts/gen_keys.py",
    PyStr.ofString "# Secret. Never commit this file.",
    [],
    assignment "ZEROAUDIT_MASTER_KEY" (hex drawn.masterKey),
    assignment "LWE_SEED_HEX" (hex drawn.latticeSeed),
    assignment "SGX_SIGNING_KEY_B64" (Base64.encode drawn.signingSeed)]

/-- The environment has what the lines assign. -/
def Sourced (environ : Environ) (lines : List PyStr) : Prop :=
  ∀ name value, '=' ∉ name.toList -> assignment name value ∈ lines ->
    environ.lookup (PyStr.ofString name) = some value

/-- The name ends at the first equality sign. -/
theorem assignment_inj {name other : String} (clean : '=' ∉ name.toList) (otherClean : '=' ∉ other.toList)
    {value otherValue : PyStr} (same : assignment name value = assignment other otherValue) :
    name = other ∧ value = otherValue := by
  have before : ∀ {text : String}, '=' ∉ text.toList -> ∀ rest : PyStr,
      (assignment text rest).takeWhile (fun c => decide (c ≠ .scalar '=')) = PyStr.ofString text := by
    intro text clean rest
    rw [assignment, List.takeWhile_append_of_pos]
    · simp
    · intro c member
      rcases List.mem_map.mp member with ⟨own, inside, rfl⟩
      simp only [decide_eq_true_eq]
      rintro same
      cases same
      exact clean inside
  have names := congrArg (List.takeWhile fun c => decide (c ≠ PyChar.scalar '=')) same
  rw [before clean, before otherClean] at names
  cases (PyStr.ofString_inj _ _).mp names
  exact ⟨rfl, (List.cons.inj (List.append_cancel_left same)).2⟩

/-- Only the last three lines assign anything. -/
theorem sourced_iff {environ : Environ} {drawn : Entropy} :
    Sourced environ (genKeys drawn) ↔
      environ.lookup (PyStr.ofString "ZEROAUDIT_MASTER_KEY") = some (hex drawn.masterKey) ∧
        environ.lookup (PyStr.ofString "LWE_SEED_HEX") = some (hex drawn.latticeSeed) ∧
        environ.lookup (PyStr.ofString "SGX_SIGNING_KEY_B64") = some (Base64.encode drawn.signingSeed) := by
  constructor
  · intro sourced
    exact ⟨sourced _ _ (by decide) (by simp [genKeys]), sourced _ _ (by decide) (by simp [genKeys]),
      sourced _ _ (by decide) (by simp [genKeys])⟩
  · rintro ⟨master, lattice, signing⟩ name value clean member
    have assigns : ∀ text : PyStr, PyChar.scalar '=' ∉ text -> assignment name value ≠ text := by
      rintro _ free rfl
      exact free (List.mem_append_right _ List.mem_cons_self)
    simp only [genKeys, List.mem_cons, List.not_mem_nil, or_false] at member
    rcases member with line | line | line | line | line | line
    · exact absurd line (assigns _ (by decide))
    · exact absurd line (assigns _ (by decide))
    · exact absurd line (assigns _ List.not_mem_nil)
    · rcases assignment_inj clean (by decide) line with ⟨rfl, rfl⟩
      exact master
    · rcases assignment_inj clean (by decide) line with ⟨rfl, rfl⟩
      exact lattice
    · rcases assignment_inj clean (by decide) line with ⟨rfl, rfl⟩
      exact signing

/-! ## What a minted environment gives -/

section Minted

variable {environ : Environ} {drawn : Entropy} (sourced : Sourced environ (genKeys drawn))
include sourced

/-- The three variables are read as they were printed. -/
theorem settings_of_sourced :
    setting environ "ZEROAUDIT_MASTER_KEY" = hex drawn.masterKey ∧
      setting environ "LWE_SEED_HEX" = hex drawn.latticeSeed ∧
      setting environ "SGX_SIGNING_KEY_B64" = Base64.encode drawn.signingSeed := by
  rcases sourced_iff.mp sourced with ⟨master, lattice, signing⟩
  refine ⟨?_, ?_, ?_⟩
  · rw [setting, master]
    exact strip_of_visible fun c member => isSpace_of_mem_hex member
  · rw [setting, lattice]
    exact strip_of_visible fun c member => isSpace_of_mem_hex member
  · rw [setting, signing]
    exact strip_of_visible fun c member => Base64.isSpace_of_mem_encode member

variable (entropy : Entropy)

theorem loadMasterKey_of_sourced : loadMasterKey environ entropy = .ok drawn.masterKey := by
  have length := length_hex drawn.masterKey
  rw [drawn.masterKey_length] at length
  rw [loadMasterKey, (settings_of_sourced sourced).1, if_pos (List.ne_nil_of_length_eq_add_one length),
    if_pos length, fromHex_hex]

theorem latticeSeedOf_of_sourced : latticeSeedOf environ entropy = drawn.latticeSeed := by
  have own := drawn.latticeSeed_length
  have length := length_hex drawn.latticeSeed
  rw [own] at length
  rw [latticeSeedOf, (settings_of_sourced sourced).2.1, if_pos (List.ne_nil_of_length_eq_add_one length),
    fromHex_hex]
  dsimp only
  rw [List.take_of_length_le own.le, ljust, own, Nat.sub_self, List.replicate_zero, List.append_nil]

theorem signingKeyOf_of_sourced : signingKeyOf environ entropy = drawn.signingKey := by
  have nonempty : drawn.signingSeed ≠ [] := List.ne_nil_of_length_eq_add_one drawn.signingSeed_length
  rw [signingKeyOf, (settings_of_sourced sourced).2.2, if_pos (Base64.encode_ne_nil nonempty),
    Base64.decode_encode]
  exact dif_pos drawn.signingSeed_length

end Minted

/-- The ring holds no other keys than these. -/
structure Holds (keys : KeyMaterial) (ring : KeyRing) : Prop where
  keypair : ∀ own, ring.keypair = some own -> own = keys.keypair
  masterKey : ∀ own, ring.masterKey = some own -> own = keys.masterKey
  signingKey : ∀ own, ring.signingKey = some own -> own = keys.signingKey

theorem holds_empty (keys : KeyMaterial) : Holds keys .empty where
  keypair := by intro own same; cases same
  masterKey := by intro own same; cases same
  signingKey := by intro own same; cases same

section Minted

variable {P} {environ : Environ} {drawn : Entropy} {ring : KeyRing} (holds : Holds (drawn.keys P) ring)
  (sourced : Sourced environ (genKeys drawn)) (entropy : Entropy)
include holds sourced

theorem getKeypair_of_sourced :
    (ring.getKeypair P environ entropy).1 = (drawn.keys P).keypair ∧
      Holds (drawn.keys P) (ring.getKeypair P environ entropy).2 := by
  rw [KeyRing.getKeypair]
  cases held : ring.keypair with
  | some own => exact ⟨holds.keypair own held, holds⟩
  | none =>
      dsimp only
      rw [latticeSeedOf_of_sourced sourced]
      refine ⟨rfl, ?_, holds.masterKey, holds.signingKey⟩
      intro own same
      exact (Option.some.inj same).symm

theorem getMasterKey_of_sourced :
    (ring.getMasterKey environ entropy).1 = .ok (drawn.keys P).masterKey ∧
      Holds (drawn.keys P) (ring.getMasterKey environ entropy).2 := by
  rw [KeyRing.getMasterKey]
  cases held : ring.masterKey with
  | some own => exact ⟨congrArg Except.ok (holds.masterKey own held), holds⟩
  | none =>
      dsimp only
      rw [loadMasterKey_of_sourced sourced]
      refine ⟨rfl, holds.keypair, ?_, holds.signingKey⟩
      intro own same
      exact (Option.some.inj same).symm

theorem getSigningKey_of_sourced :
    (ring.getSigningKey environ entropy).1 = (drawn.keys P).signingKey ∧
      Holds (drawn.keys P) (ring.getSigningKey environ entropy).2 := by
  rw [KeyRing.getSigningKey]
  cases held : ring.signingKey with
  | some own => exact ⟨holds.signingKey own held, holds⟩
  | none =>
      dsimp only
      rw [signingKeyOf_of_sourced sourced]
      refine ⟨rfl, holds.keypair, holds.masterKey, ?_⟩
      intro own same
      exact (Option.some.inj same).symm

/-- Whatever a process has read before, its store has the keys that were minted. -/
theorem initStore_of_sourced {L : Type} (calls : LedgerCalls L) (ledger : Option L) (ringSize : Nat) :
    let keys := drawn.keys P
    let started := ring.initStore P environ entropy calls ledger ringSize
    started.1 = .ok (.new calls ledger ringSize keys.keypair keys.masterKey keys.signingKey) ∧
      Holds keys started.2 := by
  rcases getKeypair_of_sourced holds sourced entropy with ⟨keypair, first⟩
  rcases getMasterKey_of_sourced first sourced entropy with ⟨masterKey, second⟩
  rcases getSigningKey_of_sourced second sourced entropy with ⟨signingKey, third⟩
  rw [KeyRing.initStore]
  dsimp only
  rw [masterKey]
  dsimp only
  rw [keypair, signingKey]
  exact ⟨rfl, third⟩

end Minted

end Keys
end ZeroAudit
