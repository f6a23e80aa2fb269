import ZeroAudit.Platform
import Mathlib.Data.List.Nodup

namespace ZeroAudit

open Foundation

/-!
# A platform that can be evaluated

Closed instances of the results need concrete primitives.  The digest here is
a byte that is never zero, so that no hexadecimal digest is the genesis value,
then the length of the message, then a positional checksum of 30 bytes.  A
signature is the public key followed by the digest of the message.  The
extendable-output functions answer a seed that starts with one by a constant
stream of non-zero bytes and every other seed by zeros, which keeps lattice
keys non-trivial and the commitment noise small.
-/

namespace Sample

def checksum (message : Bytes) : Nat :=
  message.foldl (fun acc byte => (acc * 257 + byte.toNat + 1) % 2 ^ 240) 7

def digest (message : Bytes) : Bytes :=
  1 :: UInt8.ofNat message.length ::
    (List.range 30).map fun i => UInt8.ofNat (checksum message / 256 ^ i % 256)

theorem length_digest (message : Bytes) : (digest message).length = 32 := by
  simp [digest]

def stream (message : Bytes) (length : Nat) : Bytes :=
  List.replicate length (if message.head? = some 1 then 0x11 else 0)

theorem length_stream (message : Bytes) (length : Nat) : (stream message length).length = length :=
  List.length_replicate

def blinding : Bytes := List.replicate 32 0

def publicKey (seed : Bytes) : Bytes := (seed ++ List.replicate 32 0).take 32

def ed25519 : Ed25519 where
  publicKey := publicKey
  sign seed message := publicKey seed ++ digest message
  verify key signature message := decide (signature = key ++ digest message)
  publicKey_length seed := by simp [publicKey]
  sign_length seed message := by simp [publicKey, length_digest]
  verify_sign seed message := by simp

def convolve (a b : List Int) : List Int :=
  (List.range (a.length + b.length - 1)).map fun k =>
    Int.bmod ((List.range (k + 1)).map fun i => a.getD i 0 * b.getD (k - i) 0).sum (2 ^ 64)

theorem getD_convolve {a b : List Int} {k : Nat} (inside : k < a.length + b.length - 1) :
    (convolve a b).getD k 0 =
      Int.bmod ((List.range (k + 1)).map fun i => a.getD i 0 * b.getD (k - i) 0).sum (2 ^ 64) := by
  rw [convolve, List.getD_eq_getElem?_getD, List.getElem?_map, List.getElem?_range inside]
  rfl

/-- The keypair seed and transaction of the closed instances. -/
def latticeSeed : Bytes := 1 :: List.replicate 31 0

theorem length_latticeSeed : latticeSeed.length = 32 := rfl

def txnId : PyStr := PyStr.ofString "TXN-TEST-0001"

end Sample

def samplePlatform : Platform where
  sha3 := Sample.digest
  sha3_length := Sample.length_digest
  shake128 := Sample.stream
  shake128_length := Sample.length_stream
  shake256 := Sample.stream
  shake256_length := Sample.length_stream
  hmacSha256 _ _ := Sample.blinding
  ed25519 := Sample.ed25519
  numpy := false
  convolve := Sample.convolve
  convolve_entry _ _ _ _ inside := Sample.getD_convolve inside
  strOther _ := []
  intOfText _ := none
  floatOfText _ := none
  floatMul _ _ := .zero
  sorted entries := entries.mergeSort fun a b => !b.1.lt a.1
  sorted_perm entries := List.mergeSort_perm entries _
  sorted_numbers _ _ := rfl

namespace Sample

/-- Equal digests come from messages whose lengths agree modulo 256. -/
theorem length_of_digest {message other : Bytes}
    (equal : samplePlatform.sha3 message = samplePlatform.sha3 other) :
    message.length % 256 = other.length % 256 := by
  have tails := (List.cons.inj equal).2
  have bytes := congrArg UInt8.toNat (List.cons.inj tails).1
  simpa using bytes

/-- Messages of different lengths do not collide. -/
theorem injOn_of_lengths {messages : Set Bytes} {known : List Bytes}
    (lengths : ((known.map List.length).map (· % 256)).Nodup) (among : ∀ message ∈ messages, message ∈ known) :
    Set.InjOn samplePlatform.sha3 messages := by
  intro message first other second equal
  rw [List.map_map] at lengths
  exact List.inj_on_of_nodup_map lengths (among message first) (among other second) (length_of_digest equal)

theorem sha3Hex_ne_genesis (message : Bytes) :
    samplePlatform.sha3Hex message ≠ List.replicate 64 (.scalar '0') := by
  intro equal
  have second : some (PyChar.scalar '1') = some (.scalar '0') :=
    congrArg (fun text : PyStr => text[1]?) equal
  exact absurd second (by decide)

end Sample
end ZeroAudit
