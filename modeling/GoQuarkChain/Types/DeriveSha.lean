import GoQuarkChain.Lib.MerkleLevels
import GoQuarkChain.Lib.BigEndian

/-!
# `CalculateMerkleRoot`

The transaction root of a minor block and the minor-header root of a root block
are `CalculateMerkleRoot` of a list. Each item is serialized and hashed with
`sha3_256` (Keccak-256); the error of `SerializeToBytes` is dropped, so the item's
bytes are whatever it returns. The hashes are paired level by level, an odd level
padded with `zBytes`, which starts as the zero hash and is hashed with itself after
each level. The last hash is hashed once more with the list's length as eight
big-endian bytes.

Keccak-256 is a parameter, a function on byte strings, and a hash is its byte
string. The Go loop runs until one hash is left; here it is given one round per
leaf, which `calculateMerkleRoot_eq_paddedRoot` shows to be enough.
-/

namespace Types

open MerkleLevels

/-- `EmptyHash`, `common.Hash{}`. -/
def emptyHash : List UInt8 := List.replicate 32 0

section

variable {β : Type} (keccak : List UInt8 → List UInt8) (serializeToBytes : β → List UInt8)

/-- `sha3_256(append(a.Bytes(), b.Bytes()...))`, the hash of one pair. -/
def sha3Pair (a b : List UInt8) : List UInt8 := keccak (a ++ b)

/-- The leaves: the item hashes, or one zero hash for an empty list. -/
def leafHashes (list : List β) : List (List UInt8) :=
  if list.length = 0 then [emptyHash] else list.map fun x => keccak (serializeToBytes x)

/-- `CalculateMerkleRoot`, `none` only if the rounds ran out. -/
def calculateMerkleRoot (list : List β) : Option (List UInt8) :=
  let hashList := leafHashes keccak serializeToBytes list
  (lazyRoot (sha3Pair keccak) hashList.length (hashList, emptyHash)).map fun root =>
    keccak (root ++ BigEndian.fixed 8 list.length)

theorem leafHashes_ne_nil (list : List β) : leafHashes keccak serializeToBytes list ≠ [] := by
  unfold leafHashes
  split_ifs with h
  · exact List.cons_ne_nil _ _
  · simpa using h

end

/-- `CalculateMerkleRoot` returns the root of the item hashes, padded with zero
hashes to the next power of two (one zero hash for an empty list), hashed with the
length; and the `zBytes` of each level is the root of an all-zero subtree as high.
The reference pairs with `keccak (left ++ right)` and pads with 32 zero bytes of its
own, not with the model's `sha3Pair` and `emptyHash`. -/
theorem calculateMerkleRoot_eq_paddedRoot {β : Type} (keccak : List UInt8 → List UInt8)
    (serializeToBytes : β → List UInt8) (list : List β) :
    (∃ root, paddedRoot (fun a b => keccak (a ++ b)) (List.replicate 32 0)
        (if list = [] then [List.replicate 32 0]
          else list.map fun x => keccak (serializeToBytes x)) = some root ∧
      calculateMerkleRoot keccak serializeToBytes list =
        some (keccak (root ++ BigEndian.fixed 8 list.length))) ∧
    ∀ (j : Nat) (hashList : List (List UInt8)),
      rootOfLevels (fun a b => keccak (a ++ b)) j (List.replicate (2 ^ j) (List.replicate 32 0)) =
        some ((lazyStep (sha3Pair keccak))^[j] (hashList, emptyHash)).2 := by
  refine ⟨?_, fun j hashList => ?_⟩
  · obtain ⟨root, hpadded, hlazy⟩ :=
      @lazyRoot_eq_paddedRoot _ (sha3Pair keccak) _ (leafHashes_ne_nil keccak serializeToBytes list)
        emptyHash
    have hleaves : leafHashes keccak serializeToBytes list =
        if list = [] then [emptyHash] else list.map fun x => keccak (serializeToBytes x) := by
      simp only [leafHashes, List.length_eq_zero_iff]
    -- the model's pair hash and zero hash are the reference's, by their definitions
    refine ⟨root, hleaves ▸ hpadded, ?_⟩
    rw [calculateMerkleRoot, hlazy]
    rfl
  · rw [rootOfLevels_replicate, lazyStep_iterate_snd]
    rfl

end Types
