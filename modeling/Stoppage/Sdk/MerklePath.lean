import Stoppage.Lib.MerkleTree
import Stoppage.Sdk.Proofs

/-! # `verifyMerklePath` of `packages/sdk/src/proofs.ts` and trees

What a path that is accepted says about the tree behind the root. No function to 32 bytes is free
of collisions on all texts of 64 bytes, so it is asked of the texts that the tree and the verifier
hash.
-/

namespace Stoppage.Sdk
open HashChain MerkleTree
set_option autoImplicit false

abbrev Digest := List.Vector UInt8 32

def joinDigests (left right : Digest) : Bytes := left.1 ++ right.1

theorem joinDigests_injective : Function.Injective2 joinDigests := by
  intro l l' r r' h
  obtain ⟨hl, hr⟩ := List.append_inj h (l.2.trans l'.2.symm)
  exact ⟨Subtype.ext hl, Subtype.ext hr⟩

theorem length_joinDigests (l r : Digest) : (joinDigests l r).length = 64 := by
  rw [joinDigests, List.length_append, l.2, r.2]

def toNode (s : Sibling Digest) : ProofNode := ⟨s.hash.1, s.isRight⟩

def merkleRoot (sha256 : Sha256) (t : HashTree Digest) : Digest := t.root sha256 joinDigests

/-- The path of a position, as `verifyMerklePath` takes it. -/
def merklePath (sha256 : Sha256) (t : HashTree Digest) (position : List Bool) : List ProofNode :=
  (t.siblings sha256 joinDigests position).map toNode

/-- The texts that the verifier hashes do not collide with those of the tree. -/
def CollisionFree (sha256 : Sha256) (t : HashTree Digest) (leafHash : Digest)
    (proof : List ProofNode) : Prop :=
  Separates sha256 (texts sha256.bytes combine leafHash.1 proof) (t.texts sha256 joinDigests)

section Paths
variable {sha256 : Sha256} {t : HashTree Digest} {c : Digest} {path : List (Sibling Digest)}

theorem combine_toNode (s : Sibling Digest) : combine c.1 (toNode s) = place joinDigests c s := rfl

theorem walk_toNode : walk sha256.bytes combine c.1 (path.map toNode) =
    (climb sha256 joinDigests c path).1 := by
  induction path generalizing c with
  | nil => rfl
  | cons s path ih => exact ih

theorem texts_toNode : texts sha256.bytes combine c.1 (path.map toNode) =
    texts sha256 (place joinDigests) c path := by
  induction path generalizing c with
  | nil => rfl
  | cons s path ih =>
    rw [List.map_cons, texts, texts, combine_toNode]
    exact congrArg (List.cons _) ih

theorem exists_siblings {proof : List ProofNode} (h : ∀ node ∈ proof, node.hash.length = 32) :
    ∃ path : List (Sibling Digest), proof = path.map toNode := by
  induction proof with
  | nil => exact ⟨[], rfl⟩
  | cons node proof ih =>
    obtain ⟨hnode, hproof⟩ := List.forall_mem_cons.mp h
    obtain ⟨path, rfl⟩ := ih hproof
    exact ⟨⟨⟨node.hash, hnode⟩, node.isRightSibling⟩ :: path, rfl⟩

theorem verifyMerklePath_toNode {root : Digest} :
    verifyMerklePath sha256 c.1 (path.map toNode) root.1 = true ↔
      climb sha256 joinDigests c path = root := by
  rw [verifyMerklePath, decide_eq_true_iff, walk_toNode]
  exact Subtype.val_inj

/-- **What a Merkle path proves.** The path of each leaf is accepted; a path that is accepted is
that of a node as deep as the path is long, or it leads through a leaf and has a text of 64 bytes
that the leaf is the hash of. -/
theorem merkle_path_verified (sha256 : Sha256) (t : HashTree Digest) :
    (∀ position x, t.sub position = some (.leaf x) →
      verifyMerklePath sha256 x.1 (merklePath sha256 t position) (merkleRoot sha256 t).1 = true) ∧
    ∀ (leafHash : Digest) (proof : List ProofNode), (∀ node ∈ proof, node.hash.length = 32) →
      CollisionFree sha256 t leafHash proof →
      verifyMerklePath sha256 leafHash.1 proof (merkleRoot sha256 t).1 = true →
      (∃ position s, position.length = proof.length ∧ t.sub position = some s ∧
          proof = merklePath sha256 t position ∧ merkleRoot sha256 s = leafHash) ∨
        ∃ position x below text, t.sub position = some (.leaf x) ∧
          proof = below ++ merklePath sha256 t position ∧ text.length = 64 ∧
          text ∈ texts sha256.bytes combine leafHash.1 below ∧ sha256 text = x := by
  constructor
  · intro position x hx
    exact verifyMerklePath_toNode.mpr (climb_siblings hx)
  · intro leafHash proof hsizes hfree hverified
    obtain ⟨path, rfl⟩ := exists_siblings hsizes
    rw [CollisionFree, texts_toNode] at hfree
    rcases onTree_or_belowLeaf joinDigests_injective hfree
      (verifyMerklePath_toNode.mp hverified) with ⟨position, s, hs, rfl, hroot⟩ |
        ⟨position, x, below, hx, rfl, hbelow, hclimb⟩
    · refine .inl ⟨position, s, ?_, hs, rfl, hroot⟩
      rw [List.length_map, length_siblings hs]
    · obtain ⟨a, b, htext, hhash⟩ := exists_text hbelow
      refine .inr ⟨position, x, below.map toNode, joinDigests a b, hx, List.map_append,
        length_joinDigests a b, ?_, hhash.trans hclimb⟩
      rw [texts_toNode]
      exact htext

end Paths

namespace Sample

/-- A hash that tells the two halves of a text apart. -/
def mixed : Sha256 := fun bs => List.Vector.ofFn fun i => bs.getD i 0 + 2 * bs.getD (i + 32) 0

def pair : HashTree Digest :=
  .node (.leaf (List.Vector.replicate 32 1)) (.leaf (List.Vector.replicate 32 7))

end Sample

/-- The path of the right one of two leaves. -/
theorem merkle_path_verified_pair :
    verifyMerklePath Sample.mixed (List.Vector.replicate 32 7).1
        (merklePath Sample.mixed Sample.pair [true]) (merkleRoot Sample.mixed Sample.pair).1 = true ∧
      ((∃ position s, position.length = 1 ∧ Sample.pair.sub position = some s ∧
          merklePath Sample.mixed Sample.pair [true] = merklePath Sample.mixed Sample.pair position ∧
          merkleRoot Sample.mixed s = List.Vector.replicate 32 7) ∨
        ∃ position x below text, Sample.pair.sub position = some (.leaf x) ∧
          merklePath Sample.mixed Sample.pair [true] =
            below ++ merklePath Sample.mixed Sample.pair position ∧ text.length = 64 ∧
          text ∈ texts (Sha256.bytes Sample.mixed) combine (List.Vector.replicate 32 7).1 below ∧
          Sample.mixed text = x) := by
  obtain ⟨hleaves, hpaths⟩ := merkle_path_verified Sample.mixed Sample.pair
  have hverified := hleaves [true] (List.Vector.replicate 32 7) rfl
  refine ⟨hverified, hpaths _ _ ?_ ?_ hverified⟩
  · intro node hnode
    rw [List.mem_singleton.mp hnode]
    rfl
  · intro x hx y hy _
    rw [List.mem_singleton.mp hx, List.mem_singleton.mp hy]
    rfl

end Stoppage.Sdk
