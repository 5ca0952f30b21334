import Stoppage.Lib.HashChain

/-! # Binary trees of hashes

A node is hashed from the joined hashes of its children, and nothing tells the hash of a leaf from
that of a node. A path of siblings that leads to the root is one of the tree, as far as the tree
goes; below a leaf it can go on with a text of which the leaf is the hash.
-/

namespace MerkleTree
open HashChain
set_option autoImplicit false

inductive HashTree (β : Type) where
  | leaf (hash : β)
  | node (left right : HashTree β)

structure Sibling (β : Type) where
  hash : β
  isRight : Bool

section Trees
variable {α β : Type} (hash : α → β) (join : β → β → α)

namespace HashTree

def root : HashTree β → β
  | .leaf x => x
  | .node left right => hash (join left.root right.root)

/-- What is hashed for the inner nodes. -/
def texts : HashTree β → List α
  | .leaf _ => []
  | .node left right => join (left.root hash join) (right.root hash join) :: (left.texts ++ right.texts)

/-- The tree at a position, which is given by turns to the right from the root on. -/
def sub : HashTree β → List Bool → Option (HashTree β)
  | t, [] => some t
  | .leaf _, _ :: _ => none
  | .node left _, false :: position => left.sub position
  | .node _ right, true :: position => right.sub position

/-- The siblings on the way up from a position. -/
def siblings : HashTree β → List Bool → List (Sibling β)
  | _, [] => []
  | .leaf _, _ :: _ => []
  | .node left right, false :: position =>
    left.siblings position ++ [⟨right.root hash join, true⟩]
  | .node left right, true :: position =>
    right.siblings position ++ [⟨left.root hash join, false⟩]

end HashTree

/-- The text that a hash and its sibling make. -/
def place (current : β) (s : Sibling β) : α :=
  if s.isRight then join current s.hash else join s.hash current

def climb (current : β) (path : List (Sibling β)) : β := walk hash (place join) current path

end Trees

section Paths
variable {α β : Type} {hash : α → β} {join : β → β → α} {c x : β} {t s : HashTree β}
  {path : List (Sibling β)} {position : List Bool}

theorem sub_nil : t.sub [] = some t := by
  cases t with
  | leaf x => rfl
  | node left right => rfl

theorem siblings_nil : t.siblings hash join [] = [] := by
  cases t with
  | leaf x => rfl
  | node left right => rfl

theorem length_siblings (h : t.sub position = some s) :
    (t.siblings hash join position).length = position.length := by
  induction t generalizing position with
  | leaf x =>
    cases position with
    | nil => rfl
    | cons turn position => cases h
  | node left right ihl ihr =>
    cases position with
    | nil => rfl
    | cons turn position =>
      cases turn with
      | false => simp [HashTree.siblings, ihl h]
      | true => simp [HashTree.siblings, ihr h]

theorem climb_concat (n : Sibling β) :
    climb hash join c (path ++ [n]) = hash (place join (climb hash join c path) n) :=
  walk_concat

/-- What a path that is not empty leads to is the hash of two joined hashes. -/
theorem exists_text (h : path ≠ []) : ∃ a b, join a b ∈ texts hash (place join) c path ∧
    hash (join a b) = climb hash join c path := by
  obtain ⟨front, n, rfl⟩ := (List.eq_nil_or_concat' path).resolve_left h
  have hplace : ∃ a b, place join (climb hash join c front) n = join a b := by
    rw [place]
    split
    · exact ⟨_, _, rfl⟩
    · exact ⟨_, _, rfl⟩
  obtain ⟨a, b, hab⟩ := hplace
  refine ⟨a, b, ?_, ?_⟩
  · rw [← hab, texts_concat]
    exact List.mem_append_right _ (.head _)
  · rw [← hab, climb_concat]

/-- **A path of the tree leads to its root.** -/
theorem climb_siblings (h : t.sub position = some s) :
    climb hash join (s.root hash join) (t.siblings hash join position) = t.root hash join := by
  induction t generalizing position with
  | leaf x =>
    cases position with
    | nil =>
      cases h
      rfl
    | cons turn position => cases h
  | node left right ihl ihr =>
    cases position with
    | nil =>
      cases h
      rfl
    | cons turn position =>
      cases turn with
      | false =>
        rw [HashTree.siblings, climb_concat, ihl h]
        rfl
      | true =>
        rw [HashTree.siblings, climb_concat, ihr h]
        rfl

/-- The path is that of a node whose hash is the given one. -/
def OnTree (hash : α → β) (join : β → β → α) (t : HashTree β) (c : β) (path : List (Sibling β)) : Prop :=
  ∃ position s, t.sub position = some s ∧ path = t.siblings hash join position ∧
    s.root hash join = c

/-- The path goes on below a leaf, up to whose hash it leads. -/
def BelowLeaf (hash : α → β) (join : β → β → α) (t : HashTree β) (c : β) (path : List (Sibling β)) :
    Prop :=
  ∃ position x below, t.sub position = some (.leaf x) ∧
    path = below ++ t.siblings hash join position ∧ below ≠ [] ∧ climb hash join c below = x

/-- One level up. -/
theorem onTree_or_belowLeaf_node (turn : Bool) {left right child : HashTree β} {n : Sibling β}
    (hsub : ∀ position, (HashTree.node left right).sub (turn :: position) = child.sub position)
    (hsiblings : ∀ position, (HashTree.node left right).siblings hash join (turn :: position) =
      child.siblings hash join position ++ [n])
    (h : OnTree hash join child c path ∨ BelowLeaf hash join child c path) :
    OnTree hash join (.node left right) c (path ++ [n]) ∨
      BelowLeaf hash join (.node left right) c (path ++ [n]) := by
  rcases h with ⟨position, s, hs, rfl, hc⟩ | ⟨position, x, below, hs, rfl, hbelow, hx⟩
  · exact .inl ⟨turn :: position, s, (hsub position).trans hs, (hsiblings position).symm, hc⟩
  · refine .inr ⟨turn :: position, x, below, (hsub position).trans hs, ?_, hbelow, hx⟩
    rw [hsiblings, List.append_assoc]

/-- **A path that leads to the root is one of the tree, or goes on below a leaf.** -/
theorem onTree_or_belowLeaf (hjoin : Function.Injective2 join)
    (hsep : Separates hash (texts hash (place join) c path) (t.texts hash join))
    (h : climb hash join c path = t.root hash join) :
    OnTree hash join t c path ∨ BelowLeaf hash join t c path := by
  induction path using List.reverseRecOn generalizing t with
  | nil => exact .inl ⟨[], t, sub_nil, siblings_nil.symm, h.symm⟩
  | append_singleton path n ih =>
    cases t with
    | leaf x =>
      have hbelow : path ++ [n] ≠ [] := List.append_ne_nil_of_right_ne_nil _ (List.cons_ne_nil _ _)
      exact .inr ⟨[], x, path ++ [n], rfl, (List.append_nil _).symm, hbelow, h⟩
    | node left right =>
      rw [texts_concat] at hsep
      have hlast := hsep _ (List.mem_append_right _ (.head _)) _ (.head _)
        ((climb_concat n).symm.trans h)
      have hpath : ∀ (child : HashTree β), (∀ y ∈ child.texts hash join,
          y ∈ left.texts hash join ++ right.texts hash join) →
          Separates hash (texts hash (place join) c path) (child.texts hash join) :=
        fun child hchild a ha b hb => hsep a (List.mem_append_left _ ha) b (.tail _ (hchild b hb))
      obtain ⟨sibling, isRight⟩ := n
      cases isRight with
      | true =>
        obtain ⟨hc, rfl⟩ := hjoin hlast
        refine onTree_or_belowLeaf_node false (fun _ => rfl) (fun _ => rfl) (ih ?_ hc)
        exact hpath left fun y hy => List.mem_append_left _ hy
      | false =>
        obtain ⟨rfl, hc⟩ := hjoin hlast
        refine onTree_or_belowLeaf_node true (fun _ => rfl) (fun _ => rfl) (ih ?_ hc)
        exact hpath right fun y hy => List.mem_append_right _ hy

end Paths

end MerkleTree
