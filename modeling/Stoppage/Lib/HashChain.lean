import Mathlib.Tactic

/-! # Chains of hashes

A value is combined with one node after another and hashed each time, as along a path of a Merkle
tree. Where the hash tells the texts of two chains apart, chains with the same nodes and the same
end have the same start.
-/

namespace HashChain
set_option autoImplicit false
variable {α β ν : Type} (hash : α → β) (combine : β → ν → α)

def walk : β → List ν → β
  | current, [] => current
  | current, node :: path => walk (hash (combine current node)) path

/-- What is hashed on the way. -/
def texts : β → List ν → List α
  | _, [] => []
  | current, node :: path =>
    combine current node :: texts (hash (combine current node)) path

/-- No text of the first list collides with another one of the second. -/
def Separates (xs ys : List α) : Prop := ∀ x ∈ xs, ∀ y ∈ ys, hash x = hash y → x = y

variable {hash combine}

theorem walk_concat {path : List ν} {current : β} {node : ν} :
    walk hash combine current (path ++ [node]) =
      hash (combine (walk hash combine current path) node) := by
  induction path generalizing current with
  | nil => rfl
  | cons first path ih => exact ih

theorem texts_concat {path : List ν} {current : β} {node : ν} :
    texts hash combine current (path ++ [node]) =
      texts hash combine current path ++ [combine (walk hash combine current path) node] := by
  induction path generalizing current with
  | nil => rfl
  | cons first path ih =>
    rw [List.cons_append, texts, texts, ih]
    rfl

theorem walk_inj (hcombine : ∀ node, Function.Injective fun current => combine current node)
    {path : List ν} {x y : β}
    (h : Separates hash (texts hash combine x path) (texts hash combine y path)) :
    walk hash combine x path = walk hash combine y path ↔ x = y := by
  constructor
  · induction path generalizing x y with
    | nil => exact id
    | cons node path ih =>
      intro heq
      have hrest : Separates hash (texts hash combine (hash (combine x node)) path)
          (texts hash combine (hash (combine y node)) path) :=
        fun a ha b hb => h a (.tail _ ha) b (.tail _ hb)
      exact hcombine node (h _ (.head _) _ (.head _) (ih hrest heq))
  · rintro rfl
    rfl

end HashChain
