import EventSieve.Clause.Basic
import EventSieve.Token.Basic

/-!
# Expression trees

A tree has clauses at its leaves and connectives inside. Chains of clauses build trees as deep as
they are long, so counting, copying, comparing and writing keep their own lists of what is still to
be visited and do not recurse into the depth of a tree.

* `Expr.leaves`: the clauses from left to right, by plain recursion.
* `Expr.leafCount`, `Expr.height`: the number of leaves, and of nodes on the longest path.
* `Expr.copy?`: the tree rebuilt from its leaves up.
* `Expr.equals`: comparison node by node.
* `Expr.render`: a tree written fully parenthesized, a clause as itself, and a connective with its
  operands as `(left && right)` or `(left || right)`.
-/

namespace EventSieve

/-- A filter expression. -/
inductive Expr
  | clause (c : Clause)
  | join (k : Connective) (left right : Expr)

namespace Expr

/-- The number of nodes, which bounds every walk. -/
def size : Expr → Nat
  | clause _ => 1
  | join _ left right => left.size + right.size + 1

/-- The number of nodes of all trees of a list. -/
def totalSize : List Expr → Nat
  | [] => 0
  | e :: trees => e.size + totalSize trees

/-- The clauses of a tree, from left to right. -/
def leaves : Expr → List Clause
  | clause c => [c]
  | join _ left right => left.leaves ++ right.leaves

/-- Adds the leaves of the pending trees to `count`. -/
def countPending (count : Nat) : List Expr → Nat
  | [] => count
  | clause _ :: pending => countPending (count + 1) pending
  | join _ left right :: pending => countPending count (right :: left :: pending)
termination_by pending => totalSize pending
decreasing_by all_goals simp [totalSize, size] <;> omega

/-- The number of clauses of a tree. -/
def leafCount (e : Expr) : Nat := countPending 0 [e]

/-- The greatest of `deepest` and the levels of the leaves of pending trees, each of which comes
with its own level. -/
def heightPending (deepest : Nat) : List (Expr × Nat) → Nat
  | [] => deepest
  | (clause _, level) :: pending => heightPending (max deepest level) pending
  | (join _ left right, level) :: pending =>
    heightPending deepest ((right, level + 1) :: (left, level + 1) :: pending)
termination_by pending => totalSize (pending.map Prod.fst)
decreasing_by all_goals simp [totalSize, size] <;> omega

/-- The number of nodes on the longest path from the root of a tree to a leaf. -/
def height (e : Expr) : Nat := heightPending 0 [(e, 1)]

/-- What is left to do for a copy: a tree to be copied, or a connective to be put over the two
trees built last. -/
inductive CopyStep
  | visit (e : Expr)
  | combine (k : Connective)

/-- How many steps a step may still lead to. -/
def CopyStep.size : CopyStep → Nat
  | visit e => 2 * e.size
  | combine _ => 1

/-- How many steps a list of steps may still lead to. -/
def stepsSize : List CopyStep → Nat
  | [] => 0
  | step :: steps => step.size + stepsSize steps

/-- Does the pending steps, given the trees built so far, last first. None if a connective finds
fewer than two trees, or nothing is built in the end. -/
def runCopy (built : List Expr) : List CopyStep → Option Expr
  | [] => built.head?
  | .visit (clause c) :: steps => runCopy (clause c :: built) steps
  | .visit (join k left right) :: steps =>
    runCopy built (.visit left :: .visit right :: .combine k :: steps)
  | .combine k :: steps =>
    match built with
    | right :: left :: built => runCopy (join k left right :: built) steps
    | _ => none
termination_by steps => stepsSize steps
decreasing_by all_goals simp [stepsSize, CopyStep.size, size] <;> omega

/-- A tree rebuilt from its leaves up. -/
def copy? (e : Expr) : Option Expr := runCopy [] [.visit e]

/-- Whether the two trees of every pending pair have the same shape, connectives and clauses. -/
def pairsEqual : List (Expr × Expr) → Bool
  | [] => true
  | (clause a, clause b) :: pending => a == b && pairsEqual pending
  | (join k left right, join k' left' right') :: pending =>
    k == k' && pairsEqual ((left, left') :: (right, right') :: pending)
  | _ => false
termination_by pending => totalSize (pending.map Prod.fst)
decreasing_by all_goals simp [totalSize, size] <;> omega

/-- Whether two trees have the same shape, connectives and clauses. -/
def equals (a b : Expr) : Bool := pairsEqual [(a, b)]

instance : BEq Expr := ⟨equals⟩

/-- What is left to write: a tree, or a text as it is. -/
inductive Chunk
  | tree (e : Expr)
  | text (s : String)

/-- How many chunks a chunk may still lead to. -/
def Chunk.size : Chunk → Nat
  | tree e => 5 * e.size
  | text _ => 1

/-- How many chunks a list of chunks may still lead to. -/
def chunksSize : List Chunk → Nat
  | [] => 0
  | chunk :: chunks => chunk.size + chunksSize chunks

/-- The chunks of a connective with its operands. -/
def joined (k : Connective) (left right : Expr) : List Chunk :=
  [.text "(", .tree left, .text (" " ++ k.spelling ++ " "), .tree right, .text ")"]

/-- Writes the pending chunks after `out`. -/
def writePending (out : String) : List Chunk → String
  | [] => out
  | .text s :: pending => writePending (out ++ s) pending
  | .tree (clause c) :: pending => writePending (out ++ c.render) pending
  | .tree (join k left right) :: pending => writePending out (joined k left right ++ pending)
termination_by pending => chunksSize pending
decreasing_by all_goals simp [chunksSize, Chunk.size, size, joined] <;> omega

/-- The spelling of a tree. -/
def render (e : Expr) : String := writePending "" [.tree e]

end Expr

end EventSieve
