import EventSieve.Expr.Basic

/-!
# What rendering writes

Writing a tree from a list of pending chunks gives what plain recursion gives:
`render_clause` for a leaf, `render_join` for a connective.
-/

namespace EventSieve.Expr

/-- The spelling of a tree by recursion. -/
def spelling : Expr → String
  | clause c => c.render
  | join k left right => "(" ++ left.spelling ++ (" " ++ k.spelling ++ " ") ++ right.spelling ++ ")"

/-- What a chunk stands for. -/
def Chunk.spelling : Chunk → String
  | tree e => e.spelling
  | text s => s

/-- The pending chunks are written one after the other. -/
theorem writePending_eq (out : String) (chunks : List Chunk) :
    writePending out chunks = chunks.foldl (fun written chunk => written ++ chunk.spelling) out := by
  fun_induction writePending out chunks with
  | case1 out => rfl
  | case2 out s pending ih => exact ih
  | case3 out c pending ih => exact ih
  | case4 out k left right pending ih =>
    rw [ih, List.foldl_append]
    simp [joined, Chunk.spelling, Expr.spelling, String.append_assoc]

/-- **Writing with pending chunks agrees with plain recursion.** -/
theorem render_eq_spelling (e : Expr) : e.render = e.spelling := by
  unfold render
  rw [writePending_eq]
  exact String.empty_append

theorem render_clause (c : Clause) : (clause c).render = c.render := render_eq_spelling _

/-- A connective is written between its operands, in parentheses. -/
theorem render_join (k : Connective) (left right : Expr) :
    (join k left right).render =
      "(" ++ left.render ++ (" " ++ k.spelling ++ " ") ++ right.render ++ ")" := by
  rw [render_eq_spelling, spelling, render_eq_spelling, render_eq_spelling]

theorem toList_render_join (k : Connective) (left right : Expr) :
    (join k left right).render.toList =
      '(' :: (left.render.toList ++ ' ' :: k.char :: k.char :: ' ' :: right.render.toList) ++ [')'] := by
  rw [render_join]
  simp [String.toList_append, k.spelling_toList]

end EventSieve.Expr
