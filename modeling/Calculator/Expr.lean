import Calculator.Operator
import Calculator.Text.Span

/-!
# Expression trees

An expression tree has a note at every node and at every function name. In trees that were read from
a line the notes are spans; the bare tree of a formula has none.
-/

namespace Calculator

/-- An expression with notes of type `α`. -/
inductive Expr (α : Type) where
  /-- A number. -/
  | number (x : Float) (note : α)
  /-- The negative of `operand`. -/
  | negate (operand : Expr α) (note : α)
  /-- An operator between two operands. -/
  | binary (op : BinaryOp) (left right : Expr α) (note : α)
  /-- A function, found at `nameNote`, called with `args`. -/
  | call (name : String) (nameNote : α) (args : List (Expr α)) (note : α)

/-- An expression that was read from a line, each node with its place. -/
abbrev Located := Expr Span

namespace Expr

variable {α β : Type}

/-- The note at the root. -/
def note : Expr α → α
  | number _ a | negate _ a | binary _ _ _ a | call _ _ _ a => a

/-- The same expression with another note at its root. -/
def withNote (a : α) : Expr α → Expr α
  | number x _ => number x a
  | negate e _ => negate e a
  | binary op l r _ => binary op l r a
  | call f b es _ => call f b es a

mutual

/-- The same expression with all notes changed by `f`. -/
def map (f : α → β) : Expr α → Expr β
  | number x a => number x (f a)
  | negate e a => negate (e.map f) (f a)
  | binary op l r a => binary op (l.map f) (r.map f) (f a)
  | call g b es a => call g (f b) (mapList f es) (f a)

/-- `map` on each of a list of expressions. -/
def mapList (f : α → β) : List (Expr α) → List (Expr β)
  | [] => []
  | e :: es => e.map f :: mapList f es

end

/-- The expression alone, without its notes. -/
def bare (e : Expr α) : Expr Unit :=
  e.map fun _ => ()

theorem mapList_eq_map (f : α → β) (es : List (Expr α)) : mapList f es = es.map (Expr.map f) := by
  induction es with
  | nil => rfl
  | cons e es ih => rw [mapList, ih, List.map_cons]

@[simp] theorem note_map (f : α → β) (e : Expr α) : (e.map f).note = f e.note := by
  cases e <;> simp [map, note]

@[simp] theorem note_withNote (a : α) (e : Expr α) : (e.withNote a).note = a := by
  cases e <;> rfl

theorem map_withNote (f : α → β) (a : α) (e : Expr α) :
    (e.withNote a).map f = (e.map f).withNote (f a) := by
  cases e <;> simp [map, withNote]

/-- What a root note says is no part of the bare expression. -/
@[simp] theorem bare_withNote (a : α) (e : Expr α) : (e.withNote a).bare = e.bare := by
  cases e <;> simp [bare, map, withNote]

end Expr

end Calculator
