import Calculator.Proofs.Printing
import Calculator.Proofs.Subexpression

/-!
# How high trees are

Working out a tree and writing it down both go into it as deep as the tree is high. `valueWithin`
and `textWithin` do the same with bounded room, and give no answer where the room is too small.

The nesting limit does not bound the height. In one level there may be a row of operators of any
length, and where these group to the left, each of them makes the tree one higher. What the limit
bounds is `nesting`, which does not count steps to such a left operand: `Derives.nested`.
-/

namespace Calculator

namespace Expr

variable {α β : Type}

/-! ## Measures of a tree -/

mutual

/-- The number of nodes on the longest way down from the root. -/
def height : Expr α → Nat
  | number _ _ => 1
  | negate e _ => 1 + e.height
  | binary _ l r _ => 1 + max l.height r.height
  | call _ _ es _ => 1 + heightOfAll es

/-- The height of the highest of some trees. -/
def heightOfAll : List (Expr α) → Nat
  | [] => 0
  | e :: es => max e.height (heightOfAll es)

end

mutual

/-- The height, where the step from an operator that groups to the left to its left operand is not
counted. -/
def nesting : Expr α → Nat
  | number _ _ => 1
  | negate e _ => 1 + e.nesting
  | binary op l r _ =>
    if op.precedence.groupsRight then 1 + max l.nesting r.nesting
    else max l.nesting (1 + r.nesting)
  | call _ _ es _ => 1 + nestingOfAll es

/-- The greatest nesting of some trees. -/
def nestingOfAll : List (Expr α) → Nat
  | [] => 0
  | e :: es => max e.nesting (nestingOfAll es)

end

/-- The number of operators that group to the left, from the root on to the left. -/
def chain : Expr α → Nat
  | number _ _ | negate _ _ | call _ _ _ _ => 0
  | binary op l _ _ => if op.precedence.groupsRight then 0 else 1 + l.chain

/-! ## Recursion in bounded room -/

mutual

/-- The value of an expression, with room for `room` expressions that are being worked out, each
inside the one before. -/
def valueWithin : (room : Nat) → Expr α → ExceptT (EvaluationError α) Option Float
  | 0, _ => (none : Option _)
  | _ + 1, number x _ => return x
  | room + 1, negate e _ => do
    let x ← valueWithin room e
    return -x
  | room + 1, binary op l r _ => do
    let x ← valueWithin room l
    let y ← valueWithin room r
    return op.apply x y
  | room + 1, call name nameNote args note =>
    match Builtin.ofName? name with
    | none => throw (.unknownFunction nameNote name)
    | some f => do
      let xs ← valuesWithin room args
      match Arguments.ofList? f.arity xs with
      | none => throw (.argumentCount note f.name f.arity xs.length)
      | some given =>
        match f.apply given with
        | none => throw (.missingArgument note)
        | some x => return x

/-- The values of several expressions, each with the same room. -/
def valuesWithin : (room : Nat) → List (Expr α) →
    ExceptT (EvaluationError α) Option (List Float)
  | _, [] => return []
  | room, e :: es => do
    let x ← valueWithin room e
    let xs ← valuesWithin room es
    return x :: xs

end

mutual

/-- The text of an expression, with room for `room` expressions that are being written, each inside
the one before. -/
def textWithin : (room : Nat) → Expr α → Option String
  | 0, _ => none
  | _ + 1, number x _ => some (Number.text x)
  | room + 1, negate e _ => do
    let s ← textWithin room e
    return "(-" ++ s ++ ")"
  | room + 1, binary op l r _ => do
    let s ← textWithin room l
    let t ← textWithin room r
    return "(" ++ s ++ " " ++ op.symbol ++ " " ++ t ++ ")"
  | room + 1, call name _ args _ => do
    let s ← argumentTextWithin room args
    return name ++ "(" ++ s ++ ")"

/-- The texts of arguments, each with the same room. -/
def argumentTextWithin : (room : Nat) → List (Expr α) → Option String
  | _, [] => some ""
  | room, [e] => textWithin room e
  | room, e :: rest => do
    let s ← textWithin room e
    let t ← argumentTextWithin room rest
    return s ++ ", " ++ t

end

section Room

variable {e : Expr α} {es : List (Expr α)} {room : Nat}

theorem height_pos (e : Expr α) : 0 < e.height := by
  cases e <;> simp only [height] <;> omega

theorem heightOfAll_le_iff : heightOfAll es ≤ room ↔ ∀ e ∈ es, e.height ≤ room := by
  induction es with
  | nil => simp [heightOfAll]
  | cons e es ih => rw [heightOfAll, Nat.max_le, ih, List.forall_mem_cons]

theorem exists_of_height_le (fits : e.height ≤ room) : ∃ less, room = less + 1 := by
  have := e.height_pos
  exact ⟨room - 1, by omega⟩

/-- Several expressions are worked out in room for each. -/
theorem run_valuesWithin (h : ∀ e ∈ es, (e.valueWithin room).run = some e.value) :
    (valuesWithin room es).run = some (values es) := by
  induction es with
  | nil => rfl
  | cons e es ih =>
    have later := ih fun d hd => h d (List.mem_cons_of_mem e hd)
    rw [valuesWithin, values, ExceptT.run_bind, h e List.mem_cons_self]
    cases e.value with
    | error fault => rfl
    | ok x =>
      show ExceptT.run (valuesWithin room es >>= _) = _
      rw [ExceptT.run_bind, later]
      cases values es <;> rfl

/-- Room for the height of an expression is enough to work it out. -/
theorem run_valueWithin (fits : e.height ≤ room) : (e.valueWithin room).run = some e.value := by
  induction e using Expr.induction generalizing room with
  | number x a =>
    obtain ⟨room, rfl⟩ := exists_of_height_le fits
    rfl
  | negate e a ih =>
    obtain ⟨room, rfl⟩ := exists_of_height_le fits
    rw [height] at fits
    have inside := ih (show e.height ≤ room by omega)
    rw [valueWithin, value, ExceptT.run_bind, inside]
    cases e.value <;> rfl
  | binary op l r a ihl ihr =>
    obtain ⟨room, rfl⟩ := exists_of_height_le fits
    rw [height] at fits
    have left := ihl (show l.height ≤ room by omega)
    have right := ihr (show r.height ≤ room by omega)
    rw [valueWithin, value, ExceptT.run_bind, left]
    cases l.value with
    | error fault => rfl
    | ok x =>
      show ExceptT.run (valueWithin room r >>= _) = _
      rw [ExceptT.run_bind, right]
      cases r.value <;> rfl
  | call name b es a ih =>
    obtain ⟨room, rfl⟩ := exists_of_height_le fits
    rw [height] at fits
    have each := heightOfAll_le_iff.1 (show heightOfAll es ≤ room by omega)
    have args := run_valuesWithin fun e he => ih e he (each e he)
    rw [valueWithin, value]
    cases Builtin.ofName? name with
    | none => rfl
    | some f =>
      dsimp only
      rw [ExceptT.run_bind, args]
      cases values es with
      | error fault => rfl
      | ok xs =>
        simp only [ok_bind, Option.bind_eq_bind, Option.bind_some]
        cases Arguments.ofList? f.arity xs with
        | none => rfl
        | some given =>
          dsimp only
          cases f.apply given <;> rfl

/-- A row of operators that group to the left is gone down before anything is worked out. -/
theorem run_valueWithin_of_le_chain (h : room ≤ e.chain) : (e.valueWithin room).run = none := by
  induction e using Expr.induction generalizing room with
  | number x a =>
    obtain rfl : room = 0 := Nat.le_zero.1 h
    rfl
  | negate e a _ =>
    obtain rfl : room = 0 := Nat.le_zero.1 h
    rfl
  | call name b es a _ =>
    obtain rfl : room = 0 := Nat.le_zero.1 h
    rfl
  | binary op l r a ihl _ =>
    cases room with
    | zero => rfl
    | succ room =>
      have left : room ≤ l.chain := by
        rw [chain] at h
        split at h <;> omega
      rw [valueWithin, ExceptT.run_bind, ihl left]
      rfl

theorem argumentTextWithin_eq
    (h : ∀ e ∈ es, e.textWithin room = if e.height ≤ room then some e.text else none) :
    argumentTextWithin room es
      = if heightOfAll es ≤ room then some (argumentText es) else none := by
  induction es with
  | nil => rfl
  | cons e es ih =>
    have first := h e List.mem_cons_self
    have later := ih fun d hd => h d (List.mem_cons_of_mem e hd)
    cases es with
    | nil =>
      rw [argumentTextWithin, argumentText, heightOfAll, heightOfAll, Nat.max_zero, first]
    | cons d es =>
      rw [argumentTextWithin, argumentText, heightOfAll, first, later]
      · by_cases high : e.height ≤ room <;> by_cases highLater : heightOfAll (d :: es) ≤ room <;>
          simp [high, highLater]
      · exact List.cons_ne_nil d es
      · exact List.cons_ne_nil d es

/-- An expression is written in room for its height, and in no less. -/
theorem textWithin_eq :
    e.textWithin room = if e.height ≤ room then some e.text else none := by
  induction e using Expr.induction generalizing room with
  | number x a => cases room <;> simp [textWithin, height, text]
  | negate e a ih =>
    cases room with
    | zero => rw [textWithin, if_neg (by have := height_pos (negate e a); omega)]
    | succ room =>
      rw [textWithin, height, text, ih]
      by_cases high : e.height ≤ room <;> simp [high, Nat.add_comm 1]
  | binary op l r a ihl ihr =>
    cases room with
    | zero => rw [textWithin, if_neg (by have := height_pos (binary op l r a); omega)]
    | succ room =>
      rw [textWithin, height, text, ihl, ihr]
      by_cases highLeft : l.height ≤ room <;> by_cases highRight : r.height ≤ room <;>
        simp [highLeft, highRight, Nat.add_comm 1]
  | call name b es a ih =>
    cases room with
    | zero => rw [textWithin, if_neg (by have := height_pos (call name b es a); omega)]
    | succ room =>
      rw [textWithin, height, text, argumentTextWithin_eq fun e he => ih e he]
      by_cases high : heightOfAll es ≤ room <;> simp [high, Nat.add_comm 1]

end Room

/-! ## Height and nesting -/

section Nesting

variable {e : Expr α} {es : List (Expr α)} {room k : Nat}

theorem nesting_pos (e : Expr α) : 0 < e.nesting := by
  cases e with
  | binary op l r a =>
    rw [nesting]
    split <;> omega
  | number x a => exact Nat.zero_lt_one
  | negate e a => exact Nat.add_pos_left Nat.zero_lt_one _
  | call name b es a => exact Nat.add_pos_left Nat.zero_lt_one _

theorem nestingOfAll_le_iff : nestingOfAll es ≤ room ↔ ∀ e ∈ es, e.nesting ≤ room := by
  induction es with
  | nil => simp [nestingOfAll]
  | cons e es ih => rw [nestingOfAll, Nat.max_le, ih, List.forall_mem_cons]

@[simp] theorem nesting_withNote (a : α) (e : Expr α) : (e.withNote a).nesting = e.nesting := by
  cases e <;> simp only [withNote, nesting]

@[simp] theorem chain_map (f : α → β) (e : Expr α) : (e.map f).chain = e.chain := by
  induction e using Expr.induction with
  | number x a => simp only [map, chain]
  | negate e a _ => simp only [map, chain]
  | binary op l r a ihl _ => simp only [map, chain, ihl]
  | call name b es a _ => simp only [map, chain]

/-- The operators of a chain are all above one another. -/
theorem chain_lt_height (e : Expr α) : e.chain < e.height := by
  induction e using Expr.induction with
  | number x a => exact Nat.zero_lt_one
  | negate e a _ => exact height_pos _
  | call name b es a _ => exact height_pos _
  | binary op l r a ihl _ =>
    rw [chain, height]
    split <;> omega

/-- All rows of operators that group to the left have at most `k` of them. -/
def Chained (k : Nat) (e : Expr α) : Prop :=
  ∀ n, e.Node n → n.chain ≤ k

theorem Chained.of_child {c : Expr α} (h : Chained k e) (hc : c ∈ e.children) : Chained k c :=
  fun _ hn => h _ (.of_child hc hn)

theorem chained_of_children (own : e.chain ≤ k) (below : ∀ c ∈ e.children, Chained k c) :
    Chained k e := by
  intro n hn
  rcases hn.eq_or_exists with rfl | ⟨c, hc, hn⟩
  · exact own
  · exact below c hc n hn

/-- A root's own chain, counted apart, is at most as long as all others. -/
theorem height_le_of_height_le_add_chain (short : e.Chained k)
    (h : e.height ≤ (k + 1) * (e.nesting - 1) + 1 + e.chain) : e.height ≤ (k + 1) * e.nesting := by
  have own : e.chain ≤ k := short e .root
  have one : 1 ≤ e.nesting := e.nesting_pos
  calc e.height ≤ (k + 1) * (e.nesting - 1) + (k + 1) * 1 := by omega
    _ = (k + 1) * e.nesting := by rw [← Nat.mul_add, Nat.sub_add_cancel one]

/-- The chain at the root goes on in the left operand, so it is counted apart here. -/
theorem height_le_add_chain (h : e.Chained k) :
    e.height ≤ (k + 1) * (e.nesting - 1) + 1 + e.chain := by
  induction e using Expr.induction with
  | number x a => simp [height, nesting, chain]
  | negate e a ih =>
    have short : e.Chained k := h.of_child (by simp [children])
    have inside := height_le_of_height_le_add_chain short (ih short)
    rw [height, nesting, chain, Nat.add_sub_cancel_left]
    omega
  | binary op l r a ihl ihr =>
    have shortLeft : l.Chained k := h.of_child (by simp [children])
    have shortRight : r.Chained k := h.of_child (by simp [children])
    have left := ihl shortLeft
    have right := height_le_of_height_le_add_chain shortRight (ihr shortRight)
    rw [height, nesting, chain]
    split
    · have all := height_le_of_height_le_add_chain shortLeft left
      have toLeft := Nat.mul_le_mul_left (k + 1) (Nat.le_max_left l.nesting r.nesting)
      have toRight := Nat.mul_le_mul_left (k + 1) (Nat.le_max_right l.nesting r.nesting)
      rw [Nat.add_sub_cancel_left]
      omega
    -- The chain of the left operand is one shorter, and what is on the right is nested deeper.
    · have toLeft := Nat.mul_le_mul_left (k + 1)
        (show l.nesting - 1 ≤ max l.nesting (1 + r.nesting) - 1 by omega)
      have toRight := Nat.mul_le_mul_left (k + 1)
        (show r.nesting ≤ max l.nesting (1 + r.nesting) - 1 by omega)
      omega
  | call name b es a ih =>
    have each : ∀ e ∈ es, e.height ≤ (k + 1) * nestingOfAll es := by
      intro e he
      have short : e.Chained k := h.of_child he
      have inside := height_le_of_height_le_add_chain short (ih e he short)
      exact inside.trans (Nat.mul_le_mul_left _ (nestingOfAll_le_iff.1 (Nat.le_refl _) e he))
    have all := heightOfAll_le_iff.2 each
    rw [height, nesting, chain, Nat.add_sub_cancel_left]
    omega

/-- Chains of at most `k` operators make a tree at most `k + 1` times as high as it is nested. -/
theorem height_le (h : e.Chained k) : e.height ≤ (k + 1) * e.nesting :=
  height_le_of_height_le_add_chain h (height_le_add_chain h)

end Nesting

end Expr

/-! ## What the levels of a derivation bound -/

/-- How much the trees of a phrase may be nested that goes `n` levels deep. A level has room for a
call, a power, a product and a sum, each inside the next. -/
def Phrase.Nested {α : Type} : (p : Phrase) → p.Tree α → (n : Nat) → Prop
  | expression, e, n => e.nesting + 1 ≤ 4 * n
  | term, e, n => e.nesting + 2 ≤ 4 * n
  | factor, e, n => e.nesting + 3 ≤ 4 * n
  | primary, e, n => e.nesting + 4 ≤ max 5 (4 * n)
  | arguments, es, n => ∀ e ∈ es, e.nesting + 1 ≤ 4 * n

namespace Derives

variable {τ α : Type} {M : Marking τ α} {p : Phrase} {ts : List τ} {n : Nat}

/-- An operator that groups to the left adds nothing to its left operand. -/
theorem nesting_binary {p : Precedence} {lexeme : String} {op : BinaryOp} {l r : Expr α} {a : α}
    (found : BinaryOp.atPrecedence? p lexeme = some op) (left : p.groupsRight = false) :
    (Expr.binary op l r a).nesting = max l.nesting (1 + r.nesting) := by
  obtain ⟨-, rfl⟩ := BinaryOp.atPrecedence?_eq_some_iff.1 found
  rw [Expr.nesting, left]
  rfl

/-- The levels of a phrase bound how much its trees are nested. -/
theorem nested {e : p.Tree α} (h : Derives M 1 p ts e n) : p.Nested e n := by
  induction h with
  | number _ =>
    show 1 + 4 ≤ max 5 (4 * 1)
    decide
  | constant _ =>
    show 1 + 4 ≤ max 5 (4 * 1)
    decide
  | @negate t ts e n _ he ih =>
    have := he.pos
    change e.nesting + 4 ≤ max 5 (4 * n) at ih
    show 1 + e.nesting + 4 ≤ max 5 (4 * (1 + n))
    omega
  | @group o ts c e n _ _ _ ih =>
    change e.nesting + 1 ≤ 4 * n at ih
    show (e.withNote _).nesting + 4 ≤ max 5 (4 * (1 + n))
    rw [Expr.nesting_withNote]
    omega
  | @call f _ o ts c es n _ _ hes _ ih =>
    have := hes.pos
    have inside : Expr.nestingOfAll es ≤ 4 * n - 1 :=
      Expr.nestingOfAll_le_iff.2 fun e he => Nat.le_sub_one_of_lt (ih e he)
    show 1 + Expr.nestingOfAll es + 4 ≤ max 5 (4 * (1 + n))
    omega
  | argument _ ih =>
    intro e he
    rw [List.mem_singleton.1 he]
    exact ih
  | @comma ts k us es e n m _ _ _ ihs ih =>
    change e.nesting + 1 ≤ 4 * m at ih
    intro d hd
    rcases List.mem_append.1 hd with before | last
    · have : d.nesting + 1 ≤ 4 * n := ihs d before
      omega
    · rw [List.mem_singleton.1 last]
      omega
  | @base ts e n he ih =>
    have := he.pos
    change e.nesting + 4 ≤ max 5 (4 * n) at ih
    show e.nesting + 3 ≤ 4 * n
    omega
  | @power ts k us e f n m _ _ hf ihe ihf =>
    have := hf.pos
    change e.nesting + 4 ≤ max 5 (4 * n) at ihe
    change f.nesting + 3 ≤ 4 * m at ihf
    show 1 + max e.nesting f.nesting + 3 ≤ 4 * max n (1 + m)
    omega
  | @factor ts e n _ ih =>
    change e.nesting + 3 ≤ 4 * n at ih
    show e.nesting + 2 ≤ 4 * n
    omega
  | @product ts k us op e f n m _ hk _ ihe ihf =>
    change e.nesting + 2 ≤ 4 * n at ihe
    change f.nesting + 3 ≤ 4 * m at ihf
    show (Expr.binary op e f _).nesting + 2 ≤ 4 * max n m
    rw [nesting_binary (BinaryOp.mem_productOperators_iff.1 hk) rfl]
    omega
  | @term ts e n _ ih =>
    change e.nesting + 2 ≤ 4 * n at ih
    show e.nesting + 1 ≤ 4 * n
    omega
  | @sum ts k us op e f n m _ hk _ ihe ihf =>
    change e.nesting + 1 ≤ 4 * n at ihe
    change f.nesting + 2 ≤ 4 * m at ihf
    show (Expr.binary op e f _).nesting + 1 ≤ 4 * max n m
    rw [nesting_binary (BinaryOp.mem_sumOperators_iff.1 hk) rfl]
    omega

end Derives

/-- What a line holds is nested as its levels allow, whatever the line is long. -/
theorem nesting_le_of_parseLine {line : String} {t : Located} (h : parseLine line = .ok t) :
    t.nesting ≤ 255 := by
  obtain ⟨ts, -, parsed⟩ := parseLine_eq_ok_iff.1 h
  obtain ⟨n, fits, derived⟩ := Located.parseWithin_eq_ok_iff.1 parsed
  have nested : t.nesting + 1 ≤ 4 * n := derived.nested
  have : n ≤ 64 := fits
  omega

/-! ## Long sums -/

/-- The sum of a one and `n` more. -/
def sumOfOnes : (n : Nat) → Expr Unit
  | 0 => .number (numberValue "1") ()
  | n + 1 => .binary .add (sumOfOnes n) (.number (numberValue "1") ()) ()

/-- The text of a sum of ones, without brackets. -/
def onesText : (n : Nat) → List Char
  | 0 => ['1']
  | n + 1 => onesText n ++ ['+', '1']

/-- The lexemes of a sum of ones. -/
def onesLexemes : (n : Nat) → List String
  | 0 => ["1"]
  | n + 1 => onesLexemes n ++ ["+", "1"]

theorem prints_onesText (n : Nat) : Prints (onesText n) (onesLexemes n) := by
  have one : Prints ['1'] ["1"] := .numeral (by decide)
  induction n with
  | zero => exact one
  | succ n ih => exact ih.append (one.mark (by decide)) (by decide)

theorem derives_onesLexemes (n : Nat) :
    Derives .bare 1 .expression (onesLexemes n) (sumOfOnes n) 1 := by
  have one : Derives .bare 1 .factor ["1"] (.number (numberValue "1") ()) 1 :=
    .base (.number (by decide))
  induction n with
  | zero => exact .term (.factor one)
  | succ n ih => exact .sum ih (by decide) (.factor one)

theorem chain_sumOfOnes (n : Nat) : (sumOfOnes n).chain = n := by
  induction n with
  | zero => rfl
  | succ n ih =>
    show 1 + (sumOfOnes n).chain = n + 1
    omega

/-- A sum of ones is accepted, and all its operators are one chain. -/
theorem exists_parseLine_onesText (n : Nat) :
    ∃ t, parseLine (String.ofList (onesText n)) = .ok t ∧ t.chain = n := by
  obtain ⟨ts, lexemes, scans⟩ := prints_onesText n 0 [] [] (by simp) .nil
  rw [List.append_nil, List.append_nil] at scans
  obtain ⟨t, derived, bare⟩ := (derives_onesLexemes n).lift Marking.carries_bare lexemes
  refine ⟨t, parseLine_eq_ok_iff.2 ⟨ts, ?_, Located.parseWithin_of_derives derived (by decide)⟩, ?_⟩
  · rw [String.toList_ofList]
    exact scans
  · change t.bare = sumOfOnes n at bare
    rw [← chain_sumOfOnes n, ← bare, Expr.bare, Expr.chain_map]

/-- The tree of a line is nested at most 255 deep. If no operators that group to the left are in a
row of more than `k`, it is at most `255 * (k + 1)` high, and is worked out and written in as much
room. But no room `k` is enough for the trees of all lines: the sum of enough ones is higher, and is
neither worked out nor written in it. -/
theorem parseLine_height (k : Nat) :
    (∀ line t, parseLine line = .ok t → t.nesting ≤ 255 ∧ (t.Chained k →
      t.height ≤ 255 * (k + 1) ∧ (t.valueWithin (255 * (k + 1))).run = some t.value ∧
        t.textWithin (255 * (k + 1)) = some t.text)) ∧
    ∃ line t, parseLine line = .ok t ∧ k < t.height ∧ (t.valueWithin k).run = none ∧
      t.textWithin k = none := by
  constructor
  · intro line t h
    have nested := nesting_le_of_parseLine h
    refine ⟨nested, fun short => ?_⟩
    have bound : t.height ≤ 255 * (k + 1) := by
      rw [Nat.mul_comm]
      exact (Expr.height_le short).trans (Nat.mul_le_mul_left _ nested)
    exact ⟨bound, Expr.run_valueWithin bound, by rw [Expr.textWithin_eq, if_pos bound]⟩
  · obtain ⟨t, parsed, chain⟩ := exists_parseLine_onesText k
    have high : k < t.height := chain ▸ t.chain_lt_height
    refine ⟨_, t, parsed, high, Expr.run_valueWithin_of_le_chain (Nat.le_of_eq chain.symm), ?_⟩
    rw [Expr.textWithin_eq, if_neg (by omega)]

/-- Two minus signs in a row are a chain of two, and the product on the right is none of it. -/
theorem parseLine_height_differences : ∃ t, parseLine "8-4-2*1" = .ok t ∧ t.Chained 2 ∧
    t.nesting ≤ 255 ∧ t.height ≤ 765 ∧ (t.valueWithin 765).run = some t.value ∧
      t.textWithin 765 = some t.text := by
  let number (digit : String) (s : Span) : Located := .number (numberValue digit) s
  let first : Located := .binary .sub (number "8" ⟨0, 1⟩) (number "4" ⟨2, 3⟩) ⟨0, 3⟩
  let product : Located := .binary .mul (number "2" ⟨4, 5⟩) (number "1" ⟨6, 7⟩) ⟨4, 7⟩
  have factor (t : Token) (h : IsNumber t.lexeme) :
      Derives .places 1 .factor [t] (number t.lexeme t.span) 1 := .base (.number h)
  have parsed : parseLine "8-4-2*1" = .ok (.binary .sub first product ⟨0, 7⟩) := by
    refine parseLine_eq_ok_iff.2 ⟨[⟨"8", ⟨0, 1⟩⟩, ⟨"-", ⟨1, 2⟩⟩, ⟨"4", ⟨2, 3⟩⟩, ⟨"-", ⟨3, 4⟩⟩,
      ⟨"2", ⟨4, 5⟩⟩, ⟨"*", ⟨5, 6⟩⟩, ⟨"1", ⟨6, 7⟩⟩], tokensFrom_eq_ok_iff.1 (by cbv), ?_⟩
    have left : Derives .places 1 .expression _ first 1 :=
      .sum (k := ⟨"-", ⟨1, 2⟩⟩) (.term (.factor (factor ⟨"8", ⟨0, 1⟩⟩ (by decide)))) (by decide)
        (.factor (factor ⟨"4", ⟨2, 3⟩⟩ (by decide)))
    have right : Derives .places 1 .term _ product 1 :=
      .product (k := ⟨"*", ⟨5, 6⟩⟩) (.factor (factor ⟨"2", ⟨4, 5⟩⟩ (by decide))) (by decide)
        (factor ⟨"1", ⟨6, 7⟩⟩ (by decide))
    have whole : Derives .places 1 .expression _ (.binary .sub first product ⟨0, 7⟩) 1 :=
      .sum (k := ⟨"-", ⟨3, 4⟩⟩) left (by decide) right
    exact Located.parseWithin_of_derives whole (by decide)
  have leaf (digit : String) (s : Span) : (number digit s).Chained 2 :=
    Expr.chained_of_children (Nat.zero_le 2) (by simp [number, Expr.children])
  have chained : (Expr.binary .sub first product ⟨0, 7⟩).Chained 2 := by
    refine Expr.chained_of_children (by decide) ?_
    simp only [Expr.children, List.forall_mem_cons, List.not_mem_nil, false_implies, implies_true,
      and_true]
    constructor
    · exact Expr.chained_of_children (by decide) (by simp [first, Expr.children, leaf])
    · exact Expr.chained_of_children (by decide) (by simp [product, Expr.children, leaf])
  have result := (parseLine_height 2).1 _ _ parsed
  exact ⟨_, parsed, chained, result.1, result.2 chained⟩

end Calculator
