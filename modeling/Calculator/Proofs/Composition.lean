import Calculator.Proofs.Evaluation
import Calculator.Proofs.Joining

/-!
# Lines made of lines

Lines can be put in brackets and made the operands of an operator or the arguments of a function.
What is parsed then is the node over what they are parsed as, unless that goes too deep, and the
value comes of theirs: `evalLine_compound`. So it makes no difference whether an operation is
written as an operator or as a function.
-/

namespace Calculator

/-! ## Values and notes -/

/-- An error alone, without its note. -/
def EvaluationError.bare {α : Type} (e : EvaluationError α) : EvaluationError Unit :=
  e.map fun _ => ()

namespace Expr

variable {α β : Type}

/-- Notes change no values of arguments, if they change none of each argument. -/
theorem values_map_of_forall (g : α → β) {es : List (Expr α)}
    (h : ∀ e ∈ es, (e.map g).value = e.value.mapError (EvaluationError.map g)) :
    values (mapList g es) = (values es).mapError (EvaluationError.map g) := by
  induction es with
  | nil => rfl
  | cons e es ih =>
    have later := ih fun d hd => h d (List.mem_cons_of_mem e hd)
    rw [mapList, values, values, h e List.mem_cons_self, later]
    cases e.value with
    | error err => rfl
    | ok x => cases values es <;> rfl

/-- Notes change no value, and an error by its note alone. -/
theorem value_map (g : α → β) (e : Expr α) :
    (e.map g).value = e.value.mapError (EvaluationError.map g) := by
  induction e using Expr.induction with
  | number x a => rfl
  | negate e a ih =>
    rw [map, value, value, ih]
    cases e.value <;> rfl
  | binary op l r a ihl ihr =>
    rw [map, value, value, ihl, ihr]
    cases l.value with
    | error err => rfl
    | ok x => cases r.value <;> rfl
  | call name b es a ih =>
    rw [map, value, value, values_map_of_forall g ih]
    cases Builtin.ofName? name with
    | none => rfl
    | some f =>
      cases values es with
      | error err => rfl
      | ok xs =>
        dsimp only [Except.mapError, ok_bind]
        cases Arguments.ofList? f.arity xs with
        | none => rfl
        | some given =>
          dsimp only
          cases f.apply given <;> rfl

/-- Some expressions all have values, or the first one without decides. -/
theorem values_cases (es : List (Expr α)) :
    (∃ xs : List Float, values es = .ok xs ∧ es.map value = xs.map .ok) ∨
    ∃ (xs : List Float) (err : EvaluationError α) (later : List (Except (EvaluationError α) Float)),
      values es = .error err ∧ es.map value = xs.map .ok ++ .error err :: later := by
  induction es with
  | nil => exact .inl ⟨[], rfl, rfl⟩
  | cons e es ih =>
    rw [values, List.map_cons]
    cases e.value with
    | error err => exact .inr ⟨[], err, es.map value, rfl, rfl⟩
    | ok x =>
      rcases ih with ⟨xs, all, each⟩ | ⟨xs, err, later, first, each⟩
      · exact .inl ⟨x :: xs, by rw [all]; rfl, by rw [each]; rfl⟩
      · exact .inr ⟨x :: xs, err, later, by rw [first]; rfl, by rw [each]; rfl⟩

end Expr

/-! ## Compounds -/

/-- The operations that can be written around lines: an operator between two, the negation of one,
and a function called on one or two. -/
inductive Compound where
  | operator (op : BinaryOp)
  | negation
  | call (f : Builtin) (n : Arity)

namespace Compound

/-- The operation written around the lines `a` and `b`. -/
def line (a b : String) : Compound → String
  | operator op => "(" ++ a ++ ") " ++ op.symbol ++ " (" ++ b ++ ")"
  | negation => "-(" ++ a ++ ")"
  | call f .one => f.name ++ "(" ++ a ++ ")"
  | call f .two => f.name ++ "(" ++ a ++ "," ++ b ++ ")"

/-- The ones among `a` and `b` that are used, in their order. -/
def operands {α : Type} (a b : α) : Compound → List α
  | operator _ | call _ .two => [a, b]
  | negation | call _ .one => [a]

/-- The node over the expressions `s` and `t`. -/
def tree (s t : Expr Unit) : Compound → Expr Unit
  | operator op => .binary op s t ()
  | negation => .negate s ()
  | call f n => .call f.name () ((call f n).operands s t) ()

/-- A function is called on as many operands as it takes. -/
def Fits : Compound → Prop
  | operator _ | negation => True
  | call f n => f.arity = n

/-- What is computed of the values of the operands. -/
def apply : Compound → List Float → Option Float
  | operator op, [x, y] => some (op.apply x y)
  | negation, [x] => some (-x)
  | call f _, xs => (Arguments.ofList? f.arity xs).bind f.apply
  | _, _ => none

end Compound

/-- A line is refused because it goes too deep. -/
def TooDeep (line : String) : Prop :=
  ∃ err, parseLine line = .error (.grammatical err) ∧ err.cause = .tooDeep

/-- What becomes of the outcomes of some lines by `apply`: the first error, but for its note, or
else the value that `apply` makes of theirs. -/
inductive Combines (apply : List Float → Option Float) :
    List (Except LineError Float) → Except LineError Float → Prop
  | value {xs : List Float} {z} : apply xs = some z → Combines apply (xs.map .ok) (.ok z)
  | error {xs : List Float} {e e' later} : EvaluationError.bare e = EvaluationError.bare e' →
      Combines apply (xs.map .ok ++ .error (.evaluation e) :: later) (.error (.evaluation e'))

/-- Two lines have the same value, or the same error but for its note. -/
inductive SameOutcome : Except LineError Float → Except LineError Float → Prop
  | value (x) : SameOutcome (.ok x) (.ok x)
  | error {e e'} : EvaluationError.bare e = EvaluationError.bare e' →
      SameOutcome (.error (.evaluation e)) (.error (.evaluation e'))

/-! ## How compounds are parsed -/

/-- The line `a` holds the expression `e`: the grammar derives it from the lexemes `ls`, and these
are found in front of any operator, bracket or comma. -/
structure Holds (a : String) (e : Expr Unit) (ls : List String) (n : Nat) : Prop where
  derives : Derives .bare 1 .expression ls e n
  prints : ∀ {m cs ms}, isMark m → Prints cs ms →
    Prints (a.toList ++ m :: cs) (ls ++ String.ofList [m] :: ms)

/-- What a line is parsed as, it holds. -/
theorem exists_holds {a : String} {s : Located} (h : parseLine a = .ok s) :
    ∃ ls n, Holds a s.bare ls n := by
  obtain ⟨ts, scans, parsed⟩ := parseLine_eq_ok_iff.1 h
  obtain ⟨n, -, derived⟩ := Located.parseWithin_eq_ok_iff.1 parsed
  exact ⟨_, n, derived.map Marking.carries_bare, fun marks prints => prints.line scans marks⟩

/-- A line with the lexemes of an expression is parsed as that, or goes too deep. -/
theorem parseLine_of_prints {line : String} {ls : List String} {e : Expr Unit} {n : Nat}
    (prints : Prints line.toList ls) (h : Derives .bare 1 .expression ls e n) :
    TooDeep line ∨ ∃ u, parseLine line = .ok u ∧ u.bare = e := by
  obtain ⟨ts, lexemes, scans⟩ := prints 0 [] [] (by simp) .nil
  rw [List.append_nil, List.append_nil] at scans
  obtain ⟨t, located, same⟩ := h.lift Marking.carries_bare lexemes
  unfold TooDeep
  rw [parseLine_of_scans scans]
  by_cases fits : n ≤ nestingLimit
  · have parsed : Located.parse ts = .ok t := Located.parseWithin_of_derives located fits
    exact .inr ⟨t, by rw [parsed]; rfl, same⟩
  · obtain ⟨err, refused, cause⟩ :=
      Located.parseWithin_of_derives_of_lt located (Nat.lt_of_not_le fits)
    have parsed : Located.parse ts = .error err := refused
    exact .inl ⟨err, by rw [parsed]; rfl, cause⟩

/-- Brackets leave no trace in a bare tree. -/
theorem Derives.bracketed {ls : List String} {e : Expr Unit} {n : Nat}
    (h : Derives .bare 1 .expression ls e n) :
    Derives .bare 1 .primary ("(" :: (ls ++ [")"])) e (1 + n) := by
  have derived := Derives.group (M := .bare) (o := "(") (c := ")") rfl h rfl
  have same : e.withNote () = e := by cases e <;> rfl
  exact same ▸ derived

namespace Holds

variable {a b : String} {s t : Expr Unit} {ls ms : List String} {n m : Nat}

/-- A line in brackets is a primary. -/
theorem group (h : Holds a s ls n) :
    Derives .bare 1 .primary ("(" :: (ls ++ [")"])) s (1 + n) :=
  h.derives.bracketed

/-- A line in brackets in front of a text. -/
theorem prints_group {cs : List Char} {ks : List String} (h : Holds a s ls n)
    (behind : Prints cs ks) :
    Prints ('(' :: (a.toList ++ ')' :: cs)) ("(" :: (ls ++ ")" :: ks)) :=
  (h.prints (by decide) behind).mark (by decide)

/-- A compound of lines is one of the lexemes of its node. -/
theorem exists_compound (ha : Holds a s ls n) (hb : Holds b t ms m) (c : Compound) :
    ∃ ks k, Prints (c.line a b).toList ks ∧ Derives .bare 1 .expression ks (c.tree s t) k := by
  match c with
  | .operator op =>
    have right := ((hb.prints_group .nil).blank.operator op).blank
    have spelled : ((Compound.operator op).line a b).toList = '(' :: (a.toList ++ ')' ::
        ' ' :: (op.symbol.toList ++ ' ' :: '(' :: (b.toList ++ [')']))) := by
      simp [Compound.line]
    rw [spelled]
    have derived := Expr.Printable.derives_binary op ha.group hb.group
    rw [List.cons_append, List.append_assoc] at derived
    exact ⟨_, _, ha.prints_group right, derived⟩
  | .negation =>
    have spelled : (Compound.negation.line a b).toList = '-' :: '(' :: (a.toList ++ [')']) := by
      simp [Compound.line]
    rw [spelled]
    exact ⟨_, _, (ha.prints_group .nil).mark (by decide),
      .term (.factor (.base (.negate rfl ha.group)))⟩
  | .call f .one =>
    have spelled : ((Compound.call f .one).line a b).toList
        = f.name.toList ++ '(' :: (a.toList ++ [')']) := by
      simp [Compound.line]
    rw [spelled]
    exact ⟨_, _, (ha.prints_group .nil).name f, .term (.factor (.base
      (.call (Builtin.ofName?_name f) rfl (.argument ha.derives) rfl)))⟩
  | .call f .two =>
    have spelled : ((Compound.call f .two).line a b).toList
        = f.name.toList ++ '(' :: (a.toList ++ ',' :: (b.toList ++ [')'])) := by
      simp [Compound.line]
    have second : Prints (b.toList ++ [')']) (ms ++ [")"]) := hb.prints (by decide) .nil
    have both : Prints (a.toList ++ ',' :: (b.toList ++ [')'])) ((ls ++ "," :: ms) ++ [")"]) := by
      rw [List.append_assoc]
      exact ha.prints (by decide) second
    rw [spelled]
    exact ⟨_, _, (both.mark (by decide)).name f, .term (.factor (.base
      (.call (Builtin.ofName?_name f) rfl (.comma (.argument ha.derives) rfl hb.derives) rfl)))⟩

end Holds

/-! ## What compounds are worth -/

namespace Compound

variable {s t : Expr Unit}

/-- The node of a compound is worth what is computed of its operands, and lacks a value for the
first of them that does. -/
theorem value_tree {c : Compound} (fits : c.Fits) (s t : Expr Unit) :
    (∃ xs z, Expr.values (c.operands s t) = .ok xs ∧ c.apply xs = some z ∧
      (c.tree s t).value = .ok z) ∨
    ∃ err, Expr.values (c.operands s t) = .error err ∧ (c.tree s t).value = .error err := by
  match c with
  | .operator op =>
    simp only [operands, tree, Expr.values, Expr.value]
    cases s.value with
    | error err => exact .inr ⟨err, rfl, rfl⟩
    | ok x =>
      cases t.value with
      | error err => exact .inr ⟨err, rfl, rfl⟩
      | ok y => exact .inl ⟨[x, y], _, rfl, rfl, rfl⟩
  | .negation =>
    simp only [operands, tree, Expr.values, Expr.value]
    cases s.value with
    | error err => exact .inr ⟨err, rfl, rfl⟩
    | ok x => exact .inl ⟨[x], _, rfl, rfl, rfl⟩
  | .call f n =>
    rw [tree, Expr.value, Builtin.ofName?_name]
    dsimp only
    cases evaluated : Expr.values ((call f n).operands s t) with
    | error err => exact .inr ⟨err, rfl, rfl⟩
    | ok xs =>
      -- There are as many values as the function takes.
      have counted : xs.length = f.arity.count := by
        rw [Expr.length_of_values_eq_ok evaluated, show f.arity = n from fits]
        cases n <;> rfl
      obtain ⟨given, listed⟩ := Option.isSome_iff_exists.1
        ((Arguments.isSome_ofList? f.arity xs).2 counted)
      obtain ⟨z, computed⟩ := Builtin.exists_apply listed
      refine .inl ⟨xs, z, rfl, ?_, ?_⟩
      · simp [apply, listed, computed]
      · rw [ok_bind, listed]
        dsimp only
        rw [computed]

/-- The operands are chosen by their place alone. -/
theorem operands_map {α β : Type} (g : α → β) (c : Compound) (a b : α) :
    c.operands (g a) (g b) = (c.operands a b).map g := by
  cases c with
  | operator op => rfl
  | negation => rfl
  | call f n => cases n <;> rfl

end Compound

section Outcomes

variable {a b line other : String} {s t u v : Located}

/-- A line has the value of its bare expression. -/
theorem evalLine_of_bare_eq_ok {x : Float} (hu : parseLine line = .ok u)
    (worth : u.bare.value = .ok x) : evalLine line = .ok x := by
  rw [Expr.bare, Expr.value_map, mapError_eq_ok_iff] at worth
  unfold evalLine
  rw [hu, ok_bind, worth]
  rfl

/-- A line has the error of its bare expression, with a note. -/
theorem evalLine_of_bare_eq_error {e : EvaluationError Unit} (hu : parseLine line = .ok u)
    (valueless : u.bare.value = .error e) :
    ∃ e', EvaluationError.bare e' = e ∧ evalLine line = .error (.evaluation e') := by
  rw [Expr.bare, Expr.value_map, mapError_eq_error_iff] at valueless
  obtain ⟨e', own, same⟩ := valueless
  refine ⟨e', same, ?_⟩
  unfold evalLine
  rw [hu, ok_bind, own]
  rfl

/-- A line that is parsed as the node of a compound has the outcome that the compound makes of those
of its operands. -/
theorem Compound.combines {c : Compound} (fits : c.Fits) (ha : parseLine a = .ok s)
    (hb : parseLine b = .ok t) (hu : parseLine line = .ok u)
    (same : u.bare = c.tree s.bare t.bare) :
    Combines c.apply ((c.operands a b).map evalLine) (evalLine line) := by
  have outcomes : (c.operands a b).map evalLine =
      ((c.operands s t).map Expr.value).map (Except.mapError .evaluation) := by
    rw [← operands_map, ← operands_map, ← operands_map]
    unfold evalLine
    rw [ha, hb]
    rfl
  have bare : Expr.values (c.operands s.bare t.bare) =
      (Expr.values (c.operands s t)).mapError EvaluationError.bare := by
    rw [operands_map]
    exact Expr.mapList_eq_map (fun _ => ()) (c.operands s t) ▸
      Expr.values_map_of_forall (fun _ => ()) fun e _ => Expr.value_map _ e
  have node := value_tree fits s.bare t.bare
  rw [← same, bare] at node
  rw [outcomes]
  rcases Expr.values_cases (c.operands s t) with ⟨xs, all, each⟩ | ⟨xs, err, later, first, each⟩
  · rw [all] at node
    rw [each, List.map_map]
    rcases node with ⟨ys, z, listed, computed, worth⟩ | ⟨e, absent, -⟩
    · cases listed
      rw [evalLine_of_bare_eq_ok hu worth]
      exact .value computed
    · cases absent
  · rw [first] at node
    rw [each, List.map_append, List.map_map]
    rcases node with ⟨ys, z, absent, -, -⟩ | ⟨e, listed, valueless⟩
    · cases absent
    · cases listed
      obtain ⟨e', same, outcome⟩ := evalLine_of_bare_eq_error hu valueless
      rw [outcome]
      exact .error same.symm

/-- Lines with the same value but for notes have the same outcome. -/
theorem SameOutcome.of_bare (hu : parseLine line = .ok u) (hv : parseLine other = .ok v)
    (same : u.bare.value = v.bare.value) : SameOutcome (evalLine line) (evalLine other) := by
  cases outcome : u.bare.value with
  | ok x =>
    rw [evalLine_of_bare_eq_ok hu outcome, evalLine_of_bare_eq_ok hv (same ▸ outcome)]
    exact .value x
  | error e =>
    obtain ⟨err, own, refused⟩ := evalLine_of_bare_eq_error hu outcome
    obtain ⟨err', own', refused'⟩ := evalLine_of_bare_eq_error hv (same ▸ outcome)
    rw [refused, refused']
    exact .error (own.trans own'.symm)

end Outcomes

/-! ## Operators and functions -/

/-- The operator that computes what a function does of two arguments in the same order. -/
def Builtin.operator? : Builtin → Option BinaryOp
  | mod => some .mod
  | pow => some .pow
  | abs | round | floor | ceil | root => none

/-- The root of `b` with the degree `a`, written with operators. -/
def rootLine (a b : String) : String :=
  "(" ++ b ++ ") ^ (1/(" ++ a ++ "))"

/-- A function is worth what its operator is. -/
theorem Builtin.value_operator {f : Builtin} {op : BinaryOp} (h : f.operator? = some op)
    (s t : Expr Unit) :
    ((Compound.call f .two).tree s t).value = ((Compound.operator op).tree s t).value := by
  cases f with
  | abs | round | floor | ceil | root => cases h
  | mod | pow =>
    cases h
    simp only [Compound.tree, Compound.operands, Expr.value, Expr.values, ofName?_name]
    cases s.value with
    | error e => rfl
    | ok x => cases t.value <;> rfl

/-- A root is worth the power with the inverse of its degree. -/
theorem value_root (s t : Expr Unit) :
    (∃ x, ((Compound.call .root .two).tree s t).value = .ok x ∧
      (Expr.binary .pow t (.binary .div (.number Number.one ()) s ()) ()).value = .ok x) ∨
    ∃ e e', ((Compound.call .root .two).tree s t).value = .error e ∧
      (Expr.binary .pow t (.binary .div (.number Number.one ()) s ()) ()).value = .error e' := by
  simp only [Compound.tree, Compound.operands, Expr.value, Expr.values, Builtin.ofName?_name]
  cases s.value with
  | error e =>
    cases t.value with
    | error e' => exact .inr ⟨e, e', rfl, rfl⟩
    | ok y => exact .inr ⟨e, e, rfl, rfl⟩
  | ok x =>
    cases t.value with
    | error e => exact .inr ⟨e, e, rfl, rfl⟩
    | ok y => exact .inl ⟨_, rfl, rfl⟩

/-- The numeral `1` is worth one. -/
theorem numberValue_one : IsNumber "1" ∧ numberValue "1" = Number.one := by
  have units : Number.unitsPerOne = Number.unitsOf (1023 * 2 ^ 52) := by
    unfold Number.unitsPerOne Number.unitsOf
    rw [if_neg (by decide), Nat.mul_mod_left, Nat.mul_div_left _ (Nat.two_pow_pos 52), Nat.add_zero,
      show (1074 : Nat) = 52 + (1023 - 1) from rfl]
    -- A closed power of this size would be evaluated.
    generalize 1023 - 1 = steps
    exact Nat.pow_add 2 52 steps
  have rounded : Number.nearestPattern 1 1 = 1023 * 2 ^ 52 :=
    Number.nearestPattern_of_eq_unitsOf (by decide) (by rw [Nat.one_mul, Nat.mul_one, units])
      (by decide)
  refine ofText?_eq_some_iff.1 ?_
  rw [Number.ofText?_of_isNumeral (by decide)]
  show some (Number.ofPattern (Number.nearestPattern 1 1)) = _
  rw [rounded]
  rfl

/-- A root that is written with operators is one of the lexemes of its node. -/
theorem Holds.exists_root {a b : String} {s t : Expr Unit} {ls ms : List String} {n m : Nat}
    (ha : Holds a s ls n) (hb : Holds b t ms m) :
    ∃ ks k, Prints (rootLine a b).toList ks ∧ Derives .bare 1 .expression ks
      (.binary .pow t (.binary .div (.number Number.one ()) s ()) ()) k := by
  have spelled : (rootLine a b).toList = '(' :: (b.toList ++ ')' :: ' ' :: '^' :: ' ' :: '(' ::
      (['1'] ++ '/' :: '(' :: (a.toList ++ ')' :: [')']))) := by
    simp [rootLine]
  have close : Prints [')'] [")"] := Prints.nil.mark (by decide)
  have slash : Prints ('/' :: '(' :: (a.toList ++ ')' :: [')'])) _ :=
    (ha.prints_group close).mark (by decide)
  have inverse := (Prints.numeral (by decide : Number.isNumeral ['1'])).append slash (by decide)
  have one : Derives .bare 1 .primary ["1"] (.number Number.one ()) 1 :=
    numberValue_one.2 ▸ .number numberValue_one.1
  have exponent := (Expr.Printable.derives_binary .div one ha.group).bracketed
  have derived := Expr.Printable.derives_binary .pow hb.group exponent
  simp only [List.cons_append, List.nil_append, List.append_assoc] at derived
  rw [spelled]
  exact ⟨_, _, hb.prints_group ((inverse.mark (by decide)).blank.operator .pow).blank, derived⟩

/-- For lines `a` and `b` that are parsed, any operation that is written around them is parsed as
the node over their expressions, unless it goes too deep. Its outcome is the first error of its
operands, but for the note, or else what the operation computes of their values. Hence a function
has the same outcome as the operator for it, and a root has the same value as the power with the
inverse degree, where it has one. -/
theorem evalLine_compound {a b : String} {s t : Located} (ha : parseLine a = .ok s)
    (hb : parseLine b = .ok t) :
    (∀ c : Compound,
      (TooDeep (c.line a b) ∨
        ∃ u, parseLine (c.line a b) = .ok u ∧ u.bare = c.tree s.bare t.bare) ∧
      ∀ u, parseLine (c.line a b) = .ok u → c.Fits →
        Combines c.apply ((c.operands a b).map evalLine) (evalLine (c.line a b))) ∧
    (∀ (f : Builtin) op, f.operator? = some op →
      ¬ TooDeep ((Compound.call f .two).line a b) → ¬ TooDeep ((Compound.operator op).line a b) →
      SameOutcome (evalLine ((Compound.call f .two).line a b))
        (evalLine ((Compound.operator op).line a b))) ∧
    (¬ TooDeep ((Compound.call .root .two).line a b) → ¬ TooDeep (rootLine a b) →
      (∃ x, evalLine ((Compound.call .root .two).line a b) = .ok x ∧
        evalLine (rootLine a b) = .ok x) ∨
      ∃ e e', evalLine ((Compound.call .root .two).line a b) = .error (.evaluation e) ∧
        evalLine (rootLine a b) = .error (.evaluation e')) := by
  obtain ⟨ls, n, holds⟩ := exists_holds ha
  obtain ⟨ms, m, holds'⟩ := exists_holds hb
  have parsed (c : Compound) : TooDeep (c.line a b) ∨
      ∃ u, parseLine (c.line a b) = .ok u ∧ u.bare = c.tree s.bare t.bare := by
    obtain ⟨ks, k, prints, derived⟩ := holds.exists_compound holds' c
    exact parseLine_of_prints prints derived
  refine ⟨fun c => ⟨parsed c, fun u hu fits => ?_⟩, fun f op same shallow shallow' => ?_,
    fun shallow shallow' => ?_⟩
  · rcases parsed c with ⟨err, refused, -⟩ | ⟨v, hv, node⟩
    · rw [hu] at refused
      cases refused
    · exact Compound.combines fits ha hb hv node
  · obtain ⟨u, hu, node⟩ := (parsed _).resolve_left shallow
    obtain ⟨v, hv, node'⟩ := (parsed _).resolve_left shallow'
    refine .of_bare hu hv ?_
    rw [node, node', Builtin.value_operator same]
  · obtain ⟨ks, k, prints, derived⟩ := holds.exists_root holds'
    obtain ⟨u, hu, node⟩ := (parsed _).resolve_left shallow
    obtain ⟨v, hv, node'⟩ := (parseLine_of_prints prints derived).resolve_left shallow'
    rcases value_root s.bare t.bare with ⟨x, worth, worth'⟩ | ⟨e, e', valueless, valueless'⟩
    · rw [← node] at worth
      rw [← node'] at worth'
      exact .inl ⟨x, evalLine_of_bare_eq_ok hu worth, evalLine_of_bare_eq_ok hv worth'⟩
    · rw [← node] at valueless
      rw [← node'] at valueless'
      obtain ⟨err, -, refused⟩ := evalLine_of_bare_eq_error hu valueless
      obtain ⟨err', -, refused'⟩ := evalLine_of_bare_eq_error hv valueless'
      exact .inr ⟨err, err', refused, refused'⟩

theorem not_tooDeep_of_parseLine {line : String} {u : Located} (h : parseLine line = .ok u) :
    ¬ TooDeep line := by
  rintro ⟨err, refused, -⟩
  rw [h] at refused
  cases refused

/-- The remainder of `tau` by `pi` in both spellings. -/
theorem evalLine_compound_mod :
    SameOutcome (evalLine "mod(tau,pi)") (evalLine "(tau) mod (pi)") := by
  have leaf (k : Constant) {t : Token} (named : Constant.ofName? t.lexeme = some k) :
      Derives .places 1 .expression [t] (.number k.value t.span) 1 :=
    .term (.factor (.base (.constant named)))
  have tau : parseLine "tau" = .ok (.number Constant.tau.value ⟨0, 3⟩) :=
    parseLine_of_derives (leaf .tau (t := ⟨"tau", ⟨0, 3⟩⟩) (by decide)) (by cbv) (by decide)
  have pi : parseLine "pi" = .ok (.number Constant.pi.value ⟨0, 2⟩) :=
    parseLine_of_derives (leaf .pi (t := ⟨"pi", ⟨0, 2⟩⟩) (by decide)) (by cbv) (by decide)
  have call : Derives .places 1 .expression [⟨"mod", ⟨0, 3⟩⟩, ⟨"(", ⟨3, 4⟩⟩, ⟨"tau", ⟨4, 7⟩⟩,
      ⟨",", ⟨7, 8⟩⟩, ⟨"pi", ⟨8, 10⟩⟩, ⟨")", ⟨10, 11⟩⟩] _ _ :=
    .term (.factor (.base (.call (Builtin.ofName?_name .mod) rfl
      (.comma (.argument (leaf .tau (by decide))) rfl (leaf .pi (by decide))) rfl)))
  have operator : Derives .places 1 .expression [⟨"(", ⟨0, 1⟩⟩, ⟨"tau", ⟨1, 4⟩⟩, ⟨")", ⟨4, 5⟩⟩,
      ⟨"mod", ⟨6, 9⟩⟩, ⟨"(", ⟨10, 11⟩⟩, ⟨"pi", ⟨11, 13⟩⟩, ⟨")", ⟨13, 14⟩⟩] _ _ :=
    .term (.product (.factor (.base (.group rfl (leaf .tau (by decide)) rfl)))
      (by decide : ("mod", BinaryOp.mod) ∈ productOperators)
      (.base (.group rfl (leaf .pi (by decide)) rfl)))
  exact (evalLine_compound tau pi).2.1 .mod .mod rfl
    (not_tooDeep_of_parseLine (parseLine_of_derives call (by cbv) (by decide)))
    (not_tooDeep_of_parseLine (parseLine_of_derives operator (by cbv) (by decide)))

end Calculator
