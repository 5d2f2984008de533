import Calculator.Proofs.Evaluation

/-!
# What is checked of an expression

Working an expression out checks its calls: the name of a call before its arguments are worked out,
and their number behind them. The first check that fails is the one that is reported, and where none
fails there is a value. The checks do not look at numbers, and so which error there is, if any, is a
matter of the shape of the expression alone: `Expr.value_first_fault`.
-/

namespace Calculator

/-! ## Checks -/

/-- What is checked of a call. -/
inductive Check (α : Type) where
  /-- Some function has this name. -/
  | name (name : String) (note : α)
  /-- The function of this name takes as many arguments as there are. -/
  | count (name : String) (note : α) (actual : Nat)

/-- The error of a check that fails. Where no function has the name, none takes another number of
arguments. -/
def Check.error? {α : Type} : Check α → Option (EvaluationError α)
  | name f note =>
    match Builtin.ofName? f with
    | none => some (.unknownFunction note f)
    | some _ => none
  | count f note actual =>
    match Builtin.ofName? f with
    | none => none
    | some g => if actual = g.arity.count then none else some (.argumentCount note f g.arity actual)

/-- No check is for an argument that a function uses. -/
theorem Check.error?_ne_missingArgument {α : Type} (c : Check α) (a : α) :
    c.error? ≠ some (.missingArgument a) := by
  intro fails
  unfold error? at fails
  split at fails
  · split at fails <;> cases fails
  · split at fails
    · cases fails
    · split at fails <;> cases fails

/-- The error of an outcome, if it is one. -/
def failure? {ε α : Type} : Except ε α → Option ε
  | .error err => some err
  | .ok _ => none

theorem failure?_eq_some_iff {ε α : Type} {x : Except ε α} {err : ε} :
    failure? x = some err ↔ x = .error err := by
  cases x <;> simp [failure?]

namespace Expr

variable {α : Type}

/-! ## The walk over an expression -/

mutual

/-- The checks of an expression in their order: operands and arguments come from left to right, the
name of a call in front of its arguments, and their number behind them. -/
def checks : Expr α → List (Check α)
  | number _ _ => []
  | negate e _ => e.checks
  | binary _ l r _ => l.checks ++ r.checks
  | call name nameNote args note =>
    .name name nameNote :: (checksOfAll args ++ [.count name note args.length])

/-- The checks of several expressions, one after the other. -/
def checksOfAll : List (Expr α) → List (Check α)
  | [] => []
  | e :: es => e.checks ++ checksOfAll es

end

theorem mem_checksOfAll_iff {c : Check α} {es : List (Expr α)} :
    c ∈ checksOfAll es ↔ ∃ e ∈ es, c ∈ e.checks := by
  induction es with
  | nil => simp [checksOfAll]
  | cons e es ih => rw [checksOfAll, List.mem_append, ih, List.exists_mem_cons_iff]

/-- The checks of a node alone, without those of its operands or arguments. -/
def ownChecks : Expr α → List (Check α)
  | call name nameNote args note => [.name name nameNote, .count name note args.length]
  | _ => []

/-- A check of an expression is its own or one of a child. -/
theorem mem_checks_iff_or {c : Check α} {e : Expr α} :
    c ∈ e.checks ↔ c ∈ e.ownChecks ∨ ∃ d ∈ e.children, c ∈ d.checks := by
  cases e with
  | number x a => simp [checks, ownChecks, children]
  | negate e a => simp [checks, ownChecks, children]
  | binary op l r a => simp [checks, ownChecks, children]
  | call name b es a =>
    simp only [checks, ownChecks, children, List.mem_cons, List.mem_append, mem_checksOfAll_iff,
      List.not_mem_nil, or_false]
    exact or_assoc.symm.trans or_right_comm

/-- What holds of an expression as soon as it holds of its children holds of every expression. -/
theorem induction_children {P : Expr α → Prop} (step : ∀ e, (∀ c ∈ e.children, P c) → P e)
    (e : Expr α) : P e := by
  induction e using Expr.induction with
  | number x a => exact step _ (by simp [children])
  | negate e a ih => exact step _ (by simpa [children] using ih)
  | binary op l r a ihl ihr => exact step _ (by simpa [children] using ⟨ihl, ihr⟩)
  | call name b es a ih => exact step _ ih

/-- The checks of an expression are those of its nodes. -/
theorem mem_checks_iff {c : Check α} {e : Expr α} :
    c ∈ e.checks ↔ ∃ n, e.Node n ∧ c ∈ n.ownChecks := by
  constructor
  · intro mem
    induction e using induction_children with
    | step e ih =>
      rcases mem_checks_iff_or.1 mem with own | ⟨d, child, below⟩
      · exact ⟨e, .root, own⟩
      · obtain ⟨n, node, own⟩ := ih d child below
        exact ⟨n, .of_child child node, own⟩
  · rintro ⟨n, node, own⟩
    have here : c ∈ n.checks := mem_checks_iff_or.2 (.inl own)
    clear own
    induction node with
    | root => exact here
    | child _ child ih => exact ih (mem_checks_iff_or.2 (.inr ⟨_, child, here⟩))

/-! ## Faulty calls -/

/-- A call has the name of no function, or of one that takes another number of arguments. -/
def IsFaulty : Expr α → Prop
  | call name _ args _ =>
    (∀ f : Builtin, f.name ≠ name) ∨ ∃ f : Builtin, f.name = name ∧ args.length ≠ f.arity.count
  | _ => False

/-- At a faulty call one of its checks fails. -/
theorem isFaulty_iff {e : Expr α} : e.IsFaulty ↔ ∃ c ∈ e.ownChecks, ∃ err, c.error? = some err := by
  cases e with
  | number x a => simp [IsFaulty, ownChecks]
  | negate e a => simp [IsFaulty, ownChecks]
  | binary op l r a => simp [IsFaulty, ownChecks]
  | call name b es a =>
    cases named : Builtin.ofName? name with
    | none =>
      have unknown : ∀ f : Builtin, f.name ≠ name := by
        intro f spelled
        rw [Builtin.ofName?_eq_some_iff.2 spelled] at named
        cases named
      simp [IsFaulty, ownChecks, Check.error?, named, unknown]
    | some f =>
      obtain rfl := Builtin.ofName?_eq_some_iff.1 named
      have only (g : Builtin) : g.name = f.name ↔ g = f := by
        rw [← Builtin.ofName?_eq_some_iff, named, Option.some.injEq, eq_comm]
      simp [IsFaulty, ownChecks, Check.error?, only]

/-- Some check of an expression fails where some call in it is faulty. -/
theorem exists_findSome?_checks_iff {e : Expr α} :
    (∃ err, e.checks.findSome? Check.error? = some err) ↔ ∃ n, e.Node n ∧ n.IsFaulty := by
  rw [← Option.isSome_iff_exists, List.findSome?_isSome_iff]
  simp only [mem_checks_iff, isFaulty_iff, Option.isSome_iff_exists]
  constructor
  · rintro ⟨c, ⟨n, node, own⟩, fails⟩
    exact ⟨n, node, c, own, fails⟩
  · rintro ⟨n, node, c, own, fails⟩
    exact ⟨c, ⟨n, node, own⟩, fails⟩

/-! ## The first check that fails -/

/-- Arguments lack values for the first check that fails, if each of them does. -/
theorem failure?_values {es : List (Expr α)}
    (h : ∀ e ∈ es, failure? e.value = e.checks.findSome? Check.error?) :
    failure? (values es) = (checksOfAll es).findSome? Check.error? := by
  induction es with
  | nil => rfl
  | cons e es ih =>
    obtain ⟨here, later⟩ := List.forall_mem_cons.1 h
    rw [values, checksOfAll, List.findSome?_append, ← here, ← ih later]
    cases e.value with
    | error err => rfl
    | ok x => cases values es <;> rfl

/-- Behind arguments with values, a function lacks a value only for their number. -/
theorem failure?_call {name : String} {b a : α} {es : List (Expr α)} {f : Builtin} {xs : List Float}
    (named : Builtin.ofName? name = some f) (evaluated : values es = .ok xs) :
    failure? (call name b es a).value = (Check.count name a es.length).error? := by
  rw [value, named]
  dsimp only
  rw [evaluated, ok_bind, Check.error?, named, ← length_of_values_eq_ok evaluated]
  dsimp only
  cases counted : Arguments.ofList? f.arity xs with
  | none =>
    have miscounted : xs.length ≠ f.arity.count := by
      rw [Ne, ← Arguments.isSome_ofList?, counted]
      decide
    rw [if_neg miscounted, Builtin.ofName?_eq_some_iff.1 named]
    rfl
  | some given =>
    have fits : xs.length = f.arity.count := by
      rw [← Arguments.isSome_ofList?, counted]
      rfl
    obtain ⟨x, applied⟩ := Builtin.exists_apply counted
    dsimp only
    rw [if_pos fits, applied]
    rfl

/-- An expression lacks a value for the first check that fails. -/
theorem failure?_value (e : Expr α) : failure? e.value = e.checks.findSome? Check.error? := by
  induction e using Expr.induction with
  | number x a => rfl
  | negate e a ih =>
    rw [checks, ← ih, value]
    cases e.value <;> rfl
  | binary op l r a ihl ihr =>
    rw [checks, List.findSome?_append, ← ihl, ← ihr, value]
    cases l.value with
    | error err => rfl
    | ok x => cases r.value <;> rfl
  | call name b es a ih =>
    have arguments := failure?_values ih
    rw [checks, List.findSome?_cons, List.findSome?_append, ← arguments, List.findSome?_singleton]
    cases named : Builtin.ofName? name with
    | none =>
      rw [value, Check.error?, named]
      rfl
    | some f =>
      have known : (Check.name name b).error? = none := by rw [Check.error?, named]
      rw [known]
      cases evaluated : values es with
      | error err =>
        rw [value, named]
        dsimp only
        rw [evaluated]
        rfl
      | ok xs => exact failure?_call named evaluated

/-! ## Numbers -/

mutual

/-- The same expression with a one for each of its numbers. -/
def shape : Expr α → Expr α
  | number _ a => number Number.one a
  | negate e a => negate e.shape a
  | binary op l r a => binary op l.shape r.shape a
  | call name b es a => call name b (shapes es) a

/-- `shape` of each of a list of expressions. -/
def shapes : List (Expr α) → List (Expr α)
  | [] => []
  | e :: es => e.shape :: shapes es

end

theorem length_shapes (es : List (Expr α)) : (shapes es).length = es.length := by
  induction es with
  | nil => rfl
  | cons e es ih => rw [shapes, List.length_cons, List.length_cons, ih]

theorem checksOfAll_shapes {es : List (Expr α)} (h : ∀ e ∈ es, e.shape.checks = e.checks) :
    checksOfAll (shapes es) = checksOfAll es := by
  induction es with
  | nil => rfl
  | cons e es ih =>
    obtain ⟨here, later⟩ := List.forall_mem_cons.1 h
    rw [shapes, checksOfAll, checksOfAll, here, ih later]

/-- The checks do not look at numbers. -/
theorem checks_shape (e : Expr α) : e.shape.checks = e.checks := by
  induction e using Expr.induction with
  | number x a => rfl
  | negate e a ih => rw [shape, checks, checks, ih]
  | binary op l r a ihl ihr => rw [shape, checks, checks, ihl, ihr]
  | call name b es a ih => rw [shape, checks, checks, checksOfAll_shapes ih, length_shapes]

/-- An expression lacks a value if and only if some call in it has the name of no function, or too
few or too many arguments for its function. The error is that of the first check that fails. It is
the same for an expression that differs only in its numbers, and never the lack of an argument that
a function uses. -/
theorem value_first_fault (e : Expr α) :
    ((∃ err, e.value = .error err) ↔ ∃ n, e.Node n ∧ n.IsFaulty) ∧
    (∀ err, e.value = .error err ↔ e.checks.findSome? Check.error? = some err) ∧
    (∀ d : Expr α, d.shape = e.shape → failure? d.value = failure? e.value) ∧
    ∀ a, e.value ≠ .error (.missingArgument a) := by
  have first (err : EvaluationError α) :
      e.value = .error err ↔ e.checks.findSome? Check.error? = some err := by
    rw [← failure?_value, failure?_eq_some_iff]
  refine ⟨?_, first, fun d same => ?_, fun a missing => ?_⟩
  · simp only [first]
    exact exists_findSome?_checks_iff
  · rw [failure?_value, failure?_value, ← checks_shape d, same, checks_shape]
  · obtain ⟨c, -, fails⟩ := List.exists_of_findSome?_eq_some ((first _).1 missing)
    exact c.error?_ne_missingArgument a fails

/-- In `pow(abs(x, x), sin())` the arguments of `abs` are counted before the name `sin` is looked up,
whatever `x` is. -/
theorem value_first_fault_pow :
    let tree (x : Float) : Expr Nat :=
      .call "pow" 0 [.call "abs" 1 [.number x 2, .number x 3] 4, .call "sin" 5 [] 6] 7
    (tree Number.one).value = .error (.argumentCount 4 "abs" .one 2) ∧
    failure? (tree Number.notANumber).value = failure? (tree Number.one).value := by
  intro tree
  obtain ⟨-, first, numbers, -⟩ := (tree Number.one).value_first_fault
  exact ⟨(first _).2 rfl, numbers _ rfl⟩

end Expr

end Calculator
