import Calculator.Proofs.Subexpression

/-!
# Expressions without a value

A function that is given as many arguments as it takes has a value, so an expression in which only
functions are called lacks a value for one reason alone: one of its calls has too few or too many
arguments (`Expr.exists_miscalls_of_value_eq_error`).
-/

namespace Calculator

/-! ## Steps in a row -/

section Steps

variable {ε ε' α β : Type} {x : Except ε α} {f : α → Except ε β}

/-- Of two steps in a row, one fails. -/
theorem bind_eq_error_iff {err : ε} :
    (x >>= f) = .error err ↔ x = .error err ∨ ∃ a, x = .ok a ∧ f a = .error err := by
  cases x <;> simp [bind, Except.bind]

/-- Of two steps in a row, both succeed. -/
theorem bind_eq_ok_iff {b : β} : (x >>= f) = .ok b ↔ ∃ a, x = .ok a ∧ f a = .ok b := by
  cases x <;> simp [bind, Except.bind]

theorem mapError_eq_error_iff {g : ε → ε'} {err : ε'} :
    x.mapError g = .error err ↔ ∃ err', x = .error err' ∧ g err' = err := by
  cases x <;> simp [Except.mapError]

theorem mapError_eq_ok_iff {g : ε → ε'} {a : α} : x.mapError g = .ok a ↔ x = .ok a := by
  cases x <;> simp [Except.mapError]

end Steps

/-! ## Functions -/

/-- Two arguments have a second one. -/
theorem Arguments.exists_second {xs : List Float} {given : Arguments}
    (h : ofList? .two xs = some given) : ∃ b, given.second? = some b := by
  match xs, h with
  | [_, b], rfl => exact ⟨b, rfl⟩

/-- A function with as many arguments as it takes has a value. -/
theorem Builtin.exists_apply {f : Builtin} {xs : List Float} {given : Arguments}
    (h : Arguments.ofList? f.arity xs = some given) : ∃ x, f.apply given = some x := by
  cases f with
  | abs | round | floor | ceil => exact ⟨_, rfl⟩
  | mod | pow | root =>
    obtain ⟨b, second⟩ := Arguments.exists_second h
    simp [apply, second]

/-! ## Expressions -/

namespace Expr

variable {α : Type} {e : Expr α} {es : List (Expr α)} {err : EvaluationError α}

/-- Where some arguments have no values, one of them has none. -/
theorem exists_of_values_eq_error (h : values es = .error err) :
    ∃ e ∈ es, e.value = .error err := by
  induction es with
  | nil => cases h
  | cons e es ih =>
    rw [values, bind_eq_error_iff] at h
    rcases h with first | ⟨x, -, h⟩
    · exact ⟨e, List.mem_cons_self, first⟩
    rw [bind_eq_error_iff] at h
    rcases h with later | ⟨xs, -, h⟩
    · obtain ⟨d, hd, refused⟩ := ih later
      exact ⟨d, List.mem_cons_of_mem e hd, refused⟩
    · cases h

/-- There are as many values as arguments. -/
theorem length_of_values_eq_ok {xs : List Float} (h : values es = .ok xs) :
    xs.length = es.length := by
  induction es generalizing xs with
  | nil =>
    cases h
    rfl
  | cons e es ih =>
    rw [values, bind_eq_ok_iff] at h
    obtain ⟨x, -, h⟩ := h
    rw [bind_eq_ok_iff] at h
    obtain ⟨ys, later, h⟩ := h
    cases h
    rw [List.length_cons, List.length_cons, ih later]

/-- Every name that is called in a tree is that of a function. -/
def Known (e : Expr α) : Prop :=
  ∀ n, e.Node n → ∀ name s, n.called? = some (name, s) → ∃ f, Builtin.ofName? name = some f

theorem Known.of_child {c : Expr α} (h : e.Known) (hc : c ∈ e.children) : c.Known :=
  fun n hn => h n (.of_child hc hn)

/-- A call has too few or too many arguments, and the error says so. -/
inductive Miscalls : Expr α → EvaluationError α → Prop
  | argumentCount {name b es a f} : Builtin.ofName? name = some f → es.length ≠ f.arity.count →
      Miscalls (.call name b es a) (.argumentCount a name f.arity es.length)

/-- Where an expression has no value, one of its calls has too few or too many arguments. -/
theorem exists_miscalls_of_value_eq_error (known : e.Known) (h : e.value = .error err) :
    ∃ n, e.Node n ∧ n.Miscalls err := by
  -- A call that is found below a child is found in the whole.
  have below {e c : Expr α} (hc : c ∈ e.children) (found : ∃ n, c.Node n ∧ n.Miscalls err) :
      ∃ n, e.Node n ∧ n.Miscalls err := by
    obtain ⟨n, node, miscalls⟩ := found
    exact ⟨n, .of_child hc node, miscalls⟩
  induction e using Expr.induction with
  | number x a => cases h
  | negate e a ih =>
    have operand : e ∈ (negate e a).children := List.mem_singleton_self e
    rw [value, bind_eq_error_iff] at h
    rcases h with inner | ⟨x, -, h⟩
    · exact below operand (ih (known.of_child operand) inner)
    · cases h
  | binary op l r a ihl ihr =>
    have left : l ∈ (binary op l r a).children := List.mem_cons_self
    have right : r ∈ (binary op l r a).children := by simp [children]
    rw [value, bind_eq_error_iff] at h
    rcases h with inner | ⟨x, -, h⟩
    · exact below left (ihl (known.of_child left) inner)
    rw [bind_eq_error_iff] at h
    rcases h with inner | ⟨y, -, h⟩
    · exact below right (ihr (known.of_child right) inner)
    · cases h
  | call name b es a ih =>
    obtain ⟨f, named⟩ := known _ .root name b rfl
    rw [value, named] at h
    dsimp only at h
    rw [bind_eq_error_iff] at h
    rcases h with inner | ⟨xs, evaluated, h⟩
    · obtain ⟨e, he, refused⟩ := exists_of_values_eq_error inner
      exact below he (ih e he (known.of_child he) refused)
    cases counted : Arguments.ofList? f.arity xs with
    | none =>
      rw [counted] at h
      cases h
      have miscounted : es.length ≠ f.arity.count := by
        rw [← length_of_values_eq_ok evaluated, Ne, ← Arguments.isSome_ofList?, counted]
        decide
      rw [length_of_values_eq_ok evaluated, Builtin.ofName?_eq_some_iff.1 named]
      exact ⟨_, .root, .argumentCount named miscounted⟩
    | some given =>
      obtain ⟨x, applied⟩ := Builtin.exists_apply counted
      rw [counted] at h
      dsimp only at h
      rw [applied] at h
      cases h

end Expr

/-! ## Lines -/

/-- What a line is parsed as calls only functions. -/
theorem known_of_parseLine {line : String} {t : Located} (h : parseLine line = .ok t) :
    t.Known := by
  intro n hn name s called
  obtain ⟨before, us, behind, -, levels, -, own⟩ := exists_derives_of_node h hn
  exact (own.exists_called_function called).1

/-- A line is not parsed because it does not fall into tokens or because they are no expression. -/
theorem parseLine_eq_error_iff {line : String} {err : LineError} :
    parseLine line = .error err ↔
      (∃ e, tokenize line = .error e ∧ .lexical e = err) ∨
      ∃ ts, tokenize line = .ok ts ∧ ∃ e, Located.parse ts = .error e ∧ .grammatical e = err := by
  simp only [parseLine, tokensOfLine, bind_eq_error_iff, mapError_eq_error_iff, mapError_eq_ok_iff]

/-- A line has no value because it is not parsed or because the expression has none. -/
theorem evalLine_eq_error_iff {line : String} {err : LineError} :
    evalLine line = .error err ↔ parseLine line = .error err ∨
      ∃ t, parseLine line = .ok t ∧ ∃ e, t.value = .error e ∧ .evaluation e = err := by
  simp only [evalLine, bind_eq_error_iff, mapError_eq_error_iff]

end Calculator
