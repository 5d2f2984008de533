import Calculator.Expr
import Calculator.Lexicon
import Calculator.Token

/-!
# The grammar

    Expression = Term, { ( "+" | "-" ), Term }
    Term       = Factor, { ( "*" | "/" | "mod" ), Factor }
    Factor     = Primary, [ "^", Factor ]
    Primary    = "-", Primary
               | FunctionName, "(", Arguments, ")"
               | "(", Expression, ")"
               | ConstantName
               | Number
    Arguments  = Expression, { ",", Expression }

`Derives` says which tokens are a phrase of the grammar, which tree the phrase denotes and how many
levels deep it goes. It knows nothing of readers. What counts as a token is left open: `Marking`
says how a token is spelled and which notes the nodes of the tree get. So one relation speaks of bare
lexemes (`Marking.bare`) and of tokens with their places (`Marking.places`), and `Derives.map` and
`Derives.lift` go from one to the other.
-/

namespace Calculator

/-! ## Terminals -/

/-- Whether a lexeme is a number: it has the form of one and consists of ASCII characters. -/
def IsNumber (lexeme : String) : Prop :=
  Number.hasNumberForm lexeme.toList ∧ ∀ c ∈ lexeme.toList, c.toNat < 128

-- The characters of the lexeme are tried one by one, and not all characters there are.
instance (lexeme : String) : Decidable (IsNumber lexeme) :=
  decidable_of_iff (Number.hasNumberForm lexeme.toList ∧
      lexeme.toList.all fun c => decide (c.toNat < 128)) <| by
    simp only [IsNumber, List.all_eq_true, decide_eq_true_eq]

/-- What a number is worth. -/
def numberValue (lexeme : String) : Float :=
  (Number.ofText? lexeme.toList).getD Number.notANumber

/-- The operators between terms, with their lexemes. -/
def sumOperators : List (String × BinaryOp) := [("+", .add), ("-", .sub)]

/-- The operators between factors, with their lexemes. -/
def productOperators : List (String × BinaryOp) := [("*", .mul), ("/", .div), ("mod", .mod)]

/-! ## Phrases -/

/-- The phrases of the grammar. -/
inductive Phrase where
  | expression | term | factor | primary | arguments

/-- What a phrase denotes: the arguments of a call are a list of trees, all else is one tree. -/
abbrev Phrase.Tree (α : Type) : Phrase → Type
  | expression | term | factor | primary => Expr α
  | arguments => List (Expr α)

/-- What the grammar has to know of tokens of type `τ` and notes of type `α`. -/
structure Marking (τ α : Type) where
  /-- How a token is spelled. -/
  lexeme : τ → String
  /-- The note of what is a token alone. -/
  note : τ → α
  /-- The note of what reaches from one noted thing to another. -/
  join : α → α → α

namespace Marking

/-- Lexemes alone, and trees without notes. -/
def bare : Marking String Unit := ⟨id, fun _ => (), fun _ _ => ()⟩

/-- Tokens at their places, and trees with spans. -/
def places : Marking Token Span := ⟨Token.lexeme, Token.span, Span.join⟩

end Marking

variable {τ σ α β : Type}

/-- The tokens `ts` are a phrase that denotes a tree and goes some number of levels deep. A number or
a constant goes `leaf` levels deep; a minus sign, a group, a call and the right side of `^` add one
level each. -/
inductive Derives (M : Marking τ α) (leaf : Nat) :
    (p : Phrase) → List τ → p.Tree α → Nat → Prop
  | number {t} : IsNumber (M.lexeme t) →
      Derives M leaf .primary [t] (.number (numberValue (M.lexeme t)) (M.note t)) leaf
  | constant {t k} : Constant.ofName? (M.lexeme t) = some k →
      Derives M leaf .primary [t] (.number k.value (M.note t)) leaf
  | negate {t ts e n} : M.lexeme t = "-" → Derives M leaf .primary ts e n →
      Derives M leaf .primary (t :: ts) (.negate e (M.join (M.note t) e.note)) (1 + n)
  | group {o ts c e n} : M.lexeme o = "(" → Derives M leaf .expression ts e n →
      M.lexeme c = ")" →
      Derives M leaf .primary (o :: (ts ++ [c])) (e.withNote (M.join (M.note o) (M.note c))) (1 + n)
  | call {f g o ts c es n} : Builtin.ofName? (M.lexeme f) = some g → M.lexeme o = "(" →
      Derives M leaf .arguments ts es n → M.lexeme c = ")" →
      Derives M leaf .primary (f :: o :: (ts ++ [c]))
        (.call (M.lexeme f) (M.note f) es (M.join (M.note f) (M.note c))) (1 + n)
  | argument {ts e n} : Derives M leaf .expression ts e n → Derives M leaf .arguments ts [e] n
  | comma {ts k us es e n m} : Derives M leaf .arguments ts es n → M.lexeme k = "," →
      Derives M leaf .expression us e m →
      Derives M leaf .arguments (ts ++ k :: us) (es ++ [e]) (max n m)
  | base {ts e n} : Derives M leaf .primary ts e n → Derives M leaf .factor ts e n
  | power {ts k us e f n m} : Derives M leaf .primary ts e n → M.lexeme k = "^" →
      Derives M leaf .factor us f m →
      Derives M leaf .factor (ts ++ k :: us) (.binary .pow e f (M.join e.note f.note))
        (max n (1 + m))
  | factor {ts e n} : Derives M leaf .factor ts e n → Derives M leaf .term ts e n
  | product {ts k us op e f n m} : Derives M leaf .term ts e n →
      (M.lexeme k, op) ∈ productOperators → Derives M leaf .factor us f m →
      Derives M leaf .term (ts ++ k :: us) (.binary op e f (M.join e.note f.note)) (max n m)
  | term {ts e n} : Derives M leaf .term ts e n → Derives M leaf .expression ts e n
  | sum {ts k us op e f n m} : Derives M leaf .expression ts e n →
      (M.lexeme k, op) ∈ sumOperators → Derives M leaf .term us f m →
      Derives M leaf .expression (ts ++ k :: us) (.binary op e f (M.join e.note f.note)) (max n m)

/-! ## Other tokens, other notes -/

/-- What a phrase denotes, with all notes changed by `g`. -/
def Phrase.mapTree (g : α → β) : (p : Phrase) → p.Tree α → p.Tree β
  | expression | term | factor | primary => Expr.map g
  | arguments => List.map (Expr.map g)

/-- `f` and `g` carry one marking to another: they keep lexemes, notes of tokens and joins. -/
structure Marking.Carries (M : Marking τ α) (N : Marking σ β) (f : τ → σ) (g : α → β) : Prop where
  lexeme (t : τ) : N.lexeme (f t) = M.lexeme t
  note (t : τ) : N.note (f t) = g (M.note t)
  join (a b : α) : N.join (g a) (g b) = g (M.join a b)

namespace Marking

theorem carries_bare : places.Carries bare Token.lexeme fun _ => () :=
  ⟨fun _ => rfl, fun _ => rfl, fun _ _ => rfl⟩

theorem carries_shift (k : Nat) : places.Carries places (Token.shift k) (Span.shift k) :=
  ⟨fun _ => rfl, fun _ => rfl, fun a b => Span.join_shift k a b⟩

end Marking

namespace Derives

variable {M : Marking τ α} {N : Marking σ β} {f : τ → σ} {g : α → β} {leaf : Nat}

/-- A derivation stays one when its tokens and notes are carried to another marking. -/
theorem map (C : M.Carries N f g) {p : Phrase} {ts : List τ} {e : p.Tree α} {n : Nat}
    (h : Derives M leaf p ts e n) : Derives N leaf p (ts.map f) (p.mapTree g e) n := by
  induction h with
  | number h =>
    rw [← C.lexeme] at h ⊢
    simpa only [Phrase.mapTree, Expr.map, List.map_cons, List.map_nil, C.note] using number h
  | constant h =>
    rw [← C.lexeme] at h
    simpa only [Phrase.mapTree, Expr.map, List.map_cons, List.map_nil, C.note] using constant h
  | negate h _ ih =>
    have := Derives.negate ((C.lexeme _).trans h) ih
    simpa only [Phrase.mapTree, Expr.map, Expr.note_map, C.note, C.join, List.map_cons] using this
  | group ho _ hc ih =>
    have := Derives.group ((C.lexeme _).trans ho) ih ((C.lexeme _).trans hc)
    simpa only [Phrase.mapTree, Expr.map_withNote, C.note, C.join, List.map_cons, List.map_append,
      List.map_nil] using this
  | call hf ho _ hc ih =>
    have := Derives.call ((C.lexeme _).symm ▸ hf) ((C.lexeme _).trans ho) ih
      ((C.lexeme _).trans hc)
    simpa only [Phrase.mapTree, Expr.map, Expr.mapList_eq_map, C.note, C.join, C.lexeme,
      List.map_cons, List.map_append, List.map_nil] using this
  | argument _ ih => exact .argument ih
  | comma _ hk _ ihs ih =>
    have := Derives.comma ihs ((C.lexeme _).trans hk) ih
    simpa only [Phrase.mapTree, List.map_append, List.map_cons, List.map_nil] using this
  | base _ ih => exact .base ih
  | power _ hk _ ihe ihf =>
    have := Derives.power ihe ((C.lexeme _).trans hk) ihf
    simpa only [Phrase.mapTree, Expr.map, Expr.note_map, C.join, List.map_append, List.map_cons]
      using this
  | factor _ ih => exact .factor ih
  | product _ hk _ ihe ihf =>
    have := Derives.product ihe ((C.lexeme _).symm ▸ hk) ihf
    simpa only [Phrase.mapTree, Expr.map, Expr.note_map, C.join, List.map_append, List.map_cons]
      using this
  | term _ ih => exact .term ih
  | sum _ hk _ ihe ihf =>
    have := Derives.sum ihe ((C.lexeme _).symm ▸ hk) ihf
    simpa only [Phrase.mapTree, Expr.map, Expr.note_map, C.join, List.map_append, List.map_cons]
      using this

/-- A token with others on both sides is carried from one with others on both sides. -/
theorem exists_of_map_eq {ts : List τ} {us vs : List σ} {k : σ} (h : ts.map f = us ++ k :: vs) :
    ∃ before t behind, ts = before ++ t :: behind ∧ before.map f = us ∧ f t = k ∧
      behind.map f = vs := by
  obtain ⟨before, rest, rfl, front, back⟩ := List.map_eq_append_iff.1 h
  obtain ⟨t, behind, rfl, here, last⟩ := List.map_eq_cons_iff.1 back
  exact ⟨before, t, behind, rfl, front, here, last⟩

/-- What is derived from carried tokens is carried from a tree that the tokens themselves derive. -/
theorem lift (C : M.Carries N f g) {p : Phrase} {us : List σ} {d : p.Tree β} {n : Nat}
    (h : Derives N leaf p us d n) {ts : List τ} (hts : ts.map f = us) :
    ∃ e : p.Tree α, Derives M leaf p ts e n ∧ p.mapTree g e = d := by
  induction h generalizing ts with
  | number h =>
    obtain ⟨t, rfl, rfl⟩ := List.map_eq_singleton_iff.1 hts
    rw [C.lexeme] at h ⊢
    exact ⟨_, .number h, by simp only [Phrase.mapTree, Expr.map, C.note]⟩
  | constant h =>
    obtain ⟨t, rfl, rfl⟩ := List.map_eq_singleton_iff.1 hts
    rw [C.lexeme] at h
    exact ⟨_, .constant h, by simp only [Phrase.mapTree, Expr.map, C.note]⟩
  | negate h _ ih =>
    obtain ⟨t, ts, rfl, rfl, rest⟩ := List.map_eq_cons_iff.1 hts
    obtain ⟨e, he, rfl⟩ := ih rest
    rw [C.lexeme] at h
    exact ⟨_, .negate h he, by simp only [Phrase.mapTree, Expr.map, Expr.note_map, C.note, C.join]⟩
  | group ho _ hc ih =>
    obtain ⟨o, ts, rfl, rfl, rest⟩ := List.map_eq_cons_iff.1 hts
    obtain ⟨ts, cs, rfl, inner, close⟩ := List.map_eq_append_iff.1 rest
    obtain ⟨c, rfl, rfl⟩ := List.map_eq_singleton_iff.1 close
    obtain ⟨e, he, rfl⟩ := ih inner
    rw [C.lexeme] at ho hc
    exact ⟨_, .group ho he hc, by simp only [Phrase.mapTree, Expr.map_withNote, C.note, C.join]⟩
  | call hf ho _ hc ih =>
    obtain ⟨w, ts, rfl, rfl, rest⟩ := List.map_eq_cons_iff.1 hts
    obtain ⟨o, ts, rfl, rfl, behind⟩ := List.map_eq_cons_iff.1 rest
    obtain ⟨ts, cs, rfl, inner, close⟩ := List.map_eq_append_iff.1 behind
    obtain ⟨c, rfl, rfl⟩ := List.map_eq_singleton_iff.1 close
    obtain ⟨es, hes, rfl⟩ := ih inner
    rw [C.lexeme] at hf ho hc
    exact ⟨_, .call hf ho hes hc, by
      simp only [Phrase.mapTree, Expr.map, Expr.mapList_eq_map, C.note, C.join, C.lexeme]⟩
  | argument _ ih =>
    obtain ⟨e, he, rfl⟩ := ih hts
    exact ⟨[e], .argument he, rfl⟩
  | comma _ hk _ ihs ih =>
    obtain ⟨ts, k, us, rfl, before, rfl, last⟩ := exists_of_map_eq hts
    obtain ⟨es, hes, rfl⟩ := ihs before
    obtain ⟨e, he, rfl⟩ := ih last
    rw [C.lexeme] at hk
    exact ⟨_, .comma hes hk he, by
      simp only [Phrase.mapTree, List.map_append, List.map_cons, List.map_nil]⟩
  | base _ ih =>
    obtain ⟨e, he, rfl⟩ := ih hts
    exact ⟨e, .base he, rfl⟩
  | power _ hk _ ihe ihf =>
    obtain ⟨ts, k, us, rfl, before, rfl, last⟩ := exists_of_map_eq hts
    obtain ⟨e, he, rfl⟩ := ihe before
    obtain ⟨f, hf, rfl⟩ := ihf last
    rw [C.lexeme] at hk
    exact ⟨_, .power he hk hf, by simp only [Phrase.mapTree, Expr.map, Expr.note_map, C.join]⟩
  | factor _ ih =>
    obtain ⟨e, he, rfl⟩ := ih hts
    exact ⟨e, .factor he, rfl⟩
  | product _ hk _ ihe ihf =>
    obtain ⟨ts, k, us, rfl, before, rfl, last⟩ := exists_of_map_eq hts
    obtain ⟨e, he, rfl⟩ := ihe before
    obtain ⟨f, hf, rfl⟩ := ihf last
    rw [C.lexeme] at hk
    exact ⟨_, .product he hk hf, by simp only [Phrase.mapTree, Expr.map, Expr.note_map, C.join]⟩
  | term _ ih =>
    obtain ⟨e, he, rfl⟩ := ih hts
    exact ⟨e, .term he, rfl⟩
  | sum _ hk _ ihe ihf =>
    obtain ⟨ts, k, us, rfl, before, rfl, last⟩ := exists_of_map_eq hts
    obtain ⟨e, he, rfl⟩ := ihe before
    obtain ⟨f, hf, rfl⟩ := ihf last
    rw [C.lexeme] at hk
    exact ⟨_, .sum he hk hf, by simp only [Phrase.mapTree, Expr.map, Expr.note_map, C.join]⟩

end Derives

end Calculator
