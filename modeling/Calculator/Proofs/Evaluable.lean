import Calculator.Proofs.Evaluation
import Calculator.Proofs.Pattern
import Calculator.Proofs.Printing

/-!
# What is parsed can be worked out

A tree that was parsed calls only functions, each with at least one argument, and a tree that was
parsed from a line holds only numbers without a minus sign. So working a line out can fail for its
tokens, for its grammar, and then for the number of arguments of a call, but for nothing else:
`evaluable_of_parse`.
-/

namespace Calculator

open Number

/-! ## Numbers in a line -/

/-- What a numeral is worth has no minus sign. -/
theorem Number.isNegative_ofNumeral (cs : List Char) :
    isNegative (ofNumeral cs) = false ∧ (ofNumeral cs).isNaN = false :=
  ⟨isNegative_ofPattern (nearestPattern_le _ _), isNaN_ofPattern (nearestPattern_le _ _)⟩

theorem Constant.isNegative_value (k : Constant) :
    isNegative k.value = false ∧ k.value.isNaN = false := by
  cases k <;> decide

/-- The minus sign of a number is never found together with its digits. -/
theorem Leads.isNumeral {c : Char} {cs text : List Char} (h : Leads c cs text)
    (number : IsNumber (String.ofList text)) : isNumeral text := by
  obtain ⟨noMinus, -, noFunction⟩ := number.not_opening
  obtain ⟨d, ds, spelled, first⟩ := number.exists_cons
  rw [String.toList_ofList] at spelled
  cases h with
  | numeral _ form => exact form
  | @name f _ _ _ =>
    rw [String.ofList_toList, Builtin.ofName?_name] at noFunction
    cases noFunction
  | mark digit _ _ _ =>
    obtain ⟨rfl, -⟩ := List.cons.inj spelled
    rcases first with rfl | first
    · exact absurd rfl noMinus
    · simp [isNumeralMark, first] at digit
  | word digit _ _ _ start =>
    obtain ⟨rfl, -⟩ := List.cons.inj spelled
    rcases first with rfl | first
    · cases start
    · simp [isNumeralMark, first] at digit

/-- A number among the tokens of a line has no minus sign. -/
theorem Scans.isNegative_numberValue {place : Nat} {cs : List Char} {ts : List Token} {t : Token}
    (h : Scans place cs ts) (ht : t ∈ ts) (number : IsNumber t.lexeme) :
    isNegative (numberValue t.lexeme) = false ∧ (numberValue t.lexeme).isNaN = false := by
  obtain ⟨as, c, ds, bs, -, -, leads, -, -⟩ := h.exists_leads_of_mem ht
  have numeral : isNumeral t.lexeme.toList := leads.isNumeral (by rwa [String.ofList_toList])
  have worth : numberValue t.lexeme = ofNumeral t.lexeme.toList :=
    (ofText?_eq_some_iff.1 (ofText?_of_isNumeral numeral)).2
  rw [worth]
  exact isNegative_ofNumeral _

/-! ## The root of a phrase -/

/-- A number at the root of an expression is what one of the tokens is worth. A call at the root is
that of a function with at least one argument. -/
def Expr.RootedIn (ts : List Token) : Located → Prop
  | number x _ => ∃ t ∈ ts, (∃ k, Constant.ofName? t.lexeme = some k ∧ x = k.value) ∨
      IsNumber t.lexeme ∧ x = numberValue t.lexeme
  | negate _ _ | binary _ _ _ _ => True
  | call name _ args _ => (∃ f, Builtin.ofName? name = some f) ∧ args ≠ []

/-- What holds at the root of a phrase; of arguments, that there are some. -/
def Phrase.RootedIn : (p : Phrase) → List Token → p.Tree Span → Prop
  | expression, ts, e | term, ts, e | factor, ts, e | primary, ts, e => e.RootedIn ts
  | arguments, _, es => es ≠ []

/-- Brackets leave no node. -/
theorem Expr.RootedIn.group {ts us : List Token} {e : Located} (h : e.RootedIn ts) (s : Span)
    (sub : ts ⊆ us) : (e.withNote s).RootedIn us := by
  cases e with
  | number x a =>
    obtain ⟨t, ht, worth⟩ := h
    exact ⟨t, sub ht, worth⟩
  | negate => trivial
  | binary => trivial
  | call => exact h

theorem Derives.rootedIn {p : Phrase} {ts : List Token} {e : p.Tree Span} {n : Nat}
    (h : Derives .places 1 p ts e n) : p.RootedIn ts e := by
  induction h with
  | @number t number => exact ⟨t, List.mem_singleton_self t, .inr ⟨number, rfl⟩⟩
  | @constant t k named => exact ⟨t, List.mem_singleton_self t, .inl ⟨k, named, rfl⟩⟩
  | negate _ _ _ => trivial
  | group _ _ _ ih => exact Expr.RootedIn.group ih _ (by simp)
  | call named _ _ _ ih => exact ⟨⟨_, named⟩, ih⟩
  | argument _ _ => exact List.cons_ne_nil _ _
  | comma _ _ _ _ _ => exact List.append_ne_nil_of_right_ne_nil _ (List.cons_ne_nil _ _)
  | base _ ih => exact ih
  | power _ _ _ _ _ => trivial
  | factor _ ih => exact ih
  | product _ _ _ _ _ => trivial
  | term _ ih => exact ih
  | sum _ _ _ _ _ => trivial

/-! ## Trees -/

/-- Every node of what is parsed stands for some of the tokens. -/
theorem Located.rootedIn_of_parse {ts : List Token} {t n : Located} (h : parse ts = .ok t)
    (hn : t.Node n) : n.RootedIn ts := by
  obtain ⟨levels, -, derived⟩ := parseWithin_eq_ok_iff.1 h
  obtain ⟨before, us, behind, rfl, k, -, own⟩ := derived.exists_of_node hn
  cases n with
  | number x a =>
    obtain ⟨t, ht, worth⟩ := own.rootedIn
    exact ⟨t, by simp [ht], worth⟩
  | negate => trivial
  | binary => trivial
  | call => exact own.rootedIn

/-- A tree that was parsed calls only functions, with arguments, and never lacks a value for an
unknown one. The numbers that were parsed from a line have no minus sign. Hence a line has a value
unless it falls into no tokens, or these are no expression, or one of its calls has some arguments
but too few or too many. -/
theorem evaluable_of_parse :
    (∀ ts t, Located.parse ts = .ok t →
      (∀ name b es a, t.Node (.call name b es a) →
        (∃ f, Builtin.ofName? name = some f) ∧ es ≠ []) ∧
      ∀ b name, t.value ≠ .error (.unknownFunction b name)) ∧
    (∀ line t, parseLine line = .ok t → ∀ x a, t.Node (.number x a) →
      isNegative x = false ∧ x.isNaN = false) ∧
    ∀ line err, evalLine line = .error err →
      (∃ e, err = .lexical e) ∨ (∃ e, err = .grammatical e) ∨
      ∃ t name b es a f, parseLine line = .ok t ∧ t.Node (.call name b es a) ∧
        Builtin.ofName? name = some f ∧ 1 ≤ es.length ∧ es.length ≠ f.arity.count ∧
        err = .evaluation (.argumentCount a name f.arity es.length) := by
  refine ⟨fun ts t parsed => ⟨fun name b es a hn => Located.rootedIn_of_parse parsed hn, ?_⟩,
    fun line t parsed x a hn => ?_, fun line err refused => ?_⟩
  · intro b name unknown
    have known : t.Known := by
      intro n hn g s called
      cases n with
      | call => cases called; exact (Located.rootedIn_of_parse parsed hn).1
      | _ => cases called
    obtain ⟨n, -, miscalls⟩ := Expr.exists_miscalls_of_value_eq_error known unknown
    cases miscalls
  · obtain ⟨ts, scans, tree⟩ := parseLine_eq_ok_iff.1 parsed
    obtain ⟨u, hu, ⟨k, -, rfl⟩ | ⟨number, rfl⟩⟩ := Located.rootedIn_of_parse tree hn
    · exact k.isNegative_value
    · exact scans.isNegative_numberValue hu number
  · rcases evalLine_eq_error_iff.1 refused with unparsed | ⟨t, parsed, e, valueless, rfl⟩
    · rcases parseLine_eq_error_iff.1 unparsed with ⟨e, -, rfl⟩ | ⟨ts, -, e, -, rfl⟩
      · exact .inl ⟨e, rfl⟩
      · exact .inr (.inl ⟨e, rfl⟩)
    · obtain ⟨n, hn, miscalls⟩ :=
        Expr.exists_miscalls_of_value_eq_error (known_of_parseLine parsed) valueless
      obtain ⟨ts, -, tree⟩ := parseLine_eq_ok_iff.1 parsed
      cases miscalls with
      | @argumentCount name b es a f named miscounted =>
        have some : es ≠ [] := (Located.rootedIn_of_parse tree hn).2
        exact .inr (.inr ⟨t, name, b, es, a, f, parsed, hn, named,
          List.length_pos_iff.2 some, miscounted, rfl⟩)

/-- The function `abs` is called with an argument too many. -/
theorem evaluable_of_parse_abs :
    ∃ t name b es a f, parseLine "abs(pi,tau)" = .ok t ∧ t.Node (.call name b es a) ∧
      Builtin.ofName? name = some f ∧ 1 ≤ es.length ∧ es.length ≠ f.arity.count ∧
      LineError.evaluation (.argumentCount ⟨0, 11⟩ "abs" .one 2) =
        .evaluation (.argumentCount a name f.arity es.length) := by
  have parsed : parseLine "abs(pi,tau)" = .ok (.call "abs" ⟨0, 3⟩
      [.number Constant.pi.value ⟨4, 6⟩, .number Constant.tau.value ⟨7, 10⟩] ⟨0, 11⟩) := by
    refine parseLine_eq_ok_iff.2 ⟨[⟨"abs", ⟨0, 3⟩⟩, ⟨"(", ⟨3, 4⟩⟩, ⟨"pi", ⟨4, 6⟩⟩, ⟨",", ⟨6, 7⟩⟩,
      ⟨"tau", ⟨7, 10⟩⟩, ⟨")", ⟨10, 11⟩⟩], tokensFrom_eq_ok_iff.1 (by cbv), ?_⟩
    have pi : Derives .places 1 .expression [⟨"pi", ⟨4, 6⟩⟩] (.number Constant.pi.value ⟨4, 6⟩) 1 :=
      .term (.factor (.base (.constant (by decide))))
    have tau : Derives .places 1 .expression [⟨"tau", ⟨7, 10⟩⟩]
        (.number Constant.tau.value ⟨7, 10⟩) 1 := .term (.factor (.base (.constant (by decide))))
    exact Located.parseWithin_of_derives (.term (.factor (.base
      (.call (Builtin.ofName?_name .abs) rfl (.comma (.argument pi) rfl tau) rfl)))) (by decide)
  have refused : evalLine "abs(pi,tau)" =
      .error (.evaluation (.argumentCount ⟨0, 11⟩ "abs" .one 2)) := by
    unfold evalLine
    rw [parsed]
    rfl
  rcases evaluable_of_parse.2.2 _ _ refused with ⟨e, h⟩ | ⟨e, h⟩ | found
  · cases h
  · cases h
  · exact found

end Calculator
