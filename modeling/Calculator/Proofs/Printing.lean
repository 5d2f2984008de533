import Calculator.Expr.Text
import Calculator.Proofs.NumberText
import Calculator.Proofs.Parsing
import Calculator.Proofs.Scanning

/-!
# Reading what was printed

The text of an expression falls into the lexemes that the grammar derives the expression from, and
the brackets of the text add levels of their own. So the text is parsed as the expression, unless it
goes deeper than 64 levels.
-/

namespace Calculator

/-! ## Printed lexemes -/

/-- In front of anything but a digit or a point, the text `cs` falls into tokens with the lexemes
`ls`. -/
def Prints (cs : List Char) (ls : List String) : Prop :=
  ∀ place rest ts, (∀ c ∈ rest.head?, isNumeralMark c = false) →
    Scans (place + byteCount cs) rest ts →
      ∃ us, us.map Token.lexeme = ls ∧ Scans place (cs ++ rest) (us ++ ts)

/-- What may stand alone is no part of a numeral, no white space and no part of a word. -/
theorem not_numeralMark_of_isMark {c : Char} (h : isMark c) :
    isNumeralMark c = false ∧ isBlank c = false ∧ isWordStart c = false := by
  have all : ['+', '-', '*', '/', '^', '(', ')', ','].all fun d =>
      isNumeralMark d = false ∧ isBlank d = false ∧ isWordStart d = false := by decide
  simpa using List.all_eq_true.1 all c (List.contains_iff_mem.1 h)

/-- A function's name begins with a letter. -/
theorem Builtin.exists_name (f : Builtin) : ∃ a as, f.name.toList = a :: as ∧
    isNumeralMark a = false ∧ isBlank a = false ∧ isWordStart a := by
  cases f <;> exact ⟨_, _, rfl, by decide⟩

/-- No function's name begins with what no word begins with. -/
theorem functionAtHead?_of_isWordStart_eq_false {c : Char} (h : isWordStart c = false)
    (cs : List Char) : functionAtHead? (c :: cs) = none := by
  unfold functionAtHead?
  rw [List.find?_eq_none]
  intro f _ named
  obtain ⟨a, as, spelled, -, -, letter⟩ := f.exists_name
  rw [spelled] at named
  obtain ⟨rfl, -⟩ : a = c ∧ _ := by simpa [List.isPrefixOf] using named
  rw [h] at letter
  cases letter

/-- No function's name begins with an operator, a bracket or the comma. -/
theorem functionAtHead?_of_isMark {c : Char} (h : isMark c) (cs : List Char) :
    functionAtHead? (c :: cs) = none :=
  functionAtHead?_of_isWordStart_eq_false (not_numeralMark_of_isMark h).2.2 cs

/-- No function's name is the beginning of another's. -/
theorem Builtin.eq_of_prefix {f g : Builtin} (h : f.name.toList <+: g.name.toList) : f = g := by
  revert h
  cases f <;> cases g <;> decide

/-- A text that begins with the name of a function begins with no other's. -/
theorem functionAtHead?_name (f : Builtin) (cs : List Char) :
    functionAtHead? (f.name.toList ++ cs) = some f := by
  have named : f.name.toList.isPrefixOf (f.name.toList ++ cs) :=
    List.isPrefixOf_iff_prefix.2 (List.prefix_append _ _)
  unfold functionAtHead?
  cases found : Builtin.all.find? fun g => g.name.toList.isPrefixOf (f.name.toList ++ cs) with
  | none =>
    have listed : f ∈ Builtin.all := by cases f <;> decide
    exact absurd named (List.find?_eq_none.1 found f listed)
  | some g =>
    have named' := List.find?_some found
    rw [List.isPrefixOf_iff_prefix] at named named'
    rcases List.prefix_or_prefix_of_prefix named named' with shorter | longer
    · rw [Builtin.eq_of_prefix shorter]
    · rw [Builtin.eq_of_prefix longer]

namespace Prints

variable {as bs cs text : List Char} {ls ms : List String}

theorem nil : Prints [] [] := by
  intro place rest ts _ scans
  exact ⟨[], rfl, scans⟩

/-- One text behind another. -/
theorem append {b : Char} (ha : Prints as ls) (hb : Prints (b :: bs) ms)
    (apart : isNumeralMark b = false) : Prints (as ++ b :: bs) (ls ++ ms) := by
  intro place rest ts follows scans
  rw [byteCount_append, ← Nat.add_assoc] at scans
  obtain ⟨vs, lexemesBehind, scansBehind⟩ := hb _ rest ts follows scans
  have next : ∀ c ∈ (b :: bs ++ rest).head?, isNumeralMark c = false := by
    intro c hc
    cases hc
    exact apart
  obtain ⟨us, lexemes, scansAll⟩ := ha _ (b :: bs ++ rest) (vs ++ ts) next scansBehind
  refine ⟨us ++ vs, by rw [List.map_append, lexemes, lexemesBehind], ?_⟩
  rw [List.append_assoc, List.append_assoc]
  exact scansAll

/-- White space in front of a text. -/
theorem blank (h : Prints cs ls) : Prints (' ' :: cs) ls := by
  intro place rest ts follows scans
  rw [byteCount_cons, ← Nat.add_assoc] at scans
  obtain ⟨us, lexemes, scansAll⟩ := h _ rest ts follows scans
  exact ⟨us, lexemes, .blank (by decide) (by decide) scansAll⟩

/-- A token in front of a text, where it does not matter how the text begins. -/
theorem cons {c : Char} {as : List Char}
    (leads : ∀ rest, Leads c (as ++ rest) (c :: as)) (h : Prints cs ls) :
    Prints (c :: (as ++ cs)) (String.ofList (c :: as) :: ls) := by
  intro place rest ts follows scans
  rw [← List.cons_append, byteCount_append, ← Nat.add_assoc] at scans
  obtain ⟨us, lexemes, scansAll⟩ := h _ rest ts follows scans
  refine ⟨⟨String.ofList (c :: as), ⟨place, place + byteCount (c :: as)⟩⟩ :: us, ?_, ?_⟩
  · rw [List.map_cons, lexemes]
  · rw [← List.cons_append, List.append_assoc]
    exact .lexeme (leads _) rfl scansAll

/-- An operator, a bracket or a comma in front of a text. -/
theorem mark {c : Char} (h : Prints cs ls) (marks : isMark c) :
    Prints (c :: cs) (String.ofList [c] :: ls) := by
  obtain ⟨numeral, blank, -⟩ := not_numeralMark_of_isMark marks
  exact cons (fun rest => .mark numeral blank (functionAtHead?_of_isMark marks _) marks) h

/-- A text in brackets, with or without the opening one. -/
theorem closed (h : Prints cs ls) : Prints (cs ++ [')']) (ls ++ [")"]) := by
  have close : Prints [')'] [")"] := nil.mark (by decide)
  exact h.append close (by decide)

/-- The name of a function in front of a text. -/
theorem name (h : Prints cs ls) (f : Builtin) : Prints (f.name.toList ++ cs) (f.name :: ls) := by
  have found := functionAtHead?_name f
  have same : f.name = String.ofList f.name.toList := String.ofList_toList.symm
  obtain ⟨a, as, spelled, numeral, blank, -⟩ := f.exists_name
  rw [spelled] at found same
  rw [spelled, same]
  refine cons (fun rest => ?_) h
  rw [← spelled]
  exact .name numeral blank (found rest)

/-- An operator in front of a text. -/
theorem operator (h : Prints cs ls) (op : BinaryOp) :
    Prints (op.symbol.toList ++ cs) (op.symbol :: ls) := by
  -- As a token, the operator `mod` is the name of a function.
  cases op with
  | mod => exact h.name .mod
  | add => exact h.mark (by decide)
  | sub => exact h.mark (by decide)
  | mul => exact h.mark (by decide)
  | div => exact h.mark (by decide)
  | pow => exact h.mark (by decide)

/-- A numeral alone. -/
theorem numeral (h : Number.isNumeral cs) : Prints cs [String.ofList cs] := by
  have marks : ∀ c ∈ cs, isNumeralMark c := fun c hc => by
    simpa [isNumeralMark] using Number.isDigit_or_eq_point h hc
  intro place rest ts follows scans
  cases cs with
  | nil => cases h
  | cons c cs =>
    -- The run of digits and points ends with the numeral, as none follows.
    have run : (cs ++ rest).takeWhile isNumeralMark = cs := by
      have nothing : rest.takeWhile isNumeralMark = [] := by
        cases rest with
        | nil => rfl
        | cons d rest => simp [follows d rfl]
      rw [List.takeWhile_append_of_pos (fun d hd => marks d (List.mem_cons_of_mem c hd)), nothing,
        List.append_nil]
    have form : Number.isNumeral (c :: (cs ++ rest).takeWhile isNumeralMark) := by
      rw [run]
      exact h
    have leads := Leads.numeral (marks c List.mem_cons_self) form
    rw [run] at leads
    exact ⟨[_], rfl, .lexeme leads rfl scans⟩

end Prints

/-! ## Printed expressions -/

namespace Expr

variable {α : Type}

/-- The expressions whose text can be read: their numbers are finite and have no minus sign, and what
they call are functions, with at least one argument. -/
inductive Printable : Expr α → Prop
  | number {x a} : x.isFinite → Number.isNegative x = false → Printable (.number x a)
  | negate {e a} : Printable e → Printable (.negate e a)
  | binary {op l r a} : Printable l → Printable r → Printable (.binary op l r a)
  | call {name f b e es a} : Builtin.ofName? name = some f → (∀ d ∈ e :: es, Printable d) →
      Printable (.call name b (e :: es) a)

mutual

/-- The lexemes of the text of an expression. -/
def lexemes : Expr α → List String
  | number x _ => [Number.text x]
  | negate e _ => "(" :: "-" :: (e.lexemes ++ [")"])
  | binary op l r _ => "(" :: (l.lexemes ++ op.symbol :: (r.lexemes ++ [")"]))
  | call name _ args _ => name :: "(" :: (argumentLexemes args ++ [")"])

/-- The lexemes of the text of arguments. -/
def argumentLexemes : List (Expr α) → List String
  | [] => []
  | e :: es => e.lexemes ++ laterLexemes es

/-- The lexemes of the text of further arguments, with their commas. -/
def laterLexemes : List (Expr α) → List String
  | [] => []
  | e :: es => "," :: (e.lexemes ++ laterLexemes es)

end

mutual

/-- How many levels deep the text of an expression goes. -/
def textLevels : Expr α → Nat
  | number _ _ => 1
  | negate e _ => 2 + e.textLevels
  | binary op l r _ =>
    1 + max l.textLevels (if op = .pow then 1 + r.textLevels else r.textLevels)
  | call _ _ args _ => 1 + argumentLevels args

/-- How many levels deep the text of arguments goes. -/
def argumentLevels : List (Expr α) → Nat
  | [] => 0
  | e :: es => max e.textLevels (argumentLevels es)

end

namespace Printable

variable {e : Expr α}

/-- The text of arguments falls into their lexemes if this holds of each. -/
theorem prints_arguments {es : List (Expr α)}
    (h : ∀ d ∈ e :: es, Prints d.text.toList d.lexemes) :
    Prints (argumentText (e :: es)).toList (argumentLexemes (e :: es)) := by
  induction es generalizing e with
  | nil =>
    have one := h e List.mem_cons_self
    rw [argumentText, argumentLexemes, laterLexemes, List.append_nil]
    exact one
  | cons f es ih =>
    have later := ih fun d hd => h d (List.mem_cons_of_mem e hd)
    have comma : Prints (',' :: ' ' :: (argumentText (f :: es)).toList)
        ("," :: argumentLexemes (f :: es)) := later.blank.mark (by decide)
    have all := (h e List.mem_cons_self).append comma (by decide)
    have spelled : argumentText (e :: f :: es) = e.text ++ ", " ++ argumentText (f :: es) := rfl
    rw [spelled, String.toList_append, String.toList_append, List.append_assoc]
    exact all

/-- The text of an expression falls into its lexemes. -/
theorem prints (h : Printable e) : Prints e.text.toList e.lexemes := by
  induction h with
  | number finite sign =>
    have numeral := Prints.numeral (Number.text_eq finite sign).1
    rw [String.ofList_toList] at numeral
    exact numeral
  | @negate e a _ ih =>
    have spelled : (Expr.negate e a).text.toList = '(' :: '-' :: (e.text.toList ++ [')']) := by
      simp [text]
    rw [spelled]
    exact (ih.closed.mark (by decide)).mark (by decide)
  | @binary op l r a _ _ ihl ihr =>
    have spelled : (Expr.binary op l r a).text.toList = '(' :: (l.text.toList ++
        ' ' :: (op.symbol.toList ++ ' ' :: (r.text.toList ++ [')']))) := by
      simp [text]
    have right := (ihr.closed.blank.operator op).blank
    rw [spelled]
    exact (ihl.append right (by decide)).mark (by decide)
  | @call name f b e es a named _ ih =>
    have spelled : (Expr.call name b (e :: es) a).text.toList
        = name.toList ++ '(' :: ((argumentText (e :: es)).toList ++ [')']) := by
      simp [text]
    have args := (prints_arguments ih).closed
    obtain rfl := Builtin.ofName?_eq_some_iff.1 named
    rw [spelled]
    exact (args.mark (by decide)).name f

/-- An operator between two operands. -/
theorem derives_binary (op : BinaryOp) {us vs : List String} {e f : Expr Unit} {n m : Nat}
    (he : Derives .bare 1 .primary us e n) (hf : Derives .bare 1 .primary vs f m) :
    Derives .bare 1 .expression (us ++ op.symbol :: vs) (.binary op e f ())
      (max n (if op = .pow then 1 + m else m)) := by
  cases op with
  | add => exact .sum (.term (.factor (.base he))) (by decide) (.factor (.base hf))
  | sub => exact .sum (.term (.factor (.base he))) (by decide) (.factor (.base hf))
  | mul => exact .term (.product (.factor (.base he)) (by decide) (.base hf))
  | div => exact .term (.product (.factor (.base he)) (by decide) (.base hf))
  | mod => exact .term (.product (.factor (.base he)) (by decide) (.base hf))
  -- An exponent is one level deeper than the power.
  | pow => exact .term (.factor (.power he rfl (.base hf)))

/-- Further arguments behind some that are derived. -/
theorem derives_later {es : List (Expr α)} {us : List String} {done : List (Expr Unit)} {n : Nat}
    (h : Derives .bare 1 .arguments us done n)
    (hes : ∀ d ∈ es, Derives .bare 1 .primary d.lexemes d.bare d.textLevels) :
    Derives .bare 1 .arguments (us ++ laterLexemes es) (done ++ es.map bare)
      (max n (argumentLevels es)) := by
  induction es generalizing us done n with
  | nil =>
    show Derives _ _ _ (us ++ []) (done ++ []) (max n 0)
    rw [List.append_nil, List.append_nil, Nat.max_zero]
    exact h
  | cons e es ih =>
    have first := hes e List.mem_cons_self
    have next : Derives .bare 1 .arguments (us ++ "," :: e.lexemes) (done ++ [e.bare])
        (max n e.textLevels) := .comma h rfl (.term (.factor (.base first)))
    have all := ih next fun d hd => hes d (List.mem_cons_of_mem e hd)
    rw [List.append_assoc, List.append_assoc, Nat.max_assoc] at all
    exact all

/-- The grammar derives an expression from its lexemes. -/
theorem derives (h : Printable e) :
    Derives .bare 1 .primary e.lexemes e.bare e.textLevels := by
  induction h with
  | @number x a finite sign =>
    obtain ⟨isNumber, value⟩ := ofText?_eq_some_iff.1 (Number.text_eq finite sign).2
    have one : Derives .bare 1 .primary [Number.text x]
      (.number (numberValue (Number.text x)) ()) 1 := .number isNumber
    rw [value] at one
    exact one
  | @negate e a _ ih =>
    -- The brackets are one level, and the minus sign in them is another.
    have inside : Derives .bare 1 .expression ("-" :: e.lexemes) (.negate e.bare ())
        (1 + e.textLevels) := .term (.factor (.base (.negate rfl ih)))
    have levels : (Expr.negate e a).textLevels = 1 + (1 + e.textLevels) := Nat.add_assoc 1 1 _
    rw [levels]
    exact .group rfl inside rfl
  | @binary op l r a _ _ ihl ihr =>
    have inside := derives_binary op ihl ihr
    have group := Derives.group (M := .bare) (o := "(") (c := ")") rfl inside rfl
    rw [List.append_assoc] at group
    exact group
  | @call name f b e es a named _ ih =>
    have first : Derives .bare 1 .arguments e.lexemes [e.bare] e.textLevels :=
      .argument (.term (.factor (.base (ih e List.mem_cons_self))))
    have args := derives_later first fun d hd => ih d (List.mem_cons_of_mem e hd)
    have call := Derives.call (M := .bare) (f := name) (o := "(") (c := ")") named rfl args rfl
    have tree : (Expr.call name b (e :: es) a).bare
        = .call name () ([e.bare] ++ es.map bare) () := by
      show Expr.call name () (mapList _ (e :: es)) () = _
      rw [mapList_eq_map]
      rfl
    rw [tree]
    exact call

end Printable

end Expr

/-- The text of an expression is parsed as the expression, or is too deep, as its levels say. -/
theorem parseLine_text {α : Type} {e : Expr α} (h : e.Printable) :
    (e.textLevels ≤ 64 → ∃ t, parseLine e.text = .ok t ∧ t.bare = e.bare) ∧
    (64 < e.textLevels → ∃ err, parseLine e.text = .error (.grammatical err) ∧
      err.cause = .tooDeep) := by
  obtain ⟨ts, lexemes, scans⟩ := h.prints 0 [] [] (by simp) .nil
  rw [List.append_nil, List.append_nil] at scans
  have derived : Derives .bare 1 .expression e.lexemes e.bare e.textLevels :=
    .term (.factor (.base h.derives))
  obtain ⟨t, located, same⟩ := derived.lift Marking.carries_bare lexemes
  rw [parseLine_of_scans scans]
  constructor
  · intro fits
    have parsed : Located.parse ts = .ok t := Located.parseWithin_of_derives located fits
    exact ⟨t, by rw [parsed]; rfl, same⟩
  · intro deep
    obtain ⟨err, refused, cause⟩ := Located.parseWithin_of_derives_of_lt located deep
    have parsed : Located.parse ts = .error err := refused
    exact ⟨err, by rw [parsed]; rfl, cause⟩

/-- The call of a function on one, negated `n` times. -/
def negatedCall : (n : Nat) → Expr Unit
  | 0 => .call "abs" () [.number Number.one ()] ()
  | n + 1 => .negate (negatedCall n) ()

theorem printable_negatedCall (n : Nat) : (negatedCall n).Printable := by
  induction n with
  | zero =>
    refine .call (Builtin.ofName?_name .abs) ?_
    intro d hd
    rw [List.mem_singleton.1 hd]
    exact .number (by decide) (by decide)
  | succ n ih => exact .negate ih

theorem textLevels_negatedCall (n : Nat) : (negatedCall n).textLevels = 2 * n + 2 := by
  induction n with
  | zero => rfl
  | succ n ih =>
    show 2 + (negatedCall n).textLevels = _
    omega

/-- With 31 minus signs the text has just 64 levels. -/
theorem parseLine_text_negatedCall :
    (∃ t, parseLine (negatedCall 31).text = .ok t ∧ t.bare = (negatedCall 31).bare) ∧
    ∃ err, parseLine (negatedCall 32).text = .error (.grammatical err) ∧ err.cause = .tooDeep := by
  constructor
  · exact (parseLine_text (printable_negatedCall 31)).1 (by rw [textLevels_negatedCall])
  · exact (parseLine_text (printable_negatedCall 32)).2 (by rw [textLevels_negatedCall]; decide)

end Calculator
