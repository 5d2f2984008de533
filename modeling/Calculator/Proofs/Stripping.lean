import Calculator.Proofs.Evaluation
import Calculator.Proofs.Joining
import Mathlib.Data.List.Chain

/-!
# Lines without their white space

When the white space of a line is dropped, its lexemes stand right behind one another. Most of them
end where they did, since behind a number or a constant the grammar has only an operator, a bracket
or a comma. The exception is `mod` behind a constant: there a word goes on, as in `pimod`, that
means nothing. So a line keeps its expression if and only if it has no such place, and else it is
refused: `parseLine_stripped`.
-/

namespace Calculator

/-! ## What stands behind a value -/

/-- The lexemes that are a whole operand. -/
def IsValue (lexeme : String) : Prop :=
  IsNumber lexeme ∨ ∃ k, Constant.ofName? lexeme = some k

/-- The lexemes that may stand behind an operand: operators, brackets and the comma. -/
def IsJoint (lexeme : String) : Prop :=
  lexeme = "mod" ∨ ∃ c, isMark c ∧ lexeme = String.singleton c

/-- The lexemes of the grammar. -/
def IsTerminal (lexeme : String) : Prop :=
  IsValue lexeme ∨ IsJoint lexeme ∨ ∃ f, Builtin.ofName? lexeme = some f

/-- Behind a whole operand there is no other. -/
def Adjoins (l m : String) : Prop :=
  IsValue l → IsJoint m

/-- Lexemes in a row as the grammar has them. -/
structure IsRow (ls : List String) : Prop where
  terminal : ∀ l ∈ ls, IsTerminal l
  adjoins : ls.IsChain Adjoins

theorem not_isValue_of_ofName? {lexeme : String} {f : Builtin}
    (h : Builtin.ofName? lexeme = some f) : ¬ IsValue lexeme := by
  rintro (number | ⟨k, named⟩)
  · rw [number.not_opening.2.2] at h
    cases h
  · rw [(Constant.eq_none_of_ofName? named).2.2] at h
    cases h

theorem not_isValue_singleton {c : Char} (h : isMark c) : ¬ IsValue (String.singleton c) := by
  have all : ['+', '-', '*', '/', '^', '(', ')', ','].all fun d =>
      ¬ IsNumber (String.singleton d) ∧ Constant.ofName? (String.singleton d) = none := by decide
  have other := List.all_eq_true.1 all c (List.contains_iff_mem.1 h)
  rw [decide_eq_true_eq] at other
  rintro (number | ⟨k, named⟩)
  · exact other.1 number
  · rw [other.2] at named
    cases named

theorem IsJoint.not_isValue {lexeme : String} (h : IsJoint lexeme) : ¬ IsValue lexeme := by
  rcases h with rfl | ⟨c, marks, rfl⟩
  · exact not_isValue_of_ofName? (Builtin.ofName?_name .mod)
  · exact not_isValue_singleton marks

/-- Operators between terms and factors may stand behind an operand. -/
theorem isJoint_of_mem {lexeme : String} {op : BinaryOp}
    (h : (lexeme, op) ∈ sumOperators ++ productOperators) : IsJoint lexeme := by
  simp only [sumOperators, productOperators, List.cons_append, List.nil_append, List.mem_cons,
    List.not_mem_nil, or_false, Prod.mk.injEq] at h
  rcases h with ⟨rfl, -⟩ | ⟨rfl, -⟩ | ⟨rfl, -⟩ | ⟨rfl, -⟩ | ⟨rfl, -⟩
  · exact .inr ⟨'+', by decide⟩
  · exact .inr ⟨'-', by decide⟩
  · exact .inr ⟨'*', by decide⟩
  · exact .inr ⟨'/', by decide⟩
  · exact .inl rfl

theorem isJoint_of_eq {lexeme : String} (c : Char) (h : lexeme = String.singleton c)
    (marks : isMark c) : IsJoint lexeme :=
  .inr ⟨c, marks, h⟩

namespace IsRow

variable {ls ms : List String}

theorem nil : IsRow [] :=
  ⟨by simp, .nil⟩

/-- A whole operand alone. -/
theorem value {l : String} (h : IsValue l) : IsRow [l] :=
  ⟨by simpa using .inl h, .singleton l⟩

/-- The name of a function in front of a row. -/
theorem call {l : String} {f : Builtin} (h : Builtin.ofName? l = some f) (hm : IsRow ms) :
    IsRow (l :: ms) := by
  refine ⟨List.forall_mem_cons.2 ⟨.inr (.inr ⟨f, h⟩), hm.terminal⟩, ?_⟩
  exact List.isChain_cons.2 ⟨fun m _ value => absurd value (not_isValue_of_ofName? h), hm.adjoins⟩

/-- Two rows with an operator, a bracket or a comma between them. -/
theorem append {k : String} (hl : IsRow ls) (hk : IsJoint k) (hm : IsRow ms) :
    IsRow (ls ++ k :: ms) := by
  refine ⟨?_, List.isChain_append.2 ⟨hl.adjoins, List.isChain_cons.2 ⟨?_, hm.adjoins⟩, ?_⟩⟩
  · intro l h
    rcases List.mem_append.1 h with front | here
    · exact hl.terminal l front
    · rcases List.mem_cons.1 here with rfl | behind
      · exact .inr (.inl hk)
      · exact hm.terminal l behind
  · exact fun m _ value => absurd value hk.not_isValue
  · intro l _ m hm _
    cases hm
    exact hk

/-- A row in front of what closes it. -/
theorem closed (hl : IsRow ls) {c : String} (hc : c = ")") : IsRow (ls ++ [c]) :=
  hl.append (isJoint_of_eq ')' hc (by decide)) .nil

end IsRow

/-- What is derived is such a row. -/
theorem Derives.isRow {leaf n : Nat} {p : Phrase} {ls : List String} {e : p.Tree Unit}
    (h : Derives .bare leaf p ls e n) : IsRow ls := by
  induction h with
  | number h => exact .value (.inl h)
  | constant h => exact .value (.inr ⟨_, h⟩)
  | negate ht _ ih => exact .append .nil (isJoint_of_eq '-' ht (by decide)) ih
  | group ho _ hc ih => exact .append .nil (isJoint_of_eq '(' ho (by decide)) (ih.closed hc)
  | call hf ho _ hc ih =>
    exact .call hf (.append .nil (isJoint_of_eq '(' ho (by decide)) (ih.closed hc))
  | argument _ ih => exact ih
  | comma _ hk _ ihs ih => exact ihs.append (isJoint_of_eq ',' hk (by decide)) ih
  | base _ ih => exact ih
  | power _ hk _ ihe ihf => exact ihe.append (isJoint_of_eq '^' hk (by decide)) ihf
  | factor _ ih => exact ih
  | product _ hk _ ihe ihf => exact ihe.append (isJoint_of_mem (List.mem_append_right _ hk)) ihf
  | term _ ih => exact ih
  | sum _ hk _ ihe ihf => exact ihe.append (isJoint_of_mem (List.mem_append_left _ hk)) ihf

/-! ## Lexemes one behind the other -/

/-- A lexeme that is found when it stands alone. -/
def Stands (lexeme : String) : Prop :=
  ∃ c as, lexeme.toList = c :: as ∧ Leads c as (c :: as)

/-- What is found in a text is found alone. -/
theorem Scans.stands {place : Nat} {cs : List Char} {ts : List Token} (h : Scans place cs ts) :
    ∀ t ∈ ts, Stands t.lexeme := by
  intro t ht
  obtain ⟨-, c, ds, bs, -, here, leads, -, -⟩ := h.exists_leads_of_mem ht
  cases spelled : t.lexeme.toList with
  | nil => exact absurd spelled leads.exists_append.1
  | cons d as =>
    rw [spelled] at here leads
    obtain ⟨rfl, rfl⟩ : c = d ∧ ds = as ++ bs := List.cons.inj here
    exact ⟨c, as, spelled, leads.alone⟩

/-- A constant is not directly in front of `mod`. -/
def Apart (l m : String) : Prop :=
  ¬ ((∃ k, Constant.ofName? l = some k) ∧ m = "mod")

/-- The name of a function ends in front of anything. -/
theorem Builtin.ends (f : Builtin) (behind : List Char) : Ends f.name.toList behind := by
  obtain ⟨a, as, spelled, numeral, -, -⟩ := f.exists_name
  refine ⟨fun digit => ?_, fun _ absent => ?_⟩
  · have := digit a (by rw [spelled]; rfl)
    rw [numeral] at this
    cases this
  · rw [← List.append_nil f.name.toList, functionAtHead?_name] at absent
    cases absent

/-- An operator, a bracket and the comma end in front of anything. -/
theorem ends_singleton {c : Char} (h : isMark c) (behind : List Char) : Ends [c] behind := by
  refine ⟨fun digit => ?_, fun start => ?_⟩
  · have := digit c rfl
    rw [(not_numeralMark_of_isMark h).1] at this
    cases this
  · have := (eq_false_of_isWordStart (start c rfl)).2
    rw [h] at this
    cases this

/-- A number does not begin like a word. -/
theorem IsNumber.not_isWordStart {l : String} (h : IsNumber l) :
    ¬ ∀ c ∈ l.toList.head?, isWordStart c := by
  obtain ⟨c, cs, spelled, first⟩ := h.exists_cons
  intro start
  have start : isWordStart c := start c (by rw [spelled]; rfl)
  rcases first with rfl | digit
  · cases start
  · have := (eq_false_of_isWordStart start).1
    rw [isNumeralMark, digit] at this
    cases this

/-- A lexeme ends in front of the next one of a row, unless they are a constant and `mod`. -/
theorem ends_of_apart {l m : String} (terminal : IsTerminal l) (adjoins : Adjoins l m)
    (apart : Apart l m) : Ends l.toList m.toList := by
  rcases terminal with value | (rfl | ⟨c, marks, rfl⟩) | ⟨f, named⟩
  · rcases adjoins value with rfl | ⟨d, marks, rfl⟩
    · rcases value with number | constant
      · have letter : ∀ d ∈ "mod".toList.head?, isNumeralMark d = false := by
          intro d hd
          rw [show "mod".toList.head? = some 'm' from rfl] at hd
          cases hd
          decide
        exact ⟨fun _ => letter, fun start => absurd start number.not_isWordStart⟩
      · exact absurd ⟨constant, rfl⟩ apart
    · refine .of_isApart fun d' hd => ?_
      rw [String.toList_singleton] at hd
      cases hd
      exact isApart_of_isMark marks
  · exact Builtin.mod.ends _
  · rw [String.toList_singleton]
    exact ends_singleton marks _
  · rw [← Builtin.ofName?_eq_some_iff.1 named]
    exact f.ends _

/-- In a row without a constant in front of `mod` each lexeme ends in front of the next one. -/
theorem IsRow.ends {ls : List String} (row : IsRow ls) (apart : ls.IsChain Apart) :
    ls.IsChain fun l m => Ends l.toList m.toList := by
  have adjoins := row.adjoins
  rw [List.isChain_iff_forall_rel_of_append_cons_cons] at adjoins apart ⊢
  intro l m before behind whole
  have terminal := row.terminal l (by simp [whole])
  exact ends_of_apart terminal (adjoins whole) (apart whole)

/-- What ends in front of the first of some lexemes ends in front of the text that they make up. -/
theorem Ends.flatMap {text : List Char} {ls : List String} (stands : ∀ l ∈ ls, Stands l)
    (first : ∀ m ∈ ls.head?, Ends text m.toList) : Ends text (ls.flatMap String.toList) := by
  cases ls with
  | nil => exact .of_isApart (by simp)
  | cons m ls =>
    obtain ⟨d, bs, spelled, -⟩ := stands m List.mem_cons_self
    refine (first m rfl).of_head ?_
    rw [List.flatMap_cons, spelled]
    rfl

/-- Lexemes that end in front of one another are found in the text that they make up. -/
theorem exists_scans_of_isChain {ls : List String} (stands : ∀ l ∈ ls, Stands l)
    (ends : ls.IsChain fun l m => Ends l.toList m.toList) (place : Nat) :
    ∃ ts, Scans place (ls.flatMap String.toList) ts ∧ ts.map Token.lexeme = ls := by
  induction ls generalizing place with
  | nil => exact ⟨[], .nil, rfl⟩
  | cons l ls ih =>
    rw [List.forall_mem_cons] at stands
    rw [List.isChain_cons] at ends
    obtain ⟨c, as, spelled, leads⟩ := stands.1
    have behind : Ends (c :: as) (ls.flatMap String.toList) :=
      .flatMap stands.2 (spelled ▸ ends.1)
    obtain ⟨ts, scans, lexemes⟩ := ih stands.2 ends.2 (place + byteCount (c :: as))
    rw [List.flatMap_cons, spelled]
    refine ⟨_, .lexeme (leads.append behind) rfl scans, ?_⟩
    rw [List.map_cons, lexemes, ← spelled, String.ofList_toList]

/-! ## A constant in front of `mod` -/

namespace Constant

theorem map_capital_of_ofName? {l : String} {k : Constant} (h : ofName? l = some k) :
    l.toList.map capital = k.name.toList := by
  have spelling := List.find?_some h
  exact (beq_iff_eq.1 spelling).symm

/-- A text that names a constant is as long as the name. -/
theorem length_of_ofName? {l : String} {k : Constant} (h : ofName? l = some k) :
    l.toList.length = 2 ∨ l.toList.length = 3 := by
  rw [← List.length_map (f := capital), map_capital_of_ofName? h]
  cases k <;> decide

/-- No function's name begins with that of a constant. -/
theorem not_prefix_name {l : String} {k : Constant} (h : ofName? l = some k) (f : Builtin) :
    ¬ l.toList <+: f.name.toList := by
  intro begins
  have begins := begins.map capital
  rw [map_capital_of_ofName? h] at begins
  revert begins
  cases k <;> cases f <;> decide

/-- A constant that is found alone is a word. -/
theorem leads_word {l : String} {k : Constant} (h : ofName? l = some k) {c : Char} {as : List Char}
    (spelled : l.toList = c :: as) (leads : Leads c as (c :: as)) :
    isNumeralMark c = false ∧ isBlank c = false ∧ isMark c = false ∧ isWordStart c ∧
      functionAtHead? (c :: as) = none ∧ as.takeWhile isWordPart = as := by
  generalize same : c :: as = text at leads
  cases leads with
  | numeral _ form =>
    rw [← same, ← spelled] at form
    have number : IsNumber l := (ofText?_eq_some_iff.1 (Number.ofText?_of_isNumeral form)).1
    rw [number.not_constant] at h
    cases h
  | @name f _ _ _ =>
    rw [← spelled] at same
    exact absurd (same ▸ List.prefix_rfl) (not_prefix_name h f)
  | mark _ _ _ _ =>
    have length := length_of_ofName? h
    rw [spelled, same] at length
    simp at length
  | word numeral blank function mark start =>
    obtain ⟨-, run⟩ := List.cons.inj same
    exact ⟨numeral, blank, mark, start, same ▸ function, run.symm⟩

/-- A constant is not the beginning of a function's name, whatever is behind it. -/
theorem functionAtHead?_append {l : String} {k : Constant} (h : ofName? l = some k)
    (absent : functionAtHead? l.toList = none) (behind : List Char) :
    functionAtHead? (l.toList ++ behind) = none := by
  unfold functionAtHead? at absent ⊢
  rw [List.find?_eq_none] at absent ⊢
  intro f hf named
  have other := absent f hf
  rw [List.isPrefixOf_iff_prefix] at named other
  rcases List.prefix_or_prefix_of_prefix named (List.prefix_append _ _) with shorter | longer
  · exact other shorter
  · exact not_prefix_name h f longer

/-- A constant right in front of `mod` is found together with it, in a word that means nothing. -/
theorem exists_leads_mod {l : String} {k : Constant} (h : ofName? l = some k) {c : Char}
    {as : List Char} (spelled : l.toList = c :: as) (leads : Leads c as (c :: as))
    (behind : List Char) :
    ∃ word rest, Leads c (as ++ "mod".toList ++ behind) word ∧
      c :: (as ++ "mod".toList ++ behind) = word ++ rest ∧ ¬ IsTerminal (String.ofList word) := by
  obtain ⟨numeral, blank, mark, start, absent, run⟩ := leads_word h spelled leads
  have absent : functionAtHead? (c :: (as ++ "mod".toList ++ behind)) = none := by
    rw [List.append_assoc, ← List.cons_append, ← spelled]
    exact functionAtHead?_append h (spelled ▸ absent) _
  have word := Leads.word numeral blank absent mark start
  obtain ⟨-, rest, whole⟩ := word.exists_append
  refine ⟨_, rest, word, whole, ?_⟩
  -- The word is too long for a constant or a mark, and begins with no function's name.
  have long : 5 ≤ (c :: (as ++ "mod".toList ++ behind).takeWhile isWordPart).length := by
    have letters : ∀ d ∈ as ++ "mod".toList, isWordPart d := by
      intro d hd
      rcases List.mem_append.1 hd with first | later
      · exact List.takeWhile_eq_self_iff.1 run d first
      · exact Builtin.isWordPart_of_mem (f := .mod) later
    have length := length_of_ofName? h
    rw [spelled, List.length_cons] at length
    rw [List.takeWhile_append_of_pos letters, List.length_cons, List.length_append,
      List.length_append, show "mod".toList.length = 3 from rfl]
    omega
  rintro ((number | ⟨k', named⟩) | (modulo | ⟨d, marks, single⟩) | ⟨f, named⟩)
  · exact number.not_isWordStart (by simpa using start)
  · have length := length_of_ofName? named
    rw [String.toList_ofList] at length
    omega
  · have spelling := congrArg String.toList modulo
    rw [String.toList_ofList] at spelling
    rw [spelling] at long
    exact absurd long (by decide)
  · have spelling := congrArg String.toList single
    rw [String.toList_ofList, String.toList_singleton] at spelling
    rw [spelling] at long
    exact absurd long (by simp)
  · have spelling := congrArg String.toList (Builtin.ofName?_eq_some_iff.1 named)
    rw [String.toList_ofList] at spelling
    rw [whole, ← spelling, functionAtHead?_name] at absent
    cases absent

end Constant

/-- What a text begins with is found. -/
theorem Scans.of_leads {place : Nat} {c : Char} {cs text rest : List Char} {ts : List Token}
    (h : Scans place (c :: cs) ts) (leads : Leads c cs text) (whole : c :: cs = text ++ rest) :
    ∃ us, ts = ⟨String.ofList text, ⟨place, place + byteCount text⟩⟩ :: us ∧
      Scans (place + byteCount text) rest us := by
  have first := Piece.first_eq_lexeme_iff.2 leads
  cases h with
  | blank numeral blank _ =>
    rw [Piece.first_eq_blank_iff.2 ⟨numeral, blank⟩] at first
    cases first
  | lexeme leads' whole' scans =>
    rw [Piece.first_eq_lexeme_iff.2 leads'] at first
    cases first
    rw [whole] at whole'
    obtain rfl := List.append_cancel_left whole'
    exact ⟨_, rfl, scans⟩

/-- Where a row has a constant in front of `mod`, the text that it makes up has a token that is none
of the grammar. -/
theorem Scans.exists_not_isTerminal {ls : List String} (stands : ∀ l ∈ ls, Stands l)
    (row : IsRow ls) (touching : ¬ ls.IsChain Apart) {place : Nat} {ts : List Token}
    (scans : Scans place (ls.flatMap String.toList) ts) : ∃ t ∈ ts, ¬ IsTerminal t.lexeme := by
  induction ls generalizing place ts with
  | nil => exact absurd .nil touching
  | cons l ls ih =>
    cases ls with
    | nil => exact absurd (.singleton l) touching
    | cons m ls =>
      rw [List.forall_mem_cons] at stands
      obtain ⟨c, as, spelled, leads⟩ := stands.1
      rw [List.flatMap_cons, spelled] at scans
      by_cases apart : Apart l m
      -- The first lexeme ends in front of the second one, so it is the first token.
      · have terminal := List.forall_mem_cons.1 row.terminal
        have adjoins := List.isChain_cons_cons.1 row.adjoins
        have ends := ends_of_apart terminal.1 adjoins.1 apart
        have behind : Ends (c :: as) ((m :: ls).flatMap String.toList) := by
          refine .flatMap stands.2 fun m' hm => ?_
          cases hm
          exact spelled ▸ ends
        obtain ⟨us, rfl, scansRest⟩ := scans.of_leads (leads.append behind) rfl
        have later : ¬ (m :: ls).IsChain Apart :=
          fun chain => touching (List.isChain_cons_cons.2 ⟨apart, chain⟩)
        obtain ⟨t, ht, unknown⟩ := ih stands.2 ⟨terminal.2, adjoins.2⟩ later scansRest
        exact ⟨t, List.mem_cons_of_mem _ ht, unknown⟩
      · obtain ⟨⟨k, named⟩, rfl⟩ := not_not.1 apart
        obtain ⟨word, rest, found, whole, unknown⟩ :=
          Constant.exists_leads_mod named spelled leads (ls.flatMap String.toList)
        rw [List.append_assoc] at found whole
        obtain ⟨us, rfl, -⟩ := scans.of_leads found whole
        exact ⟨_, List.mem_cons_self, unknown⟩

/-! ## Lines -/

/-- A line without its white space. -/
def stripped (line : String) : String :=
  String.ofList (line.toList.filter fun c => !isBlank c)

/-- Somewhere among the tokens a constant is directly in front of `mod`. -/
def HasConstantBeforeMod (ts : List Token) : Prop :=
  ∃ before k m behind, ts = before ++ k :: m :: behind ∧
    (∃ c, Constant.ofName? k.lexeme = some c) ∧ m.lexeme = "mod"

theorem isChain_apart_iff {ts : List Token} :
    (ts.map Token.lexeme).IsChain Apart ↔ ¬ HasConstantBeforeMod ts := by
  rw [List.isChain_map, List.isChain_iff_forall_rel_of_append_cons_cons]
  constructor
  · rintro apart ⟨before, k, m, behind, rfl, constant, modulo⟩
    exact apart rfl ⟨constant, modulo⟩
  · rintro absent k m before behind rfl ⟨constant, modulo⟩
    exact absent ⟨before, k, m, behind, rfl, constant, modulo⟩

/-- A line that is parsed is parsed as the same expression without its white space, if and only if
it has no constant directly in front of `mod`. With such a place, the line without white space does
not fall into tokens or these are no expression. -/
theorem parseLine_stripped {line : String} {t : Located} (h : parseLine line = .ok t) :
    ∃ ts, tokenize line = .ok ts ∧
      ((∃ u, parseLine (stripped line) = .ok u ∧ u.bare = t.bare) ↔ ¬ HasConstantBeforeMod ts) ∧
      (HasConstantBeforeMod ts → (∃ e, parseLine (stripped line) = .error (.lexical e)) ∨
        ∃ e, parseLine (stripped line) = .error (.grammatical e)) := by
  obtain ⟨ts, scans, parsed⟩ := parseLine_eq_ok_iff.1 h
  obtain ⟨n, fits, derived⟩ := Located.parseWithin_eq_ok_iff.1 parsed
  have bare := derived.map Marking.carries_bare
  have row : IsRow (ts.map Token.lexeme) := bare.isRow
  have stands : ∀ l ∈ ts.map Token.lexeme, Stands l := by
    simpa using scans.stands
  have text : (stripped line).toList = (ts.map Token.lexeme).flatMap String.toList := by
    rw [stripped, String.toList_ofList, List.flatMap_map, scans.flatMap_lexeme]
  -- What is parsed consists of the lexemes of the grammar.
  have refused (touching : HasConstantBeforeMod ts) (u : Located) :
      parseLine (stripped line) ≠ .ok u := by
    intro accepted
    obtain ⟨us, scans', parsed'⟩ := parseLine_eq_ok_iff.1 accepted
    obtain ⟨m, -, derived'⟩ := Located.parseWithin_eq_ok_iff.1 parsed'
    rw [text] at scans'
    obtain ⟨w, hw, unknown⟩ :=
      scans'.exists_not_isTerminal stands row fun apart => isChain_apart_iff.1 apart touching
    exact unknown ((derived'.map Marking.carries_bare).isRow.terminal _
      (List.mem_map_of_mem hw))
  refine ⟨ts, tokensFrom_eq_ok_iff.2 scans, ⟨?_, fun absent => ?_⟩, fun touching => ?_⟩
  · rintro ⟨u, accepted, -⟩ touching
    exact refused touching u accepted
  · have apart := isChain_apart_iff.2 absent
    obtain ⟨us, scans', lexemes⟩ := exists_scans_of_isChain stands (row.ends apart) 0
    rw [← text] at scans'
    obtain ⟨u, parsed', same⟩ := (Located.exists_parse_eq_ok_iff_derives us t.bare).2
      ⟨n, fits, lexemes ▸ bare⟩
    exact ⟨u, parseLine_eq_ok_iff.2 ⟨us, scans', parsed'⟩, same⟩
  · cases outcome : parseLine (stripped line) with
    | ok u => exact absurd outcome (refused touching u)
    | error err =>
      rcases parseLine_eq_error_iff.1 outcome with ⟨e, -, rfl⟩ | ⟨us, -, e, -, rfl⟩
      · exact .inl ⟨e, rfl⟩
      · exact .inr ⟨e, rfl⟩

/-- A difference of constants without blanks, and a remainder that has to keep them. -/
theorem parseLine_stripped_constants :
    (∃ u, parseLine "tau-pi" = .ok u ∧ u.bare =
      .binary .sub (.number Constant.tau.value ()) (.number Constant.pi.value ()) ()) ∧
    ((∃ e, parseLine "taumodpi" = .error (.lexical e)) ∨
      ∃ e, parseLine "taumodpi" = .error (.grammatical e)) := by
  have leaf (k : Constant) {t : Token} (named : Constant.ofName? t.lexeme = some k) :
      Derives .places 1 .factor [t] (.number k.value t.span) 1 := .base (.constant named)
  constructor
  · have derived : Derives .places 1 .expression [⟨"tau", ⟨0, 3⟩⟩, ⟨"-", ⟨4, 5⟩⟩, ⟨"pi", ⟨6, 8⟩⟩]
        _ _ :=
      .sum (.term (.factor (leaf .tau (by decide))))
        (by decide : ("-", BinaryOp.sub) ∈ sumOperators) (.factor (leaf .pi (by decide)))
    have scanned : tokenize "tau - pi" =
        .ok [⟨"tau", ⟨0, 3⟩⟩, ⟨"-", ⟨4, 5⟩⟩, ⟨"pi", ⟨6, 8⟩⟩] := by cbv
    obtain ⟨ts, tokens, kept, -⟩ :=
      parseLine_stripped (parseLine_of_derives derived scanned (by decide))
    rw [scanned] at tokens
    cases tokens
    refine kept.2 ?_
    rintro ⟨before, k, m, behind, whole, -, modulo⟩
    have listed : m ∈ before ++ k :: m :: behind := by simp
    rw [← whole] at listed
    simp only [List.mem_cons, List.not_mem_nil, or_false] at listed
    rcases listed with rfl | rfl | rfl
    all_goals exact absurd modulo (by decide)
  · have derived : Derives .places 1 .expression [⟨"tau", ⟨0, 3⟩⟩, ⟨"mod", ⟨4, 7⟩⟩, ⟨"pi", ⟨8, 10⟩⟩]
        _ _ :=
      .term (.product (.factor (leaf .tau (by decide)))
        (by decide : ("mod", BinaryOp.mod) ∈ productOperators) (leaf .pi (by decide)))
    have scanned : tokenize "tau mod pi" =
        .ok [⟨"tau", ⟨0, 3⟩⟩, ⟨"mod", ⟨4, 7⟩⟩, ⟨"pi", ⟨8, 10⟩⟩] := by cbv
    obtain ⟨ts, tokens, -, refused⟩ :=
      parseLine_stripped (parseLine_of_derives derived scanned (by decide))
    rw [scanned] at tokens
    cases tokens
    exact refused ⟨[], _, _, [⟨"pi", ⟨8, 10⟩⟩], rfl, ⟨.tau, by decide⟩, rfl⟩

end Calculator
