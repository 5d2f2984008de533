import Calculator.Proofs.Scanning
import Calculator.Proofs.Terminal
import Mathlib

/-!
# Tokens and the text that they come from

A line that falls into tokens is made of their lexemes and of white space, and of nothing else
(`tokenize_lossless`). Each lexeme has one of the forms of `IsLexeme`, which say where a token ends:
a numeral and a word go on for as long as they can, and symbols are taken as they are.
-/

namespace Calculator

/-! ## White space -/

/-- No white space is among the visible ASCII characters. -/
theorem isBlank_eq_false_of_lt {c : Char} (visible : 32 < c.toNat) (ascii : c.toNat < 128) :
    isBlank c = false := by
  simp only [isBlank, Bool.or_eq_false_iff, Bool.and_eq_false_iff, decide_eq_false_iff_not,
    beq_eq_false_iff_ne]
  omega

theorem isBlank_eq_false_of_isWordPart {c : Char} (h : isWordPart c) : isBlank c = false := by
  simp only [isWordPart, Char.isAlphanum, Char.isAlpha, Char.isUpper, Char.isLower, Char.isDigit,
    Bool.or_eq_true, Bool.and_eq_true, decide_eq_true_eq, beq_iff_eq] at h
  rcases h with ((⟨low, high⟩ | ⟨low, high⟩) | ⟨low, high⟩) | rfl
  · have : 65 ≤ c.toNat := low
    have : c.toNat ≤ 90 := high
    exact isBlank_eq_false_of_lt (by omega) (by omega)
  · have : 97 ≤ c.toNat := low
    have : c.toNat ≤ 122 := high
    exact isBlank_eq_false_of_lt (by omega) (by omega)
  · have : 48 ≤ c.toNat := low
    have : c.toNat ≤ 57 := high
    exact isBlank_eq_false_of_lt (by omega) (by omega)
  · rfl

theorem isBlank_eq_false_of_isNumeralMark {c : Char} (h : isNumeralMark c) : isBlank c = false := by
  simp only [isNumeralMark, Bool.or_eq_true, beq_iff_eq] at h
  rcases h with digit | rfl
  · exact isBlank_eq_false_of_isWordPart (by simp [isWordPart, Char.isAlphanum, digit])
  · rfl

/-! ## Forms of lexemes -/

/-- The forms that a lexeme can have, with the text `behind` right after it: digits, or digits, a
point and digits, with no more of them after it; a known symbol other than these marks; a word that
ends where no more of it follows, and begins with the name of no function. -/
inductive IsLexeme (behind : List Char) : (text : List Char) → Prop
  | whole {digits} : digits ≠ [] → (∀ c ∈ digits, c.isDigit) →
      (∀ c ∈ behind.head?, isNumeralMark c = false) → IsLexeme behind digits
  | decimal {digits places} : digits ≠ [] → (∀ c ∈ digits, c.isDigit) → places ≠ [] →
      (∀ c ∈ places, c.isDigit) → (∀ c ∈ behind.head?, isNumeralMark c = false) →
      IsLexeme behind (digits ++ '.' :: places)
  | symbol {lexeme} : lexeme ∈ Lexicon.symbols → lexeme ∉ Lexicon.digits →
      IsLexeme behind lexeme.toList
  | word {c cs} : isWordStart c → (∀ d ∈ cs, isWordPart d) →
      (∀ d ∈ behind.head?, isWordPart d = false) → (∀ f : Builtin, ¬ f.name.toList <+: c :: cs) →
      IsLexeme behind (c :: cs)

/-- The known lexemes are those in the lists. -/
theorem Lexicon.mem_symbols_iff {lexeme : String} :
    lexeme ∈ symbols ↔
      lexeme ∈ digits ++ operators ++ punctuation ++ functionNames ++ constantNames := by
  unfold symbols
  rw [List.mem_mergeSort, List.mem_eraseDups]

/-- The names of functions are known. -/
theorem Builtin.name_mem_symbols (f : Builtin) :
    f.name ∈ Lexicon.symbols ∧ f.name ∉ Lexicon.digits := by
  rw [Lexicon.mem_symbols_iff]
  cases f <;> decide

/-- The marks are known. -/
theorem singleton_mem_symbols {c : Char} (h : isMark c) :
    String.singleton c ∈ Lexicon.symbols ∧ String.singleton c ∉ Lexicon.digits := by
  have all : ['+', '-', '*', '/', '^', '(', ')', ','].all fun d =>
      String.singleton d ∈ Lexicon.digits ++ Lexicon.operators ++ Lexicon.punctuation ++
        Lexicon.functionNames ++ Lexicon.constantNames ∧
      String.singleton d ∉ Lexicon.digits := by decide
  rw [Lexicon.mem_symbols_iff]
  exact of_decide_eq_true (List.all_eq_true.1 all c (List.contains_iff_mem.1 h))

/-- A run ends where what follows is not of it. -/
theorem eq_false_of_mem_head?_dropWhile {α : Type} {p : α → Bool} {as : List α} {a : α}
    (h : a ∈ (as.dropWhile p).head?) : p a = false := by
  have ends := List.head?_dropWhile_not p as
  rw [h] at ends
  exact ends

namespace Leads

variable {c : Char} {cs text behind : List Char}

/-- What follows a run in a text. -/
theorem eq_dropWhile {p : Char → Bool} (whole : c :: cs = (c :: cs.takeWhile p) ++ behind) :
    behind = cs.dropWhile p := by
  rw [List.cons_append, List.cons.injEq] at whole
  have split := List.takeWhile_append_dropWhile (p := p) (l := cs)
  exact List.append_cancel_left (whole.2.symm.trans split.symm)

/-- What a text begins with is a lexeme. -/
theorem isLexeme (h : Leads c cs text) (whole : c :: cs = text ++ behind) :
    IsLexeme behind text := by
  cases h with
  | numeral mark form =>
    have ends : ∀ d ∈ behind.head?, isNumeralMark d = false := by
      rw [eq_dropWhile whole]
      exact fun d hd => eq_false_of_mem_head?_dropWhile hd
    obtain ⟨digits, some, all, same | ⟨places, same, more, allMore⟩⟩ :=
      (Number.isNumeralOver_iff (by decide)).1 form
    · rw [same]
      exact .whole some all ends
    · rw [same]
      exact .decimal some all more allMore ends
  | @name f _ _ _ => exact .symbol f.name_mem_symbols.1 f.name_mem_symbols.2
  | mark _ _ _ mark =>
    have known := singleton_mem_symbols mark
    rw [← String.toList_singleton c]
    exact .symbol known.1 known.2
  | word _ _ noName _ start =>
    refine .word start (fun d hd => List.mem_takeWhile_imp hd) ?_ ?_
    · rw [eq_dropWhile whole]
      exact fun d hd => eq_false_of_mem_head?_dropWhile hd
    · intro f begins
      have other := List.find?_eq_none.1 noName f (by cases f <;> decide)
      rw [List.isPrefixOf_iff_prefix, whole] at other
      exact other (begins.trans (List.prefix_append _ behind))

/-- No white space is in a lexeme. -/
theorem isBlank_eq_false (h : Leads c cs text) : ∀ d ∈ text, isBlank d = false := by
  cases h with
  | numeral mark form =>
    intro d hd
    apply isBlank_eq_false_of_isNumeralMark
    rcases List.mem_cons.1 hd with rfl | later
    · exact mark
    · exact List.mem_takeWhile_imp later
  | @name f _ _ _ =>
    have letters : f.name.toList.all isWordPart := by cases f <;> rfl
    intro d hd
    exact isBlank_eq_false_of_isWordPart (List.all_eq_true.1 letters d hd)
  | mark _ blank _ _ => simpa using blank
  | word _ blank _ _ _ =>
    intro d hd
    rcases List.mem_cons.1 hd with rfl | later
    · exact blank
    · exact isBlank_eq_false_of_isWordPart (List.mem_takeWhile_imp later)

end Leads

/-! ## Rows of tokens -/

namespace Scans

variable {place : Nat} {cs : List Char} {ts : List Token}

/-- What is in no token is white space. -/
theorem isBlank_of_forall (h : Scans place cs ts) {as bs : List Char} {c : Char}
    (whole : cs = as ++ c :: bs)
    (outside : ∀ t ∈ ts, place + byteCount as < t.span.start ∨ t.span.stop ≤ place + byteCount as) :
    isBlank c := by
  induction h generalizing as with
  | nil => simp at whole
  | @blank place d cs ts _ blank _ ih =>
    cases as with
    | nil =>
      obtain ⟨rfl, -⟩ := List.cons.inj whole
      exact blank
    | cons a as =>
      obtain ⟨rfl, later⟩ := List.cons.inj whole
      refine ih later ?_
      rw [Nat.add_assoc, ← byteCount_cons]
      exact outside
  | @lexeme place d cs text rest ts _ front _ ih =>
    rw [front] at whole
    rcases List.append_eq_append_iff.1 whole with ⟨more, rfl, rfl⟩ | ⟨inside, rfl, behind⟩
    · -- The character is behind the first token.
      refine ih rfl fun t ht => ?_
      have := outside t (List.mem_cons_of_mem _ ht)
      rw [byteCount_append] at this
      omega
    · cases inside with
      | nil =>
        have start : rest = [] ++ c :: bs := behind.symm
        refine ih start fun t ht => ?_
        have := outside t (List.mem_cons_of_mem _ ht)
        simpa using this
      | cons d' inside =>
        -- The character is in the first token.
        exfalso
        have pos := d'.utf8Size_pos
        have := outside _ List.mem_cons_self
        simp only [byteCount_append, byteCount_cons] at this
        omega

/-- The lexemes of the tokens are the text without its white space. -/
theorem flatMap_lexeme (h : Scans place cs ts) :
    ts.flatMap (fun t => t.lexeme.toList) = cs.filter fun c => !isBlank c := by
  induction h with
  | nil => rfl
  | blank _ blank _ ih => rw [ih, List.filter_cons_of_neg (by simpa using blank)]
  | @lexeme place c cs text rest ts leads whole _ ih =>
    have visible : text.filter (fun c => !isBlank c) = text := by
      rw [List.filter_eq_self]
      simpa using leads.isBlank_eq_false
    rw [List.flatMap_cons, ih, whole, List.filter_append, String.toList_ofList, visible]

end Scans

/-! ## Lines -/

/-- The tokens of a line are slices of it that are not empty, one behind the other. All that is in
none of them is white space, and what they are made of is the line without its white space. Every
lexeme has one of the forms that lexemes have. -/
theorem tokenize_lossless {line : String} {ts : List Token} (h : tokenize line = .ok ts) :
    (∀ t ∈ ts, t.span.start < t.span.stop ∧
      t.span.slice? line.toList = some t.lexeme.toList ∧
      ∃ before behind, line.toList = before ++ t.lexeme.toList ++ behind ∧
        byteCount before = t.span.start ∧ IsLexeme behind t.lexeme.toList) ∧
    ts.Pairwise (fun t u => t.span.stop ≤ u.span.start) ∧
    (∀ before c behind, line.toList = before ++ c :: behind →
      (∀ t ∈ ts, byteCount before < t.span.start ∨ t.span.stop ≤ byteCount before) → isBlank c) ∧
    ts.flatMap (fun t => t.lexeme.toList) = line.toList.filter fun c => !isBlank c := by
  have scans := tokensFrom_eq_ok_iff.1 h
  refine ⟨?_, scans.pairwise, ?_, scans.flatMap_lexeme⟩
  · intro t ht
    obtain ⟨as, c, ds, bs, all, here, leads, start, stop⟩ := scans.exists_leads_of_mem ht
    rw [Nat.zero_add] at start
    have whole : line.toList = as ++ t.lexeme.toList ++ bs := by
      rw [all, here, List.append_assoc]
    exact ⟨(scans.places t ht).2, Span.slice?_eq_some_iff.2 ⟨as, bs, whole, start, stop⟩,
      as, bs, whole, start, leads.isLexeme here⟩
  · intro before c behind whole outside
    refine scans.isBlank_of_forall whole fun t ht => ?_
    rw [Nat.zero_add]
    exact outside t ht

/-- A blank of three bytes, and a word in two tokens, since the name of a function comes first. -/
theorem tokenize_lossless_absent :
    (⟨10, 13⟩ : Span).slice? "2.5\u2003*absent".toList = some "ent".toList ∧
    (∃ before behind, "2.5\u2003*absent".toList = before ++ "ent".toList ++ behind ∧
      byteCount before = 10 ∧ IsLexeme behind "ent".toList) ∧
    "2.5*absent".toList = "2.5\u2003*absent".toList.filter fun c => !isBlank c := by
  have scanned : tokenize "2.5\u2003*absent" = .ok [⟨"2.5", ⟨0, 3⟩⟩, ⟨"*", ⟨6, 7⟩⟩,
      ⟨"abs", ⟨7, 10⟩⟩, ⟨"ent", ⟨10, 13⟩⟩] := by cbv
  have lossless := tokenize_lossless scanned
  have last := lossless.1 ⟨"ent", ⟨10, 13⟩⟩ (by simp)
  exact ⟨last.2.1, last.2.2, lossless.2.2.2⟩

end Calculator
