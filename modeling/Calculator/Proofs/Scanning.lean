import Calculator.Line
import Mathlib.Data.List.TakeWhile

/-!
# What scanning finds

`Scans place cs ts` says that the text `cs`, which begins at byte `place` of its line, falls into
the tokens `ts` and white space. What the first piece of a text is depends only on as many characters
as the piece takes, so a text can be cut between its tokens: `Scans.split` and `Scans.cut`. And it
does not depend on the place, so what is cut out can be scanned on its own: `Scans.unshift`.
-/

namespace Calculator

/-! ## Pieces -/

/-- A run that ends inside `as` is found in `as` alone. -/
theorem takeWhile_append_of_length_le {α : Type} (p : α → Bool) (as bs : List α)
    (h : ((as ++ bs).takeWhile p).length ≤ as.length) :
    (as ++ bs).takeWhile p = as.takeWhile p := by
  rw [List.takeWhile_append] at h ⊢
  split
  · rename_i whole
    -- All of `as` is in the run, so the rest of the run is empty.
    rw [if_pos whole, List.length_append] at h
    have none : bs.takeWhile p = [] := List.length_eq_zero_iff.1 (by omega)
    rw [none, List.append_nil]
    exact (List.takeWhile_prefix p |>.eq_of_length whole).symm
  · rfl

/-- The function whose name a text begins with is found without the text behind the name. -/
theorem functionAtHead?_append {as bs : List Char} {f : Builtin}
    (h : functionAtHead? (as ++ bs) = some f) (le : f.name.toList.length ≤ as.length) :
    functionAtHead? as = some f := by
  unfold functionAtHead? at h ⊢
  rw [List.find?_eq_some_iff_append] at h ⊢
  rcases h with ⟨named, before, behind, all, others⟩
  refine ⟨?_, before, behind, all, ?_⟩
  -- The name ends inside `as`, and no other name that begins `as` comes before it.
  · rw [List.isPrefixOf_iff_prefix] at named ⊢
    exact List.prefix_of_prefix_length_le named (List.prefix_append as bs) le
  · intro g hg
    have other := others g hg
    simp only [Bool.not_eq_true', ← Bool.not_eq_true, List.isPrefixOf_iff_prefix] at other ⊢
    exact fun named => other (named.trans (List.prefix_append as bs))

/-- A text that begins with no function's name does not do so when it is cut off. -/
theorem functionAtHead?_append_eq_none {as bs : List Char}
    (h : functionAtHead? (as ++ bs) = none) : functionAtHead? as = none := by
  unfold functionAtHead? at h ⊢
  rw [List.find?_eq_none] at h ⊢
  intro g hg
  have other := h g hg
  rw [List.isPrefixOf_iff_prefix] at other ⊢
  exact fun named => other (named.trans (List.prefix_append as bs))

/-- The ways in which a text `c :: cs` begins with a token. -/
inductive Leads (c : Char) (cs : List Char) : (text : List Char) → Prop
  | numeral : isNumeralMark c → Number.isNumeral (c :: cs.takeWhile isNumeralMark) →
      Leads c cs (c :: cs.takeWhile isNumeralMark)
  | name {f} : isNumeralMark c = false → isBlank c = false → functionAtHead? (c :: cs) = some f →
      Leads c cs f.name.toList
  | mark : isNumeralMark c = false → isBlank c = false → functionAtHead? (c :: cs) = none →
      isMark c → Leads c cs [c]
  | word : isNumeralMark c = false → isBlank c = false → functionAtHead? (c :: cs) = none →
      isMark c = false → isWordStart c → Leads c cs (c :: cs.takeWhile isWordPart)

namespace Piece

variable {c : Char} {cs text : List Char}

theorem first_eq_lexeme_iff : first c cs = .lexeme text ↔ Leads c cs text := by
  constructor
  · intro h
    unfold first at h
    dsimp only at h
    split at h
    · split at h
      · cases h
        exact .numeral ‹_› ‹_›
      · cases h
    · rename_i numeral
      simp only [Bool.not_eq_true] at numeral
      split at h
      · cases h
      · rename_i blank
        simp only [Bool.not_eq_true] at blank
        split at h
        · cases h
          exact .name numeral blank ‹_›
        · split at h
          · cases h
            exact .mark numeral blank ‹_› ‹_›
          · split at h
            · cases h
              exact .word numeral blank ‹_› (by simpa using ‹¬ isMark c = true›) ‹_›
            · cases h
  · intro h
    unfold first
    cases h with
    | numeral numeral form => simp [numeral, form]
    | name numeral blank function => simp [numeral, blank, function]
    | mark numeral blank function mark => simp [numeral, blank, function, mark]
    | word numeral blank function mark word => simp [numeral, blank, function, mark, word]

/-- Whether a text begins with white space is a matter of its first character. -/
theorem first_eq_blank_iff : first c cs = .blank ↔ isNumeralMark c = false ∧ isBlank c := by
  unfold first
  dsimp only
  cases isNumeralMark c
  · cases isBlank c
    · simp only [Bool.false_eq_true, if_false]
      cases functionAtHead? (c :: cs) <;> grind
    · simp
  · grind

end Piece

namespace Leads

variable {c : Char} {cs behind text : List Char}

/-- A token is in front of its text, and takes at least one character. -/
theorem exists_append (h : Leads c cs text) : text ≠ [] ∧ ∃ rest, c :: cs = text ++ rest := by
  cases h with
  | numeral _ _ =>
    refine ⟨List.cons_ne_nil _ _, cs.dropWhile isNumeralMark, ?_⟩
    rw [List.cons_append, List.takeWhile_append_dropWhile]
  | @name f _ _ function =>
    have named : f.name.toList.isPrefixOf (c :: cs) :=
      List.find?_some (p := fun g : Builtin => g.name.toList.isPrefixOf (c :: cs)) function
    obtain ⟨rest, whole⟩ := List.isPrefixOf_iff_prefix.1 named
    exact ⟨by cases f <;> decide, rest, whole.symm⟩
  | mark _ _ _ _ => exact ⟨List.cons_ne_nil _ _, cs, rfl⟩
  | word _ _ _ _ _ =>
    refine ⟨List.cons_ne_nil _ _, cs.dropWhile isWordPart, ?_⟩
    rw [List.cons_append, List.takeWhile_append_dropWhile]

/-- A token is found without the text behind it. -/
theorem of_append (h : Leads c (cs ++ behind) text) (le : text.length ≤ cs.length + 1) :
    Leads c cs text := by
  cases h with
  | numeral numeral form =>
    have run := takeWhile_append_of_length_le isNumeralMark cs behind (Nat.le_of_succ_le_succ le)
    rw [run] at form ⊢
    exact .numeral numeral form
  | name numeral blank function =>
    exact .name numeral blank (functionAtHead?_append function le)
  | mark numeral blank none mark =>
    exact .mark numeral blank (functionAtHead?_append_eq_none none) mark
  | word numeral blank none mark word =>
    have run := takeWhile_append_of_length_le isWordPart cs behind (Nat.le_of_succ_le_succ le)
    rw [run]
    exact .word numeral blank (functionAtHead?_append_eq_none none) mark word

end Leads

/-! ## Rows of tokens -/

/-- The text `cs`, which begins at byte `place`, consists of the tokens `ts` and white space. -/
inductive Scans : (place : Nat) → (cs : List Char) → (ts : List Token) → Prop
  | nil {place} : Scans place [] []
  | blank {place c cs ts} : isNumeralMark c = false → isBlank c →
      Scans (place + c.utf8Size) cs ts → Scans place (c :: cs) ts
  | lexeme {place c cs text rest ts} : Leads c cs text → c :: cs = text ++ rest →
      Scans (place + byteCount text) rest ts →
      Scans place (c :: cs) (⟨String.ofList text, ⟨place, place + byteCount text⟩⟩ :: ts)

/-- A token is taken off the front of its text. -/
theorem drop_length_sub_one {c : Char} {cs text rest : List Char} (h : c :: cs = text ++ rest)
    (ne : text ≠ []) : cs.drop (text.length - 1) = rest := by
  cases text with
  | nil => exact absurd rfl ne
  | cons d text =>
    obtain ⟨rfl, rfl⟩ := List.cons.inj h
    rw [List.length_cons, Nat.add_sub_cancel]
    exact List.drop_left

/-- The tokens that are found are those that a text consists of. -/
theorem tokensFrom_eq_ok_iff {place : Nat} {cs : List Char} {ts : List Token} :
    tokensFrom place cs = .ok ts ↔ Scans place cs ts := by
  constructor
  · intro h
    fun_induction tokensFrom place cs generalizing ts with
    | case1 =>
      cases h
      exact .nil
    | case2 place c cs blank ih =>
      obtain ⟨numeral, blank⟩ := Piece.first_eq_blank_iff.1 blank
      exact .blank numeral blank (ih h)
    | case3 place c cs text found stop =>
      rename_i ih
      have leads := Piece.first_eq_lexeme_iff.1 found
      obtain ⟨ne, rest, whole⟩ := leads.exists_append
      rw [drop_length_sub_one whole ne] at h ih
      cases scanned : tokensFrom stop rest with
      | error e =>
        rw [scanned] at h
        cases h
      | ok us =>
        rw [scanned] at h
        cases h
        exact .lexeme leads whole (ih scanned)
    | case4 => cases h
    | case5 => cases h
  · intro h
    induction h with
    | nil => rw [tokensFrom]
    | blank numeral blank _ ih =>
      rw [tokensFrom, Piece.first_eq_blank_iff.2 ⟨numeral, blank⟩]
      exact ih
    | lexeme leads whole _ ih =>
      rw [tokensFrom, Piece.first_eq_lexeme_iff.2 leads]
      dsimp only
      rw [drop_length_sub_one whole leads.exists_append.1, ih]
      rfl

/-- A text that stands `k` bytes further right has its tokens there, or its failure. -/
theorem tokensFrom_add (k place : Nat) (cs : List Char) :
    tokensFrom (k + place) cs = match tokensFrom place cs with
      | .ok ts => .ok (ts.map (Token.shift k))
      | .error e => .error (e.shift k) := by
  fun_induction tokensFrom place cs with
  | case1 =>
    rw [tokensFrom]
    rfl
  | case2 place c cs blank ih =>
    rw [tokensFrom, blank]
    dsimp only
    rw [Nat.add_assoc, ih]
  | case3 place c cs text found stop ih =>
    rw [tokensFrom, found]
    dsimp only
    rw [Nat.add_assoc, ih]
    cases tokensFrom stop (cs.drop (text.length - 1)) <;> rfl
  | case4 place c cs text found =>
    rw [tokensFrom, found]
    dsimp only
    rw [Nat.add_assoc]
    rfl
  | case5 place c cs found =>
    rw [tokensFrom, found]
    rfl

/-- Where the last of some tokens ends; `place` if there are none. -/
def stopOf (place : Nat) (ts : List Token) : Nat :=
  (ts.getLast?.map fun t => t.span.stop).getD place

theorem stopOf_cons (place : Nat) (t : Token) (ts : List Token) :
    stopOf place (t :: ts) = stopOf t.span.stop ts := by
  unfold stopOf
  rw [List.getLast?_cons]
  cases ts.getLast? <;> rfl

namespace Scans

variable {place : Nat} {cs : List Char} {ts us vs : List Token}

/-- A text can be cut behind any of its tokens. -/
theorem split (h : Scans place cs (us ++ vs)) :
    ∃ as bs, cs = as ++ bs ∧ Scans place as us ∧ Scans (place + byteCount as) bs vs ∧
      place + byteCount as = stopOf place us := by
  -- White space behind the last of the tokens `us` goes to the second part.
  generalize all : us ++ vs = ts at h
  induction h generalizing us with
  | nil =>
    obtain ⟨rfl, rfl⟩ := List.append_eq_nil_iff.1 all
    exact ⟨[], [], rfl, .nil, .nil, rfl⟩
  | @blank place c cs ts numeral blank scans ih =>
    cases us with
    | nil =>
      obtain rfl : vs = ts := all
      exact ⟨[], c :: cs, rfl, .nil, .blank numeral blank scans, rfl⟩
    | cons t us =>
      obtain ⟨as, bs, rfl, front, back, stop⟩ := ih all
      refine ⟨c :: as, bs, rfl, .blank numeral blank front, ?_, ?_⟩
      · rw [byteCount_cons, ← Nat.add_assoc]
        exact back
      · rw [byteCount_cons, ← Nat.add_assoc, stop, stopOf_cons, stopOf_cons]
  | @lexeme place c cs text rest ts leads whole scans ih =>
    cases us with
    | nil =>
      obtain rfl : vs = _ := all
      exact ⟨[], c :: cs, rfl, .nil, .lexeme leads whole scans, rfl⟩
    | cons t us =>
      obtain ⟨rfl, behind⟩ := List.cons.inj all
      obtain ⟨as, bs, rfl, front, back, stop⟩ := ih behind
      obtain ⟨ne, -⟩ := leads.exists_append
      cases text with
      | nil => exact absurd rfl ne
      | cons d text =>
        obtain ⟨rfl, rfl⟩ : c = d ∧ cs = text ++ (as ++ bs) := List.cons.inj whole
        rw [← List.append_assoc] at leads
        -- The first token does not depend on what stands behind the cut.
        have cut : Leads c (text ++ as) (c :: text) :=
          leads.of_append (by rw [List.length_cons, List.length_append]; omega)
        refine ⟨c :: (text ++ as), bs, by simp, .lexeme cut rfl front, ?_, ?_⟩
        · rw [← List.cons_append, byteCount_append, ← Nat.add_assoc]
          exact back
        · rw [← List.cons_append, byteCount_append, ← Nat.add_assoc, stop, stopOf_cons]

/-- White space in front of the first token can be cut off. -/
theorem exists_start {t : Token} (h : Scans place cs (t :: ts)) :
    ∃ as bs, cs = as ++ bs ∧ place + byteCount as = t.span.start ∧
      Scans t.span.start bs (t :: ts) := by
  generalize all : t :: ts = us at h
  induction h with
  | nil => cases all
  | @blank place c cs us numeral blank _ ih =>
    obtain ⟨as, bs, rfl, start, scans⟩ := ih all
    refine ⟨c :: as, bs, rfl, ?_, scans⟩
    rw [byteCount_cons, ← Nat.add_assoc, start]
  | @lexeme place c cs text rest us leads whole scans _ =>
    obtain ⟨rfl, rfl⟩ := List.cons.inj all
    exact ⟨[], c :: cs, rfl, rfl, .lexeme leads whole scans⟩

/-- Some tokens in a row are what the text from the first to the last of them consists of. -/
theorem cut {t : Token} {before behind : List Token}
    (h : Scans place cs (before ++ (t :: ts) ++ behind)) :
    ∃ as text bs, cs = as ++ text ++ bs ∧ place + byteCount as = t.span.start ∧
      t.span.start + byteCount text = stopOf t.span.stop ts ∧
      Scans t.span.start text (t :: ts) := by
  rw [List.append_assoc] at h
  obtain ⟨front, rest, rfl, -, scansRest, -⟩ := h.split
  obtain ⟨blanks, rest, rfl, start, scans⟩ := scansRest.exists_start
  change Scans t.span.start rest ((t :: ts) ++ behind) at scans
  obtain ⟨text, bs, rfl, scansText, -, stop⟩ := scans.split
  refine ⟨front ++ blanks, text, bs, by simp, ?_, ?_, scansText⟩
  · rw [byteCount_append, ← Nat.add_assoc, start]
  · rw [stop, stopOf_cons]

/-- What a text consists of does not depend on its place. -/
theorem unshift {k : Nat} (h : Scans (k + place) cs ts) :
    ∃ us, Scans place cs us ∧ us.map (Token.shift k) = ts := by
  have scanned := tokensFrom_eq_ok_iff.2 h
  rw [tokensFrom_add] at scanned
  cases alone : tokensFrom place cs with
  | error e =>
    rw [alone] at scanned
    cases scanned
  | ok us =>
    rw [alone] at scanned
    exact ⟨us, tokensFrom_eq_ok_iff.1 alone, Except.ok.inj scanned⟩

/-- Every token takes at least one byte. -/
theorem places (h : Scans place cs ts) :
    ∀ t ∈ ts, place ≤ t.span.start ∧ t.span.start < t.span.stop := by
  induction h with
  | nil => simp
  | blank _ _ _ ih =>
    intro t ht
    have := ih t ht
    omega
  | @lexeme place c cs text rest ts leads whole _ ih =>
    obtain ⟨ne, -⟩ := leads.exists_append
    have pos : 0 < byteCount text := by
      cases text with
      | nil => exact absurd rfl ne
      | cons d text =>
        have := d.utf8Size_pos
        rw [byteCount_cons]
        omega
    intro t ht
    rcases List.mem_cons.1 ht with rfl | later
    · dsimp only
      omega
    · have := ih t later
      omega

/-- Every token begins behind those in front of it. -/
theorem pairwise (h : Scans place cs ts) : ts.Pairwise fun t u => t.span.stop ≤ u.span.start := by
  induction h with
  | nil => exact .nil
  | blank _ _ _ ih => exact ih
  | lexeme _ _ scans ih => exact .cons (fun u hu => (scans.places u hu).1) ih

/-- A token's text is in its span, and the text from there on begins with it. -/
theorem exists_leads_of_mem {t : Token} (h : Scans place cs ts) (ht : t ∈ ts) :
    ∃ as c ds bs, cs = as ++ c :: ds ∧ c :: ds = t.lexeme.toList ++ bs ∧
      Leads c ds t.lexeme.toList ∧ place + byteCount as = t.span.start ∧
      t.span.start + byteCount t.lexeme.toList = t.span.stop := by
  induction h with
  | nil => simp at ht
  | blank _ _ _ ih =>
    obtain ⟨as, c, ds, bs, rfl, here, leads, start, stop⟩ := ih ht
    refine ⟨_ :: as, c, ds, bs, rfl, here, leads, ?_, stop⟩
    rw [byteCount_cons, ← Nat.add_assoc, start]
  | @lexeme place c cs text rest ts leads whole _ ih =>
    rcases List.mem_cons.1 ht with rfl | later
    · rw [← String.toList_ofList (l := text)] at leads whole
      exact ⟨[], c, cs, rest, rfl, whole, leads, rfl, by simp⟩
    · obtain ⟨as, d, ds, bs, rfl, here, leads, start, stop⟩ := ih later
      refine ⟨text ++ as, d, ds, bs, by rw [whole, List.append_assoc], here, leads, ?_, stop⟩
      rw [byteCount_append, ← Nat.add_assoc, start]

/-- A token's text is in its span. -/
theorem exists_of_mem {t : Token} (h : Scans place cs ts) (ht : t ∈ ts) :
    ∃ as bs, cs = as ++ t.lexeme.toList ++ bs ∧ place + byteCount as = t.span.start ∧
      t.span.start + byteCount t.lexeme.toList = t.span.stop := by
  obtain ⟨as, c, ds, bs, rfl, here, -, start, stop⟩ := h.exists_leads_of_mem ht
  exact ⟨as, bs, by rw [here, List.append_assoc], start, stop⟩

end Scans

/-! ## Lines -/

/-- A line that falls into tokens is parsed as these are. -/
theorem parseLine_of_scans {line : String} {ts : List Token} (h : Scans 0 line.toList ts) :
    parseLine line = (Located.parse ts).mapError .grammatical := by
  unfold parseLine tokensOfLine tokenize
  rw [tokensFrom_eq_ok_iff.2 h]
  rfl

/-- The lines that are parsed. -/
theorem parseLine_eq_ok_iff {line : String} {t : Located} :
    parseLine line = .ok t ↔ ∃ ts, Scans 0 line.toList ts ∧ Located.parse ts = .ok t := by
  constructor
  · intro h
    -- A line that does not fall into tokens is not parsed.
    cases scanned : tokensFrom 0 line.toList with
    | error e =>
      unfold parseLine tokensOfLine tokenize at h
      rw [scanned] at h
      cases h
    | ok ts =>
      have scans := tokensFrom_eq_ok_iff.1 scanned
      rw [parseLine_of_scans scans] at h
      cases parsed : Located.parse ts with
      | error e =>
        rw [parsed] at h
        cases h
      | ok e =>
        rw [parsed] at h
        cases h
        exact ⟨ts, scans, parsed⟩
  · intro h
    rcases h with ⟨ts, scans, parsed⟩
    rw [parseLine_of_scans scans, parsed]
    rfl

end Calculator
