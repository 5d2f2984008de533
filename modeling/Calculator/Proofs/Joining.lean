import Calculator.Proofs.Lossless
import Calculator.Proofs.Printing

/-!
# Texts one behind the other

Where a token ends is a matter of the one character behind it: a numeral goes on with digits and
points, a word with letters, digits and low lines, and all other tokens do not go on. `Ends` says
so, and a token is found in front of a text if and only if it is found alone and `Ends` there.
`ScansBefore` is scanning with a text behind, of which only the first character matters. So two texts
can be put one behind the other, if the second begins with a character that goes on nothing:
`Scans.append`.
-/

namespace Calculator

/-! ## Where a token ends -/

/-- What is behind the token `text` does not go on with it. -/
structure Ends (text behind : List Char) : Prop where
  /-- Behind a numeral there is no digit or point. -/
  numeral : (∀ c ∈ text.head?, isNumeralMark c) → ∀ d ∈ behind.head?, isNumeralMark d = false
  /-- Behind a word there is none of its characters. -/
  word : (∀ c ∈ text.head?, isWordStart c) → functionAtHead? text = none →
    ∀ d ∈ behind.head?, isWordPart d = false

/-- A character that goes on nothing. -/
def isApart (d : Char) : Bool :=
  !isNumeralMark d && !isWordPart d

theorem isApart_iff {d : Char} : isApart d ↔ isNumeralMark d = false ∧ isWordPart d = false := by
  simp [isApart]

/-- No operator, bracket or comma goes on with a token. -/
theorem isApart_of_isMark {c : Char} (h : isMark c) : isApart c := by
  have all : ['+', '-', '*', '/', '^', '(', ')', ','].all isApart := by decide
  exact List.all_eq_true.1 all c (List.contains_iff_mem.1 h)

/-- Nor does white space. -/
theorem isApart_of_isBlank {c : Char} (h : isBlank c) : isApart c := by
  rw [isApart_iff]
  constructor
  · by_contra numeral
    rw [isBlank_eq_false_of_isNumeralMark (by simpa using numeral)] at h
    cases h
  · by_contra part
    rw [isBlank_eq_false_of_isWordPart (by simpa using part)] at h
    cases h

namespace Ends

variable {text behind more : List Char}

theorem of_head (h : Ends text behind) (same : more.head? = behind.head?) : Ends text more :=
  ⟨fun first => same ▸ h.numeral first, fun first none => same ▸ h.word first none⟩

theorem of_isApart (h : ∀ d ∈ behind.head?, isApart d) : Ends text behind :=
  ⟨fun _ d hd => (isApart_iff.1 (h d hd)).1, fun _ _ d hd => (isApart_iff.1 (h d hd)).2⟩

/-- More text behind changes nothing, unless there was none. -/
theorem append (h : Ends text behind) (apart : ∀ d ∈ more.head?, isApart d) :
    Ends text (behind ++ more) := by
  cases behind with
  | nil => exact of_isApart apart
  | cons d behind => exact h.of_head rfl

end Ends

/-! ## Tokens alone -/

/-- A run stops where what follows is not of it. -/
theorem takeWhile_append_of_head {α : Type} {p : α → Bool} {as bs : List α}
    (all : as.takeWhile p = as) (h : ∀ b ∈ bs.head?, p b = false) :
    (as ++ bs).takeWhile p = as := by
  rw [List.takeWhile_append, all, if_pos rfl]
  cases bs with
  | nil => simp
  | cons b bs => simp [h b rfl]

/-- The names of functions are words. -/
theorem Builtin.isWordPart_of_mem {f : Builtin} {c : Char} (h : c ∈ f.name.toList) :
    isWordPart c := by
  have all : f.name.toList.all isWordPart := by cases f <;> rfl
  exact List.all_eq_true.1 all c h

/-- No name reaches from one text into another that does not begin like a word. -/
theorem functionAtHead?_append_of_head {as bs : List Char} (h₀ : functionAtHead? as = none)
    (h : ∀ d ∈ bs.head?, isWordPart d = false) : functionAtHead? (as ++ bs) = none := by
  unfold functionAtHead? at h₀ ⊢
  rw [List.find?_eq_none] at h₀ ⊢
  intro f hf
  have other := h₀ f hf
  rw [List.isPrefixOf_iff_prefix] at other ⊢
  rintro ⟨rest, named⟩
  rcases List.append_eq_append_iff.1 named with ⟨more, rfl, -⟩ | ⟨more, spelled, rfl⟩
  · exact other (List.prefix_append _ more)
  · cases more with
    | nil =>
      rw [List.append_nil] at spelled
      exact other (spelled ▸ List.prefix_rfl)
    | cons d more =>
      have letter : isWordPart d := Builtin.isWordPart_of_mem (f := f) (by simp [spelled])
      rw [h d rfl] at letter
      cases letter

/-- No word begins with a digit or a point, or with a mark. -/
theorem eq_false_of_isWordStart {c : Char} (h : isWordStart c) :
    isNumeralMark c = false ∧ isMark c = false := by
  constructor
  · simp only [isWordStart, Char.isAlpha, Char.isUpper, Char.isLower, Bool.or_eq_true,
      Bool.and_eq_true, decide_eq_true_eq, beq_iff_eq] at h
    simp only [isNumeralMark, Char.isDigit, Bool.or_eq_false_iff, Bool.and_eq_false_iff,
      decide_eq_false_iff_not, beq_eq_false_iff_ne]
    -- Digits and the point have smaller codes than all letters.
    have code : 58 ≤ c.toNat := by
      rcases h with (⟨low, -⟩ | ⟨low, -⟩) | rfl
      · exact Nat.le_trans (by decide : 58 ≤ 65) low
      · exact Nat.le_trans (by decide : 58 ≤ 97) low
      · decide
    refine ⟨.inr fun high => ?_, fun point => ?_⟩
    · exact absurd (Nat.le_trans code high) (by decide)
    · rw [point] at code
      exact absurd code (by decide)
  · cases mark : isMark c with
    | false => rfl
    | true =>
      rw [(not_numeralMark_of_isMark mark).2.2] at h
      cases h

namespace Leads

variable {c : Char} {as behind : List Char}

/-- A token is found without the text behind it. -/
theorem alone (h : Leads c (as ++ behind) (c :: as)) : Leads c as (c :: as) :=
  h.of_append (Nat.le_refl _)

/-- The text behind a token does not go on with it. -/
theorem ends (h : Leads c (as ++ behind) (c :: as)) : Ends (c :: as) behind := by
  generalize same : c :: as = text at h
  -- A run in the text ends where it does not go on.
  have stops {p : Char → Bool} (run : c :: as = c :: (as ++ behind).takeWhile p) :
      ∀ d ∈ behind.head?, p d = false := by
    have whole : c :: (as ++ behind) = (c :: (as ++ behind).takeWhile p) ++ behind := by
      rw [← run]
      rfl
    intro d hd
    rw [eq_dropWhile whole] at hd
    exact eq_false_of_mem_head?_dropWhile hd
  cases h with
  | numeral mark _ =>
    refine ⟨fun _ => stops same, fun start => ?_⟩
    have other := (eq_false_of_isWordStart (start c (by simp))).1
    rw [mark] at other
    cases other
  | @name f mark _ _ =>
    have first : f.name.toList.head? = some c := by rw [← same]; rfl
    refine ⟨fun digit => ?_, fun _ other => ?_⟩
    · have := digit c first
      rw [mark] at this
      cases this
    · rw [← List.append_nil f.name.toList, functionAtHead?_name] at other
      cases other
  | mark mark _ _ mark' =>
    refine ⟨fun digit => ?_, fun start => ?_⟩
    · have := digit c rfl
      rw [mark] at this
      cases this
    · have other := (eq_false_of_isWordStart (start c rfl)).2
      rw [mark'] at other
      cases other
  | word mark _ _ _ _ =>
    refine ⟨fun digit => ?_, fun _ _ => stops same⟩
    have := digit c rfl
    rw [mark] at this
    cases this

/-- A token that is found alone is found in front of what does not go on with it. -/
theorem append (h : Leads c as (c :: as)) (ends : Ends (c :: as) behind) :
    Leads c (as ++ behind) (c :: as) := by
  generalize same : c :: as = text at h ends ⊢
  cases h with
  | numeral mark form =>
    obtain ⟨-, all⟩ := List.cons.inj same
    have run : (as ++ behind).takeWhile isNumeralMark = as.takeWhile isNumeralMark := by
      rw [takeWhile_append_of_head all.symm (ends.numeral (by simpa using mark)), ← all]
    have leads : Leads c (as ++ behind) (c :: (as ++ behind).takeWhile isNumeralMark) :=
      .numeral mark (by rwa [run])
    rwa [run] at leads
  | name mark blank function =>
    exact .name mark blank (by rw [← List.cons_append, same]; exact functionAtHead?_name _ _)
  | mark mark blank function mark' =>
    exact .mark mark blank (functionAtHead?_of_isMark mark' _) mark'
  | word mark blank function mark' start =>
    obtain ⟨-, all⟩ := List.cons.inj same
    have apart := ends.word (by simpa using start) (same ▸ function)
    have run : (as ++ behind).takeWhile isWordPart = as.takeWhile isWordPart := by
      rw [takeWhile_append_of_head all.symm apart, ← all]
    have leads : Leads c (as ++ behind) (c :: (as ++ behind).takeWhile isWordPart) :=
      .word mark blank (functionAtHead?_append_of_head function apart) mark' start
    rwa [run] at leads

end Leads

/-! ## Rows of tokens -/

/-- The text `cs`, which begins at byte `place`, consists of the tokens `ts` and white space where
the text `behind` follows it. -/
inductive ScansBefore (behind : List Char) : (place : Nat) → (cs : List Char) → (ts : List Token) →
    Prop
  | nil {place} : ScansBefore behind place [] []
  | blank {place c cs ts} : isNumeralMark c = false → isBlank c →
      ScansBefore behind (place + c.utf8Size) cs ts → ScansBefore behind place (c :: cs) ts
  | lexeme {place c as rest ts} : Leads c (as ++ (rest ++ behind)) (c :: as) →
      ScansBefore behind (place + byteCount (c :: as)) rest ts →
      ScansBefore behind place (c :: as ++ rest)
        (⟨String.ofList (c :: as), ⟨place, place + byteCount (c :: as)⟩⟩ :: ts)

namespace ScansBefore

variable {behind more : List Char} {place : Nat} {cs : List Char} {ts : List Token}

/-- What follows matters only for the token that it follows directly. -/
theorem change (h : ScansBefore behind place cs ts)
    (ends : ∀ text, Ends text behind → Ends text more) : ScansBefore more place cs ts := by
  induction h with
  | nil => exact .nil
  | blank numeral blank _ ih => exact .blank numeral blank ih
  | @lexeme place c as rest ts leads _ ih =>
    have ends : Ends (c :: as) (rest ++ more) := by
      cases rest with
      | nil => exact ends _ leads.ends
      | cons d rest => exact leads.ends.of_head rfl
    exact .lexeme (leads.alone.append ends) ih

/-- Of what follows only the first character matters. -/
theorem of_head (h : ScansBefore behind place cs ts) (same : more.head? = behind.head?) :
    ScansBefore more place cs ts :=
  h.change fun _ ends => ends.of_head same

/-- Scanning goes on behind the text where it would begin anew. -/
theorem tokensFrom_append (h : ScansBefore behind place cs ts) :
    tokensFrom place (cs ++ behind)
      = (tokensFrom (place + byteCount cs) behind).map (ts ++ ·) := by
  induction h with
  | nil =>
    rw [List.nil_append, byteCount_nil, Nat.add_zero]
    cases tokensFrom _ behind <;> rfl
  | blank numeral blank _ ih =>
    rw [List.cons_append, tokensFrom, Piece.first_eq_blank_iff.2 ⟨numeral, blank⟩, byteCount_cons,
      ← Nat.add_assoc]
    exact ih
  | @lexeme place c as rest ts leads _ ih =>
    rw [List.append_assoc, List.cons_append, tokensFrom, Piece.first_eq_lexeme_iff.2 leads,
      byteCount_append, ← Nat.add_assoc]
    dsimp only
    rw [List.length_cons, Nat.add_sub_cancel, List.drop_left, ih]
    cases tokensFrom _ behind <;> rfl

end ScansBefore

/-- A text alone is one that nothing follows. -/
theorem scansBefore_nil_iff {place : Nat} {cs : List Char} {ts : List Token} :
    ScansBefore [] place cs ts ↔ Scans place cs ts := by
  constructor
  · intro h
    have scanned := h.tokensFrom_append
    rw [List.append_nil, tokensFrom] at scanned
    rw [← tokensFrom_eq_ok_iff, scanned, Except.map, List.append_nil]
  · intro h
    induction h with
    | nil => exact .nil
    | blank numeral blank _ ih => exact .blank numeral blank ih
    | @lexeme place c cs text rest ts leads whole _ ih =>
      cases text with
      | nil => exact absurd rfl leads.exists_append.1
      | cons d text =>
        obtain ⟨rfl, rfl⟩ : c = d ∧ cs = text ++ rest := List.cons.inj whole
        rw [← List.append_nil rest] at leads
        exact .lexeme leads ih

/-- What is scanned in front of a text is scanned alone. -/
theorem ScansBefore.alone {behind : List Char} {place : Nat} {cs : List Char} {ts : List Token}
    (h : ScansBefore behind place cs ts) : Scans place cs ts :=
  scansBefore_nil_iff.1 (h.change fun _ _ => .of_isApart (by simp))

namespace Scans

variable {place : Nat} {as bs cs : List Char} {ts us : List Token}

/-- What a text consists of stands further right when the text does. -/
theorem shift (k : Nat) (h : Scans place cs ts) :
    Scans (k + place) cs (ts.map (Token.shift k)) := by
  rw [← tokensFrom_eq_ok_iff, tokensFrom_add, tokensFrom_eq_ok_iff.2 h]

/-- A text is scanned as it is alone where what follows does not go on with a token. -/
theorem before (h : Scans place cs ts) (apart : ∀ d ∈ bs.head?, isApart d) :
    ScansBefore bs place cs ts :=
  (scansBefore_nil_iff.2 h).change fun _ _ => .of_isApart apart

/-- A text behind another, where its first character does not go on with a token. -/
theorem append (h : Scans place as ts) (h' : Scans (place + byteCount as) bs us)
    (apart : ∀ d ∈ bs.head?, isApart d) : Scans place (as ++ bs) (ts ++ us) := by
  rw [← tokensFrom_eq_ok_iff, (h.before apart).tokensFrom_append, tokensFrom_eq_ok_iff.2 h']
  rfl

end Scans

/-! ## Lines -/

/-- A line is parsed as what its tokens derive. -/
theorem parseLine_of_derives {line : String} {ts : List Token} {u : Located} {n : Nat}
    (h : Derives .places 1 .expression ts u n) (scanned : tokensFrom 0 line.toList = .ok ts)
    (fits : n ≤ nestingLimit) : parseLine line = .ok u :=
  parseLine_eq_ok_iff.2 ⟨ts, tokensFrom_eq_ok_iff.1 scanned, Located.parseWithin_of_derives h fits⟩

/-- A line with an operator, a bracket or a comma behind it, in front of a text. -/
theorem Prints.line {as cs : List Char} {ls : List String} {ts : List Token} {m : Char}
    (scans : Scans 0 as ts) (marks : isMark m) (h : Prints cs ls) :
    Prints (as ++ m :: cs) (ts.map Token.lexeme ++ String.ofList [m] :: ls) := by
  intro place rest us follows later
  rw [byteCount_append, ← Nat.add_assoc] at later
  obtain ⟨vs, lexemes, behind⟩ := (h.mark marks) _ rest us follows later
  have front := scans.shift place
  refine ⟨ts.map (Token.shift place) ++ vs, ?_, ?_⟩
  · rw [List.map_append, List.map_map, lexemes]
    rfl
  · rw [List.append_assoc, List.append_assoc]
    exact front.append behind fun d hd => by cases hd; exact isApart_of_isMark marks

end Calculator
