import Calculator.CommandLine.Session
import Calculator.Proofs.Failing
import Calculator.Proofs.Stripping

/-!
# White space between lexemes

Scanning begins anew behind white space: a line with white space in it has the tokens of the text in
front of it and of the text behind it, or else the first failure in one of them (`tokenize_gap`).
And a lexeme that is found in a line is found alone, so lexemes that white space separates are found
again, whatever stood between them before: `tokenize_spaced`.
-/

namespace Calculator

open CommandLine

/-! ## Scanning behind white space -/

/-- What begins with white space goes on with nothing. -/
theorem isApart_of_mem_head? {gap : List Char} (blank : ∀ c ∈ gap, isBlank c) :
    ∀ d ∈ gap.head?, isApart d :=
  fun d hd => isApart_of_isBlank (blank d (List.mem_of_mem_head? hd))

/-- White space moves a text, and does nothing else. -/
theorem tokensFrom_blanks {gap : List Char} (blank : ∀ c ∈ gap, isBlank c) (place : Nat)
    (cs : List Char) : tokensFrom place (gap ++ cs) = tokensFrom (place + byteCount gap) cs := by
  induction gap generalizing place with
  | nil => rfl
  | cons c gap ih =>
    obtain ⟨here, later⟩ := List.forall_mem_cons.1 blank
    have numeral := (isApart_iff.1 (isApart_of_isBlank here)).1
    rw [List.cons_append, tokensFrom, Piece.first_eq_blank_iff.2 ⟨numeral, here⟩]
    dsimp only
    rw [ih later, byteCount_cons, Nat.add_assoc]

/-- Two texts one behind the other, where the second does not go on with what the first ends with:
they are scanned one after the other, and the first failure counts. -/
theorem tokensFrom_append {as bs : List Char} (apart : ∀ d ∈ bs.head?, isApart d) (place : Nat) :
    tokensFrom place (as ++ bs) = match tokensFrom place as with
      | .error e => .error e
      | .ok ts => (tokensFrom (place + byteCount as) bs).map (ts ++ ·) := by
  cases front : tokensFrom place as with
  | error e =>
    obtain ⟨before, text, behind, -, rfl, -, -, -, ends, -, again⟩ :=
      exists_of_tokensFrom_eq_error front
    rw [List.append_assoc]
    exact again _ (ends.append apart)
  | ok ts => exact ((tokensFrom_eq_ok_iff.1 front).before apart).tokensFrom_append

/-- A line with white space in it is scanned as the text in front of it and the text behind it, and
what is found in the latter stands further right. If both fail, the failure of the first counts. -/
theorem tokenize_gap (a gap b : String) (blank : ∀ c ∈ gap.toList, isBlank c) (some : gap ≠ "") :
    tokenize (a ++ gap ++ b) = match tokenize a with
      | .error e => .error e
      | .ok ts => match tokenize b with
        | .error e => .error (e.shift (byteCount (a ++ gap).toList))
        | .ok us => .ok (ts ++ us.map (Token.shift (byteCount (a ++ gap).toList))) := by
  have apart : ∀ d ∈ (gap.toList ++ b.toList).head?, isApart d := by
    rw [List.head?_append_of_ne_nil _ fun empty => some (String.toList_eq_nil_iff.1 empty)]
    exact isApart_of_mem_head? blank
  unfold tokenize
  rw [String.toList_append, String.toList_append, List.append_assoc, tokensFrom_append apart]
  cases tokensFrom 0 a.toList with
  | error e => rfl
  | ok ts =>
    have shifted := tokensFrom_add (byteCount (a.toList ++ gap.toList)) 0 b.toList
    dsimp only
    rw [tokensFrom_blanks blank, Nat.zero_add, ← byteCount_append, ← Nat.add_zero (byteCount _),
      shifted, Nat.add_zero]
    cases tokensFrom 0 b.toList <;> rfl

/-- A constant is found in front of white space of any kind, and what fails behind it is further
right. -/
theorem tokenize_gap_constant :
    tokenize ("tau" ++ "\u00A0 " ++ "pi$") = .error (.foreignCharacter 8 '$') := by
  rw [tokenize_gap "tau" "\u00A0 " "pi$" (by simp [isBlank]) (by decide)]
  cbv

/-! ## Lexemes with white space between them -/

/-- A lexeme with the white space in front of it. -/
structure Spaced where
  gap : List Char
  lexeme : String
  blank : ∀ c ∈ gap, isBlank c

namespace Spaced

/-- The text that lexemes and the white space in front of them make up. -/
def text (rows : List Spaced) : List Char :=
  rows.flatMap fun r => r.gap ++ r.lexeme.toList

/-- The lexemes as tokens, where such a text begins at byte `place`. -/
def tokens (place : Nat) : List Spaced → List Token
  | [] => []
  | r :: rows =>
    let start := place + byteCount r.gap
    let stop := start + byteCount r.lexeme.toList
    ⟨r.lexeme, ⟨start, stop⟩⟩ :: tokens stop rows

theorem text_cons (r : Spaced) (rows : List Spaced) :
    text (r :: rows) = r.gap ++ (r.lexeme.toList ++ text rows) := by
  rw [text, List.flatMap_cons, List.append_assoc]
  rfl

theorem map_lexeme_tokens (rows : List Spaced) (place : Nat) :
    (tokens place rows).map Token.lexeme = rows.map lexeme := by
  induction rows generalizing place with
  | nil => rfl
  | cons r rows ih => rw [tokens, List.map_cons, List.map_cons, ih]

/-- Lexemes that are found alone are found where white space separates them. -/
theorem scans {rows : List Spaced} (stands : ∀ l ∈ rows.map lexeme, Stands l)
    (gaps : ∀ r ∈ rows.tail, r.gap ≠ []) (place : Nat) :
    Scans place (text rows) (tokens place rows) := by
  induction rows generalizing place with
  | nil => exact .nil
  | cons r rows ih =>
    rw [List.map_cons, List.forall_mem_cons] at stands
    obtain ⟨⟨c, as, spelled, leads⟩, later⟩ := stands
    -- The next lexeme has white space in front of it.
    have apart : ∀ d ∈ (text rows).head?, isApart d := by
      cases rows with
      | nil => simp [text]
      | cons s rows =>
        rw [text_cons, List.head?_append_of_ne_nil _ (gaps s List.mem_cons_self)]
        exact isApart_of_mem_head? s.blank
    have behind := ih later (fun s hs => gaps s (List.mem_of_mem_tail hs))
      (place + byteCount r.gap + byteCount r.lexeme.toList)
    rw [text_cons, ← tokensFrom_eq_ok_iff, tokensFrom_blanks r.blank, tokensFrom_eq_ok_iff, tokens]
    have whole : r.lexeme = String.ofList (c :: as) := by rw [← spelled, String.ofList_toList]
    rw [spelled] at behind ⊢
    rw [whole]
    exact .lexeme (leads.append (.of_isApart apart)) rfl behind

/-- So they are the tokens of such a line, which may end with white space. -/
theorem tokenize_text {rows : List Spaced} (stands : ∀ l ∈ rows.map lexeme, Stands l)
    (last : List Char) (gaps : ∀ r ∈ rows.tail, r.gap ≠ []) (blank : ∀ c ∈ last, isBlank c) :
    tokenize (String.ofList (text rows ++ last)) = .ok (tokens 0 rows) := by
  have blanks := tokensFrom_blanks blank (0 + byteCount (text rows)) []
  rw [List.append_nil, tokensFrom] at blanks
  rw [tokenize, String.toList_ofList, tokensFrom_append (isApart_of_mem_head? blank),
    tokensFrom_eq_ok_iff.2 (scans stands gaps 0)]
  dsimp only
  rw [blanks, Except.map, List.append_nil]

/-- Lexemes with one blank between each two of them. -/
def single : List String → List Spaced
  | [] => []
  | l :: ls => ⟨[], l, by simp⟩ :: ls.map fun m => ⟨[' '], m, by simp [isBlank]⟩

theorem map_lexeme_single (ls : List String) : (single ls).map lexeme = ls := by
  cases ls with
  | nil => rfl
  | cons l ls => simp [single, Function.comp_def]

theorem gap_of_mem_tail_single {ls : List String} {r : Spaced} (h : r ∈ (single ls).tail) :
    r.gap = [' '] := by
  cases ls with
  | nil => cases h
  | cons l ls =>
    obtain ⟨m, -, rfl⟩ := List.mem_map.1 h
    rfl

/-- Lexemes with blanks between them are printed as such a text. -/
theorem text_single (ls : List String) : text (single ls) = (" ".intercalate ls).toList := by
  cases ls with
  | nil => rfl
  | cons l ls =>
    rw [single, text_cons, List.nil_append]
    induction ls generalizing l with
    | nil => simp [text]
    | cons m ls ih =>
      rw [String.intercalate_cons_cons, String.toList_append, String.toList_append, ← ih m,
        List.map_cons, text_cons, List.append_assoc]
      rfl

/-- It is one line if no lexeme has a line feed in it. -/
theorem newline_not_mem_text_single {ls : List String} (h : ∀ l ∈ ls, '\n' ∉ l.toList) :
    '\n' ∉ text (single ls) := by
  cases ls with
  | nil => simp [single, text]
  | cons l ls => simpa [single, text] using h

end Spaced

/-! ## Lines -/

/-- White space is in no lexeme, and line feeds are white space. -/
theorem Scans.newline_not_mem {place : Nat} {cs : List Char} {ts : List Token}
    (h : Scans place cs ts) : ∀ t ∈ ts, '\n' ∉ t.lexeme.toList := by
  intro t ht mem
  obtain ⟨-, c, ds, bs, -, -, leads, -, -⟩ := h.exists_leads_of_mem ht
  cases leads.isBlank_eq_false '\n' mem

/-- What is traced of a line that falls into tokens begins with their lexemes. -/
theorem exists_traceText_eq {line : String} {ts : List Token} (h : tokenize line = .ok ts) :
    ∃ more, traceText line = Style.faint.apply "tokens:" ++ " " ++
      " ".intercalate (ts.map Token.lexeme) ++ "\n" ++ more := by
  unfold traceText
  rw [h]
  exact ⟨_, rfl⟩

/-- The lexemes of a line are found again, at the places where they are put, wherever white space
separates them; there may be more of it at both ends. So they are found in what is traced of the
line, where the tokens are one line of their own. -/
theorem tokenize_spaced {line : String} {ts : List Token} (h : tokenize line = .ok ts) :
    (∀ (rows : List Spaced) (last : List Char), rows.map Spaced.lexeme = ts.map Token.lexeme →
      (∀ r ∈ rows.tail, r.gap ≠ []) → (∀ c ∈ last, isBlank c) →
        tokenize (String.ofList (Spaced.text rows ++ last)) = .ok (Spaced.tokens 0 rows)) ∧
    ∃ printed more us,
      traceText line = Style.faint.apply "tokens:" ++ " " ++ printed ++ "\n" ++ more ∧
      '\n' ∉ printed.toList ∧ tokenize printed = .ok us ∧
      us.map Token.lexeme = ts.map Token.lexeme := by
  have scans := tokensFrom_eq_ok_iff.1 h
  have stands {rows : List Spaced} (same : rows.map Spaced.lexeme = ts.map Token.lexeme) :
      ∀ l ∈ rows.map Spaced.lexeme, Stands l := by
    rw [same]
    simpa using scans.stands
  refine ⟨fun rows last same => Spaced.tokenize_text (stands same) last, ?_⟩
  -- What is traced is the text with one blank between each two lexemes.
  have same := Spaced.map_lexeme_single (ts.map Token.lexeme)
  have gaps : ∀ r ∈ (Spaced.single (ts.map Token.lexeme)).tail, r.gap ≠ [] := by
    intro r hr
    rw [Spaced.gap_of_mem_tail_single hr]
    exact List.cons_ne_nil _ _
  have found := Spaced.tokenize_text (stands same) [] gaps (by simp)
  rw [List.append_nil, Spaced.text_single, String.ofList_toList] at found
  obtain ⟨more, traced⟩ := exists_traceText_eq h
  refine ⟨_, more, _, traced, ?_, found, (Spaced.map_lexeme_tokens _ _).trans same⟩
  rw [← Spaced.text_single]
  exact Spaced.newline_not_mem_text_single (by simpa using scans.newline_not_mem)

/-- A name and a word that stood right behind it, with white space of other kinds between and behind
them, and their trace. -/
theorem tokenize_spaced_word :
    tokenize "abs\t\u00A0ent\n" = .ok [⟨"abs", ⟨0, 3⟩⟩, ⟨"ent", ⟨6, 9⟩⟩] ∧
    ∃ printed more us,
      traceText "absent" = Style.faint.apply "tokens:" ++ " " ++ printed ++ "\n" ++ more ∧
      '\n' ∉ printed.toList ∧ tokenize printed = .ok us ∧ us.map Token.lexeme = ["abs", "ent"] := by
  have scanned : tokenize "absent" = .ok [⟨"abs", ⟨0, 3⟩⟩, ⟨"ent", ⟨3, 6⟩⟩] := by cbv
  obtain ⟨spaced, traced⟩ := tokenize_spaced scanned
  let rows : List Spaced :=
    [⟨[], "abs", by simp⟩, ⟨['\t', '\u00A0'], "ent", by simp [isBlank]⟩]
  have found := spaced rows ['\n'] rfl (by simp [rows]) (by simp [isBlank])
  exact ⟨found, traced⟩

end Calculator
