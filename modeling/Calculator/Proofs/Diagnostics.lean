import Calculator.Proofs.Blame
import Calculator.Proofs.Evaluation
import Calculator.Proofs.Failing

/-!
# Where errors point

The span of an error is a stretch of the line that shows what is wrong, or the place just past a
token behind which something is missing. `Shows` and `Follows` say which it is for which error, and
`evalLine_diagnostic` that every error is of one of the two kinds and what the marks under the line
look like.
-/

namespace Calculator

/-! ## Marks under a line -/

/-- Every character takes at least one byte. -/
theorem length_le_byteCount (cs : List Char) : cs.length ≤ byteCount cs := by
  induction cs with
  | nil => exact Nat.le_refl 0
  | cons c cs ih =>
    have := c.utf8Size_pos
    rw [List.length_cons, byteCount_cons]
    omega

namespace Span

variable {s : Span} {cs before behind text : List Char}

/-- Marks begin below the first character of the span. -/
theorem indentIn_eq (whole : cs = before ++ behind) (start : byteCount before = s.start) :
    s.indentIn cs = before.length := by
  unfold indentIn
  rw [splitAtByte?_eq_some_iff.2 ⟨whole, start⟩]

/-- A slice has one mark for each character. -/
theorem widthIn_eq (h : s.slice? cs = some text) : s.widthIn cs = text.length := by
  obtain ⟨before, behind, -, -, stop⟩ := slice?_eq_some_iff.1 h
  have order : max s.stop s.start = s.stop := by omega
  unfold widthIn
  dsimp only
  rw [order, h]

/-- What is one byte wide has one mark, also where that byte is behind the line or is not all of a
character. -/
theorem max_widthIn_eq_one (wide : s.stop = s.start + 1) : max (s.widthIn cs) 1 = 1 := by
  have order : max s.stop s.start = s.stop := by omega
  unfold widthIn
  dsimp only
  rw [order]
  split
  · rename_i text slice
    obtain ⟨before, behind, -, -, stop⟩ := slice?_eq_some_iff.1 slice
    change s.start + byteCount text = s.stop at stop
    have := length_le_byteCount text
    omega
  · omega

end Span

/-! ## What an error points at -/

/-- A token is what a cause is about, or it stands where something is missing. -/
inductive SyntaxCause.Blames (t : Token) : SyntaxCause → Prop
  | unexpectedToken {expected} : Blames t (.unexpectedToken t expected)
  | unterminatedGroup {opening} : t.lexeme ≠ ")" → Blames t (.unterminatedGroup opening)
  | tooDeep : Blames t .tooDeep

/-- A cause is that the tokens have ended. -/
inductive SyntaxCause.BlamesEnd : SyntaxCause → Prop
  | endOfInput : BlamesEnd .endOfInput
  | unterminatedGroup {opening} : BlamesEnd (.unterminatedGroup opening)
  | tooDeep : BlamesEnd .tooDeep

/-- The text of a line that shows what is wrong: that of a number or a character that is none of the
language, that of a token, or that of a call. -/
inductive Shows (line : String) : LineError → (text : List Char) → Prop
  | lexical {e text} : e.Blames text → Shows line (.lexical e) text
  | token {ts pos t cause span} : tokenize line = .ok ts → ts[pos]? = some t → cause.Blames t →
      Shows line (.grammatical ⟨cause, pos, span⟩) t.lexeme.toList
  | call {t n m e text} : parseLine line = .ok t → t.Node n → n.Miscalls e → n.note = e.note →
      parseLine (String.ofList text) = .ok m → m.map (Span.shift n.note.start) = n →
      Shows line (.evaluation e) text

/-- The place of a line where something is missing: behind the last token, or behind the name of a
function. -/
inductive Follows (line : String) : LineError → (place : Nat) → Prop
  | ended {ts cause span} : tokenize line = .ok ts → cause.BlamesEnd →
      Follows line (.grammatical ⟨cause, ts.length, span⟩) (stopOf 0 ts)
  | name {us w rest f span} : tokenize line = .ok (us ++ w :: rest) →
      Builtin.ofName? w.lexeme = some f → (∀ o ∈ rest.head?, o.lexeme ≠ "(") →
      Follows line (.grammatical ⟨.expectedCallBracket w, us.length + 1, span⟩) w.span.stop

/-- An error points at the text that shows what is wrong, or at one byte from where something is
missing. -/
inductive Points (line : String) (err : LineError) : Prop
  | shows {before text behind} : line.toList = before ++ text ++ behind →
      byteCount before = err.span.start → err.span.start + byteCount text = err.span.stop →
      err.span.start < err.span.stop → Shows line err text → Points line err
  | follows {before behind} : line.toList = before ++ behind →
      byteCount before = err.span.start → err.span.stop = err.span.start + 1 →
      Follows line err err.span.start → Points line err

/-! ## Each step -/

section Steps

variable {line : String} {ts : List Token}

/-- A line that does not fall into tokens. -/
theorem points_of_tokenize {e : LexicalError} (h : tokenize line = .error e) :
    Points line (.lexical e) := by
  obtain ⟨before, text, behind, -, whole, start, stop, blames, -⟩ := exists_of_tokensFrom_eq_error h
  rw [Nat.zero_add] at start
  have := List.length_pos_iff.2 blames.ne_nil
  have := length_le_byteCount text
  exact .shows whole start stop (by show e.span.start < e.span.stop; omega) (.lexical blames)

/-- What is just past the last token. -/
theorem endSpan_eq (ts : List Token) : endSpan ts = ⟨stopOf 0 ts, stopOf 0 ts + 1⟩ := by
  unfold endSpan stopOf
  cases ts.getLast? <;> rfl

/-- Any token can be pointed at. -/
theorem points_of_token {pos : Nat} {t : Token} {cause : SyntaxCause}
    (scanned : tokenize line = .ok ts) (ht : ts[pos]? = some t) (blames : cause.Blames t) :
    Points line (.grammatical ⟨cause, pos, t.span⟩) := by
  have scans := tokensFrom_eq_ok_iff.1 scanned
  have mem := List.mem_of_getElem? ht
  obtain ⟨before, behind, whole, start, stop⟩ := scans.exists_of_mem mem
  rw [Nat.zero_add] at start
  exact .shows whole start stop (scans.places t mem).2 (.token scanned ht blames)

/-- So can the place behind the last token. -/
theorem points_of_end {cause : SyntaxCause} (scanned : tokenize line = .ok ts)
    (blames : cause.BlamesEnd) : Points line (.grammatical ⟨cause, ts.length, endSpan ts⟩) := by
  have scans := tokensFrom_eq_ok_iff.1 scanned
  rw [← List.append_nil ts] at scans
  obtain ⟨before, behind, whole, -, -, stop⟩ := scans.split
  rw [Nat.zero_add] at stop
  rw [endSpan_eq]
  exact .follows whole stop rfl (.ended scanned blames)

/-- And the place behind a name. -/
theorem points_of_name {us rest : List Token} {w : Token} {f : Builtin}
    (scanned : tokenize line = .ok (us ++ w :: rest)) (named : Builtin.ofName? w.lexeme = some f)
    (next : ∀ o ∈ rest.head?, o.lexeme ≠ "(") :
    Points line (.grammatical ⟨.expectedCallBracket w, us.length + 1, w.span.past⟩) := by
  have scans := tokensFrom_eq_ok_iff.1 scanned
  rw [List.append_cons] at scans
  obtain ⟨before, behind, whole, -, -, stop⟩ := scans.split
  rw [Nat.zero_add, stopOf, List.getLast?_concat] at stop
  exact .follows whole stop rfl (.name scanned named next)

/-- A line whose tokens are no expression. -/
theorem points_of_parse {err : SyntaxError} (scanned : tokenize line = .ok ts)
    (h : Located.parse ts = .error err) : Points line (.grammatical err) := by
  obtain ⟨⟨cause, rest⟩, rejected, rfl⟩ := Located.parseWithin_eq_error_iff.1 h
  obtain ⟨us, whole, fits, -⟩ := rejected.completable
  obtain rfl : ts = us ++ rest := whole
  have pos : (us ++ rest).length - rest.length = us.length := by simp
  -- Most causes are about the token that is next, or about the end.
  have here (blames : ∀ t ∈ rest.head?, cause.Blames t) (ends : rest = [] → cause.BlamesEnd) :
      Points line (.grammatical ⟨cause, us.length, headSpan (us ++ rest) rest⟩) := by
    cases rest with
    | nil =>
      rw [List.append_nil] at scanned ⊢
      exact points_of_end scanned (ends rfl)
    | cons t rest => exact points_of_token scanned (by simp) (blames t rfl)
  unfold Fault.toError
  dsimp only
  rw [pos]
  cases cause with
  | unexpectedToken t expected =>
    obtain ⟨rest, rfl⟩ := List.head?_eq_some_iff.1 fits
    refine here (fun u hu => ?_) (by simp)
    cases hu
    exact .unexpectedToken
  | endOfInput =>
    obtain rfl : rest = [] := fits
    exact here (by simp) fun _ => .endOfInput
  | unterminatedGroup opening =>
    exact here (fun u hu => .unterminatedGroup (fits.2 u hu)) fun _ => .unterminatedGroup
  | expectedCallBracket w =>
    obtain ⟨last, ⟨f, named⟩, next⟩ := fits
    obtain ⟨us, rfl⟩ := List.getLast?_eq_some_iff.1 last
    rw [← List.append_cons] at scanned
    rw [List.length_append, List.length_singleton]
    exact points_of_name scanned named next
  | tooDeep => exact here (fun _ _ => .tooDeep) fun _ => .tooDeep

/-- A line whose expression has no value. -/
theorem points_of_value {t : Located} {e : EvaluationError Span} (parsed : parseLine line = .ok t)
    (h : t.value = .error e) : Points line (.evaluation e) := by
  obtain ⟨n, hn, miscalls⟩ := Expr.exists_miscalls_of_value_eq_error (known_of_parseLine parsed) h
  have note : n.note = e.note := by
    cases miscalls
    rfl
  obtain ⟨before, us, behind, scans, levels, fits, own⟩ := exists_derives_of_node parsed hn
  have ordered : Ordered us := scans.ordered.middle
  have spans : Spans us n.note := own.placed ordered
  obtain ⟨text, slice, m, alone, same⟩ := exists_parseLine_of_derives scans own fits spans
  obtain ⟨as, bs, whole, start, stop⟩ := Span.slice?_eq_some_iff.1 slice
  have shows : Shows line (.evaluation e) text := .call parsed hn miscalls note alone same
  have lt := spans.lt ordered
  rw [note] at start stop lt
  exact .shows whole start stop lt shows

end Steps

/-! ## Lines -/

/-- Every error points at a stretch of its line that is not empty and begins between two characters.
Either it is a slice that shows what is wrong, and there is one mark under each character of it; or
it is one byte wide and right behind the token where something is missing, and there is one mark. In
both cases one blank for each character in front comes first. No end of a span is too large for 32
bits if the length of the line and the one after it are not. -/
theorem evalLine_diagnostic {line : String} {err : LineError} (h : evalLine line = .error err) :
    (byteCount line.toList < 2 ^ 32 - 1 → err.span.stop < 2 ^ 32) ∧
    err.span.start < err.span.stop ∧
    ∃ before behind, line.toList = before ++ behind ∧ byteCount before = err.span.start ∧
      ((∃ text, err.span.slice? line.toList = some text ∧ Shows line err text ∧
        err.span.caret line = String.ofList
          (List.replicate before.length ' ' ++ List.replicate text.length '^')) ∨
      (err.span.stop = err.span.start + 1 ∧ Follows line err err.span.start ∧
        err.span.caret line = String.ofList (List.replicate before.length ' ' ++ ['^']))) := by
  have points : Points line err := by
    rcases evalLine_eq_error_iff.1 h with unparsed | ⟨t, parsed, e, refused, rfl⟩
    · rcases parseLine_eq_error_iff.1 unparsed with
        ⟨e, refused, rfl⟩ | ⟨ts, scanned, e, refused, rfl⟩
      · exact points_of_tokenize refused
      · exact points_of_parse scanned refused
    · exact points_of_value parsed refused
  cases points with
  | @shows before text behind whole start stop lt shows =>
    have slice := Span.slice?_eq_some_iff.2 ⟨before, behind, whole, start, stop⟩
    -- A text that takes a byte has a character.
    have some : 1 ≤ text.length := by
      rw [Nat.one_le_iff_ne_zero, Ne, List.length_eq_zero_iff]
      intro empty
      rw [empty, byteCount_nil] at stop
      omega
    have total : byteCount line.toList = byteCount before + byteCount text + byteCount behind := by
      rw [whole, byteCount_append, byteCount_append]
    rw [List.append_assoc] at whole
    refine ⟨by omega, lt, before, text ++ behind, whole, start, .inl ⟨text, slice, shows, ?_⟩⟩
    unfold Span.caret
    dsimp only
    rw [Span.indentIn_eq whole start, Span.widthIn_eq slice, Nat.max_eq_left some]
  | @follows before behind whole start stop follows =>
    have total : byteCount line.toList = byteCount before + byteCount behind := by
      rw [whole, byteCount_append]
    refine ⟨by omega, by omega, before, behind, whole, start, .inr ⟨stop, follows, ?_⟩⟩
    unfold Span.caret
    dsimp only
    rw [Span.indentIn_eq whole start, Span.max_widthIn_eq_one stop]
    rfl

/-- Behind a name without a bracket there is one mark, though the blank there has two bytes. -/
theorem evalLine_diagnostic_name :
    ∃ before behind, "abs\u00A0*2".toList = before ++ behind ∧ byteCount before = 3 ∧
      Follows "abs\u00A0*2" (.grammatical ⟨.expectedCallBracket ⟨"abs", ⟨0, 3⟩⟩, 1, ⟨3, 4⟩⟩) 3 ∧
      (⟨3, 4⟩ : Span).caret "abs\u00A0*2" =
        String.ofList (List.replicate before.length ' ' ++ ['^']) := by
  have refused : evalLine "abs\u00A0*2" =
      .error (.grammatical ⟨.expectedCallBracket ⟨"abs", ⟨0, 3⟩⟩, 1, ⟨3, 4⟩⟩) := by cbv
  have noSlice : (⟨3, 4⟩ : Span).slice? "abs\u00A0*2".toList = none := by cbv
  obtain ⟨-, -, before, behind, whole, start, ⟨text, slice, -⟩ | ⟨-, follows, marks⟩⟩ :=
    evalLine_diagnostic refused
  · cases noSlice.symm.trans slice
  · exact ⟨before, behind, whole, start, follows, marks⟩

end Calculator
