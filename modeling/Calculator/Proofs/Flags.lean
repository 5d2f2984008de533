import Calculator.Proofs.Session

/-!
# Options for the output

Options for the output have no part in which lines a session goes through. A trace goes in front of
what a line has for standard error, as far as the line can be read (`Traces`); the label is in front
of the values and nowhere else (`Settings.answer`); and a terminal for standard error changes
nothing but standard error: `run_flags`.
-/

namespace Calculator.CommandLine

/-! ## Traces -/

/-- The tokens in a trace. -/
def tokensText (tokens : List Token) : String :=
  Style.faint.apply "tokens:" ++ " " ++ " ".intercalate (tokens.map Token.lexeme) ++ "\n"

/-- The tree in a trace. -/
def treeText (e : Located) : String :=
  Style.faint.apply "tree:" ++ " " ++ e.text ++ "\n"

/-- What comes of a line and what its trace shows: nothing of a line that falls into no tokens, the
tokens of one that is no expression, and the tokens and the tree of any other. -/
inductive Traces (line : String) : Except LineError Float → String → Prop
  | lexical {e : LexicalError} (untokenized : tokenize line = .error e) :
      Traces line (.error (.lexical e)) ""
  | grammatical {tokens : List Token} {e : SyntaxError} (tokenized : tokenize line = .ok tokens)
      (unparsed : Located.parse tokens = .error e) :
      Traces line (.error (.grammatical e)) (tokensText tokens)
  | expression {tokens : List Token} {e : Located} (tokenized : tokenize line = .ok tokens)
      (parsed : Located.parse tokens = .ok e) :
      Traces line (e.value.mapError .evaluation) (tokensText tokens ++ treeText e)

/-- The trace of a line stops where its evaluation does. -/
theorem traces_traceText (line : String) : Traces line (evalLine line) (traceText line) := by
  rw [traceText]
  cases tokenized : tokenize line with
  | error e =>
    have outcome : evalLine line = .error (.lexical e) := by
      rw [evalLine, parseLine, tokensOfLine, tokenized]
      rfl
    rw [outcome]
    exact .lexical tokenized
  | ok tokens =>
    have read : parseLine line = (Located.parse tokens).mapError .grammatical := by
      rw [parseLine, tokensOfLine, tokenized]
      rfl
    rw [evalLine, read]
    dsimp only
    cases parsed : Located.parse tokens with
    | error e =>
      dsimp only
      rw [String.append_empty]
      exact .grammatical tokenized parsed
    | ok e => exact .expression tokenized parsed

namespace Settings

variable {s t : Settings} {line : Line}

/-! ## One line -/

/-- Whether a line is worked out: it is a text with something to see, and at a prompt no word to
quit. -/
def works (s : Settings) : Line → Bool
  | .undecodable => false
  | .text line => !(s.prompting && isQuitWord line) && !isBlankLine line

/-- The trace of a line that is worked out. -/
def traceOf (s : Settings) (line : Line) : String :=
  match line with
  | .undecodable => ""
  | .text text => if s.works line then traceText text else ""

/-- What standard output gets of a line, with a label in front of the value. -/
def answer (s : Settings) (label : String) (line : Line) : String :=
  match line with
  | .undecodable => ""
  | .text text =>
    if s.works line then
      (match evalLine text with
        | .ok x => label ++ Number.text x ++ "\n"
        | .error _ => "") ++ s.prompt
    else ""

theorem reply_of_works {text : String} (works : s.works (.text text) = true) :
    s.reply (.text text) = s.evaluate text := by
  rw [Settings.works, Bool.and_eq_true, Bool.not_eq_true', Bool.not_eq_true'] at works
  rw [reply, works.1, if_neg Bool.false_ne_true, works.2, if_neg Bool.false_ne_true]

theorem exists_text_of_works (worked : s.works line = true) : ∃ text, line = .text text := by
  cases line with
  | undecodable => cases worked
  | text text => exact ⟨text, rfl⟩

theorem traceOf_of_works {text : String} (worked : s.works (.text text) = true) :
    s.traceOf (.text text) = traceText text := by
  rw [traceOf, if_pos worked]

theorem traceOf_of_works_eq_false (idle : s.works line = false) : s.traceOf line = "" := by
  cases line with
  | undecodable => rfl
  | text text => exact if_neg (Bool.not_eq_true _ ▸ idle)

theorem answer_of_works_eq_false (idle : s.works line = false) (label : String) :
    s.answer label line = "" := by
  cases line with
  | undecodable => rfl
  | text text => exact if_neg (Bool.not_eq_true _ ▸ idle)

/-- What is not worked out leads to no output, and to the same however values and diagnostics are
written. -/
theorem reply_of_works_eq_false (prompting : t.prompting = s.prompting)
    (idle : s.works line = false) :
    t.reply line = s.reply line ∧ (s.reply line).out = "" := by
  cases line with
  | undecodable => exact ⟨rfl, rfl⟩
  | text text =>
    rw [reply, reply, prompting]
    cases quits : s.prompting && isQuitWord text with
    | true => exact ⟨rfl, rfl⟩
    | false =>
      rw [works, quits, Bool.not_false, Bool.true_and, Bool.not_eq_false'] at idle
      rw [idle]
      exact ⟨rfl, rfl⟩

/-- A line that is worked out gets its trace, and else what it gets without. -/
theorem reply_verbose (quiet : s.verbose = false) (line : Line) :
    { s with verbose := true }.reply line
      = ⟨(s.reply line).out, s.traceOf line ++ (s.reply line).err, (s.reply line).ending⟩ := by
  cases worked : s.works line with
  | false =>
    have same := (reply_of_works_eq_false (s := s) (t := { s with verbose := true }) rfl worked).1
    rw [same, traceOf_of_works_eq_false worked, String.empty_append]
  | true =>
    obtain ⟨text, rfl⟩ := exists_text_of_works worked
    rw [reply_of_works worked, reply_of_works (s := { s with verbose := true }) worked,
      evaluate_eq, evaluate_eq, traceOf_of_works worked]
    simp [remarkText, trace, quiet]
    rfl

/-- A value is on standard output with its label, unless the label is not wanted. -/
theorem out_reply (line : Line) :
    (s.reply line).out = s.answer (if s.strip then "" else "Result: ") line := by
  cases worked : s.works line with
  | false => rw [(reply_of_works_eq_false rfl worked).2, answer_of_works_eq_false worked]
  | true =>
    obtain ⟨text, rfl⟩ := exists_text_of_works worked
    rw [reply_of_works worked, evaluate_eq, answer, if_pos worked]
    rfl

/-- Without the label, a line leads to the same on standard error. -/
theorem reply_strip (line : Line) :
    { s with strip := true }.reply line
      = ⟨s.answer "" line, (s.reply line).err, (s.reply line).ending⟩ := by
  cases worked : s.works line with
  | false =>
    obtain ⟨same, silent⟩ :=
      reply_of_works_eq_false (s := s) (t := { s with strip := true }) rfl worked
    rw [same, answer_of_works_eq_false worked, ← silent]
  | true =>
    obtain ⟨text, rfl⟩ := exists_text_of_works worked
    rw [reply_of_works worked, reply_of_works (s := { s with strip := true }) worked,
      evaluate_eq, evaluate_eq, answer, if_pos worked]
    rfl

/-- A style for diagnostics changes what a line has for standard error, and nothing else. -/
theorem reply_styled (styled : Bool) (line : Line) :
    ({ s with styled := styled }.reply line).out = (s.reply line).out ∧
    ({ s with styled := styled }.reply line).ending = (s.reply line).ending := by
  cases worked : s.works line with
  | false =>
    have same := (reply_of_works_eq_false (s := s) (t := { s with styled := styled }) rfl worked).1
    rw [same]
    exact ⟨rfl, rfl⟩
  | true =>
    obtain ⟨text, rfl⟩ := exists_text_of_works worked
    rw [reply_of_works worked, reply_of_works (s := { s with styled := styled }) worked,
      evaluate_eq, evaluate_eq]
    exact ⟨rfl, rfl⟩

/-! ## Whole sessions -/

/-- The lines that a session gets to. -/
def reached (s : Settings) (lines : List Line) : List Line :=
  lines.take (lines.findIdx s.closes + 1)

/-- Sessions go through the same lines if each line ends the one as it ends the other. -/
theorem session_congr (prompting : t.prompting = s.prompting)
    (ending : ∀ line, (t.reply line).ending = (s.reply line).ending) (lines : List Line) :
    t.session lines =
      ⟨s.prompt ++ String.join ((s.reached lines).map fun line => (t.reply line).out),
        String.join ((s.reached lines).map fun line => (t.reply line).err),
        (s.session lines).exit⟩ := by
  have closes : t.closes = s.closes := by
    funext line
    rw [Settings.closes, Settings.closes, ending]
  rw [session, session, replies_eq, replies_eq, closes, reached, List.take_add_one, prompt, prompt,
    prompting]
  cases here : lines[lines.findIdx s.closes]? with
  | none => simp [Function.comp_def]
  | some line => simp [ending, Function.comp_def]

/-- A session leaves what the lines lead to that it gets to. -/
theorem session_eq_join (lines : List Line) :
    (s.session lines).out
      = s.prompt ++ String.join ((s.reached lines).map fun line => (s.reply line).out) ∧
    (s.session lines).err = String.join ((s.reached lines).map fun line => (s.reply line).err) := by
  have own := s.session_congr rfl (fun _ => rfl) lines
  exact ⟨congrArg Report.out own, congrArg Report.err own⟩

/-- Traces go in front of what their lines have for standard error. -/
theorem session_verbose (quiet : s.verbose = false) (lines : List Line) :
    { s with verbose := true }.session lines =
      ⟨(s.session lines).out,
        String.join ((s.reached lines).map fun line => s.traceOf line ++ (s.reply line).err),
        (s.session lines).exit⟩ := by
  have replies (line : Line) := s.reply_verbose quiet line
  rw [s.session_congr (t := { s with verbose := true }) rfl
    fun line => by rw [replies], (s.session_eq_join lines).1]
  simp only [replies]

/-- Without the label, nothing but standard output changes. -/
theorem session_strip (lines : List Line) :
    { s with strip := true }.session lines =
      ⟨s.prompt ++ String.join ((s.reached lines).map (s.answer "")), (s.session lines).err,
        (s.session lines).exit⟩ := by
  have replies (line : Line) := s.reply_strip line
  rw [s.session_congr (t := { s with strip := true }) rfl
    fun line => by rw [replies], (s.session_eq_join lines).2]
  simp only [replies]

/-- Styled diagnostics change standard error alone. -/
theorem session_styled (styled : Bool) (lines : List Line) :
    ({ s with styled := styled }.session lines).out = (s.session lines).out ∧
    ({ s with styled := styled }.session lines).exit = (s.session lines).exit := by
  rw [s.session_congr (t := { s with styled := styled }) rfl
    fun line => (s.reply_styled styled line).2, (s.session_eq_join lines).1]
  simp only [s.reply_styled styled, and_self]

end Settings

/-! ## One option more -/

/-- The options `o'` are those of `o` and one more. -/
structure Options.TurnedOn (o : Options) (f : Flag) (o' : Options) : Prop where
  expressions : o'.expressions = o.expressions
  off : o.has f = false
  on : o'.has f = true
  others : ∀ g, g ≠ f → o'.has g = o.has g

/-- What is given once more is turned on. -/
theorem Options.turnedOn_append {f : Flag} (o : Options) (off : o.has f = false) :
    o.TurnedOn f { o with flags := o.flags ++ [f] } where
  expressions := rfl
  off := off
  on := by simp [has]
  others g other := by simp [has, other]

namespace Options.TurnedOn

variable {o o' : Options} {f : Flag} {source : Source} {terminals : Terminals}

/-- Only options for something else than the output have a part in what is started. -/
theorem starts (turned : o.TurnedOn f o') (output : f = .verbose ∨ f = .strip)
    {args args' : List String} (h : Starts args terminals o source)
    (work : Request.ofArguments args' = .work o') : Starts args' terminals o' source := by
  have others (g : Flag) (other : g ≠ .verbose ∧ g ≠ .strip) : o'.has g = o.has g :=
    turned.others g fun same => output.elim (same ▸ other.1) (same ▸ other.2)
  refine ⟨work, ?_, ?_, ?_⟩
  · rw [others .functions (by decide), h.noListing]
  · rw [others .grammar (by decide), h.noGrammar]
  · rw [others .interactive (by decide), turned.expressions, h.chosen]

theorem lines_eq (turned : o.TurnedOn f o') (input : List UInt8) (source : Source) :
    o'.lines input source = o.lines input source := by
  cases source <;> simp only [lines, turned.expressions]

theorem settings_verbose (turned : o.TurnedOn .verbose o') :
    o'.settings source terminals = { o.settings source terminals with verbose := true } := by
  rw [settings, settings, turned.on, turned.others .strip (by decide)]

theorem settings_strip (turned : o.TurnedOn .strip o') :
    o'.settings source terminals = { o.settings source terminals with strip := true } := by
  rw [settings, settings, turned.on, turned.others .verbose (by decide)]

end Options.TurnedOn

/-- No option for the output has a part in which lines a session goes through. With `--verbose`,
each line that is worked out has its trace in front of what it has for standard error, as far as its
evaluation gets, and nothing else changes. With `--strip`, the label in front of values is missing
from standard output, and nothing else changes. Whether standard error is a terminal makes no
difference to standard output and the exit code. -/
theorem run_flags {args : List String} {terminals : Terminals} {o : Options} {source : Source}
    (h : Starts args terminals o source) (input : List UInt8) :
    let s := o.settings source terminals
    let reached := s.reached (o.lines input source)
    let report := run args input terminals
    (∀ args' o', Request.ofArguments args' = .work o' → o.TurnedOn .verbose o' →
      let traced := run args' input terminals
      traced.out = report.out ∧ traced.exit = report.exit ∧
      report.err = String.join (reached.map fun line => (s.reply line).err) ∧
      traced.err = String.join (reached.map fun line => s.traceOf line ++ (s.reply line).err)) ∧
    (∀ text, s.works (.text text) = true → Traces text (evalLine text) (s.traceOf (.text text))) ∧
    (∀ line, s.works line = false → s.traceOf line = "") ∧
    (∀ args' o', Request.ofArguments args' = .work o' → o.TurnedOn .strip o' →
      let stripped := run args' input terminals
      stripped.err = report.err ∧ stripped.exit = report.exit ∧
      report.out = s.prompt ++ String.join (reached.map (s.answer "Result: ")) ∧
      stripped.out = s.prompt ++ String.join (reached.map (s.answer ""))) ∧
    (∀ styled,
      let other := run args input { terminals with error := styled }
      other.out = report.out ∧ other.exit = report.exit) := by
  intro s reached report
  have held : report = s.session (o.lines input source) := h.run_eq input
  have own := s.session_congr rfl (fun _ => rfl) (o.lines input source)
  rw [← held] at own
  refine ⟨fun args' o' work turned => ?_, fun text works => ?_,
    fun line idle => s.traceOf_of_works_eq_false idle, fun args' o' work turned => ?_,
    fun styled => ?_⟩
  · have traced := (turned.starts (.inl rfl) h work).run_eq input
    rw [turned.settings_verbose, turned.lines_eq, s.session_verbose turned.off, ← held] at traced
    dsimp only
    rw [traced]
    exact ⟨rfl, rfl, congrArg Report.err own, rfl⟩
  · rw [s.traceOf_of_works works]
    exact traces_traceText text
  · have stripped := (turned.starts (.inr rfl) h work).run_eq input
    rw [turned.settings_strip, turned.lines_eq, s.session_strip, ← held] at stripped
    dsimp only
    rw [stripped]
    have answers (line : Line) : (s.reply line).out = s.answer "Result: " line := by
      rw [s.out_reply, show s.strip = false from turned.off, if_neg Bool.false_ne_true]
    refine ⟨rfl, rfl, ?_, rfl⟩
    rw [own]
    simp only [answers]
    rfl
  · have other : Starts args { terminals with error := styled } o source :=
      ⟨h.work, h.noListing, h.noGrammar, h.chosen⟩
    rw [other.run_eq]
    exact held ▸ s.session_styled styled _

/-- `pi` and `abs` both have a trace, though `abs` lacks its bracket. -/
theorem run_flags_abs :
    let s : Settings := { prompting := false, strip := false, verbose := false, styled := false }
    let report := run ["pi", "abs"] [] ⟨false, false, false⟩
    let traced := run ["-v", "pi", "abs"] [] ⟨false, false, false⟩
    let stripped := run ["pi", "abs", "--strip"] [] ⟨false, false, false⟩
    let styled := run ["pi", "abs"] [] ⟨false, false, true⟩
    traced.out = report.out ∧ traced.exit = report.exit ∧
    report.err = (s.reply (.text "pi")).err ++ (s.reply (.text "abs")).err ∧
    traced.err = traceText "pi" ++ (s.reply (.text "pi")).err ++
      (traceText "abs" ++ (s.reply (.text "abs")).err) ∧
    stripped.err = report.err ∧ stripped.exit = report.exit ∧
    styled.out = report.out ∧ styled.exit = report.exit := by
  intro s report traced stripped styled
  let o : Options := ⟨[], ["pi", "abs"]⟩
  have starts : Starts ["pi", "abs"] ⟨false, false, false⟩ o .arguments :=
    ⟨by cbv, rfl, rfl, rfl⟩
  have held : o.settings .arguments ⟨false, false, false⟩ = s := rfl
  have first : (o.lines [] .arguments).findIdx s.closes = 1 := by decide +kernel
  have reached : s.reached (o.lines [] .arguments) = [.text "pi", .text "abs"] := by
    rw [Settings.reached, first]
    rfl
  have works : s.works (.text "pi") = true ∧ s.works (.text "abs") = true := by decide +kernel
  obtain ⟨verbose, -, -, strip, terminal⟩ := run_flags starts []
  obtain ⟨out, exit, err, err'⟩ := verbose ["-v", "pi", "abs"] _ (by cbv) (o.turnedOn_append rfl)
  obtain ⟨own, exit', -, -⟩ := strip ["pi", "abs", "--strip"] _ (by cbv) (o.turnedOn_append rfl)
  rw [held, reached] at err err'
  refine ⟨out, exit, err.trans ?_, err'.trans ?_, own, exit', terminal true⟩
  · simp
  · simp [s.traceOf_of_works, works]

end Calculator.CommandLine
