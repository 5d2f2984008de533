import Calculator.Proofs.Lossless
import Calculator.Proofs.NumberText
import Calculator.Proofs.Session

/-!
# Sessions with a prompt

At a prompt a line without a value only gets its diagnostic. What ends the session is a word to
quit, a line of white space, and a line that is no text (`Line.leaves`). Each line is asked for, the
one that ends the session like those that are worked out, so that prompts count them: `run_prompt`.
-/

namespace Calculator

/-! ## White space around a word -/

/-- What trimming takes off a text is white space at its ends. -/
theorem exists_eq_trimBlanks (cs : List Char) :
    ∃ before after, cs = before ++ trimBlanks cs ++ after ∧ ∀ c ∈ before ++ after, isBlank c := by
  let rest := (cs.dropWhile isBlank).reverse
  refine ⟨cs.takeWhile isBlank, (rest.takeWhile isBlank).reverse, ?_, fun c mem => ?_⟩
  · rw [trimBlanks, List.append_assoc, ← List.reverse_append, List.takeWhile_append_dropWhile,
      List.reverse_reverse, List.takeWhile_append_dropWhile]
  · rcases List.mem_append.1 mem with before | after
    · exact List.mem_takeWhile_imp before
    · exact List.mem_takeWhile_imp (List.mem_reverse.1 after)

/-- Between white space, a word is what trimming leaves. -/
theorem trimBlanks_append {before word after : List Char}
    (blank : ∀ c ∈ before ++ after, isBlank c) (visible : ∀ c ∈ word, isBlank c = false)
    (nonempty : word ≠ []) : trimBlanks (before ++ word ++ after) = word := by
  have kept {cs : List Char} (row : ∀ c ∈ cs, isBlank c = false) (some : cs ≠ [])
      (rest : List Char) : (cs ++ rest).dropWhile isBlank = cs ++ rest := by
    cases cs with
    | nil => exact absurd rfl some
    | cons c cs => exact List.dropWhile_cons_of_neg (by simp [row c List.mem_cons_self])
  have behind : ∀ c ∈ after.reverse, isBlank c :=
    fun c mem => blank c (List.mem_append_right _ (List.mem_reverse.1 mem))
  have backwards := kept (fun c mem => visible c (List.mem_reverse.1 mem))
    (List.reverse_ne_nil_iff.2 nonempty) []
  rw [List.append_nil] at backwards
  rw [trimBlanks, List.append_assoc,
    List.dropWhile_append_of_pos (fun c mem => blank c (List.mem_append_left _ mem)),
    kept visible nonempty, List.reverse_append, List.dropWhile_append_of_pos behind, backwards,
    List.reverse_reverse]

/-- There are no capitals among white space. -/
theorem isBlank_toLower {c : Char} (blank : isBlank c) : isBlank c.toLower := by
  rw [Char.toLower]
  split
  · rename_i capital
    have low : 65 ≤ c.toNat := capital.1
    have high : c.toNat ≤ 90 := capital.2
    rw [isBlank_eq_false_of_lt (by omega) (by omega)] at blank
    cases blank
  · exact blank

namespace CommandLine

/-! ## Words to quit -/

/-- The words that ask for the end of a session. -/
def quitWords : List (List Char) :=
  [['e', 'x', 'i', 't'], ['q', 'u', 'i', 't'], ['q']]

theorem visible_of_mem_quitWords {word : List Char} (mem : word ∈ quitWords) :
    word ≠ [] ∧ ∀ c ∈ word, isBlank c = false := by
  simp only [quitWords, List.mem_cons, List.not_mem_nil, or_false] at mem
  rcases mem with rfl | rfl | rfl <;> simp [isBlank]

/-- A line asks for the end of a session with one of these words in any letter case, and with
nothing around it but white space. -/
def IsQuitLine (line : String) : Prop :=
  ∃ before word after : List Char, line.toList = before ++ word ++ after ∧
    (∀ c ∈ before ++ after, isBlank c) ∧
    word.map Char.toLower ∈ quitWords

/-- The words to quit are told by what trimming leaves of a line. -/
theorem isQuitWord_iff_mem {line : String} :
    isQuitWord line ↔ (trimBlanks line.toList).map Char.toLower ∈ quitWords := by
  have spelled (text : String) (cs : List Char) : String.ofList cs = text ↔ cs = text.toList :=
    ⟨fun same => by rw [← same, String.toList_ofList],
      fun same => by rw [same, String.ofList_toList]⟩
  simp only [isQuitWord, quitWords, List.contains_iff_mem, List.mem_cons, List.not_mem_nil,
    or_false, spelled]
  rfl

/-- The program knows the lines that ask for the end of a session. -/
theorem isQuitWord_iff {line : String} : isQuitWord line ↔ IsQuitLine line := by
  rw [isQuitWord_iff_mem]
  constructor
  · intro quits
    obtain ⟨before, after, cut, blank⟩ := exists_eq_trimBlanks line.toList
    exact ⟨before, _, after, cut, blank, quits⟩
  · rintro ⟨before, word, after, cut, blank, quits⟩
    obtain ⟨nonempty, plain⟩ := visible_of_mem_quitWords quits
    have visible : ∀ c ∈ word, isBlank c = false := by
      intro c mem
      refine Bool.eq_false_iff.2 fun blank => ?_
      have := plain _ (List.mem_map_of_mem mem)
      rw [isBlank_toLower blank] at this
      cases this
    rw [cut, trimBlanks_append blank visible (fun none => nonempty (by rw [none]; rfl))]
    exact quits

/-- A line of white space has no word to quit. -/
theorem isBlankLine_eq_false_of_isQuitWord {line : String} (quits : isQuitWord line) :
    isBlankLine line = false := by
  refine Bool.eq_false_iff.2 fun blank => ?_
  have nothing : trimBlanks line.toList = [] := by
    rw [trimBlanks, List.dropWhile_eq_nil_iff.2 (List.all_eq_true.1 blank)]
    rfl
  rw [isQuitWord_iff_mem, nothing] at quits
  revert quits
  decide

/-! ## Counting prompts -/

/-- How often a word stands in a text. -/
def occurrences (word : List Char) : List Char → Nat
  | [] => 0
  | c :: cs => (if word.isPrefixOf (c :: cs) then 1 else 0) + occurrences word cs

section Occurrences

variable {c : Char} {word : List Char}

/-- A text without the first letter of a word has no part in its occurrences. -/
theorem occurrences_append {us : List Char} (absent : c ∉ us) (vs : List Char) :
    occurrences (c :: word) (us ++ vs) = occurrences (c :: word) vs := by
  induction us with
  | nil => rfl
  | cons u us ih =>
    rw [List.mem_cons, not_or] at absent
    rw [List.cons_append, occurrences, ih absent.2, List.isPrefixOf, beq_false_of_ne absent.1]
    exact Nat.zero_add _

/-- A word that begins with a letter of its own occurs once where it stands. -/
theorem occurrences_word_append (absent : c ∉ word) (vs : List Char) :
    occurrences (c :: word) (c :: word ++ vs) = occurrences (c :: word) vs + 1 := by
  have here : (c :: word).isPrefixOf (c :: (word ++ vs)) = true :=
    List.isPrefixOf_iff_prefix.2 ⟨vs, rfl⟩
  rw [List.cons_append, occurrences, if_pos here, occurrences_append absent, Nat.add_comm]

end Occurrences

/-- Prompts are counted behind texts without a capital `E`. -/
theorem occurrences_promptText {texts : List String} (absent : ∀ text ∈ texts, 'E' ∉ text.toList) :
    occurrences promptText.toList
      (promptText ++ String.join (texts.map (· ++ promptText))).toList = texts.length + 1 := by
  have spelled : promptText.toList = 'E' :: "nter expression: ".toList := rfl
  have own : 'E' ∉ "nter expression: ".toList := by decide
  rw [String.toList_append, spelled, occurrences_word_append own]
  congr 1
  induction texts with
  | nil => rfl
  | cons text texts ih =>
    rw [List.forall_mem_cons] at absent
    rw [List.map_cons, String.join_cons, String.toList_append, String.toList_append, spelled,
      List.append_assoc, occurrences_append absent.1, occurrences_word_append own, ih absent.2,
      List.length_cons]

/-- No result has a capital `E`. -/
theorem Settings.not_mem_resultText (s : Settings) (line : Line) :
    'E' ∉ (s.resultText line).toList := by
  have value (x : Float) : 'E' ∉ (s.valueText x).toList := by
    have digits := Number.not_mem_text (c := 'E') (by decide) (by decide) x
    have label : 'E' ∉ (if s.strip then "" else "Result: ").toList := by
      cases s.strip <;> decide
    rw [valueText, String.toList_append, String.toList_append, List.mem_append, List.mem_append]
    rintro ((mem | mem) | mem)
    · exact label mem
    · exact digits mem
    · revert mem
      decide
  have nothing : 'E' ∉ "".toList := by decide
  cases line with
  | undecodable => exact nothing
  | text line =>
    rw [resultText]
    cases evalLine line with
    | ok x => exact value x
    | error e => exact nothing

/-! ## With a prompt -/

/-- Whether a line ends a session with a prompt: it is no text, it has a word to quit, or it is
blank. -/
def Line.leaves : Line → Bool
  | .undecodable => true
  | .text line => isQuitWord line || isBlankLine line

/-- What standard error gets of a line that ends a session with a prompt. -/
def Line.leaveText : Line → String
  | .undecodable => reportText "stream did not contain valid UTF-8"
  | .text line => if isQuitWord line then "" else reportText "Empty expression"

/-- How a session with a prompt ends. -/
def Line.leaveEnding : Line → Ending
  | .undecodable => .failure
  | .text line => if isQuitWord line then .success else .failure

/-- A line that does not end a session is a text without a word to quit, and not blank. -/
theorem Line.exists_text_of_leaves_eq_false {line : Line} (stays : line.leaves = false) :
    ∃ text, line = .text text ∧ ¬ IsQuitLine text ∧ isBlankLine text = false := by
  cases line with
  | undecodable => cases stays
  | text text =>
    rw [leaves, Bool.or_eq_false_iff] at stays
    refine ⟨text, rfl, fun quits => ?_, stays.2⟩
    rw [isQuitWord_iff.2 quits] at stays
    cases stays.1

theorem Ending.exitCode_eq_zero_iff {ending : Ending} :
    ending.exitCode = 0 ↔ ending = .success := by
  cases ending <;> decide

theorem Ending.exitCode_eq_one_iff {ending : Ending} :
    ending.exitCode = 1 ↔ ending = .failure := by
  cases ending <;> decide

/-- A session ends well with a word to quit. -/
theorem Line.leaveEnding_eq_success_iff {line : Line} :
    line.leaveEnding = .success ↔ ∃ text, line = .text text ∧ IsQuitLine text := by
  cases line with
  | undecodable => simp [leaveEnding]
  | text line => simp [leaveEnding, ← isQuitWord_iff]

/-- A session fails that ends with a blank line or one that is no text. -/
theorem Line.leaveEnding_eq_failure_iff {line : Line} (leaves : line.leaves = true) :
    line.leaveEnding = .failure ↔
      line = .undecodable ∨ ∃ text, line = .text text ∧ isBlankLine text = true := by
  cases line with
  | undecodable => simp [leaveEnding]
  | text line =>
    cases quits : isQuitWord line with
    | true => simp [leaveEnding, quits, isBlankLine_eq_false_of_isQuitWord quits]
    | false =>
      rw [Line.leaves, quits, Bool.false_or] at leaves
      simp [leaveEnding, quits, leaves]

namespace Settings

variable {s : Settings} {line : Line}

section Prompting

variable (prompting : s.prompting = true)
include prompting

/-- A line that ends the session is not worked out. -/
theorem reply_of_leaves (leaves : line.leaves = true) :
    s.reply line = { err := line.leaveText, ending := some line.leaveEnding } := by
  cases line with
  | undecodable => rfl
  | text line =>
    rw [reply, prompting, Bool.true_and, Line.leaveText, Line.leaveEnding]
    cases quits : isQuitWord line with
    | true => rfl
    | false =>
      rw [Line.leaves, quits, Bool.false_or] at leaves
      rw [leaves]
      rfl

/-- Every other line is worked out, and the next one is asked for. -/
theorem reply_of_leaves_eq_false (stays : line.leaves = false) :
    s.reply line = { out := s.resultText line ++ promptText, err := s.remarkText line } := by
  cases line with
  | undecodable => cases stays
  | text line =>
    rw [Line.leaves, Bool.or_eq_false_iff] at stays
    rw [reply, stays.1, stays.2, Bool.and_false, if_neg Bool.false_ne_true,
      if_neg Bool.false_ne_true, evaluate_eq, prompt, prompting]
    rfl

/-- It is these lines that close a session with a prompt. -/
theorem closes_eq_leaves : s.closes = Line.leaves := by
  funext line
  rw [closes]
  cases quality : line.leaves with
  | true => rw [reply_of_leaves prompting quality]; rfl
  | false => rw [reply_of_leaves_eq_false prompting quality]; rfl

/-- All lines in front of the one that ends the session are worked out, and asked for. -/
theorem session_eq_of_prompting (lines : List Line) :
    let k := lines.findIdx Line.leaves
    s.session lines =
      ⟨promptText ++ String.join ((lines.take k).map fun line => s.resultText line ++ promptText),
        String.join ((lines.take k).map s.remarkText) ++ lines[k]?.elim "" Line.leaveText,
        (lines[k]?.elim .success Line.leaveEnding).exitCode⟩ := by
  intro k
  have whole := s.replies_eq lines
  rw [closes_eq_leaves prompting] at whole
  have answers : (lines.take k).map s.reply = (lines.take k).map fun line =>
      { out := s.resultText line ++ promptText, err := s.remarkText line } :=
    List.map_congr_left fun line mem =>
      reply_of_leaves_eq_false prompting (eq_false_of_mem_take_findIdx mem)
  rw [session, whole, answers, prompt, if_pos prompting]
  cases here : lines[k]? with
  | none => simp [k, Function.comp_def]
  | some line =>
    have replied := reply_of_leaves prompting (of_getElem?_findIdx here)
    simp [k, replied, Function.comp_def]

/-- There is one prompt more than there are lines that are worked out. -/
theorem occurrences_session (lines : List Line) :
    occurrences promptText.toList (s.session lines).out.toList
      = (lines.take (lines.findIdx Line.leaves)).length + 1 := by
  have results : ∀ text ∈ (lines.take (lines.findIdx Line.leaves)).map s.resultText,
      'E' ∉ text.toList := by
    intro text mem
    obtain ⟨line, -, rfl⟩ := List.mem_map.1 mem
    exact s.not_mem_resultText line
  have count := occurrences_promptText results
  rw [List.map_map, List.length_map] at count
  rw [s.session_eq_of_prompting prompting lines]
  exact count

/-- It is a blank line or one that is no text that a session with a prompt fails at. -/
theorem exit_session_eq_one_iff (lines : List Line) :
    let last? := lines[lines.findIdx Line.leaves]?
    (s.session lines).exit = 1 ↔ last? = some .undecodable ∨
      ∃ text, last? = some (.text text) ∧ isBlankLine text = true := by
  rw [s.session_eq_of_prompting prompting lines]
  dsimp only
  cases here : lines[lines.findIdx Line.leaves]? with
  | none => simp [Ending.exitCode]
  | some line =>
    rw [Option.elim_some, Ending.exitCode_eq_one_iff,
      Line.leaveEnding_eq_failure_iff (of_getElem?_findIdx here)]
    simp

/-- A session with a prompt succeeds at a word to quit and at the end of its lines. -/
theorem exit_session_eq_zero_iff (lines : List Line) :
    let k := lines.findIdx Line.leaves
    (s.session lines).exit = 0 ↔ k = lines.length ∨
      ∃ text, lines[k]? = some (.text text) ∧ IsQuitLine text := by
  dsimp only
  rw [s.session_eq_of_prompting prompting lines, ← getElem?_findIdx_eq_none_iff]
  dsimp only
  cases here : lines[lines.findIdx Line.leaves]? with
  | none => simp [Ending.exitCode]
  | some line =>
    rw [Option.elim_some, Ending.exitCode_eq_zero_iff, Line.leaveEnding_eq_success_iff]
    simp

/-- What follows the line that ends a session plays no part. -/
theorem session_take_append {lines : List Line} (lt : lines.findIdx Line.leaves < lines.length)
    (later : List Line) :
    s.session (lines.take (lines.findIdx Line.leaves + 1) ++ later) = s.session lines := by
  rw [← closes_eq_leaves prompting] at lt ⊢
  rw [session, s.replies_take_append lt later]
  rfl

/-- A line without a value only adds its diagnostic, and the prompt for the next line. -/
theorem session_of_error {before behind : List Line} {text : String} {e : LineError}
    (inside : before.length < (before ++ Line.text text :: behind).findIdx Line.leaves)
    (worthless : evalLine text = .error e) :
    s.session (before ++ .text text :: behind) =
      ⟨(s.session before).out ++ (promptText ++ (s.replies behind).out),
        (s.session before).err ++
          (s.trace text ++ diagnosticText s.styled text e ++ (s.replies behind).err),
        (s.replies behind).exit⟩ ∧
    s.session (before ++ behind) =
      ⟨(s.session before).out ++ (s.replies behind).out,
        (s.session before).err ++ (s.replies behind).err, (s.replies behind).exit⟩ := by
  have goesOn : ∀ line ∈ before, line.leaves = false :=
    fun _ mem => eq_false_of_lt_findIdx inside (List.mem_append_left _ mem)
  have stays : (Line.text text).leaves = false :=
    eq_false_of_lt_findIdx inside (List.mem_append_right _ List.mem_cons_self)
  rw [← closes_eq_leaves prompting] at goesOn
  refine ⟨?_, s.session_append goesOn behind⟩
  have worked : s.replies (.text text :: behind) =
      ⟨promptText ++ (s.replies behind).out,
        s.trace text ++ diagnosticText s.styled text e ++ (s.replies behind).err,
        (s.replies behind).exit⟩ := by
    rw [replies, reply_of_leaves_eq_false prompting stays, resultText, remarkText, worthless]
    simp
  rw [s.session_append goesOn, worked]

end Prompting

end Settings

/-- With a prompt, the arguments come first and then what is typed, up to a word to quit, a blank
line, one that is no text, or the end of the input. All lines before that are worked out. Standard
output is a prompt, and then for each of them its result, if it has one, and another prompt, so
there is one prompt more than there are such lines. The session fails if and only if a blank line or
one that is no text ended it. A line without a value has its diagnostic on standard error, and all
other lines lead to the same without it. -/
theorem run_prompt {args : List String} {terminals : Terminals} {o : Options}
    (h : Starts args terminals o .prompt) (input : List UInt8) :
    let s := o.settings .prompt terminals
    let lines := o.expressions.map Line.text ++ Line.ofInput input
    let k := lines.findIdx Line.leaves
    let report := run args input terminals
    report.out = promptText ++
      String.join ((lines.take k).map fun line => s.resultText line ++ promptText) ∧
    report.err = String.join ((lines.take k).map s.remarkText) ++ lines[k]?.elim "" Line.leaveText ∧
    occurrences promptText.toList report.out.toList = (lines.take k).length + 1 ∧
    (∀ line ∈ lines.take k, ∃ text, line = .text text ∧ ¬ IsQuitLine text ∧
      isBlankLine text = false) ∧
    (report.exit = 1 ↔ lines[k]? = some .undecodable ∨
      ∃ text, lines[k]? = some (.text text) ∧ isBlankLine text = true) ∧
    (report.exit = 0 ↔ k = lines.length ∨
      ∃ text, lines[k]? = some (.text text) ∧ IsQuitLine text) ∧
    (k < lines.length → ∀ later, s.session (lines.take (k + 1) ++ later) = report) ∧
    (∀ before text behind e, lines = before ++ .text text :: behind → before.length < k →
      evalLine text = .error e →
      report =
        ⟨(s.session before).out ++ (promptText ++ (s.replies behind).out),
          (s.session before).err ++
            (s.trace text ++ diagnosticText s.styled text e ++ (s.replies behind).err),
          (s.replies behind).exit⟩ ∧
      s.session (before ++ behind) =
        ⟨(s.session before).out ++ (s.replies behind).out,
          (s.session before).err ++ (s.replies behind).err, (s.replies behind).exit⟩) := by
  intro s lines k report
  have prompting : s.prompting = true := rfl
  have held : report = s.session lines := h.run_eq input
  have shape := s.session_eq_of_prompting prompting lines
  rw [held]
  refine ⟨congrArg Report.out shape, congrArg Report.err shape,
    s.occurrences_session prompting lines, ?_, s.exit_session_eq_one_iff prompting lines,
    s.exit_session_eq_zero_iff prompting lines, s.session_take_append prompting, ?_⟩
  · intro line mem
    exact Line.exists_text_of_leaves_eq_false (eq_false_of_mem_take_findIdx mem)
  · intro before text behind e cut inside worthless
    have within : before.length < lines.findIdx Line.leaves := inside
    rw [cut] at within ⊢
    exact s.session_of_error prompting within worthless

/-- With `pi` and `abs` as arguments, a prompted session writes the value of the one and what is
wrong with the other, which lacks its bracket, and goes on to the next argument, and that one
quits. -/
theorem run_prompt_quit :
    let report := run ["-i", "pi", "abs", " Quit "] [] ⟨true, true, false⟩
    report.out =
      "Enter expression: Result: 3.141592653589793\n" ++
      "Enter expression: " ++
      "Enter expression: " ∧
    report.err =
      "at 4: Syntax error: Expected '(' after function name 'abs'\n" ++
      "abs\n" ++
      "   ^\n" ∧
    report.exit = 0 := by
  intro report
  let o : Options := ⟨[.interactive], ["pi", "abs", " Quit "]⟩
  let s : Settings := o.settings .prompt ⟨true, true, false⟩
  have starts : Starts ["-i", "pi", "abs", " Quit "] ⟨true, true, false⟩ o .prompt :=
    ⟨by cbv, rfl, rfl, rfl⟩
  have first : (o.expressions.map Line.text ++ Line.ofInput []).findIdx Line.leaves = 2 := by
    decide +kernel
  have quits : IsQuitLine " Quit " := isQuitWord_iff.1 (by decide +kernel)
  obtain ⟨out, err, -, -, -, exit, -⟩ := run_prompt starts []
  rw [first] at out err exit
  refine ⟨?_, ?_, exit.2 (.inr ⟨" Quit ", rfl, quits⟩)⟩
  · have value : s.resultText (.text "pi") = "Result: 3.141592653589793\n" := by decide +kernel
    have noValue : s.resultText (.text "abs") = "" := by decide +kernel
    refine out.trans ?_
    show promptText ++ String.join [s.resultText (.text "pi") ++ promptText,
      s.resultText (.text "abs") ++ promptText] = _
    rw [value, noValue]
    decide
  · have noRemark : s.remarkText (.text "pi") = "" := by decide +kernel
    have remark : s.remarkText (.text "abs") =
        "at 4: Syntax error: Expected '(' after function name 'abs'\nabs\n   ^\n" := by
      decide +kernel
    have leaving : Line.leaveText (.text " Quit ") = "" := by
      rw [Line.leaveText, if_pos (isQuitWord_iff.2 quits)]
    refine err.trans ?_
    show String.join [s.remarkText (.text "pi"), s.remarkText (.text "abs")] ++
      Line.leaveText (.text " Quit ") = _
    rw [noRemark, remark, leaving]
    decide

end CommandLine

end Calculator
