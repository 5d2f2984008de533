import Calculator.Proofs.Session

/-!
# Lines behind `--` and lines of the input

Lines can be handed to the program behind `--`, or piped into it with a line feed behind each. In
UTF-8 only a line feed has the byte of one, so that the input falls into the lines that were joined:
`Line.ofInput_eq`. Nothing but the source of the lines tells the two sessions apart: `run_piped`.
-/

namespace Calculator.CommandLine

/-! ## Bytes of a text -/

/-- The bytes of a text. -/
def textBytes (text : String) : List UInt8 :=
  text.toUTF8.data.toList

section TextBytes

variable {text : String} {b : UInt8} {c : Char}

/-- The bytes of a text are those of its characters. -/
theorem textBytes_eq_flatMap : textBytes text = text.toList.flatMap String.utf8EncodeChar := by
  rw [textBytes, String.toUTF8_eq_toByteArray, ← String.utf8Encode_toList, List.utf8Encode,
    List.toList_data_toByteArray]

/-- Only the empty text has no bytes. -/
theorem textBytes_eq_nil_iff : textBytes text = [] ↔ text = "" := by
  rw [textBytes_eq_flatMap, List.flatMap_eq_nil_iff]
  simp only [String.utf8EncodeChar_ne_nil, imp_false]
  rw [← List.eq_nil_iff_forall_not_mem, String.toList_eq_nil_iff]

/-- A byte of ASCII is a character of its own, and no other character has it. -/
theorem eq_ofNat_of_mem_utf8EncodeChar (ascii : b.toNat < 128)
    (mem : b ∈ String.utf8EncodeChar c) : c = Char.ofNat b.toNat := by
  have code : c.val.toNat = b.toNat := by
    rw [String.utf8EncodeChar] at mem
    -- One byte is the code; where there are more, each is 128 at least.
    split_ifs at mem <;> simp only [List.mem_cons, List.not_mem_nil, or_false] at mem
    · rw [mem, UInt8.toNat_ofNat']
      omega
    all_goals rcases mem with rfl | rfl | rfl | rfl <;> rw [UInt8.toNat_ofNat'] at ascii <;> omega
  rw [← code]
  exact (Char.ofNat_toNat c).symm

/-- A byte of ASCII stands for its character. -/
theorem ofNat_mem_of_mem_textBytes (ascii : b.toNat < 128) (mem : b ∈ textBytes text) :
    Char.ofNat b.toNat ∈ text.toList := by
  rw [textBytes_eq_flatMap, List.mem_flatMap] at mem
  obtain ⟨c, place, own⟩ := mem
  rwa [← eq_ofNat_of_mem_utf8EncodeChar ascii own]

/-- A last byte of ASCII stands for the last character. -/
theorem getLast?_eq_ofNat_of_textBytes (ascii : b.toNat < 128)
    (last : (textBytes text).getLast? = some b) :
    text.toList.getLast? = some (Char.ofNat b.toNat) := by
  rw [textBytes_eq_flatMap] at last
  rcases List.eq_nil_or_concat text.toList with empty | ⟨cs, c, cut⟩
  · rw [empty] at last
    cases last
  · have own : (String.utf8EncodeChar c).getLast? = some b := by
      rwa [cut, List.concat_eq_append, List.flatMap_append, List.flatMap_singleton,
        List.getLast?_append_of_ne_nil _ String.utf8EncodeChar_ne_nil] at last
    rw [cut, List.concat_eq_append, List.getLast?_concat,
      eq_ofNat_of_mem_utf8EncodeChar ascii (List.mem_of_getLast? own)]

end TextBytes

/-! ## Lines of the input -/

/-- The bytes are the lines, with a line feed behind each and perhaps a carriage return in front of
it. The line feed behind a last line that is not empty can be left out. -/
inductive Piped : List String → List UInt8 → Prop
  | nil : Piped [] []
  | last {line : String} (nonempty : line ≠ "") : Piped [line] (textBytes line)
  | feed {line : String} {lines : List String} {bytes : List UInt8} (later : Piped lines bytes) :
      Piped (line :: lines) (textBytes line ++ 10 :: bytes)
  | returnFeed {line : String} {lines : List String} {bytes : List UInt8}
      (later : Piped lines bytes) : Piped (line :: lines) (textBytes line ++ 13 :: 10 :: bytes)

namespace Line

variable {line : String} {bytes : List UInt8}

/-- The bytes of a text make that text. -/
theorem ofBytes_textBytes (line : String) : ofBytes (textBytes line) = .text line := by
  have own : (⟨(textBytes line).toArray⟩ : ByteArray) = line.toByteArray := rfl
  rw [ofBytes, own, String.fromUTF8?, dif_pos line.isValidUTF8]
  rfl

/-- Bytes that are no line feed go to the line that has begun. -/
theorem split_append (unbroken : 10 ∉ bytes) (reversed later : List UInt8) :
    split reversed (bytes ++ later) = split (bytes.reverse ++ reversed) later := by
  induction bytes generalizing reversed with
  | nil => rfl
  | cons b bytes ih =>
    rw [List.mem_cons, not_or] at unbroken
    rw [List.cons_append, split, if_neg (Ne.symm unbroken.1), ih unbroken.2, List.reverse_cons,
      List.append_assoc]
    rfl

/-- A line loses nothing in front of its line feed if it does not end in a carriage return. -/
theorem ofEnded_textBytes (kept : line.toList.getLast? ≠ some '\r') :
    ofEnded (textBytes line).reverse = .text line := by
  have noReturn : ∀ before, (textBytes line).reverse ≠ 13 :: before := by
    intro before ends
    have last : (textBytes line).getLast? = some 13 := by
      rw [← List.head?_reverse, ends]
      rfl
    exact kept (getLast?_eq_ofNat_of_textBytes (by decide) last)
  rw [ofEnded, List.reverse_reverse, ofBytes_textBytes]
  exact noReturn

/-- It loses the carriage return that stands in front of its line feed. -/
theorem ofEnded_return (line : String) :
    ofEnded (13 :: (textBytes line).reverse) = .text line := by
  rw [ofEnded, List.reverse_reverse, ofBytes_textBytes]

/-- The input falls into the lines that it was joined from. -/
theorem ofInput_eq {lines : List String} (piped : Piped lines bytes)
    (plain : ∀ line ∈ lines, '\n' ∉ line.toList ∧ line.toList.getLast? ≠ some '\r') :
    ofInput bytes = lines.map .text := by
  have unbroken {line : String} (h : '\n' ∉ line.toList) : 10 ∉ textBytes line :=
    fun mem => h (ofNat_mem_of_mem_textBytes (by decide) mem)
  rw [ofInput]
  induction piped with
  | nil => rfl
  | last nonempty =>
    rw [List.forall_mem_singleton] at plain
    have whole := split_append (unbroken plain.1) [] []
    rw [List.append_nil, List.append_nil] at whole
    have begun : (textBytes _).reverse ≠ [] :=
      fun empty => nonempty (textBytes_eq_nil_iff.1 (List.reverse_eq_nil_iff.1 empty))
    rw [whole, split, if_neg (mt List.isEmpty_iff.1 begun), List.reverse_reverse, ofBytes_textBytes]
    rfl
  | feed later ih =>
    rw [List.forall_mem_cons] at plain
    rw [split_append (unbroken plain.1.1), List.append_nil, split, if_pos rfl,
      ofEnded_textBytes plain.1.2, ih plain.2]
    rfl
  | returnFeed later ih =>
    rw [List.forall_mem_cons] at plain
    rw [split_append (unbroken plain.1.1), List.append_nil, split, if_neg (by decide), split,
      if_pos rfl, ofEnded_return, ih plain.2]
    rfl

end Line

/-! ## Lines of the arguments -/

/-- What is asked for when lines are handed over as well. -/
def Request.withLines (lines : List String) : Request → Request
  | .work o => .work { o with expressions := o.expressions ++ lines }
  | request => request

/-- What decides before all options are turned on leaves nothing to work out. -/
theorem Options.withLines_of_turnOn_eq_error {o : Options} {switches : List (Option Switch)}
    {request : Request} (decided : o.turnOn switches = .error request) (lines : List String) :
    request.withLines lines = request := by
  fun_induction turnOn o switches with
  | case1 => cases decided
  | case2 => cases decided; rfl
  | case3 => cases decided; rfl
  | case4 => cases decided; rfl
  | case5 => cases decided; rfl
  | case6 o f rest new ih => exact ih decided

/-- What stands behind `--` is handed over, and has no part in anything else. -/
theorem Options.read_append {flags : List String} (unclosed : "--" ∉ flags) (lines : List String)
    (o : Options) : o.read (flags ++ "--" :: lines) = (o.read flags).withLines lines := by
  induction flags generalizing o with
  | nil => rfl
  | cons arg flags ih =>
    rw [List.mem_cons, not_or] at unclosed
    rw [List.cons_append, read, read, if_neg (Ne.symm unclosed.1), if_neg (Ne.symm unclosed.1)]
    cases means : switchesOf? arg with
    | none => exact ih unclosed.2 _
    | some switches =>
      dsimp only
      cases turned : o.turnOn switches with
      | ok o => exact ih unclosed.2 o
      | error request => exact (withLines_of_turnOn_eq_error turned lines).symm

/-! ## Either way -/

/-- Nothing of a listing comes from lines, wherever they are. -/
theorem Options.exists_report_of_listing {o : Options}
    (listing : o.has .functions = true ∨ o.has .grammar = true) (lines : List String)
    (terminals : Terminals) :
    ∃ report, { o with expressions := lines }.plan terminals = .report report ∧
      o.plan { terminals with input := false } = .report report := by
  rw [plan, plan]
  by_cases functions : o.has .functions = true
  · exact ⟨_, if_pos functions, if_pos functions⟩
  · have grammar := listing.resolve_left functions
    exact ⟨_, (if_neg functions).trans (if_pos grammar),
      (if_neg functions).trans (if_pos grammar)⟩

/-- Lines behind `--` lead to what they lead to in the input, whatever else is in either place, if
no prompt is asked for. -/
theorem run_piped {flags lines : List String} {bytes : List UInt8} (unclosed : "--" ∉ flags)
    (alone : ∀ o, Request.ofArguments flags = .work o →
      o.expressions = [] ∧ o.has .interactive = false)
    (given : lines ≠ [])
    (plain : ∀ line ∈ lines, '\n' ∉ line.toList ∧ line.toList.getLast? ≠ some '\r')
    (piped : Piped lines bytes) (other : List UInt8) (terminals : Terminals) :
    run (flags ++ "--" :: lines) other terminals
      = run flags bytes { terminals with input := false } := by
  have request : Request.ofArguments (flags ++ "--" :: lines)
      = (Request.ofArguments flags).withLines lines := Options.read_append unclosed lines _
  cases asked : Request.ofArguments flags with
  | work o =>
    obtain ⟨noLines, noPrompt⟩ := alone o asked
    rw [asked, Request.withLines, noLines, List.nil_append] at request
    -- Only where nothing is listed are there lines to go through.
    by_cases listing : o.has .functions = true ∨ o.has .grammar = true
    · obtain ⟨report, handed, read⟩ := o.exists_report_of_listing listing lines terminals
      rw [run, run, Plan.ofArguments, Plan.ofArguments, request, asked]
      dsimp only
      rw [handed, read]
    · rw [not_or, Bool.not_eq_true, Bool.not_eq_true] at listing
      have noPrompt' : Options.has { o with expressions := lines } .interactive = false := noPrompt
      have handed : Starts (flags ++ "--" :: lines) terminals { o with expressions := lines }
          .arguments :=
        ⟨request, listing.1, listing.2,
          by rw [noPrompt', List.isEmpty_eq_false_iff.2 given]; rfl⟩
      have read : Starts flags { terminals with input := false } o .input :=
        ⟨asked, listing.1, listing.2, by rw [noLines, noPrompt]; rfl⟩
      rw [handed.run_eq, read.run_eq, Options.lines, Options.lines, Line.ofInput_eq piped plain]
      rfl
  | help | version | refused =>
    rw [run, run, Plan.ofArguments, Plan.ofArguments, request, asked]
    rfl

/-- `pi`, `tau` and an empty line behind `--`, and in the input with a carriage return behind the
first. -/
theorem run_piped_pi :
    run ["-s", "--", "pi", "tau", ""] [] ⟨true, true, false⟩
      = run ["-s"] [112, 105, 13, 10, 116, 97, 117, 10, 10] ⟨false, true, false⟩ := by
  have strip : Request.ofArguments ["-s"] = .work ⟨[.strip], []⟩ := by cbv
  have piped : Piped ["pi", "tau", ""] [112, 105, 13, 10, 116, 97, 117, 10, 10] :=
    .returnFeed (.feed (.feed .nil))
  refine @run_piped ["-s"] _ _ (by decide) (fun o asked => ?_) (by decide) (by decide) piped []
    ⟨true, true, false⟩
  rw [strip, Request.work.injEq] at asked
  subst asked
  exact ⟨rfl, rfl⟩

end Calculator.CommandLine
