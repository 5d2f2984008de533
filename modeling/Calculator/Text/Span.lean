/-!
# Places in a line

A place is a byte offset into the UTF-8 text of a line, and a span is a stretch between two
places. Spans travel with tokens, tree nodes and errors; `Span.caret` turns one into the row of
marks that is printed under the line.
-/

namespace Calculator

/-- The stretch of a line from byte `start` up to, and without, byte `stop`.

The program that is modelled keeps a place in 32 bits. Natural numbers say the same as long as no
span ends at the largest of these, `2 ^ 32 - 1`, since the place just past it has no such number.
For what is wrong with a line this is shown of all lines of fewer bytes (`evalLine_diagnostic`); of
tokens that come with spans of their own it is taken for granted. -/
structure Span where
  start : Nat
  stop : Nat
deriving DecidableEq

namespace Span

/-- The least span that covers both `a` and `b`. -/
def join (a b : Span) : Span :=
  ⟨min a.start b.start, max a.stop b.stop⟩

/-- The same stretch, `k` bytes further right. -/
def shift (k : Nat) (s : Span) : Span :=
  ⟨k + s.start, k + s.stop⟩

/-- The place just past the end of `s`, shown one byte wide. -/
def past (s : Span) : Span :=
  ⟨s.stop, s.stop + 1⟩

@[simp] theorem join_start (a b : Span) : (a.join b).start = min a.start b.start := rfl

@[simp] theorem join_stop (a b : Span) : (a.join b).stop = max a.stop b.stop := rfl

@[simp] theorem shift_start (k : Nat) (s : Span) : (s.shift k).start = k + s.start := rfl

@[simp] theorem shift_stop (k : Nat) (s : Span) : (s.shift k).stop = k + s.stop := rfl

@[simp] theorem past_start (s : Span) : s.past.start = s.stop := rfl

@[simp] theorem past_stop (s : Span) : s.past.stop = s.stop + 1 := rfl

/-- Moving two spans by one distance moves their join by it. -/
theorem join_shift (k : Nat) (a b : Span) : (a.shift k).join (b.shift k) = (a.join b).shift k := by
  simp only [join, shift, mk.injEq]
  omega

end Span

/-! ## Stretches of text -/

/-- The number of bytes that a text takes in UTF-8. -/
def byteCount : List Char → Nat
  | [] => 0
  | c :: cs => c.utf8Size + byteCount cs

/-- A text cut in two at byte `place`. There is no answer when `place` is inside a character or past
the end. -/
def splitAtByte? (place : Nat) (cs : List Char) : Option (List Char × List Char) :=
  match place, cs with
  | 0, cs => some ([], cs)
  | _ + 1, [] => none
  | place + 1, c :: cs =>
    if c.utf8Size ≤ place + 1 then
      (splitAtByte? (place + 1 - c.utf8Size) cs).map fun (before, behind) => (c :: before, behind)
    else none

@[simp] theorem byteCount_nil : byteCount [] = 0 := rfl

@[simp] theorem byteCount_cons (c : Char) (cs : List Char) :
    byteCount (c :: cs) = c.utf8Size + byteCount cs := rfl

@[simp] theorem byteCount_append (as bs : List Char) :
    byteCount (as ++ bs) = byteCount as + byteCount bs := by
  induction as with
  | nil => simp
  | cons a as ih => simp [ih, Nat.add_assoc]

/-- A text is cut at `place` exactly where its first `place` bytes are whole characters. -/
theorem splitAtByte?_eq_some_iff {place : Nat} {cs before behind : List Char} :
    splitAtByte? place cs = some (before, behind) ↔
      cs = before ++ behind ∧ byteCount before = place := by
  induction cs generalizing place before with
  | nil =>
    cases place with
    | zero => cases before <;> cases behind <;> simp [splitAtByte?]
    | succ n => cases before <;> simp [splitAtByte?]
  | cons c cs ih =>
    have pos := c.utf8Size_pos
    cases place with
    | zero =>
      cases before with
      | nil => simp [splitAtByte?, eq_comm]
      | cons b before =>
        have := b.utf8Size_pos
        simp only [splitAtByte?, byteCount_cons]
        constructor
        · intro h
          cases h
        · intro h
          omega
    | succ n =>
      cases before with
      | nil =>
        simp only [splitAtByte?, byteCount_nil]
        split <;> simp
      | cons b before =>
        simp only [splitAtByte?, byteCount_cons, List.cons_append, List.cons.injEq]
        split
        · rename_i fits
          simp only [Option.map_eq_some_iff, Prod.mk.injEq, List.cons.injEq]
          constructor
          · rintro ⟨⟨u, v⟩, h, ⟨rfl, rfl⟩, rfl⟩
            obtain ⟨rfl, count⟩ := ih.1 h
            exact ⟨⟨rfl, rfl⟩, by dsimp only; omega⟩
          · rintro ⟨⟨rfl, rfl⟩, count⟩
            exact ⟨(before, behind), ih.2 ⟨rfl, by omega⟩, ⟨rfl, rfl⟩, rfl⟩
        · rename_i tight
          constructor
          · intro h
            cases h
          · rintro ⟨⟨rfl, rfl⟩, count⟩
            omega

namespace Span

/-- The text in a span, if both its ends are between characters and it does not end before it
starts. -/
def slice? (s : Span) (line : List Char) : Option (List Char) :=
  if s.start ≤ s.stop then
    (splitAtByte? s.start line).bind fun (_, behind) =>
      (splitAtByte? (s.stop - s.start) behind).map Prod.fst
  else none

/-- A text is in a span exactly when as many bytes as the span says are before it and in it. -/
theorem slice?_eq_some_iff {s : Span} {line text : List Char} :
    s.slice? line = some text ↔
      ∃ before behind, line = before ++ text ++ behind ∧
        byteCount before = s.start ∧ s.start + byteCount text = s.stop := by
  unfold slice?
  split
  · rename_i order
    simp only [Option.bind_eq_some_iff, Option.map_eq_some_iff, Prod.exists,
      splitAtByte?_eq_some_iff]
    constructor
    · rintro ⟨before, rest, ⟨rfl, start⟩, text', behind, ⟨rfl, size⟩, rfl⟩
      exact ⟨before, behind, by simp, start, by omega⟩
    · rintro ⟨before, behind, rfl, start, size⟩
      exact ⟨before, text ++ behind, ⟨by simp, start⟩, text, behind, ⟨rfl, by omega⟩, rfl⟩
  · rename_i order
    constructor
    · intro h
      cases h
    · rintro ⟨_, _, _, _, size⟩
      omega

/-! ## Marks under a line -/

/-- How many characters of `line` stand before `s`; without a character boundary at its start,
every byte counts for one. -/
def indentIn (line : List Char) (s : Span) : Nat :=
  match splitAtByte? s.start line with
  | some (before, _) => before.length
  | none => s.start

/-- How many characters of `line` are in `s`; a span that is no slice of the line counts its
bytes, and one that ends before it starts has none. -/
def widthIn (line : List Char) (s : Span) : Nat :=
  let stop := max s.stop s.start
  match slice? ⟨s.start, stop⟩ line with
  | some text => text.length
  | none => stop - s.start

/-- The row that points at `s` from under `line`: one blank for each character before it and one
`^` for each character in it, at least one. -/
def caret (line : String) (s : Span) : String :=
  let cs := line.toList
  String.ofList (List.replicate (s.indentIn cs) ' ' ++ List.replicate (max (s.widthIn cs) 1) '^')

end Span

end Calculator
