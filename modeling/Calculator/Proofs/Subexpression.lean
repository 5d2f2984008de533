import Calculator.Proofs.Parsing
import Calculator.Proofs.Scanning
import Mathlib

/-!
# The text of a part of an expression

Every node of a tree is derived from some of the tokens in a row, and its span reaches from the
first of them to the last. So the text in that span can be cut out of the line, and alone it is
parsed as that node.
-/

namespace Calculator

/-! ## Nodes -/

namespace Expr

variable {α : Type}

/-- The operands or arguments at the root, from left to right. -/
def children : Expr α → List (Expr α)
  | number _ _ => []
  | negate e _ => [e]
  | binary _ l r _ => [l, r]
  | call _ _ es _ => es

/-- The name that is called at the root, with its note. -/
def called? : Expr α → Option (String × α)
  | call name nameNote _ _ => some (name, nameNote)
  | _ => none

/-- The nodes of a tree: its root and, below each node, the children of that node. -/
inductive Node (e : Expr α) : Expr α → Prop
  | root : Node e e
  | child {n c} : Node e n → c ∈ n.children → Node e c

/-- What holds of a node as soon as it holds of the children holds of every expression. -/
@[elab_as_elim]
theorem induction {P : Expr α → Prop} (number : ∀ x a, P (number x a))
    (negate : ∀ e a, P e → P (negate e a))
    (binary : ∀ op l r a, P l → P r → P (binary op l r a))
    (call : ∀ name b es a, (∀ e ∈ es, P e) → P (call name b es a)) (e : Expr α) : P e := by
  -- Of a list of arguments, the recursor shows `P` of each.
  refine Expr.rec (motive_1 := P) (motive_2 := fun es => ∀ e ∈ es, P e) number
    (fun e a => negate e a) (fun op l r a => binary op l r a) (fun name b es a => call name b es a)
    ?_ ?_ e
  · intro e he
    simp at he
  · intro e es he hes d hd
    rcases List.mem_cons.1 hd with rfl | later
    · exact he
    · exact hes d later

@[simp] theorem children_withNote (a : α) (e : Expr α) : (e.withNote a).children = e.children := by
  cases e <;> rfl

/-- The nodes below a child are nodes of the tree. -/
theorem Node.of_child {e c n : Expr α} (hc : c ∈ e.children) (hn : c.Node n) : e.Node n := by
  induction hn with
  | root => exact .child .root hc
  | child _ hd ih => exact .child ih hd

/-- Every node is the root or a node below one of its children. -/
theorem Node.eq_or_exists {e n : Expr α} (h : e.Node n) : n = e ∨ ∃ c ∈ e.children, c.Node n := by
  induction h with
  | root => exact .inl rfl
  | child _ hd ih =>
    rcases ih with rfl | ⟨c, hc, hn⟩
    · exact .inr ⟨_, hd, .root⟩
    · exact .inr ⟨c, hc, .child hn hd⟩

@[simp] theorem called?_withNote (a : α) (e : Expr α) : (e.withNote a).called? = e.called? := by
  cases e <;> rfl

end Expr

/-! ## Tokens in order -/

/-- Every token takes at least one byte, and each later one begins behind it. -/
structure Ordered (ts : List Token) : Prop where
  pos : ∀ t ∈ ts, t.span.start < t.span.stop
  next : ts.Pairwise fun t u => t.span.stop ≤ u.span.start

/-- The span `s` reaches from the start of the first token to the end of the last. -/
structure Spans (ts : List Token) (s : Span) : Prop where
  head : ∃ t, ts.head? = some t ∧ t.span.start = s.start
  last : ∃ t, ts.getLast? = some t ∧ t.span.stop = s.stop

theorem Ordered.sublist {us ts : List Token} (h : Ordered ts) (sub : us.Sublist ts) : Ordered us :=
  ⟨fun t ht => h.pos t (sub.subset ht), h.next.sublist sub⟩

/-- Tokens in a row of others are in order as these are. -/
theorem Ordered.middle {before us behind : List Token} (h : Ordered (before ++ (us ++ behind))) :
    Ordered us :=
  h.sublist (List.sublist_append_of_sublist_right (List.sublist_append_left us behind))

namespace Spans

variable {us vs : List Token} {a b : Span}

theorem singleton (t : Token) : Spans [t] t.span :=
  ⟨⟨t, rfl, rfl⟩, t, rfl, rfl⟩

/-- All tokens are inside. -/
theorem mem {t : Token} (h : Spans us a) (ordered : Ordered us) (ht : t ∈ us) :
    a.start ≤ t.span.start ∧ t.span.stop ≤ a.stop := by
  rcases h with ⟨⟨first, isFirst, start⟩, last, isLast, stop⟩
  obtain ⟨later, rfl⟩ := List.head?_eq_some_iff.1 isFirst
  obtain ⟨earlier, same⟩ := List.getLast?_eq_some_iff.1 isLast
  constructor
  · rcases List.mem_cons.1 ht with rfl | behind
    · exact Nat.le_of_eq start.symm
    · have := List.rel_of_pairwise_cons ordered.next behind
      have := ordered.pos first (List.mem_cons_self)
      omega
  · have next := ordered.next
    have isLast : last ∈ first :: later := by simp [same]
    rw [same] at ht next
    rcases List.mem_append.1 ht with before | itself
    · have := (List.pairwise_append.1 next).2.2 t before last (List.mem_singleton_self last)
      have := ordered.pos last isLast
      omega
    · rw [List.mem_singleton.1 itself, stop]

/-- What has a token is not empty. -/
theorem lt (h : Spans us a) (ordered : Ordered us) : a.start < a.stop := by
  obtain ⟨t, isFirst, -⟩ := h.head
  have ht : t ∈ us := List.mem_of_head? isFirst
  have := h.mem ordered ht
  have := ordered.pos t ht
  omega

/-- Where tokens follow others, their span begins behind that of the others. -/
theorem le (ha : Spans us a) (mid : List Token) (hb : Spans vs b)
    (ordered : Ordered (us ++ (mid ++ vs))) : a.stop ≤ b.start := by
  obtain ⟨t, isLast, stop⟩ := ha.last
  obtain ⟨u, isFirst, start⟩ := hb.head
  have behind : u ∈ mid ++ vs := List.mem_append_right mid (List.mem_of_head? isFirst)
  have := (List.pairwise_append.1 ordered.next).2.2 t (List.mem_of_getLast? isLast) u behind
  omega

/-- The join of two spans, with any tokens between them. -/
theorem join (ha : Spans us a) (mid : List Token) (hb : Spans vs b)
    (ordered : Ordered (us ++ (mid ++ vs))) :
    Spans (us ++ (mid ++ vs)) (a.join b) := by
  -- The first span is all in front of the second, so the join has its start and the other's end.
  have between := ha.le mid hb ordered
  obtain ⟨t, isFirst, start⟩ := ha.head
  obtain ⟨u, isLast, stop⟩ := hb.last
  have ht : t ∈ us ++ (mid ++ vs) := List.mem_append_left _ (List.mem_of_head? isFirst)
  have hu : u ∈ us ++ (mid ++ vs) := by simp [List.mem_of_getLast? isLast]
  have := (ha.mem (ordered.sublist (by simp)) (List.mem_of_head? isFirst)).2
  have := (hb.mem (ordered.sublist (by simp)) (List.mem_of_getLast? isLast)).1
  have := ordered.pos t ht
  have := ordered.pos u hu
  constructor
  · refine ⟨t, by simp [isFirst], ?_⟩
    rw [Span.join_start]
    omega
  · refine ⟨u, by simp [isLast], ?_⟩
    rw [Span.join_stop]
    omega

end Spans

/-! ## Nodes and tokens -/

/-- From left to right, the trees `es` are derived from tokens in `ts`, none of them going deeper
than `levels`. -/
inductive Covers (levels : Nat) : List Token → List Located → Prop
  | nil {ts} : Covers levels ts []
  | cons {before us ts e es n} : Derives .places 1 .expression us e n → n ≤ levels →
      Covers levels ts es → Covers levels (before ++ (us ++ ts)) (e :: es)

namespace Covers

variable {levels : Nat} {us ts : List Token} {es fs : List Located}

theorem mono {more : Nat} (h : Covers levels ts es) (le : levels ≤ more) : Covers more ts es := by
  induction h with
  | nil => exact .nil
  | cons derived hn _ ih => exact .cons derived (Nat.le_trans hn le) ih

theorem singleton {e : Located} (h : Derives .places 1 .expression ts e levels) :
    Covers levels ts [e] := by
  have one : Covers levels ([] ++ (ts ++ [])) [e] := .cons h (Nat.le_refl _) .nil
  rw [List.nil_append, List.append_nil] at one
  exact one

theorem append_left (before : List Token) (h : Covers levels ts es) :
    Covers levels (before ++ ts) es := by
  cases h with
  | nil => exact .nil
  | cons derived hn rest =>
    rw [← List.append_assoc]
    exact .cons derived hn rest

/-- Trees that are found one behind the other. -/
theorem append (h : Covers levels us es) (h' : Covers levels ts fs) :
    Covers levels (us ++ ts) (es ++ fs) := by
  induction h with
  | nil => exact h'.append_left _
  | cons derived hn _ ih =>
    rw [List.append_assoc, List.append_assoc]
    exact .cons derived hn ih

theorem append_right (h : Covers levels ts es) (behind : List Token) :
    Covers levels (ts ++ behind) es := by
  have nothing : Covers levels behind [] := .nil
  have all := h.append nothing
  rw [List.append_nil] at all
  exact all

/-- Two trees with a token between them. -/
theorem pair {e f : Located} {n m : Nat} {k : Token} (he : Derives .places 1 .expression us e n)
    (hf : Derives .places 1 .expression ts f m) (hn : n ≤ levels) (hm : m ≤ levels) :
    Covers levels (us ++ k :: ts) [e, f] :=
  ((singleton he).mono hn).append (((singleton hf).mono hm).append_left [k])

/-- Each of the trees has its own tokens. -/
theorem exists_of_mem {e : Located} (h : Covers levels ts es) (he : e ∈ es) :
    ∃ before us behind, ts = before ++ (us ++ behind) ∧
      ∃ n ≤ levels, Derives .places 1 .expression us e n := by
  induction h with
  | nil => simp at he
  | @cons before us ts f es n derived hn _ ih =>
    rcases List.mem_cons.1 he with rfl | later
    · exact ⟨before, us, ts, rfl, n, hn, derived⟩
    · obtain ⟨before', us', behind, rfl, found⟩ := ih later
      exact ⟨before ++ (us ++ before'), us', behind, by simp, found⟩

end Covers

/-- The expressions that a phrase has as its parts: those below a root, or all of some arguments. -/
def Phrase.parts : (p : Phrase) → p.Tree Span → List Located
  | expression, e | term, e | factor, e | primary, e => e.children
  | arguments, es => es

/-- The name that is called at the root of a phrase. -/
def Phrase.called? : (p : Phrase) → p.Tree Span → Option (String × Span)
  | expression, e | term, e | factor, e | primary, e => e.called?
  | arguments, _ => none

/-- The span at the root of a phrase, if it has one root, is that of its tokens. -/
def Phrase.Placed : (p : Phrase) → List Token → p.Tree Span → Prop
  | expression, ts, e | term, ts, e | factor, ts, e | primary, ts, e => Spans ts e.note
  | arguments, _, _ => True

namespace Derives

variable {p : Phrase} {ts : List Token} {e : p.Tree Span} {n : Nat}

/-- The parts of a phrase are derived from its tokens, from left to right. -/
theorem covers (h : Derives .places 1 p ts e n) : Covers n ts (p.parts e) := by
  induction h with
  | number _ => exact .nil
  | constant _ => exact .nil
  | negate _ he _ =>
    have operand := Covers.singleton (.term (.factor (.base he)))
    exact (operand.mono (by omega)).append_left [_]
  | @group o ts c e n _ _ _ ih =>
    have inside : Covers (1 + n) ts e.children := ih.mono (by omega)
    rw [← Expr.children_withNote (o.span.join c.span)] at inside
    exact (inside.append_right [c]).append_left [o]
  | @call f _ o ts c es n _ _ _ _ ih =>
    have inside : Covers (1 + n) ts es := ih.mono (by omega)
    exact (inside.append_right [c]).append_left [f, o]
  | argument he _ => exact .singleton he
  | @comma ts k us es e n m _ _ he ihs _ =>
    have last := (Covers.singleton he).mono (Nat.le_max_right n m)
    exact (ihs.mono (Nat.le_max_left n m)).append (last.append_left [k])
  | base _ ih => exact ih
  | power he _ hf _ _ =>
    exact .pair (.term (.factor (.base he))) (.term (.factor hf)) (by omega) (by omega)
  | factor _ ih => exact ih
  | product he _ hf _ _ =>
    exact .pair (.term he) (.term (.factor hf)) (Nat.le_max_left _ _) (Nat.le_max_right _ _)
  | term _ ih => exact ih
  | sum he _ hf _ _ =>
    exact .pair he (.term hf) (Nat.le_max_left _ _) (Nat.le_max_right _ _)

/-- The span of a phrase is that of its tokens. -/
theorem placed (h : Derives .places 1 p ts e n) (ordered : Ordered ts) : p.Placed ts e := by
  induction h with
  | number _ => exact .singleton _
  | constant _ => exact .singleton _
  | @negate t ts e n _ _ ih =>
    have operand : Spans ts e.note := ih (ordered.sublist (by simp))
    exact (Spans.singleton t).join [] operand ordered
  | @group o ts c e n _ _ _ _ =>
    show Spans _ _
    rw [Expr.note_withNote]
    exact (Spans.singleton o).join ts (Spans.singleton c) ordered
  | @call f _ o ts c es n _ _ _ _ _ =>
    exact (Spans.singleton f).join (o :: ts) (Spans.singleton c) ordered
  | argument _ _ => trivial
  | comma _ _ _ _ _ => trivial
  | base _ ih => exact ih ordered
  | @power ts k us e f n m _ _ _ ihe ihf =>
    have left : Spans ts e.note := ihe (ordered.sublist (by simp))
    have right : Spans us f.note := ihf (ordered.sublist (by simp))
    exact left.join [k] right ordered
  | factor _ ih => exact ih ordered
  | @product ts k us op e f n m _ _ _ ihe ihf =>
    have left : Spans ts e.note := ihe (ordered.sublist (by simp))
    have right : Spans us f.note := ihf (ordered.sublist (by simp))
    exact left.join [k] right ordered
  | term _ ih => exact ih ordered
  | @sum ts k us op e f n m _ _ _ ihe ihf =>
    have left : Spans ts e.note := ihe (ordered.sublist (by simp))
    have right : Spans us f.note := ihf (ordered.sublist (by simp))
    exact left.join [k] right ordered

/-- A name that is called at the root is that of a function, and of one of the tokens. -/
theorem exists_called_function (h : Derives .places 1 p ts e n) {name : String} {s : Span}
    (called : p.called? e = some (name, s)) :
    (∃ f, Builtin.ofName? name = some f) ∧ ∃ t ∈ ts, t.lexeme = name ∧ t.span = s := by
  induction h with
  | number _ => cases called
  | constant _ => cases called
  | negate _ _ _ => cases called
  | group _ _ _ ih =>
    change Expr.called? _ = _ at called
    rw [Expr.called?_withNote] at called
    obtain ⟨function, t, ht, found⟩ := ih called
    exact ⟨function, t, by simp [ht], found⟩
  | call hw _ _ _ _ =>
    cases called
    exact ⟨⟨_, hw⟩, _, List.mem_cons_self, rfl, rfl⟩
  | argument _ _ => cases called
  | comma _ _ _ _ _ => cases called
  | base _ ih => exact ih called
  | power _ _ _ _ _ => cases called
  | factor _ ih => exact ih called
  | product _ _ _ _ _ => cases called
  | term _ ih => exact ih called
  | sum _ _ _ _ _ => cases called

/-- A name that is called at the root is that of one of the tokens. -/
theorem exists_called (h : Derives .places 1 p ts e n) {name : String} {s : Span}
    (called : p.called? e = some (name, s)) : ∃ t ∈ ts, t.lexeme = name ∧ t.span = s :=
  (h.exists_called_function called).2

/-- Every node of an expression is derived from some of its tokens in a row. -/
theorem exists_of_node {e m : Located} (h : Derives .places 1 .expression ts e n) (hm : e.Node m) :
    ∃ before us behind, ts = before ++ (us ++ behind) ∧
      ∃ k ≤ n, Derives .places 1 .expression us m k := by
  induction hm with
  | root => exact ⟨[], ts, [], by simp, n, Nat.le_refl n, h⟩
  | child _ hc ih =>
    rcases ih with ⟨before, us, behind, rfl, k, hk, derived⟩
    obtain ⟨before', vs, behind', rfl, l, hl, part⟩ := derived.covers.exists_of_mem hc
    exact ⟨before ++ before', vs, behind' ++ behind, by simp, l, Nat.le_trans hl hk, part⟩

end Derives

/-- The trees that are derived from tokens in order follow one another without overlap. -/
theorem Covers.pairwise {levels : Nat} {ts : List Token} {es : List Located}
    (h : Covers levels ts es) (ordered : Ordered ts) :
    es.Pairwise fun e f => e.note.stop ≤ f.note.start := by
  induction h with
  | nil => exact .nil
  | @cons before us ts e es n derived _ rest ih =>
    -- What is derived further right comes from tokens behind those of `e`.
    have orderedHere : Ordered (us ++ ts) := ordered.sublist (List.sublist_append_right before _)
    have orderedRest : Ordered ts := orderedHere.sublist (List.sublist_append_right us ts)
    have here : Spans us e.note := derived.placed ordered.middle
    refine .cons ?_ (ih orderedRest)
    intro f hf
    obtain ⟨mid, vs, behind, rfl, m, -, later⟩ := rest.exists_of_mem hf
    have there : Spans vs f.note := later.placed orderedRest.middle
    exact here.le mid there (orderedHere.sublist (by simp))

/-- The trees that are derived from tokens in order are inside the span of all these tokens. -/
theorem Covers.inside {levels : Nat} {ts : List Token} {es : List Located} {s : Span}
    (h : Covers levels ts es) (ordered : Ordered ts) (spans : Spans ts s) {e : Located}
    (he : e ∈ es) : s.start ≤ e.note.start ∧ e.note.stop ≤ s.stop := by
  obtain ⟨before, us, behind, rfl, n, -, derived⟩ := h.exists_of_mem he
  -- A tree's own span begins and ends with tokens, and all tokens are inside.
  have own : Spans us e.note := derived.placed ordered.middle
  obtain ⟨t, isFirst, start⟩ := own.head
  obtain ⟨u, isLast, stop⟩ := own.last
  have first := spans.mem ordered (by simp [List.mem_of_head? isFirst] : t ∈ _)
  have last := spans.mem ordered (by simp [List.mem_of_getLast? isLast] : u ∈ _)
  omega

/-! ## Nodes and their text -/

theorem Scans.ordered {place : Nat} {cs : List Char} {ts : List Token} (h : Scans place cs ts) :
    Ordered ts :=
  ⟨fun t ht => (h.places t ht).2, h.pairwise⟩

/-- Tokens in a row of a line that are an expression have a text of their own, which is parsed as
this expression with its places counted from the start of that text. -/
theorem exists_parseLine_of_derives {cs : List Char} {before us behind : List Token} {n : Located}
    {levels : Nat} (scans : Scans 0 cs (before ++ (us ++ behind)))
    (h : Derives .places 1 .expression us n levels) (fits : levels ≤ nestingLimit)
    (spans : Spans us n.note) :
    ∃ text, n.note.slice? cs = some text ∧ ∃ m, parseLine (String.ofList text) = .ok m ∧
      m.map (Span.shift n.note.start) = n := by
  rcases spans with ⟨⟨t, isFirst, start⟩, u, isLast, stop⟩
  obtain ⟨vs, rfl⟩ := List.head?_eq_some_iff.1 isFirst
  rw [← List.append_assoc] at scans
  obtain ⟨as, text, bs, rfl, textStart, textStop, own⟩ := scans.cut
  have sameStop : stopOf t.span.stop vs = n.note.stop := by
    rw [← stopOf_cons 0, stopOf, isLast]
    exact stop
  refine ⟨text, Span.slice?_eq_some_iff.2 ⟨as, bs, rfl, by omega, by omega⟩, ?_⟩
  -- Alone, the text begins at place zero.
  have own' : Scans (n.note.start + 0) text (t :: vs) := by
    rw [← start]
    exact own
  obtain ⟨ws, alone, shifted⟩ := own'.unshift
  obtain ⟨m, derived, same⟩ := h.lift (Marking.carries_shift n.note.start) shifted
  refine ⟨m, parseLine_eq_ok_iff.2 ⟨ws, ?_, Located.parseWithin_of_derives derived fits⟩, same⟩
  rw [String.toList_ofList]
  exact alone

/-- Every node of what a line is parsed as is derived from some of its tokens in a row. -/
theorem exists_derives_of_node {line : String} {t n : Located} (h : parseLine line = .ok t)
    (hn : t.Node n) :
    ∃ before us behind, Scans 0 line.toList (before ++ (us ++ behind)) ∧
      ∃ levels ≤ nestingLimit, Derives .places 1 .expression us n levels := by
  obtain ⟨ts, scans, parsed⟩ := parseLine_eq_ok_iff.1 h
  obtain ⟨levels, fits, derived⟩ := Located.parseWithin_eq_ok_iff.1 parsed
  obtain ⟨before, us, behind, rfl, k, hk, own⟩ := derived.exists_of_node hn
  exact ⟨before, us, behind, scans, k, Nat.le_trans hk fits, own⟩

/-- The text in the span of a node is parsed as this node: the text is cut between characters, and
the places in what is parsed count from its start. The children of a node are inside its span, from
left to right and without overlap, and a name that is called stands where the node says. -/
theorem parseLine_node {line : String} {t n : Located} (h : parseLine line = .ok t)
    (hn : t.Node n) :
    (∃ text, n.note.slice? line.toList = some text ∧ ∃ m, parseLine (String.ofList text) = .ok m ∧
      m.map (Span.shift n.note.start) = n ∧ m.note = ⟨0, n.note.stop - n.note.start⟩) ∧
    (∀ c ∈ n.children, n.note.start ≤ c.note.start ∧ c.note.stop ≤ n.note.stop) ∧
    n.children.Pairwise (fun c d => c.note.stop ≤ d.note.start) ∧
    ∀ name s, n.called? = some (name, s) → s.slice? line.toList = some name.toList := by
  obtain ⟨before, us, behind, scans, levels, fits, own⟩ := exists_derives_of_node h hn
  have ordered : Ordered us := scans.ordered.middle
  have spans : Spans us n.note := own.placed ordered
  refine ⟨?_, ?_, own.covers.pairwise ordered, ?_⟩
  · obtain ⟨text, slice, m, parsedAlone, same⟩ :=
      exists_parseLine_of_derives scans own fits spans
    refine ⟨text, slice, m, parsedAlone, same, ?_⟩
    have note : m.note.shift n.note.start = n.note := by
      rw [← Expr.note_map (Span.shift n.note.start) m, same]
    have start : n.note.start + m.note.start = n.note.start := congrArg Span.start note
    have stop : n.note.start + m.note.stop = n.note.stop := congrArg Span.stop note
    show (⟨m.note.start, m.note.stop⟩ : Span) = _
    rw [Span.mk.injEq]
    omega
  · intro c hc
    exact own.covers.inside ordered spans hc
  · intro name s called
    obtain ⟨u, hu, rfl, rfl⟩ := own.exists_called called
    obtain ⟨as, bs, whole, start, stop⟩ := scans.exists_of_mem (by simp [hu] : u ∈ _)
    exact Span.slice?_eq_some_iff.2 ⟨as, bs, whole, by omega, stop⟩

/-- A call that is negated, of a number in brackets. -/
theorem parseLine_node_call :
    (∃ text, (⟨1, 10⟩ : Span).slice? "-abs(( 2))".toList = some text ∧
      ∃ m, parseLine (String.ofList text) = .ok m ∧
        m.map (Span.shift 1) = .call "abs" ⟨1, 4⟩ [.number (numberValue "2") ⟨5, 9⟩] ⟨1, 10⟩ ∧
        m.note = ⟨0, 9⟩) ∧
    (⟨1, 4⟩ : Span).slice? "-abs(( 2))".toList = some "abs".toList := by
  have parsed : parseLine "-abs(( 2))" = .ok
      (.negate (.call "abs" ⟨1, 4⟩ [.number (numberValue "2") ⟨5, 9⟩] ⟨1, 10⟩) ⟨0, 10⟩) := by
    refine parseLine_eq_ok_iff.2 ⟨[⟨"-", ⟨0, 1⟩⟩, ⟨"abs", ⟨1, 4⟩⟩, ⟨"(", ⟨4, 5⟩⟩, ⟨"(", ⟨5, 6⟩⟩,
      ⟨"2", ⟨7, 8⟩⟩, ⟨")", ⟨8, 9⟩⟩, ⟨")", ⟨9, 10⟩⟩], tokensFrom_eq_ok_iff.1 (by cbv), ?_⟩
    have two : Derives .places 1 .expression [⟨"2", ⟨7, 8⟩⟩]
        (.number (numberValue "2") ⟨7, 8⟩) 1 := .term (.factor (.base (.number (by decide))))
    have group : Derives .places 1 .expression [⟨"(", ⟨5, 6⟩⟩, ⟨"2", ⟨7, 8⟩⟩, ⟨")", ⟨8, 9⟩⟩]
        (.number (numberValue "2") ⟨5, 9⟩) 2 := .term (.factor (.base (.group rfl two rfl)))
    have named : Builtin.ofName? "abs" = some .abs := Builtin.ofName?_name .abs
    exact Located.parseWithin_of_derives (.term (.factor (.base
      (.negate rfl (.call named rfl (.argument group) rfl))))) (by decide)
  have node := parseLine_node parsed (.child .root (List.mem_singleton_self _))
  exact ⟨node.1, node.2.2.2 "abs" ⟨1, 4⟩ rfl⟩

end Calculator
