import CSharpAudit.Proofs.Erasure
import CSharpAudit.Proofs.Running

/-!
# Plain types

A type without arguments and marks is a reserved word or a dotted name. It is written by the tokens
of the name alone, so that the same tokens can also be read as an expression.

## Main definitions

* `PlainType` — the tokens that write a plain type
* `TypeRef.IsPlain` — a type without arguments and marks

## Main results

* `Grammar.run_type_plain` — a plain type was written by the tokens of its name
* `Grammar.run_unary` — these tokens are read as an operand whose name is that of the type
-/

namespace CSharpAudit

open Grammar

/-- The first segment of a name is an identifier, perhaps with an alias before it. -/
inductive WritesFirst : List Token → String → Prop
  | plain {i : Token} (hi : i.isIdent = true) : WritesFirst [i] i.text
  | qualified {i sep j : Token} (hi : i.isIdent = true) (hsep : sep.is "::" = true)
    (hj : j.isIdent = true) : WritesFirst [i, sep, j] j.text

/-- Each further segment of a name is an identifier behind a point. -/
inductive WritesMore : List Token → List String → Prop
  | nil : WritesMore [] []
  | cons {point i : Token} {ts : List Token} {names : List String} (hpoint : point.is "." = true)
    (hi : i.isIdent = true) (hts : WritesMore ts names) :
    WritesMore (point :: i :: ts) (i.text :: names)

/-- The tokens that write a type without arguments and marks, and its name. -/
inductive PlainType : List Token → String → Prop
  | predefined {t : Token} (ht : t.isPredefinedType = true) : PlainType [t] t.text
  | dotted {fs ts : List Token} {first : String} {names : List String} (hfs : WritesFirst fs first)
    (hts : WritesMore ts names) : PlainType (fs ++ ts) (".".intercalate (first :: names))

/-- A type without arguments and marks. -/
structure TypeRef.IsPlain (t : TypeRef) : Prop where
  args : t.args = []
  nullable : t.nullable = false
  rank : t.rank = 0
  pointer : t.pointer = false
  tupleNames : t.tupleNames = []

/-- A type is plain if nothing but its name is left without its place. -/
theorem TypeRef.isPlain_iff {t : TypeRef} :
    t.IsPlain ↔ t.erase = { span := .none, name := t.name } := by
  obtain ⟨span, name, args, nullable, rank, pointer, tupleNames⟩ := t
  rw [TypeRef.erase_mk, TypeRef.mk.injEq, List.map_eq_nil_iff]
  refine ⟨fun h => ⟨rfl, rfl, h.args, h.nullable, h.rank, h.pointer, h.tupleNames⟩, ?_⟩
  rintro ⟨-, -, hargs, hnullable, hrank, hpointer, hnames⟩
  exact ⟨hargs, hnullable, hrank, hpointer, hnames⟩

/-- One more segment behind a name. -/
theorem WritesMore.concat {ts : List Token} {names : List String} (h : WritesMore ts names)
    {point i : Token} (hpoint : point.is "." = true) (hi : i.isIdent = true) :
    WritesMore (ts ++ [point, i]) (names ++ [i.text]) := by
  induction h with
  | nil => exact .cons hpoint hi .nil
  | cons hpoint' hi' _ ih => exact .cons hpoint' hi' ih

/-- A token that a plain type may begin with. -/
def Token.BeginsType (t : Token) : Prop := t.isIdent = true ∨ t.isPredefinedType = true

/-- What begins a type is no other token. -/
theorem Token.BeginsType.is_eq {t : Token} (h : t.BeginsType) {s : String}
    (hs : s ∉ predefinedTypes) : t.is s = false := by
  rcases h with h | h
  · exact Token.is_eq_false_of_isIdent h s
  · rw [Token.isPredefinedType, Bool.and_eq_true] at h
    rw [Token.is, Bool.and_eq_false_iff]
    refine .inr (beq_false_of_ne fun heq => hs ?_)
    simpa [heq] using h.2

theorem WritesFirst.exists_cons {fs : List Token} {first : String} (h : WritesFirst fs first) :
    ∃ i us, fs = i :: us ∧ i.isIdent = true := by
  cases h with
  | plain hi => exact ⟨_, _, rfl, hi⟩
  | qualified hi => exact ⟨_, _, rfl, hi⟩

/-- A plain type begins with a name or a predefined word. -/
theorem PlainType.exists_cons {ts : List Token} {name : String} (h : PlainType ts name) :
    ∃ t us, ts = t :: us ∧ t.BeginsType := by
  cases h with
  | predefined ht => exact ⟨_, _, rfl, .inr ht⟩
  | dotted hfs _ =>
    obtain ⟨i, us, rfl, hi⟩ := hfs.exists_cons
    exact ⟨i, us ++ _, rfl, .inl hi⟩

theorem WritesFirst.ne_empty {fs : List Token} {first : String} (h : WritesFirst fs first)
    (hnames : ∀ t ∈ fs, t.isIdent = true → t.text ≠ "") : first ≠ "" := by
  cases h with
  | plain hi => exact hnames _ (by simp) hi
  | qualified _ _ hj => exact hnames _ (by simp) hj

/-- A plain type has a name. -/
theorem PlainType.ne_empty {ts : List Token} {name : String} (h : PlainType ts name)
    (hnames : ∀ t ∈ ts, t.isIdent = true → t.text ≠ "") : name ≠ "" := by
  cases h with
  | predefined ht =>
    rw [Token.isPredefinedType, Bool.and_eq_true] at ht
    have hne : ∀ s ∈ predefinedTypes, s ≠ "" := by decide
    exact hne _ (by simpa using ht.2)
  | @dotted fs ts first names hfs hts =>
    have hfirst := hfs.ne_empty fun t ht => hnames t (List.mem_append_left _ ht)
    cases names with
    | nil => simpa using hfirst
    | cons n names => simp [String.intercalate_cons_cons, hfirst]

namespace Grammar

variable {self : Rules} {x : Input} {c c' : Cursor}

/-! ### What a plain type was read from -/

theorem run_expectIdent_eq_ok (heof : x.eof.kind = .eof) {i : Token}
    (h : expectIdent x c = .ok (i, c')) : c.rest = i :: c'.rest ∧ i.isIdent = true := by
  obtain ⟨rest, k⟩ := c
  cases rest with
  | nil =>
    exfalso
    have hnot : (ahead x [] 0).isIdent = false := by simp [ahead, Token.isIdent, heof]
    simp [expectIdent, hnot] at h
  | cons t ts =>
    by_cases ht : t.isIdent = true
    · have hrun : expectIdent x ⟨t :: ts, k⟩ = .ok (t, ⟨ts, t.span.stop⟩) := by
        simp [expectIdent, ht]
        rfl
      rw [hrun] at h
      cases h
      exact ⟨rfl, ht⟩
    · simp [expectIdent, ht] at h

/-- A name was read from an identifier. -/
theorem run_identText_eq_ok (heof : x.eof.kind = .eof) {name : String}
    (h : identText x c = .ok (name, c')) :
    ∃ i, c.rest = i :: c'.rest ∧ i.isIdent = true ∧ i.text = name := by
  obtain ⟨i, c₁, hi, h⟩ := run_bind_eq_ok.mp h
  cases h
  obtain ⟨hrest, hident⟩ := run_expectIdent_eq_ok heof hi
  exact ⟨i, hrest, hident, rfl⟩

/-- A token was consumed only if it has the text. -/
theorem run_accept_eq_ok {s : String} (heof : x.eof.kind = .eof) {b : Bool}
    (h : accept s x c = .ok (b, c')) :
    b = true ∧ (∃ t, c.rest = t :: c'.rest ∧ t.is s = true) ∨ b = false ∧ c' = c := by
  obtain ⟨rest, k⟩ := c
  have h : (accept s >>= pure) x ⟨rest, k⟩ = .ok (b, c') := by rwa [bind_pure]
  cases rest with
  | nil =>
    have hnot : (ahead x [] 0).is s = false := by simp [ahead, Token.is, heof]
    rw [accept, Layouts.acceptIf_bind, run_is_bind, hnot] at h
    cases h
    exact .inr ⟨rfl, rfl⟩
  | cons t ts =>
    rw [run_accept_bind] at h
    split at h
    · cases h
      exact .inl ⟨rfl, t, rfl, ‹_›⟩
    · cases h
      exact .inr ⟨rfl, rfl⟩

/-- The first segment was read from the tokens that write it. -/
theorem run_firstSegment_eq_ok (heof : x.eof.kind = .eof) {first : String}
    (h : firstSegment x c = .ok (first, c')) :
    ∃ fs, c.rest = fs ++ c'.rest ∧ WritesFirst fs first := by
  rw [firstSegment, run_bind_eq_ok] at h
  obtain ⟨name, c₁, hname, h⟩ := h
  obtain ⟨i, hrest, hi, rfl⟩ := run_identText_eq_ok heof hname
  rw [run_bind_eq_ok] at h
  obtain ⟨b, c₂, hsep, h⟩ := h
  rcases run_accept_eq_ok heof hsep with ⟨rfl, sep, hrest₁, hsep⟩ | ⟨rfl, rfl⟩
  · obtain ⟨j, hrest₂, hj, rfl⟩ := run_identText_eq_ok heof h
    exact ⟨[i, sep, j], by rw [hrest, hrest₁, hrest₂]; rfl, .qualified hi hsep hj⟩
  · cases h
    exact ⟨[i], hrest, .plain hi⟩

/-- Type arguments are never an empty list. -/
theorem run_typeArgs_ne_nil {args : List TypeRef} (h : typeArgs self x c = .ok (args, c')) :
    args ≠ [] := by
  obtain ⟨-, c₁, -, h⟩ := run_bind_eq_ok.mp h
  obtain ⟨args', c₂, hargs, h⟩ := run_bind_eq_ok.mp h
  obtain ⟨a, c₃, -, hmore⟩ := run_bind_eq_ok.mp hargs
  obtain ⟨more, c₄, -, hcons⟩ := run_bind_eq_ok.mp hmore
  obtain ⟨-, c₅, -, h⟩ := run_bind_eq_ok.mp h
  cases hcons
  cases h
  exact List.cons_ne_nil _ _

/-- If there are no type arguments in the end, none were read. -/
theorem run_replaceArgs_nil {args : List TypeRef}
    (h : replaceArgs self args x c = .ok ([], c')) : args = [] ∧ c' = c := by
  rw [replaceArgs, run_is_bind, run_ite] at h
  split at h
  · exact absurd rfl (run_typeArgs_ne_nil h)
  · cases h
    exact ⟨rfl, rfl⟩

/-- One round of the loop that reads a named type: a further segment with its type arguments. -/
def segmentStep (self : Rules) (a : List String × List TypeRef) :
    Parser (Option (List String × List TypeRef)) := do
  if (← is ".") && (← peekIdent 1) then
    discard advance
    let segment := (← advance).text
    return some (segment :: a.1, ← replaceArgs self a.2)
  else return none

/-- A name is read as a loop over its segments. -/
theorem namedType_eq (self : Rules) :
    namedType self = do
      let first ← firstSegment
      let (segments, args) ← extend (segmentStep self) ([first], ← replaceArgs self [])
      return { span := .none, name := ".".intercalate segments.reverse, args } := rfl

/-- A point before an identifier stands among the tokens that are left. -/
theorem ahead_of_point (heof : x.eof.kind = .eof) {rest : List Token}
    (h : ((ahead x rest 0).is "." && (ahead x rest 1).isIdent) = true) :
    ∃ point i ts, rest = point :: i :: ts ∧ point.is "." = true ∧ i.isIdent = true := by
  match rest with
  | [] => simp [ahead, Token.is, heof] at h
  | [t] => simp [ahead, Token.isIdent, heof] at h
  | t :: i :: ts =>
    rw [Bool.and_eq_true] at h
    exact ⟨t, i, ts, rfl, h.1, h.2⟩

/-- A name without arguments is plain and was written by the tokens of the name. -/
theorem run_namedType_plain (heof : x.eof.kind = .eof) {t : TypeRef}
    (h : namedType self x c = .ok (t, c')) (ht : t.args = []) :
    t.IsPlain ∧ ∃ ts, c.rest = ts ++ c'.rest ∧ PlainType ts t.name := by
  rw [namedType_eq, run_bind_eq_ok] at h
  obtain ⟨first, c₁, hfirst, h⟩ := h
  obtain ⟨fs, hrest, hfs⟩ := run_firstSegment_eq_ok heof hfirst
  rw [run_bind_eq_ok] at h
  obtain ⟨args, c₂, hargs, h⟩ := h
  rw [run_bind_eq_ok] at h
  obtain ⟨⟨segments, args'⟩, c₃, hloop, h⟩ := h
  cases h
  obtain rfl : args' = [] := ht
  -- As long as no arguments are read, the tokens behind the first segment write the other ones.
  have hsegments := run_extend_rec hloop
    (P := fun a c => a.2 = [] → ∃ ts names, c₁.rest = ts ++ c.rest ∧ WritesMore ts names ∧
      a.1.reverse = first :: names)
    (by
      rintro rfl
      obtain ⟨-, rfl⟩ := run_replaceArgs_nil hargs
      exact ⟨[], [], rfl, .nil, rfl⟩)
    (by
      rintro ⟨segments, args⟩ ⟨rest, k⟩ ⟨segments', args'⟩ c' ih hstep rfl
      rw [segmentStep, run_is_bind, run_peekIdent_bind, run_ite] at hstep
      split at hstep
      · obtain ⟨point, i, us, rfl, hpoint, hi⟩ := ahead_of_point heof ‹_›
        rw [run_discard_bind, run_advance_bind, run_advance_bind, run_bind_eq_ok] at hstep
        obtain ⟨args₁, c₄, hargs₁, hstep⟩ := hstep
        cases hstep
        obtain ⟨rfl, rfl⟩ := run_replaceArgs_nil hargs₁
        obtain ⟨ts, names, hrest, hts, hnames⟩ := ih rfl
        refine ⟨ts ++ [point, i], names ++ [i.text], ?_, hts.concat hpoint hi, ?_⟩
        · rw [hrest, List.append_assoc]
          rfl
        · rw [List.reverse_cons, hnames]
          rfl
      · cases hstep)
    (by
      rintro ⟨segments, args⟩ ⟨rest, k⟩ c' ih hstep
      rw [segmentStep, run_is_bind, run_peekIdent_bind, run_ite] at hstep
      split at hstep
      · obtain ⟨point, i, us, rfl, -, -⟩ := ahead_of_point heof ‹_›
        rw [run_discard_bind, run_advance_bind, run_advance_bind, run_bind_eq_ok] at hstep
        obtain ⟨args₁, c₄, -, hstep⟩ := hstep
        cases hstep
      · cases hstep
        exact ih)
  obtain ⟨ts, names, hrest', hts, hnames⟩ := hsegments rfl
  refine ⟨⟨rfl, rfl, rfl, rfl, rfl⟩, fs ++ ts, by rw [hrest, hrest', List.append_assoc], ?_⟩
  show PlainType (fs ++ ts) (".".intercalate segments.reverse)
  rw [show segments.reverse = first :: names from hnames]
  exact .dotted hfs hts

/-- So is a type without arguments and marks. -/
theorem run_unmarkedType_plain (heof : x.eof.kind = .eof) {t : TypeRef}
    (h : unmarkedType self x c = .ok (t, c')) (ht : t.args = []) :
    t.IsPlain ∧ ∃ ts, c.rest = ts ++ c'.rest ∧ PlainType ts t.name := by
  rw [unmarkedType, run_current_bind, run_ite, run_ite, run_ite] at h
  -- a tuple, a predefined type, or a name
  split at h
  · -- A tuple type has elements.
    rw [tupleType, run_discard_bind, run_bind_eq_ok] at h
    obtain ⟨-, c₁, -, h⟩ := h
    rw [run_bind_eq_ok] at h
    obtain ⟨elements, c₂, -, h⟩ := h
    rw [run_discard_bind, run_bind_eq_ok] at h
    obtain ⟨-, c₃, -, h⟩ := h
    rw [run_ite] at h
    split at h
    · cases h
    · cases h
      rw [List.map_eq_nil_iff] at ht
      subst ht
      contradiction
  · split at h
    · obtain ⟨rest, k⟩ := c
      cases rest with
      | nil => simp_all [ahead, Token.isPredefinedType]
      | cons u us =>
        rw [predefinedType, run_advance_bind] at h
        cases h
        exact ⟨⟨rfl, rfl, rfl, rfl, rfl⟩, [u], rfl, .predefined ‹_›⟩
    · split at h
      · exact run_namedType_plain heof h ht
      · cases h

theorem run_atArrayMark_bind {α : Type} {f : Bool → Parser α} :
    (atArrayMark >>= f) x c = f ((ahead x c.rest 0).is "[" &&
      ((ahead x c.rest 1).is "]" || (ahead x c.rest 1).is ",")) x c := rfl

/-- Each mark shows in the type. -/
theorem run_typeMark_eq_ok {t : TypeRef} {o : Option TypeRef}
    (h : typeMark t x c = .ok (o, c')) :
    o = none ∧ c' = c ∨
      ∃ t', o = some t' ∧ (t'.nullable = true ∨ t'.pointer = true ∨ 0 < t'.rank) := by
  rw [typeMark, run_is_bind, run_peekIs_bind, run_peekIs_bind, run_ite] at h
  split at h
  · rw [run_discard_bind, run_bind_eq_ok] at h
    obtain ⟨-, c₁, -, h⟩ := h
    cases h
    exact .inr ⟨_, rfl, .inl rfl⟩
  · rw [run_is_bind, run_ite] at h
    split at h
    · rw [run_discard_bind, run_bind_eq_ok] at h
      obtain ⟨-, c₁, -, h⟩ := h
      cases h
      exact .inr ⟨_, rfl, .inr (.inl rfl)⟩
    · rw [run_atArrayMark_bind, run_ite] at h
      split at h
      · rw [run_bind_eq_ok] at h
        obtain ⟨-, c₁, -, h⟩ := h
        cases h
        exact .inr ⟨_, rfl, .inr (.inr (Nat.succ_pos _))⟩
      · cases h
        exact .inl ⟨rfl, rfl⟩

/-- A plain type was read from the tokens of its name. -/
theorem run_type_plain (heof : x.eof.kind = .eof) {t : TypeRef}
    (h : type self x c = .ok (t, c')) (ht : t.IsPlain) :
    ∃ ts, c.rest = ts ++ c'.rest ∧ PlainType ts t.name := by
  rw [type, run_offset_bind, run_bind_eq_ok] at h
  obtain ⟨base, c₁, hbase, h⟩ := h
  rw [run_bind_eq_ok] at h
  obtain ⟨marked, c₂, hmarks, h⟩ := h
  cases h
  -- Each mark shows in the result, so there was none.
  have hunmarked := run_extend_rec hmarks
    (P := fun t c => (t = base ∧ c = c₁) ∨ t.nullable = true ∨ t.pointer = true ∨ 0 < t.rank)
    (.inl ⟨rfl, rfl⟩)
    (by
      intro t c t' c' _ hstep
      rcases run_typeMark_eq_ok hstep with ⟨hnone, -⟩ | ⟨u, hsome, hmark⟩
      · cases hnone
      · cases hsome
        exact .inr hmark)
    (by
      intro t c c' ih hstep
      rcases run_typeMark_eq_ok hstep with ⟨-, rfl⟩ | ⟨u, hsome, -⟩
      · exact ih
      · cases hsome)
  rcases hunmarked with ⟨rfl, rfl⟩ | hmark
  · exact (run_unmarkedType_plain heof hbase ht.args).2
  · have := ht.nullable
    have := ht.pointer
    have := ht.rank
    simp_all

/-! ### Reading a plain type before a question mark -/

section Reading

variable {mark f : Token} {r : List Token} {k : Nat}

theorem run_identText {i : Token} (hi : i.isIdent = true) :
    identText x ⟨i :: r, k⟩ = .ok (i.text, ⟨r, i.span.stop⟩) := by
  simp [identText, expectIdent, hi, -bind_pure_comp]

/-- The first segment is read from the tokens that write it. -/
theorem run_firstSegment {fs : List Token} {first : String} (hfs : WritesFirst fs first)
    (hf : f.is "::" = false) :
    ∃ stop', firstSegment x ⟨fs ++ f :: r, k⟩ = .ok (first, ⟨f :: r, stop'⟩) := by
  cases hfs with
  | @plain i hi =>
    refine ⟨i.span.stop, ?_⟩
    show (identText >>= _) x ⟨i :: f :: r, k⟩ = _
    rw [run_bind_of_ok (run_identText hi), run_accept_bind, hf]
    rfl
  | @qualified i sep j hi hsep hj =>
    refine ⟨j.span.stop, ?_⟩
    show (identText >>= _) x ⟨i :: sep :: j :: f :: r, k⟩ = _
    rw [run_bind_of_ok (run_identText hi), run_accept_bind, hsep]
    exact run_identText hj

/-- A token that may stand behind a plain type and is no part of it. -/
structure Ends (f : Token) : Prop where
  colons : f.is "::" = false
  point : f.is "." = false
  angle : f.is "<" = false

theorem Ends.of_isPunct (hmark : mark.IsPunct "?") : Ends mark := by
  constructor <;> rw [hmark.is_eq] <;> rfl

/-- A token that ends a name is neither `::` nor `<`. -/
theorem Ends.head {ts : List Token} {names : List String} (hf : Ends f)
    (hts : WritesMore ts names) :
    ∃ t us, ts ++ f :: r = t :: us ∧ t.is "::" = false ∧ t.is "<" = false := by
  cases hts with
  | nil => exact ⟨f, r, rfl, hf.colons, hf.angle⟩
  | cons hpoint => exact ⟨_, _, rfl, Token.is_eq_of_is hpoint _, Token.is_eq_of_is hpoint _⟩

theorem run_replaceArgs_none {args : List TypeRef} {t : Token} {us : List Token}
    (ht : t.is "<" = false) :
    replaceArgs self args x ⟨t :: us, k⟩ = .ok (args, ⟨t :: us, k⟩) := by
  simp [replaceArgs, ht]

variable (self) in
/-- The further segments are read up to a token that ends the name. -/
theorem run_segmentStep_loop {ts : List Token} {names : List String} (hts : WritesMore ts names)
    (hf : Ends f) (segments : List String) :
    ∃ stop', extend (segmentStep self) (segments, []) x ⟨ts ++ f :: r, k⟩ =
      .ok ((names.reverse ++ segments, []), ⟨f :: r, stop'⟩) := by
  induction hts generalizing segments k with
  | nil =>
    refine ⟨k, run_extend_none ?_⟩
    simp [segmentStep, hf.point]
  | @cons point i ts names hpoint hi hts ih =>
    obtain ⟨t, us, hcons, -, hangle⟩ := hf.head (r := r) hts
    obtain ⟨stop', hloop⟩ := ih (k := i.span.stop) (i.text :: segments)
    refine ⟨stop', ?_⟩
    have hstep : segmentStep self (segments, []) x ⟨point :: i :: ts ++ f :: r, k⟩ =
        .ok (some (i.text :: segments, []), ⟨ts ++ f :: r, i.span.stop⟩) := by
      rw [List.cons_append, List.cons_append, hcons]
      simp [segmentStep, hpoint, hi, run_bind_of_ok (run_replaceArgs_none hangle), -bind_pure_comp]
    have hshort : (ts ++ f :: r).length < (point :: i :: ts ++ f :: r).length :=
      Nat.lt_succ_of_lt (Nat.lt_succ_self _)
    rw [run_extend_some hstep hshort, hloop, List.reverse_cons, List.append_assoc]
    rfl

variable (self) in
/-- A dotted name is read as a type up to a token that ends it. -/
theorem run_namedType {fs ts : List Token} {first : String} {names : List String}
    (hfs : WritesFirst fs first) (hts : WritesMore ts names) (hf : Ends f) :
    ∃ stop', namedType self x ⟨fs ++ (ts ++ f :: r), k⟩ =
      .ok ({ span := .none, name := ".".intercalate (first :: names) }, ⟨f :: r, stop'⟩) := by
  obtain ⟨t, us, hcons, hcolons, hangle⟩ := hf.head (r := r) hts
  rw [hcons]
  obtain ⟨stop₁, hfirst⟩ := run_firstSegment (x := x) (r := us) (k := k) hfs hcolons
  obtain ⟨stop₂, hloop⟩ := run_segmentStep_loop self (x := x) (r := r) (k := stop₁) hts
    hf [first]
  rw [hcons] at hloop
  refine ⟨stop₂, ?_⟩
  rw [namedType_eq, run_bind_of_ok hfirst, run_bind_of_ok (run_replaceArgs_none hangle),
    run_bind_of_ok hloop]
  simp

variable (self) in
/-- A plain type is read up to a token that ends it. -/
theorem run_unmarkedType {ts : List Token} {name : String} (hts : PlainType ts name)
    (hf : Ends f) :
    ∃ stop', unmarkedType self x ⟨ts ++ f :: r, k⟩ =
      .ok ({ span := .none, name }, ⟨f :: r, stop'⟩) := by
  cases hts with
  | @predefined t ht =>
    have hparen : t.is "(" = false := Token.BeginsType.is_eq (.inr ht) (by decide)
    refine ⟨t.span.stop, ?_⟩
    simp [unmarkedType, hparen, ht, predefinedType, -bind_pure_comp]
  | @dotted fs ts first names hfs hts =>
    obtain ⟨stop', hname⟩ := run_namedType self (x := x) (r := r) (k := k) hfs hts
      hf
    obtain ⟨i, us, rfl, hi⟩ := hfs.exists_cons
    have hpredefined : i.isPredefinedType = false := by
      rw [Token.isIdent, beq_iff_eq] at hi
      simp [Token.isPredefinedType, hi]
    refine ⟨stop', ?_⟩
    rw [List.append_assoc]
    rw [List.cons_append] at hname ⊢
    simp [unmarkedType, Token.is_eq_false_of_isIdent hi, hpredefined, hi, hname]

variable (self) in
/-- Before a question mark that belongs to an expression a plain type ends. -/
theorem run_type_before {ts : List Token} {name : String} (hts : PlainType ts name)
    (hmark : mark.IsPunct "?") {u : Token} (hu : u.is "." = true ∨ u.is "[" = true) :
    ∃ span stop', type self x ⟨ts ++ mark :: u :: r, k⟩ =
      .ok ({ span, name }, ⟨mark :: u :: r, stop'⟩) := by
  obtain ⟨stop', hbase⟩ := run_unmarkedType self (x := x) (r := u :: r) (k := k) hts
    (.of_isPunct hmark)
  have hmarks : extend typeMark { span := .none, name } x ⟨mark :: u :: r, stop'⟩ =
      .ok ({ span := .none, name }, ⟨mark :: u :: r, stop'⟩) := by
    refine run_extend_none ?_
    rcases hu with hu | hu <;> simp [typeMark, hmark.is_eq, hu, run_atArrayMark_bind]
  refine ⟨⟨(ahead x (ts ++ mark :: u :: r) 0).span.start, stop'⟩, stop', ?_⟩
  rw [type, run_offset_bind, run_bind_of_ok hbase, run_bind_of_ok hmarks]
  rfl

variable (self) in
/-- Any other question mark makes a plain type nullable. -/
theorem run_type_through {ts : List Token} {name : String} (hts : PlainType ts name)
    (hmark : mark.IsPunct "?") {u : Token}
    (hu : ∀ s ∈ ["[", ".", "?", "*"], u.is s = false) :
    ∃ span stop', type self x ⟨ts ++ mark :: u :: r, k⟩ =
      .ok ({ span, name, nullable := true }, ⟨u :: r, stop'⟩) := by
  obtain ⟨stop', hbase⟩ := run_unmarkedType self (x := x) (r := u :: r) (k := k) hts
    (.of_isPunct hmark)
  have hmarks : extend typeMark { span := .none, name } x ⟨mark :: u :: r, stop'⟩ =
      .ok ({ span := .none, name, nullable := true }, ⟨u :: r, mark.span.stop⟩) := by
    have hstep : typeMark { span := .none, name } x ⟨mark :: u :: r, stop'⟩ =
        .ok (some { span := .none, name, nullable := true }, ⟨u :: r, mark.span.stop⟩) := by
      simp [typeMark, hmark.is_eq, hu, -bind_pure_comp]
    rw [run_extend_some hstep (by simp)]
    refine run_extend_none ?_
    simp [typeMark, hu, run_atArrayMark_bind]
  refine ⟨⟨(ahead x (ts ++ mark :: u :: r) 0).span.start, mark.span.stop⟩, mark.span.stop, ?_⟩
  rw [type, run_offset_bind, run_bind_of_ok hbase, run_bind_of_ok hmarks]
  rfl

/-! ### Reading a plain type as an expression -/

theorem intercalate_cons_cons (a b : String) (names : List String) :
    ".".intercalate (a :: b :: names) = ".".intercalate ((a ++ "." ++ b) :: names) := by
  cases names with
  | nil => simp
  | cons c names => simp [String.intercalate_cons_cons, String.append_assoc]

theorem run_typeArgsInExpr_none {t : Token} {us : List Token} (ht : t.is "<" = false) :
    typeArgsInExpr self x ⟨t :: us, k⟩ = .ok ([], ⟨t :: us, k⟩) := by
  simp [typeArgsInExpr, ht]

variable (self) in
/-- A chain of member accesses is read segment by segment. -/
theorem run_suffix_loop {ts : List Token} {names : List String} (hts : WritesMore ts names)
    (hf : Ends f) (start : Nat) {n : Node} (hn : n.qualifiedName ≠ "") :
    ∃ n' stop', n'.qualifiedName = ".".intercalate (n.qualifiedName :: names) ∧
      extend (suffix self start) n x ⟨ts ++ f :: r, k⟩ =
        extend (suffix self start) n' x ⟨f :: r, stop'⟩ := by
  -- along the segments, each of which is one round of the loop
  induction hts generalizing n k with
  | nil => exact ⟨n, k, by simp, rfl⟩
  | @cons point i ts names hpoint hi hts ih =>
    obtain ⟨t, us, hcons, -, hangle⟩ := hf.head (r := r) hts
    let n₁ : Node := .memberAccess ⟨start, i.span.stop⟩ n i.text [] false
    have hn₁ : n₁.qualifiedName = n.qualifiedName ++ "." ++ i.text := by
      simp [n₁, Node.qualifiedName, hn]
    obtain ⟨n', stop', hn', hloop⟩ := ih (k := i.span.stop) (n := n₁) (by rw [hn₁]; simp)
    refine ⟨n', stop', by rw [hn', hn₁, intercalate_cons_cons], ?_⟩
    have hstep : suffix self start n x ⟨point :: i :: ts ++ f :: r, k⟩ =
        .ok (some n₁, ⟨ts ++ f :: r, i.span.stop⟩) := by
      rw [List.cons_append, List.cons_append, hcons]
      have hany : [".", "?.", "->"].any point.is = true := by simp [hpoint]
      have htext : point.text = "." := by
        rw [Token.is, Bool.and_eq_true, beq_iff_eq] at hpoint
        exact hpoint.2
      have hname : memberName x ⟨i :: t :: us, point.span.stop⟩ =
          .ok (i.text, ⟨t :: us, i.span.stop⟩) := by
        simp [memberName, hi, -bind_pure_comp]
      simp [suffix, hany, htext, run_bind_of_ok hname,
        run_bind_of_ok (run_typeArgsInExpr_none hangle), n₁, -bind_pure_comp]
    -- Each round uses up tokens, so the loop goes on.
    have hshort : (ts ++ f :: r).length < (point :: i :: ts ++ f :: r).length :=
      Nat.lt_succ_of_lt (Nat.lt_succ_self _)
    rw [run_extend_some hstep hshort, hloop]

/-- A predefined word is an expression by itself. -/
theorem keywordPrimary_of_isPredefinedType {t : Token} (ht : t.isPredefinedType = true) :
    keywordPrimary self t = do
      discard advance
      return .predefinedType (← spanFrom t.span.start) t.text := by
  rw [Token.isPredefinedType, Bool.and_eq_true] at ht
  simp only [keywordPrimary, ht.2, if_true]
  split
  case h_14 => rfl
  all_goals
    rename_i htext
    rw [htext] at ht
    exact absurd ht.2 (by decide)

variable (self) in
/-- The beginning of a plain type is read as a primary expression, its rest as postfix forms. -/
theorem run_primary {ts : List Token} {name : String} (hts : PlainType ts name)
    (hnames : ∀ t ∈ ts, t.isIdent = true → t.text ≠ "") (hf : Ends f) (start : Nat) :
    ∃ n n' c stop', primary self x ⟨ts ++ f :: r, k⟩ = .ok (n, c) ∧
      extend (suffix self start) n x c = extend (suffix self start) n' x ⟨f :: r, stop'⟩ ∧
      n'.qualifiedName = name := by
  cases hts with
  | @predefined t ht =>
    let n : Node := .predefinedType ⟨t.span.start, t.span.stop⟩ t.text
    refine ⟨n, n, ⟨f :: r, t.span.stop⟩, t.span.stop, ?_, rfl, rfl⟩
    have hkind : t.kind = .keyword := by
      rw [Token.isPredefinedType, Bool.and_eq_true, beq_iff_eq] at ht
      exact ht.1
    simp [primary, literalKind?, hkind, Token.isIdent, keywordPrimary_of_isPredefinedType ht, n,
      -bind_pure_comp]
  | @dotted fs ts first names hfs hts =>
    obtain ⟨t, us, hcons, hcolons, hangle⟩ := hf.head (r := r) hts
    obtain ⟨stop₁, hfirst⟩ := run_firstSegment (x := x) (r := us) (k := k) hfs hcolons
    -- An empty first segment would make the name of the operand end up empty.
    have hne : first ≠ "" := hfs.ne_empty fun t ht => hnames t (List.mem_append_left _ ht)
    obtain ⟨i, is, rfl, hi⟩ := hfs.exists_cons
    let n : Node := .ident ⟨i.span.start, stop₁⟩ first []
    obtain ⟨n', stop', hn', hloop⟩ := run_suffix_loop self (x := x) (r := r)
      (k := stop₁) hts hf start (n := n) hne
    refine ⟨n, n', ⟨ts ++ f :: r, stop₁⟩, stop', ?_, hloop, hn'⟩
    have hkind : literalKind? i.kind = none := by
      rw [Token.isIdent, beq_iff_eq] at hi
      rw [hi]
      rfl
    rw [List.append_assoc, hcons]
    rw [List.cons_append] at hfirst ⊢
    simp [primary, hkind, hi, run_bind_of_ok hfirst,
      run_bind_of_ok (run_typeArgsInExpr_none hangle), n, -bind_pure_comp]

/-- Neither a point nor a double colon nor a question mark starts an operand. -/
theorem startsOperand_eq_false {t : Token} {s : String} (h : t.is s = true)
    (hs : s ∈ [".", "::", "?"]) : startsOperand t = false ∧ t.isIdent = false := by
  rw [Token.is, Bool.and_eq_true, Bool.or_eq_true, beq_iff_eq, beq_iff_eq, beq_iff_eq] at h
  obtain ⟨hkind, rfl⟩ := h
  revert hs
  unfold startsOperand Token.isIdent
  rcases hkind with hkind | hkind <;> rw [hkind]
  all_goals
    generalize t.text = s
    revert s
    decide

/-- Behind the first token of a plain type there is no operand. -/
theorem startsOperand_behind {t : Token} {ts : List Token} {name : String}
    (hts : PlainType (t :: ts) name) (hmark : mark.IsPunct "?") :
    startsOperand (ahead x (ts ++ mark :: r) 0) = false ∧
      (ahead x (ts ++ mark :: r) 0).isIdent = false := by
  have hbehind : mark.is "?" = true := hmark.is_eq _
  -- The token behind the first one is the mark, a point or a pair of colons.
  generalize hall : t :: ts = all at hts
  cases hts with
  | predefined ht =>
    cases hall
    exact startsOperand_eq_false hbehind (by decide)
  | dotted hfs hts =>
    cases hfs with
    | plain hi =>
      cases hts with
      | nil =>
        cases hall
        exact startsOperand_eq_false hbehind (by decide)
      | cons hpoint =>
        cases hall
        exact startsOperand_eq_false hpoint (by decide)
    | qualified hi hsep hj =>
      cases hall
      exact startsOperand_eq_false hsep (by decide)

/-- What is read behind a plain type that starts an operand: postfix forms and a switch. -/
def operandRest (self : Rules) (start : Nat) (n : Node) : Parser Node := do
  let n ← extend (suffix self start) n
  if (← is "switch") && (← peekIs 1 openBrace) then switchExpr self start n else return n

variable (self) in
/-- The tokens of a plain type are read as an operand whose name is that of the type. -/
theorem run_unary {ts : List Token} {name : String} (hts : PlainType ts name)
    (hnames : ∀ t ∈ ts, t.isIdent = true → t.text ≠ "") (hmark : mark.IsPunct "?") :
    ∃ n stop', n.qualifiedName = name ∧ unary self x ⟨ts ++ mark :: r, k⟩ =
      operandRest self (ahead x (ts ++ mark :: r) 0).span.start n x ⟨mark :: r, stop'⟩ := by
  obtain ⟨t, us, rfl, hbegins⟩ := hts.exists_cons
  obtain ⟨n, n', c, stop', hprimary, hloop, hn'⟩ := run_primary self (x := x) (r := r)
    (k := k) hts hnames (.of_isPunct hmark) t.span.start
  obtain ⟨hoperand, -⟩ := startsOperand_behind (x := x) (r := r) hts hmark
  refine ⟨n', stop', hn', ?_⟩
  have hcast : cast? self x ⟨t :: (us ++ mark :: r), k⟩ =
      .ok (none, ⟨t :: (us ++ mark :: r), k⟩) :=
    run_cast?_none (run_castType?_none (hbegins.is_eq (by decide)))
  -- The first token is a name or a predefined type, so no operator stands in front.
  have hleading : ((t.kind == .punct && unaryOps.contains t.text) ||
      (t.kind == .keyword && ["ref", "out", "in"].contains t.text)) = false := by
    rcases hbegins with h | h
    · rw [Token.isIdent, beq_iff_eq] at h
      simp [h]
    · rw [Token.isPredefinedType, Bool.and_eq_true, beq_iff_eq] at h
      rw [h.1, Bool.or_eq_false_iff]
      refine ⟨rfl, ?_⟩
      have hwords : ∀ s ∈ predefinedTypes, ["ref", "out", "in"].contains s = false := by decide
      exact hwords t.text (by simpa using h.2)
  rw [List.cons_append] at hprimary ⊢
  rw [unary, run_current_bind, ahead_zero]
  simp only [hleading]
  rw [if_neg Bool.false_ne_true, run_bind_of_ok hcast]
  dsimp only
  rw [run_peek_bind, ahead_succ, hoperand, Bool.and_false, if_neg Bool.false_ne_true,
    run_bind_of_ok hprimary, run_bind_congr hloop]
  rfl

end Reading

end Grammar

end CSharpAudit
