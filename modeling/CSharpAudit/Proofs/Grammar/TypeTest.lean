import CSharpAudit.Proofs.Grammar.PlainType

/-!
# Type tests as conditions

Behind `is` a question mark may belong to the type or to a conditional expression. The reader first
tries a type with a variable behind it, so the mark goes to the type and the first name of the
branch becomes a variable whenever a name stands there. If no name stands there, the type is read
once more as an expression, of which only a dotted name is kept as a type.

## Main definitions

* `ConditionalTest` — a text `x is T ? a : b;` with its parts
* `ConditionalTest.ReadAsWritten` — the text is read as the test of `T` between `a` and `b`

## Main results

* `ConditionalTest.readAsWritten_iff` — which of these texts are read as they are written
-/

namespace CSharpAudit

open Grammar

namespace Grammar

/-! ### What a type leaves behind -/

/-- A parser leaves an end of the tokens. -/
def Shortens {α : Type} (p : Parser α) : Prop :=
  ∀ ⦃x c a c'⦄, p x c = .ok (a, c') → c'.rest <:+ c.rest

variable {α β : Type} {p : Parser α} {f : α → Parser β} {self : Rules}

theorem Shortens.pure (a : α) : Shortens (Pure.pure a : Parser α) := by
  intro x c b c' h
  cases h
  exact List.suffix_refl _

/-- Two parsers in a row leave no more tokens than there were. -/
theorem Shortens.bind (hp : Shortens p) (hf : ∀ a, Shortens (f a)) : Shortens (p >>= f) := by
  intro x c b c' h
  obtain ⟨a, c₁, ha, hb⟩ := run_bind_eq_ok.mp h
  exact (hf a hb).trans (hp ha)

theorem Shortens.discard (hp : Shortens p) : Shortens (discard p) := by
  rw [← bind_pure (Functor.discard p), Layouts.discard_bind]
  exact hp.bind fun _ => .pure _

theorem Shortens.ite {b : Prop} [Decidable b] {q : Parser α} (hp : Shortens p) (hq : Shortens q) :
    Shortens (if b then p else q) := by
  split
  · exact hp
  · exact hq

theorem Shortens.peek (n : Nat) : Shortens (Grammar.peek n) := by
  intro x c t c' h
  cases h
  exact List.suffix_refl _

theorem Shortens.peekIs (n : Nat) (s : String) : Shortens (Grammar.peekIs n s) :=
  (Shortens.peek n).bind fun _ => .pure _

theorem Shortens.peekIdent (n : Nat) : Shortens (Grammar.peekIdent n) :=
  (Shortens.peek n).bind fun _ => .pure _

theorem Shortens.advance : Shortens Grammar.advance := by
  intro x c t c' h
  obtain ⟨rest, k⟩ := c
  cases rest with
  | nil => cases h; exact List.suffix_refl _
  | cons t ts => cases h; exact List.suffix_cons _ _

theorem Shortens.fail (cause : SyntaxError.Cause) : Shortens (Grammar.fail cause : Parser α) := by
  intro x c a c' h
  cases h

theorem Shortens.failAt (cause : Token → SyntaxError.Cause) :
    Shortens (Grammar.failAt cause : Parser α) :=
  (Shortens.peek 0).bind fun _ => .fail _

theorem Shortens.expect (s : String) : Shortens (Grammar.expect s) :=
  (Shortens.peekIs 0 s).bind fun _ => .ite .advance (.failAt _)

theorem Shortens.acceptIf {cond : Parser Bool} (h : Shortens cond) :
    Shortens (Grammar.acceptIf cond) :=
  h.bind fun _ => .ite (Shortens.advance.discard.bind fun _ => .pure _) (.pure _)

theorem Shortens.expectIdent : Shortens Grammar.expectIdent :=
  (Shortens.peek 0 |>.bind fun _ => .pure _).bind fun _ => .ite .advance (.failAt _)

theorem Shortens.identText : Shortens Grammar.identText :=
  Shortens.expectIdent.bind fun _ => .pure _

theorem Shortens.optionalIdent : Shortens Grammar.optionalIdent :=
  (Shortens.peek 0 |>.bind fun _ => .pure _).bind fun _ =>
    .ite (Shortens.advance.bind fun _ => .pure _) (.pure _)

/-- A loop leaves no more tokens than there were. -/
theorem Shortens.extend {step : α → Parser (Option α)} (h : ∀ a, Shortens (step a)) (a : α) :
    Shortens (Grammar.extend step a) := by
  intro x c b c' hrun
  exact run_extend_rec (P := fun _ c' => c'.rest <:+ c.rest) hrun (List.suffix_refl _)
    (fun _ _ _ _ ih hstep => (h _ hstep).trans ih) (fun _ _ _ ih hstep => (h _ hstep).trans ih)

theorem Shortens.repeatWhile {cond : Parser Bool} {item : Parser α} (hcond : Shortens cond)
    (hitem : Shortens item) : Shortens (Grammar.repeatWhile cond item) := by
  intro x c as c' hrun
  change repeatFuel cond item (c.rest.length + 1) x c = .ok (as, c') at hrun
  generalize c.rest.length + 1 = fuel at hrun
  induction fuel generalizing c as with
  | zero => cases hrun
  | succ fuel ih =>
    rw [repeatFuel, run_tokensLeft_bind, run_bind_eq_ok] at hrun
    obtain ⟨b, c₁, hb, hrun⟩ := hrun
    rw [run_ite] at hrun
    split at hrun
    · rw [run_bind_eq_ok] at hrun
      obtain ⟨a, c₂, ha, hrun⟩ := hrun
      rw [run_bind_eq_ok] at hrun
      obtain ⟨as', c₃, has, hrun⟩ := hrun
      cases hrun
      rw [run_nextRound] at has
      split at has
      · exact (ih has).trans ((hitem ha).trans (hcond hb))
      · cases has
    · cases hrun
      exact hcond hb

theorem Shortens.separated {item : Parser α} (h : Shortens item) :
    Shortens (Grammar.separated item) :=
  h.bind fun _ => (Shortens.repeatWhile (.acceptIf (.peekIs 0 _)) h).bind fun _ => .pure _

/-- Type arguments leave no more tokens than there were. -/
theorem Shortens.typeArgs (h : Shortens self.type) : Shortens (Grammar.typeArgs self) :=
  (Shortens.expect _).discard.bind fun _ =>
    (Shortens.separated ((Shortens.peekIs 0 _).bind fun _ => (Shortens.peekIs 0 _).bind fun _ =>
      .ite (.pure _) h)).bind fun _ => (Shortens.expect _).discard.bind fun _ => .pure _

theorem Shortens.replaceArgs (h : Shortens self.type) (args : List TypeRef) :
    Shortens (Grammar.replaceArgs self args) :=
  (Shortens.peekIs 0 _).bind fun _ => .ite (.typeArgs h) (.pure _)

theorem Shortens.namedType (h : Shortens self.type) : Shortens (Grammar.namedType self) := by
  have hfirst : Shortens firstSegment := Shortens.identText.bind fun _ =>
    (Shortens.acceptIf (.peekIs 0 _)).bind fun _ => .ite .identText (.pure _)
  have hstep (a) : Shortens (segmentStep self a) :=
    (Shortens.peekIs 0 _).bind fun _ => (Shortens.peekIdent 1).bind fun _ =>
      .ite (Shortens.advance.discard.bind fun _ => Shortens.advance.bind fun _ =>
        (Shortens.replaceArgs h _).bind fun _ => .pure _) (.pure _)
  rw [namedType_eq]
  exact hfirst.bind fun _ => (Shortens.replaceArgs h _).bind fun _ =>
    (Shortens.extend hstep _).bind fun _ => .pure _

theorem Shortens.tupleType (h : Shortens self.type) : Shortens (Grammar.tupleType self) :=
  (Shortens.expect _).discard.bind fun _ =>
    (Shortens.separated (h.bind fun _ => Shortens.optionalIdent.bind fun _ => .pure _)).bind
      fun _ => (Shortens.expect _).discard.bind fun _ =>
        .ite ((Shortens.fail _).bind fun _ => .pure _) (.pure _)

theorem Shortens.typeMark (t : TypeRef) : Shortens (Grammar.typeMark t) := by
  have hmark : Shortens arrayMark := Shortens.advance.discard.bind fun _ =>
    (Shortens.repeatWhile (.acceptIf (.peekIs 0 _)) (.pure _)).discard.bind fun _ =>
      (Shortens.expect _).discard
  have hat : Shortens atArrayMark := (Shortens.peekIs 0 _).bind fun _ =>
    (Shortens.peekIs 1 _).bind fun _ => (Shortens.peekIs 1 _).bind fun _ => .pure _
  exact (Shortens.peekIs 0 _).bind fun _ => (Shortens.peekIs 1 _).bind fun _ =>
    (Shortens.peekIs 1 _).bind fun _ => .ite (Shortens.advance.discard.bind fun _ => .pure _)
      ((Shortens.peekIs 0 _).bind fun _ => .ite (Shortens.advance.discard.bind fun _ => .pure _)
        (hat.bind fun _ => .ite (hmark.bind fun _ => .pure _) (.pure _)))

/-- A type leaves no more tokens than there were, if the types inside of it do. -/
theorem Shortens.type (h : Shortens self.type) : Shortens (Grammar.type self) := by
  have hspan (start : Nat) : Shortens (spanFrom start) := by
    intro x c a c' hrun
    cases hrun
    exact List.suffix_refl _
  have hunmarked : Shortens (unmarkedType self) := (Shortens.peek 0).bind fun _ =>
    .ite (.tupleType h) (.ite (Shortens.advance.bind fun _ => .pure _)
      (.ite (.namedType h) (.failAt _)))
  exact ((Shortens.peek 0).bind fun _ => .pure _).bind fun _ => hunmarked.bind fun _ =>
    (Shortens.extend .typeMark _).bind fun _ => (hspan _).bind fun _ => .pure _

/-- Types leave no more tokens than there were, at any depth. -/
theorem shortens_type_rules (depth : Nat) : Shortens (Grammar.type (rules depth)) := by
  induction depth with
  | zero => exact .type (.fail _)
  | succ depth ih => exact .type ih

/-! ### What a parser returns -/

/-- A postfix form of an expression without a name has no name. -/
theorem returns_suffix (start : Nat) {n : Node} (hn : n.qualifiedName = "") :
    Returns (suffix self start n) fun o => ∀ n', o = some n' → n'.qualifiedName = "" := by
  unfold suffix
  repeat' first
    | refine Returns.ite ?_ ?_
    | refine Returns.bind fun _ => ?_
    | refine Returns.pure ?_
  all_goals simp [Node.qualifiedName, hn]

/-- What an operator makes of its left operand. -/
inductive ExtendsTo (n : Node) : Node → Prop
  | isExpr (span : Span) (t : Option TypeRef) (pattern : Option Node) (name : String)
    (negated : Bool) : ExtendsTo n (.isExpr span n t pattern name negated)
  | asExpr (span : Span) (t : TypeRef) : ExtendsTo n (.asExpr span n t)
  | binary (span : Span) (op : String) (y : Node) : ExtendsTo n (.binary span op n y)

theorem returns_typeTest (start : Nat) (n : Node) :
    Returns (typeTest self start n) (ExtendsTo n) := by
  refine .bind fun negated => .bind fun o => ?_
  cases o with
  | none => exact .bind fun _ => .bind fun _ => .pure (.isExpr ..)
  | some t => exact .bind fun _ => .pure (.isExpr ..)

/-- One step of a binary expression extends its left operand. -/
theorem returns_binaryStep (start minimum : Nat) (n : Node) :
    Returns (binaryStep self start minimum n) fun o => ∀ n', o = some n' → ExtendsTo n n' := by
  refine .bind fun o => ?_
  cases o with
  | none => exact .pure (by simp)
  | some op =>
    refine .ite (.pure (by simp)) (.bind fun _ => .ite ?_ (.ite ?_ ?_))
    · exact .then (returns_typeTest start n) fun n' hn' => .pure (by simpa using hn')
    · exact .bind fun _ => .bind fun _ => .pure (by simpa using .asExpr ..)
    · exact .bind fun _ => .bind fun _ => .pure (by simpa using .binary ..)

/-- An extended expression is larger. -/
theorem ExtendsTo.sizeOf_lt {n n' : Node} (h : ExtendsTo n n') : sizeOf n < sizeOf n' := by
  cases h <;> simp <;> omega

/-- An extended expression is no dotted name. -/
theorem ExtendsTo.qualifiedName_eq {n n' : Node} (h : ExtendsTo n n') : n'.qualifiedName = "" := by
  cases h <;> rfl

/-! ### Plain types in patterns -/

section Pattern

variable {x : Input} {mark u : Token} {ts r : List Token} {name : String} {k : Nat}

theorem run_atDesignation_bind {f : Bool → Parser β} {c : Cursor} :
    (atDesignation >>= f) x c =
      f ((ahead x c.rest 0).isIdent && !continuesPattern (ahead x c.rest 0)) x c := rfl

/-- A type without a variable behind it is no declaration. -/
theorem run_declaration_of_not {ty : Parser TypeRef} {c c' : Cursor} {t : TypeRef}
    (hty : ty x c = .ok (t, c'))
    (hnot : (ahead x c'.rest 0).isIdent = false ∨ continuesPattern (ahead x c'.rest 0) = true) :
    attempt (declaration ty) x c = .ok (none, c) := by
  refine run_attempt_of_error (e := ⟨(ahead x c'.rest 0).span.start, .otherReading⟩) ?_ rfl
  rw [declaration, run_bind_of_ok hty, run_atDesignation_bind, run_ite, if_neg]
  · rfl
  · rcases hnot with h | h <;> simp [h]

variable (self) in
/-- A name behind a plain type and a question mark is taken for a variable. -/
theorem run_declaration (hts : PlainType ts name) (hmark : mark.IsPunct "?")
    (hu : u.isIdent = true) (hnot : continuesPattern u = false) :
    ∃ t c, attempt (declaration (type self)) x ⟨ts ++ mark :: u :: r, k⟩ =
      .ok (some (t, u.text), c) := by
  obtain ⟨span, stop', htype⟩ := run_type_through self (x := x) (r := r) (k := k)
    hts hmark (u := u) (fun s _ => Token.is_eq_false_of_isIdent hu s)
  refine ⟨{ span, name, nullable := true }, ⟨r, u.span.stop⟩, run_attempt_of_ok ?_⟩
  rw [declaration, run_bind_of_ok htype, run_atDesignation_bind]
  simp [hu, hnot, -bind_pure_comp]

variable (self) in
/-- If no name stands behind a plain type and a question mark, no variable is declared. -/
theorem run_declaration_none (hts : PlainType ts name) (hmark : mark.IsPunct "?")
    (hmark' : u.is "?" = false) (hstar : u.is "*" = false)
    (hnot : u.isIdent = false ∨ continuesPattern u = true) :
    attempt (declaration (type self)) x ⟨ts ++ mark :: u :: r, k⟩ =
      .ok (none, ⟨ts ++ mark :: u :: r, k⟩) := by
  by_cases hu : u.is "." = true ∨ u.is "[" = true
  · obtain ⟨span, stop', htype⟩ := run_type_before self (x := x) (r := r) (k := k)
      hts hmark hu
    exact run_declaration_of_not htype (.inl (by simp [Token.isIdent, hmark.kind]))
  · rw [not_or, Bool.not_eq_true, Bool.not_eq_true] at hu
    obtain ⟨span, stop', htype⟩ := run_type_through self (x := x) (r := r) (k := k)
      hts hmark (u := u) (by simp [hu, hmark', hstar])
    exact run_declaration_of_not htype hnot

/-- The variable of a declaration is a name of the text. -/
theorem run_declaration_mem {depth : Nat} {c c' : Cursor} {t : TypeRef} {var : String}
    (heof : x.eof.kind = .eof)
    (h : declaration (type (rules depth)) x c = .ok ((t, var), c')) :
    ∃ i ∈ c.rest, i.isIdent = true ∧ i.text = var := by
  rw [declaration, run_bind_eq_ok] at h
  obtain ⟨t', c₁, htype, h⟩ := h
  have hsuffix := shortens_type_rules depth htype
  rw [run_atDesignation_bind, run_ite] at h
  split at h
  · rename_i hvar
    rw [Bool.and_eq_true] at hvar
    obtain ⟨rest, k⟩ := c₁
    cases rest with
    | nil => simp [ahead, Token.isIdent, heof] at hvar
    | cons i is =>
      cases h
      exact ⟨i, hsuffix.subset (by simp), hvar.1, rfl⟩
  · cases h

/-- What is read behind a plain type that starts a pattern: postfix forms, operators of the level
of a pattern and a property pattern. -/
def patternRest (self : Rules) (start : Nat) (n : Node) : Parser Node := do
  let n ← extend (binaryStep self start shiftPrecedence) (← operandRest self start n)
  skipSubpattern
  return n

/-- A plain type is read as a pattern up to its question mark. -/
theorem run_primaryPattern (hts : PlainType ts name)
    (hnames : ∀ t ∈ ts, t.isIdent = true → t.text ≠ "") (hmark : mark.IsPunct "?")
    (hnot : ∀ t ∈ ts.head?, t.isWord "not" = false)
    (hdeclaration : attempt (declaration (type self)) x ⟨ts ++ mark :: r, k⟩ =
      .ok (none, ⟨ts ++ mark :: r, k⟩)) :
    ∃ start n stop', n.qualifiedName = name ∧
      primaryPattern self x ⟨ts ++ mark :: r, k⟩ =
        patternRest self start n x ⟨mark :: r, stop'⟩ := by
  obtain ⟨n, stop', hn, hunary⟩ := run_unary self (x := x) (r := r) (k := k)
    hts hnames hmark
  obtain ⟨t, us, rfl, hbegins⟩ := hts.exists_cons
  obtain ⟨-, hident⟩ := startsOperand_behind (x := x) (r := r) hts hmark
  -- A plain type starts with no cast and with none of the signs of a pattern.
  have hcast : atCast self x ⟨t :: (us ++ mark :: r), k⟩ =
      .ok (false, ⟨t :: (us ++ mark :: r), k⟩) := by
    have hnone : cast? self x ⟨t :: (us ++ mark :: r), k⟩ =
        .ok (none, ⟨t :: (us ++ mark :: r), k⟩) :=
      run_cast?_none (run_castType?_none (hbegins.is_eq (by decide)))
    simp [atCast, run_bind_of_ok (run_lookahead_of_ok hnone)]
  have hnot : t.isWord "not" = false := hnot t rfl
  have his (s : String) (hs : s ∈ ["<", ">", "<=", ">=", openBrace, "[", "("]) :
      t.is s = false := by
    refine hbegins.is_eq ?_
    revert s
    decide
  refine ⟨t.span.start, n, stop', hn, ?_⟩
  rw [List.cons_append] at hunary hdeclaration ⊢
  -- What is left of the pattern is what follows an operand.
  have hbinary : binary self shiftPrecedence x ⟨t :: (us ++ mark :: r), k⟩ =
      (operandRest self t.span.start n >>= extend (binaryStep self t.span.start shiftPrecedence)) x
        ⟨mark :: r, stop'⟩ := by
    rw [binary, run_offset_bind]
    exact run_bind_congr hunary
  have hrest : primaryPattern self x ⟨t :: (us ++ mark :: r), k⟩ =
      (binary self shiftPrecedence >>= fun n => skipSubpattern >>= fun _ => pure n) x
        ⟨t :: (us ++ mark :: r), k⟩ := by
    simp [primaryPattern, hnot, his, hident, run_bind_of_ok hcast, run_bind_of_ok hdeclaration]
  rw [hrest, run_bind_congr hbinary, bind_assoc]
  rfl

/-- The question mark goes on with no pattern, unless a bracket touches it. -/
theorem run_patternRest (hmark : mark.IsPunct "?")
    (hu : ¬(u.is "[" = true ∧ mark.touches u = true)) (start : Nat) (n : Node) :
    patternRest self start n x ⟨mark :: u :: r, k⟩ = .ok (n, ⟨mark :: u :: r, k⟩) := by
  -- no suffix, no operator and no pattern in braces starts with this mark
  have hsuffix : extend (suffix self start) n x ⟨mark :: u :: r, k⟩ =
      .ok (n, ⟨mark :: u :: r, k⟩) := by
    refine run_extend_none ?_
    by_cases hbracket : u.is "[" = true
    · have happart : (mark.span.stop == u.span.start) = false :=
        Bool.not_eq_true _ ▸ fun htouches => hu ⟨hbracket, htouches⟩
      simp [suffix, hmark.is_eq, hbracket, happart]
    · simp [suffix, hmark.is_eq, hbracket]
  have hstep : extend (binaryStep self start shiftPrecedence) n x ⟨mark :: u :: r, k⟩ =
      .ok (n, ⟨mark :: u :: r, k⟩) := by
    refine run_extend_none ?_
    have hop : binaryOp? x ⟨mark :: u :: r, k⟩ = .ok (none, ⟨mark :: u :: r, k⟩) := by
      simp [binaryOp?, hmark.kind, hmark.text, precedence?, -bind_pure_comp]
    rw [binaryStep, run_bind_of_ok hop]
    rfl
  have hoperand : operandRest self start n x ⟨mark :: u :: r, k⟩ =
      .ok (n, ⟨mark :: u :: r, k⟩) := by
    rw [operandRest, run_bind_of_ok hsuffix]
    simp [hmark.is_eq]
  rw [patternRest, run_bind_of_ok hoperand, run_bind_of_ok hstep]
  simp [skipSubpattern, hmark.is_eq, openBrace]

/-- If no variable stands behind it, a plain type with a question mark behind it is read as a
pattern that consists of its name. -/
theorem run_pattern (hts : PlainType ts name)
    (hnames : ∀ t ∈ ts, t.isIdent = true → t.text ≠ "") (hmark : mark.IsPunct "?")
    (hnot : ∀ t ∈ ts.head?, t.isWord "not" = false)
    (hdeclaration : attempt (declaration (type self)) x ⟨ts ++ mark :: u :: r, k⟩ =
      .ok (none, ⟨ts ++ mark :: u :: r, k⟩))
    (hu : ¬(u.is "[" = true ∧ mark.touches u = true)) :
    ∃ n stop', n.qualifiedName = name ∧
      pattern self x ⟨ts ++ mark :: u :: r, k⟩ = .ok (n, ⟨mark :: u :: r, stop'⟩) := by
  obtain ⟨start, n, stop', hn, hprimary⟩ := run_primaryPattern hts hnames hmark hnot hdeclaration
  rw [run_patternRest hmark hu] at hprimary
  refine ⟨n, stop', hn, ?_⟩
  have hword (s : String) : mark.isWord s = false := by simp [Token.isWord, hmark.kind]
  rw [pattern, run_offset_bind, run_bind_of_ok hprimary]
  exact run_extend_none (by simp [hword])

/-- Nothing that is read behind an expression without a name gives it one. -/
theorem returns_switch_or_self (start : Nat) {n : Node} (hn : n.qualifiedName = "") :
    Returns (do
        if (← is "switch") && (← peekIs 1 openBrace) then switchExpr self start n else return n)
      fun n' => n'.qualifiedName = "" :=
  .bind fun _ => .bind fun _ =>
    .ite (.bind fun _ => .bind fun _ => .bind fun _ => .pure rfl) (.pure hn)

/-- With an index behind it a plain type is an expression without a name. -/
theorem returns_pattern_index (hts : PlainType ts name)
    (hnames : ∀ t ∈ ts, t.isIdent = true → t.text ≠ "") (hmark : mark.IsPunct "?")
    (hnot : ∀ t ∈ ts.head?, t.isWord "not" = false)
    (hdeclaration : attempt (declaration (type self)) x ⟨ts ++ mark :: u :: r, k⟩ =
      .ok (none, ⟨ts ++ mark :: u :: r, k⟩))
    (hbracket : u.is "[" = true) (htouches : mark.touches u = true) {n : Node} {c : Cursor}
    (hrun : pattern self x ⟨ts ++ mark :: u :: r, k⟩ = .ok (n, c)) : n.qualifiedName = "" := by
  obtain ⟨start, n₀, stop', -, hprimary⟩ := run_primaryPattern hts hnames hmark hnot hdeclaration
  have hindex : suffix self start n₀ x ⟨mark :: u :: r, stop'⟩ =
      (arguments self "[" "]" >>= fun args => spanFrom start >>= fun span =>
        pure (some (.elementAccess span n₀ args true))) x ⟨u :: r, mark.span.stop⟩ := by
    rw [Token.touches] at htouches
    simp [suffix, hmark.is_eq, hbracket, htouches]
  rw [pattern, run_offset_bind, run_bind_eq_ok] at hrun
  obtain ⟨n₁, c₁, hn₁, hrun⟩ := hrun
  rw [hprimary, patternRest, run_bind_eq_ok] at hn₁
  obtain ⟨n₂, c₂, hn₂, hn₁⟩ := hn₁
  rw [operandRest, run_bind_eq_ok] at hn₂
  obtain ⟨n₃, c₃, hn₃, hn₂⟩ := hn₂
  -- An index has no name, and neither has what is built on top of it.
  have hsuffixes : n₃.qualifiedName = "" := by
    rcases run_extend_first hn₃ with ⟨hnone, -⟩ | ⟨a, c₄, ha, hmore⟩
    · rw [hindex, run_bind_eq_ok] at hnone
      obtain ⟨args, c₄, -, hnone⟩ := hnone
      cases hnone
    · rw [hindex, run_bind_eq_ok] at ha
      obtain ⟨args, c₅, -, ha⟩ := ha
      cases ha
      exact Returns.extend (P := fun n : Node => n.qualifiedName = "")
        (fun n hn => returns_suffix start hn) rfl _ _ _ hmore
  have hoperand : n₂.qualifiedName = "" := returns_switch_or_self start hsuffixes _ _ _ hn₂
  have hoperators : Returns (extend (binaryStep self start shiftPrecedence) n₂)
      fun n => n.qualifiedName = "" := by
    refine .extend (fun n _ => ?_) hoperand
    intro _ _ _ hstep n' hn'
    exact (returns_binaryStep start shiftPrecedence n _ _ _ hstep n' hn').qualifiedName_eq
  have hprimary' : n₁.qualifiedName = "" :=
    Returns.then (Q := fun n : Node => n.qualifiedName = "") hoperators
      (fun n hn => .bind fun _ => .pure hn) _ _ _ hn₁
  refine Returns.extend (P := fun n : Node => n.qualifiedName = "") (fun n hn => ?_) hprimary'
    _ _ _ hrun
  exact .bind fun _ => .bind fun _ =>
    .ite (.bind fun _ => .bind fun _ => .bind fun _ => .pure (by simp [Node.qualifiedName]))
      (.pure (by simp))

end Pattern

/-! ### Tokens that start no expression -/

section NoOperand

variable {x : Input} {t : Token} {ts : List Token} {s : String} {k : Nat}

variable (self ts) in
theorem run_primary_error (h : t.is s = true) (hs : s ∈ ["?", "throw"]) :
    ∃ e, primary self x ⟨t :: ts, k⟩ = .error e := by
  refine ⟨⟨t.span.start, .unexpectedInExpression t⟩, ?_⟩
  have hnot (s' : String) (hs' : s' ∈ ["(", "[", openBrace]) : t.is s' = false := by
    rw [Token.is_eq_of_is h]
    have hne : ∀ s ∈ ["?", "throw"], ∀ s' ∈ ["(", "[", openBrace], (s == s') = false := by decide
    exact hne s hs s' hs'
  rw [Token.is, Bool.and_eq_true, Bool.or_eq_true, beq_iff_eq, beq_iff_eq, beq_iff_eq] at h
  obtain ⟨hkind | hkind, htext⟩ := h
  · simp [primary, literalKind?, hkind, Token.isIdent, hnot]
  · have hkeyword : keywordPrimary self t = failAt .unexpectedInExpression := by
      simp only [List.mem_cons, List.not_mem_nil, or_false] at hs
      rcases hs with rfl | rfl <;> simp [keywordPrimary, htext, predefinedTypes]
    simp [primary, literalKind?, hkind, Token.isIdent, hkeyword]

variable (self ts) in
/-- No operand begins with `?` or `throw`. -/
theorem run_unary_error (h : t.is s = true) (hs : s ∈ ["?", "throw"]) :
    ∃ e, unary self x ⟨t :: ts, k⟩ = .error e := by
  obtain ⟨e, he⟩ := run_primary_error self ts (x := x) (k := k) h hs
  have hparen : t.is "(" = false := by
    rw [Token.is_eq_of_is h]
    have hne : ∀ s ∈ ["?", "throw"], (s == "(") = false := by decide
    exact hne s hs
  have hcast : cast? self x ⟨t :: ts, k⟩ = .ok (none, ⟨t :: ts, k⟩) :=
    run_cast?_none (run_castType?_none hparen)
  rw [Token.is, Bool.and_eq_true, Bool.or_eq_true, beq_iff_eq, beq_iff_eq, beq_iff_eq] at h
  have hleading : ((t.kind == .punct && unaryOps.contains t.text) ||
      (t.kind == .keyword && ["ref", "out", "in"].contains t.text)) = false := by
    have hne : ∀ s ∈ ["?", "throw"], unaryOps.contains s = false ∧
      ["ref", "out", "in"].contains s = false := by decide
    rw [h.2, (hne s hs).1, (hne s hs).2, Bool.and_false, Bool.and_false]
    rfl
  have hword : t.isWord "await" = false := by
    rcases h.1 with hkind | hkind <;> simp [Token.isWord, hkind]
  refine ⟨e, ?_⟩
  rw [unary, run_current_bind, ahead_zero]
  simp only [hleading]
  simp [run_bind_of_ok hcast, hword, run_bind_of_error he]

variable (self ts) in
/-- No expression begins with `?`. -/
theorem run_expr_error (h : t.is "?" = true) : ∃ e, expr self x ⟨t :: ts, k⟩ = .error e := by
  obtain ⟨e, he⟩ := run_unary_error self ts (x := x) (k := k) h (by decide)
  have hlambda : lambda? self x ⟨t :: ts, k⟩ = .ok (none, ⟨t :: ts, k⟩) := by
    have hkind := h
    rw [Token.is, Bool.and_eq_true, Bool.or_eq_true, beq_iff_eq, beq_iff_eq] at hkind
    have hident : t.isIdent = false ∧ t.isWord "async" = false := by
      rcases hkind.1 with hkind | hkind <;> simp [Token.isIdent, Token.isWord, hkind]
    simp [lambda?, lambdaFrom?, hident, Token.is_eq_of_is h]
  have hconditional : conditional self x ⟨t :: ts, k⟩ = .error e := by
    have hbinary : binary self coalescePrecedence x ⟨t :: ts, k⟩ = .error e := by
      rw [binary, run_offset_bind, run_bind_of_error he]
    rw [conditional, run_offset_bind, run_bind_of_error hbinary]
  refine ⟨e, ?_⟩
  rw [expr, run_offset_bind, run_bind_of_ok hlambda]
  simp [run_accept_bind, Token.is_eq_of_is h, run_bind_of_error hconditional]

end NoOperand

end Grammar

/-! ### Conditional tests -/

/-- The tokens of a text `x is T ? a : b;` and what its parts are read as. -/
structure TestText where
  depth : Nat
  input : Input
  /-- The end of the token before the text. -/
  stop : Nat
  operand : List Token
  test : Token
  typeTokens : List Token
  mark : Token
  /-- The first token of the first branch. -/
  first : Token
  more : List Token
  colon : Token
  other : List Token
  semi : Token
  rest : List Token
  x : Node
  type : TypeRef
  a : Node
  b : Node

namespace TestText

variable (w : TestText)

/-- The tokens behind the colon. -/
def behindColon : List Token := w.other ++ w.semi :: w.rest

/-- The tokens behind the question mark. -/
def behindMark : List Token := w.first :: (w.more ++ w.colon :: w.behindColon)

/-- The tokens behind the word `is`. -/
def behindTest : List Token := w.typeTokens ++ w.mark :: w.behindMark

def tokens : List Token := w.operand ++ w.test :: w.behindTest

/-- The productions that read the text. -/
def rules : Rules := Grammar.rules (w.depth + 1)

/-- The text is read as a test of the type between two branches, and no variable is declared. -/
def ReadAsWritten : Prop :=
  ∃ span span' type pattern stop', type.erase = w.type.erase ∧
    expr w.rules w.input ⟨w.tokens, w.stop⟩ =
      .ok (.conditional span (.isExpr span' w.x (some type) pattern "" false) w.a w.b,
        ⟨w.semi :: w.rest, stop'⟩)

end TestText

/-- A text `x is T ? a : b;` each part of which is read in its place as an expression, and whose
type is read as `T` in some place. The first branch does not start with a `*`, as no primary
expression does. -/
structure ConditionalTest extends TestText where
  eof_kind : input.eof.kind = .eof
  named : ∀ t ∈ toTestText.tokens, t.isIdent = true → t.text ≠ ""
  test_kind : test.kind = .keyword
  test_text : test.text = "is"
  mark_isPunct : mark.IsPunct "?"
  colon_isPunct : colon.IsPunct ":"
  semi_isPunct : semi.IsPunct ";"
  not_lambda : lambda? toTestText.rules input ⟨toTestText.tokens, stop⟩ =
    .ok (none, ⟨toTestText.tokens, stop⟩)
  reads_x : ∃ stop', unary toTestText.rules input ⟨toTestText.tokens, stop⟩ =
    .ok (x, ⟨test :: toTestText.behindTest, stop'⟩)
  reads_type : ∃ behind stop stop', toTestText.rules.type input ⟨typeTokens ++ behind, stop⟩ =
    .ok (type, ⟨behind, stop'⟩)
  first_ne : first.is "*" = false
  reads_a : ∃ stop', toTestText.rules.expr input ⟨toTestText.behindMark, mark.span.stop⟩ =
    .ok (a, ⟨colon :: toTestText.behindColon, stop'⟩)
  reads_b : ∃ stop', toTestText.rules.expr input ⟨toTestText.behindColon, colon.span.stop⟩ =
    .ok (b, ⟨semi :: rest, stop'⟩)

namespace ConditionalTest

variable (w : ConditionalTest)

/-- The first branch starts with a name that can be taken for the variable of a pattern. -/
def StartsWithName : Prop := w.first.isIdent = true ∧ continuesPattern w.first = false

/-- The question mark and the first branch can be taken for an index. -/
def StartsWithIndex : Prop := w.first.is "[" = true ∧ w.mark.touches w.first = true

theorem first_is_mark : w.first.is "?" = false := by
  obtain ⟨stop', hread⟩ := w.reads_a
  refine Bool.eq_false_iff.mpr fun h => ?_
  obtain ⟨e, he⟩ := run_expr_error (Grammar.rules w.depth) (w.more ++ w.colon :: w.behindColon)
    (x := w.input) (k := w.mark.span.stop) h
  have : (.error e : Except SyntaxError _) = .ok _ := he.symm.trans hread
  cases this

theorem exists_tokens : ∃ t us, w.tokens = t :: us ∧ t.is "throw" = false := by
  have hcons : ∃ t us, w.tokens = t :: us := by
    rw [TestText.tokens]
    cases w.operand with
    | nil => exact ⟨_, _, rfl⟩
    | cons t us => exact ⟨_, _, rfl⟩
  obtain ⟨t, us, hcons⟩ := hcons
  refine ⟨t, us, hcons, ?_⟩
  obtain ⟨stop', hread⟩ := w.reads_x
  refine Bool.eq_false_iff.mpr fun h => ?_
  obtain ⟨e, he⟩ := run_unary_error w.rules us (x := w.input) (k := w.stop) h
    (by decide)
  rw [hcons, he] at hread
  cases hread

/-- Behind the operand the test is the first operator. -/
theorem binaryStep_test (start stop : Nat) :
    binaryStep w.rules start coalescePrecedence w.x w.input ⟨w.test :: w.behindTest, stop⟩ =
      (typeTest w.rules start w.x >>= fun n => pure (some n)) w.input
        ⟨w.behindTest, w.test.span.stop⟩ := by
  have hop : binaryOp? w.input ⟨w.test :: w.behindTest, stop⟩ =
      .ok (some ⟨"is", relationalPrecedence, 1⟩, ⟨w.test :: w.behindTest, stop⟩) := by
    simp [binaryOp?, w.test_kind, w.test_text]
  rw [binaryStep, run_bind_of_ok hop]
  have hadvance : advanceBy 1 w.input ⟨w.test :: w.behindTest, stop⟩ =
      .ok ((), ⟨w.behindTest, w.test.span.stop⟩) := by
    simp [advanceBy]
  simp [relationalPrecedence, coalescePrecedence, run_bind_of_ok hadvance]

/-- No operator stands at the question mark. -/
theorem binaryStep_mark (start stop : Nat) (n : Node) :
    binaryStep w.rules start coalescePrecedence n w.input ⟨w.mark :: w.behindMark, stop⟩ =
      .ok (none, ⟨w.mark :: w.behindMark, stop⟩) := by
  have hop : binaryOp? w.input ⟨w.mark :: w.behindMark, stop⟩ =
      .ok (none, ⟨w.mark :: w.behindMark, stop⟩) := by
    simp [binaryOp?, w.mark_isPunct.kind, w.mark_isPunct.text, precedence?, -bind_pure_comp]
  rw [binaryStep, run_bind_of_ok hop]
  rfl

/-- Behind a conditional expression nothing is assigned. -/
theorem expr_of_conditional {n : Node} {stop : Nat}
    (h : conditional w.rules w.input ⟨w.tokens, w.stop⟩ = .ok (n, ⟨w.semi :: w.rest, stop⟩)) :
    expr w.rules w.input ⟨w.tokens, w.stop⟩ = .ok (n, ⟨w.semi :: w.rest, stop⟩) := by
  obtain ⟨t, us, hcons, hthrow⟩ := w.exists_tokens
  have hassign : w.semi.text ∉ assignmentOps := by
    rw [w.semi_isPunct.text]
    decide
  rw [expr, run_offset_bind, run_bind_of_ok w.not_lambda]
  rw [hcons] at h ⊢
  simp [run_accept_bind, hthrow, run_bind_of_ok h, w.semi_isPunct.is_eq, hassign]

/-- A conditional expression was read as one. -/
theorem conditional_of_expr {span : Span} {cond a b : Node} {c : Grammar.Cursor}
    (h : expr w.rules w.input ⟨w.tokens, w.stop⟩ = .ok (.conditional span cond a b, c)) :
    ∃ c', conditional w.rules w.input ⟨w.tokens, w.stop⟩ =
      .ok (.conditional span cond a b, c') := by
  obtain ⟨t, us, hcons, hthrow⟩ := w.exists_tokens
  rw [expr, run_offset_bind, run_bind_of_ok w.not_lambda] at h
  dsimp only at h
  rw [hcons] at h ⊢
  rw [run_accept_bind, hthrow, if_neg Bool.false_ne_true, if_neg Bool.false_ne_true,
    run_bind_eq_ok] at h
  obtain ⟨lhs, c₁, hlhs, h⟩ := h
  -- What stands behind the condition can only make an assignment of it.
  rw [run_is_bind, run_peekIs_bind, run_touchesNext_bind, run_ite] at h
  split at h
  · simp only [run_bind_eq_ok] at h
    obtain ⟨-, c₂, -, rhs, c₃, -, s, c₄, -, h⟩ := h
    cases h
  · rw [run_current_bind, run_ite] at h
    split at h
    · simp only [run_bind_eq_ok] at h
      obtain ⟨-, c₂, -, rhs, c₃, -, s, c₄, -, h⟩ := h
      cases h
    · cases h
      exact ⟨_, hlhs⟩

/-- The condition is the test, if no variable is declared. -/
theorem conditional_of_typeTest {start : Nat} {n : Node} {stop : Nat}
    (hstart : start = (ahead w.input w.tokens 0).span.start)
    (htest : typeTest w.rules start w.x w.input ⟨w.behindTest, w.test.span.stop⟩ =
      .ok (n, ⟨w.mark :: w.behindMark, stop⟩)) :
    ∃ span stop', conditional w.rules w.input ⟨w.tokens, w.stop⟩ =
      .ok (.conditional span n w.a w.b, ⟨w.semi :: w.rest, stop'⟩) := by
  obtain ⟨stop₁, hx⟩ := w.reads_x
  obtain ⟨stop₂, ha⟩ := w.reads_a
  obtain ⟨stop₃, hb⟩ := w.reads_b
  have hstep : binaryStep w.rules start coalescePrecedence w.x w.input
      ⟨w.test :: w.behindTest, stop₁⟩ = .ok (some n, ⟨w.mark :: w.behindMark, stop⟩) := by
    rw [w.binaryStep_test, run_bind_of_ok htest]
    rfl
  have hloop : extend (binaryStep w.rules start coalescePrecedence) w.x w.input
      ⟨w.test :: w.behindTest, stop₁⟩ = .ok (n, ⟨w.mark :: w.behindMark, stop⟩) := by
    -- The test has used up tokens, and behind it no operator stands.
    have hshort : (w.mark :: w.behindMark).length < (w.test :: w.behindTest).length := by
      simp only [TestText.behindTest, List.length_cons, List.length_append]
      omega
    rw [run_extend_some hstep hshort]
    exact run_extend_none (w.binaryStep_mark start stop n)
  have hbinary : binary w.rules coalescePrecedence w.input ⟨w.tokens, w.stop⟩ =
      .ok (n, ⟨w.mark :: w.behindMark, stop⟩) := by
    rw [binary, run_offset_bind, run_bind_of_ok hx, ← hstart]
    exact hloop
  refine ⟨⟨start, stop₃⟩, stop₃, ?_⟩
  rw [conditional, run_offset_bind, run_bind_of_ok hbinary, run_accept_bind]
  simp [w.mark_isPunct.is_eq, run_bind_of_ok ha, run_expect_bind, w.colon_isPunct.is_eq,
    run_bind_of_ok hb, ← hstart, -bind_pure_comp]

/-- The test is the condition, however the text is read. -/
theorem typeTest_of_conditional {span span' : Span} {type : Option TypeRef}
    {pattern : Option Node} {name : String} {negated : Bool} {a b : Node} {c : Grammar.Cursor}
    (h : conditional w.rules w.input ⟨w.tokens, w.stop⟩ =
      .ok (.conditional span (.isExpr span' w.x type pattern name negated) a b, c)) :
    ∃ start c', typeTest w.rules start w.x w.input ⟨w.behindTest, w.test.span.stop⟩ =
      .ok (.isExpr span' w.x type pattern name negated, c') := by
  obtain ⟨stop₁, hx⟩ := w.reads_x
  rw [conditional, run_offset_bind, run_bind_eq_ok] at h
  obtain ⟨cond, c₁, hcond, h⟩ := h
  rw [binary, run_offset_bind, run_bind_of_ok hx] at hcond
  rcases run_extend_first hcond with ⟨hnone, -⟩ | ⟨n, c₂, hstep, hloop⟩
  · rw [w.binaryStep_test, run_bind_eq_ok] at hnone
    obtain ⟨n, c₂, -, hnone⟩ := hnone
    cases hnone
  rw [w.binaryStep_test, run_bind_eq_ok] at hstep
  obtain ⟨n, c₃, htest, hstep⟩ := hstep
  cases hstep
  have hextends := returns_typeTest _ _ _ _ _ htest
  -- A further operator would leave more than the operand below the last one.
  have hlast := run_extend_rec hloop
    (P := fun m _ => m = n ∨ ∃ m', ExtendsTo m' m ∧ sizeOf w.x < sizeOf m') (.inl rfl)
    (by
      intro m c m₁ c' hm hstep
      refine .inr ⟨m, returns_binaryStep _ _ _ _ _ _ hstep m₁ rfl, ?_⟩
      rcases hm with rfl | ⟨m', hm, hlt⟩
      · exact hextends.sizeOf_lt
      · exact Nat.lt_trans hlt hm.sizeOf_lt)
    (fun _ _ _ hm _ => hm)
  rw [run_bind_eq_ok] at h
  obtain ⟨b, c₄, -, h⟩ := h
  rw [run_ite] at h
  split at h
  · simp only [run_bind_eq_ok] at h
    obtain ⟨thenValue, c₅, -, -, c₆, -, elseValue, c₇, -, s, c₈, -, h⟩ := h
    cases h
    rcases hlast with rfl | ⟨m', hm, hlt⟩
    · exact ⟨_, _, htest⟩
    · cases hm
      exact absurd hlt (Nat.lt_irrefl _)
  · cases h
    rcases hlast with rfl | ⟨m', hm, -⟩
    · cases hextends
    · cases hm

/-- The word `not` stands behind `is` if the type starts with it. -/
theorem exists_behindTest : ∃ t us, w.behindTest = t :: us ∧
    (t.isWord "not" = false ↔ ∀ v ∈ w.typeTokens.head?, v.isWord "not" = false) := by
  rw [TestText.behindTest]
  cases w.typeTokens with
  | nil => exact ⟨w.mark, w.behindMark, rfl, by simp [Token.isWord, w.mark_isPunct.kind]⟩
  | cons t us => exact ⟨t, us ++ w.mark :: w.behindMark, rfl, by simp⟩

theorem named_behindTest : ∀ t ∈ w.behindTest, t.isIdent = true → t.text ≠ "" :=
  fun t ht => w.named t (by simp [TestText.tokens, ht])

/-- The tokens of a plain type are those of its name. -/
theorem plainType (hplain : w.type.IsPlain) : PlainType w.typeTokens w.type.name := by
  obtain ⟨behind, stop, stop', hread⟩ := w.reads_type
  obtain ⟨ts, hts, hplain⟩ := run_type_plain w.eof_kind hread hplain
  rwa [List.append_cancel_right hts]

/-- A test without a variable was read as a pattern with a name. -/
theorem pattern_of_typeTest {start : Nat} {span : Span} {type : TypeRef} {pattern : Option Node}
    {c : Grammar.Cursor}
    (h : typeTest w.rules start w.x w.input ⟨w.behindTest, w.test.span.stop⟩ =
      .ok (.isExpr span w.x (some type) pattern "" false, c)) :
    (∀ t ∈ w.typeTokens.head?, t.isWord "not" = false) ∧
      attempt (declaration w.rules.type) w.input ⟨w.behindTest, w.test.span.stop⟩ =
        .ok (none, ⟨w.behindTest, w.test.span.stop⟩) ∧
      ∃ n c', w.rules.pattern w.input ⟨w.behindTest, w.test.span.stop⟩ = .ok (n, c') ∧
        n.qualifiedName ≠ "" ∧ type = { span := n.span, name := n.qualifiedName } := by
  obtain ⟨t, us, hcons, hhead⟩ := w.exists_behindTest
  rw [typeTest, hcons, run_acceptWord_bind] at h
  split at h
  · -- The test is negated.
    rw [run_bind_eq_ok] at h
    obtain ⟨o, c₁, -, h⟩ := h
    cases o with
    | none =>
      dsimp only at h
      rw [run_bind_eq_ok] at h
      obtain ⟨n, c₂, -, h⟩ := h
      simp [-bind_pure_comp] at h
    | some t => simp [-bind_pure_comp] at h
  · rename_i hnot
    refine ⟨hhead.mp (Bool.eq_false_iff.mpr hnot), ?_⟩
    rw [← hcons, run_bind_eq_ok] at h
    obtain ⟨o, c₁, hattempt, h⟩ := h
    rcases run_attempt_eq_ok hattempt with ⟨⟨type', var⟩, rfl, hvar⟩ | ⟨rfl, rfl⟩
    -- A variable would have a name, but the test declares none.
    · obtain ⟨i, hi, hident, htext⟩ := run_declaration_mem w.eof_kind hvar
      cases h
      exact absurd htext (w.named_behindTest i hi hident)
    · dsimp only at h
      rw [run_bind_eq_ok] at h
      obtain ⟨n, c₂, hpattern, h⟩ := h
      refine ⟨hattempt, n, c₂, hpattern, ?_⟩
      by_cases hname : n.qualifiedName.isEmpty = true
      · simp [hname] at h
      · rw [if_neg hname, run_spanFrom_bind] at h
        cases h
        exact ⟨fun h => hname (by rw [h]; rfl), rfl⟩

/-- A pattern with a name is a test without a variable. -/
theorem typeTest_of_pattern (start : Nat) {n : Node} {stop : Nat}
    (hnot : ∀ t ∈ w.typeTokens.head?, t.isWord "not" = false)
    (hdeclaration : attempt (declaration w.rules.type) w.input
      ⟨w.behindTest, w.test.span.stop⟩ = .ok (none, ⟨w.behindTest, w.test.span.stop⟩))
    (hpattern : w.rules.pattern w.input ⟨w.behindTest, w.test.span.stop⟩ =
      .ok (n, ⟨w.mark :: w.behindMark, stop⟩)) (hname : n.qualifiedName ≠ "") :
    typeTest w.rules start w.x w.input ⟨w.behindTest, w.test.span.stop⟩ =
      .ok (.isExpr ⟨start, stop⟩ w.x (some { span := n.span, name := n.qualifiedName }) (some n)
        "" false, ⟨w.mark :: w.behindMark, stop⟩) := by
  obtain ⟨t, us, hcons, hhead⟩ := w.exists_behindTest
  have hempty : ¬n.qualifiedName.isEmpty = true := by
    rw [String.isEmpty_iff]
    exact hname
  rw [typeTest, hcons, run_acceptWord_bind, hhead.mpr hnot, if_neg Bool.false_ne_true, ← hcons,
    run_bind_of_ok hdeclaration]
  dsimp only
  rw [run_bind_of_ok hpattern, if_neg hempty, run_spanFrom_bind]
  rfl

/-- Which texts `x is T ? a : b;` are read as they are written: those whose type is a plain name,
unless the first branch starts with a name or, touching the question mark, with a bracket. -/
theorem readAsWritten_iff :
    w.ReadAsWritten ↔ w.type.IsPlain ∧ (∀ t ∈ w.typeTokens.head?, t.isWord "not" = false) ∧
      ¬w.StartsWithName ∧ ¬w.StartsWithIndex := by
  constructor
  · rintro ⟨span, span', type, pattern, stop', htype, hexpr⟩
    obtain ⟨c₁, hconditional⟩ := w.conditional_of_expr hexpr
    obtain ⟨start, c₂, htest⟩ := w.typeTest_of_conditional hconditional
    obtain ⟨hnot, hdeclaration, n, c₃, hpattern, hname, rfl⟩ := w.pattern_of_typeTest htest
    have hplain : w.type.IsPlain := by
      rw [TypeRef.isPlain_iff, ← htype, ← TypeRef.name_erase, ← htype]
      rfl
    have hts := w.plainType hplain
    refine ⟨hplain, hnot, ?_, ?_⟩
    -- A name behind the mark would have been read as the variable of a declaration.
    · rintro ⟨hident, hcontinues⟩
      obtain ⟨t, c, hsome⟩ := run_declaration (Grammar.rules w.depth) (x := w.input)
        (r := w.more ++ w.colon :: w.behindColon) (k := w.test.span.stop) hts w.mark_isPunct
        hident hcontinues
      cases hsome.symm.trans hdeclaration
    · rintro ⟨hbracket, htouches⟩
      refine hname (returns_pattern_index hts ?_ w.mark_isPunct hnot
        hdeclaration hbracket htouches hpattern)
      exact fun t ht => w.named_behindTest t (List.mem_append_left _ ht)
  · rintro ⟨hplain, hnot, hname, hindex⟩
    have hts := w.plainType hplain
    -- Without a name that goes on with a pattern no declaration is read.
    have hfirst : w.first.isIdent = false ∨ continuesPattern w.first = true := by
      rw [Bool.eq_false_iff, ← Bool.not_eq_false, ← Decidable.not_and_iff_or_not]
      exact hname
    have hdeclaration := run_declaration_none (Grammar.rules w.depth) (x := w.input)
      (r := w.more ++ w.colon :: w.behindColon) (k := w.test.span.stop) hts w.mark_isPunct
      w.first_is_mark w.first_ne hfirst
    have hnames : ∀ t ∈ w.typeTokens, t.isIdent = true → t.text ≠ "" :=
      fun t ht => w.named_behindTest t (List.mem_append_left _ ht)
    obtain ⟨n, stop, hn, hpattern⟩ := run_pattern hts hnames w.mark_isPunct hnot hdeclaration hindex
    have htest := w.typeTest_of_pattern (ahead w.input w.tokens 0).span.start hnot hdeclaration
      hpattern (hn ▸ hts.ne_empty hnames)
    obtain ⟨span, stop', hconditional⟩ := w.conditional_of_typeTest rfl htest
    refine ⟨_, _, _, _, stop', ?_, w.expr_of_conditional hconditional⟩
    rw [TypeRef.isPlain_iff.mp hplain, hn]
    rfl

end ConditionalTest

/-! ### Branches that are literals and names -/

/-- The text `x is T?u:b;`, where `u` is one token. -/
def smallTest (u : Token) (a : Node) : TestText where
  depth := 2
  input := ⟨[], Token.final⟩
  stop := 0
  operand := [⟨.ident, "x", ⟨0, 1⟩, ""⟩]
  test := ⟨.keyword, "is", ⟨2, 4⟩, ""⟩
  typeTokens := [⟨.ident, "T", ⟨5, 6⟩, ""⟩]
  mark := ⟨.punct, "?", ⟨6, 7⟩, ""⟩
  first := u
  more := []
  colon := ⟨.punct, ":", ⟨8, 9⟩, ""⟩
  other := [⟨.ident, "b", ⟨9, 10⟩, ""⟩]
  semi := ⟨.punct, ";", ⟨10, 11⟩, ""⟩
  rest := []
  x := .ident ⟨0, 1⟩ "x" []
  type := { span := ⟨5, 6⟩, name := "T" }
  a
  b := .ident ⟨9, 10⟩ "b" []

/-- The text `x is T?a:b;`. -/
def nameBranch : ConditionalTest where
  toTestText := smallTest ⟨.ident, "a", ⟨7, 8⟩, ""⟩ (.ident ⟨7, 8⟩ "a" [])
  eof_kind := rfl
  named := by decide
  test_kind := rfl
  test_text := rfl
  mark_isPunct := ⟨rfl, rfl⟩
  colon_isPunct := ⟨rfl, rfl⟩
  semi_isPunct := ⟨rfl, rfl⟩
  not_lambda := rfl
  reads_x := ⟨1, rfl⟩
  reads_type := ⟨[⟨.punct, ")", ⟨6, 7⟩, ""⟩], 5, 6, rfl⟩
  first_ne := rfl
  reads_a := ⟨8, rfl⟩
  reads_b := ⟨10, rfl⟩

/-- The name becomes a variable of the pattern, and the colon is left over. -/
theorem nameBranch_not_readAsWritten : ¬nameBranch.ReadAsWritten := by
  have hread : expr nameBranch.rules nameBranch.input ⟨nameBranch.tokens, nameBranch.stop⟩ =
      .ok (.isExpr ⟨0, 8⟩ nameBranch.x (some { span := ⟨5, 7⟩, name := "T", nullable := true })
        none "a" false, ⟨nameBranch.colon :: nameBranch.behindColon, 8⟩) := rfl
  rintro ⟨span, span', type, pattern, stop', -, hwritten⟩
  rw [hread] at hwritten
  cases hwritten

/-- The text `x is T?1:b;`. -/
def literalBranch : ConditionalTest where
  toTestText := smallTest ⟨.int, "1", ⟨7, 8⟩, "1"⟩ (.literal ⟨7, 8⟩ .int "1")
  eof_kind := rfl
  named := by decide
  test_kind := rfl
  test_text := rfl
  mark_isPunct := ⟨rfl, rfl⟩
  colon_isPunct := ⟨rfl, rfl⟩
  semi_isPunct := ⟨rfl, rfl⟩
  not_lambda := rfl
  reads_x := ⟨1, rfl⟩
  reads_type := ⟨[⟨.punct, ")", ⟨6, 7⟩, ""⟩], 5, 6, rfl⟩
  first_ne := rfl
  reads_a := ⟨8, rfl⟩
  reads_b := ⟨10, rfl⟩

/-- A literal as the first branch is left to the conditional expression. -/
theorem literalBranch_readAsWritten : literalBranch.ReadAsWritten :=
  literalBranch.readAsWritten_iff.mpr
    ⟨⟨rfl, rfl, rfl, rfl, rfl⟩, by decide, fun h => Bool.false_ne_true h.1,
      fun h => Bool.false_ne_true h.1⟩

end CSharpAudit
