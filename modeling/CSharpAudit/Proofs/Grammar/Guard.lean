import CSharpAudit.Proofs.Endings

/-!
# Expressions in guards

Types, expressions and patterns in a guard are read alike whether a semicolon or an arrow ends the
guard. Most of the questions that their productions ask do not tell the two tokens apart. Those that
do, whether a lambda begins or a `!` is a postfix operator, are not asked about the ending.

## Main definitions

* `Endings.Good` — nested constructs are read alike in both texts

## Main results

* `Endings.agrees_lambda?` — the look-ahead that tells whether a lambda begins
* `Endings.agrees_suffix`, `Endings.agrees_unary` — postfix forms and unary expressions
* `Endings.agrees_expr`, `Endings.agrees_pattern` — expressions and patterns
-/

namespace CSharpAudit

open Grammar

namespace Endings

variable {L : Endings} {rules : Rules} {α β : Type} {i j k : Nat}

variable (L) in
/-- Nested constructs are read alike in both texts: expressions where they may begin, statements
inside of brackets. -/
structure Good (rules : Rules) : Prop where
  type : ∀ ⦃i j⦄, L.Closed i j → L.Agrees i rules.type j
  expr : ∀ ⦃i j⦄, L.Closed i j → L.Starts i j → L.Agrees i rules.expr j
  unary : ∀ ⦃i j⦄, L.Closed i j → L.Agrees i rules.unary j
  binary : ∀ minimum ⦃i j⦄, L.Closed i j → L.Agrees i (rules.binary minimum) j
  pattern : ∀ ⦃i j⦄, L.Closed i j → L.Agrees i rules.pattern j
  primaryPattern : ∀ ⦃i j⦄, L.Closed i j → L.Agrees i rules.primaryPattern j
  initializer : ∀ ⦃i j⦄, L.Closed i j → L.Agrees i rules.initializer j
  block : ∀ ⦃i j⦄, L.Closed i j → L.Agrees i rules.block j
  statement : ∀ ⦃i j⦄, L.Inner i → L.Closed i j → L.Agrees i rules.statement j

/-! ### Names and types -/

theorem agrees_firstSegment (hj : L.Closed i j) : L.Agrees i firstSegment j := by
  refine (Agrees.identText hj).bind fun name k hk => ?_
  exact .accept hk (by decide) (fun hk _ => .identText hk) (.pure hk)

theorem agrees_moreSegments (hj : L.Closed i j) : L.Agrees i moreSegments j := by
  refine .repeatWhile hj fun k hk => ?_
  simp only [optionalPart, bind_assoc, pure_bind, agrees_is, agrees_peekIdent, agrees_ite,
    agrees_discard, Bool.and_eq_true, ne_eq, String.reduceEq, not_false_eq_true]
  refine ⟨fun h => ?_, fun _ => .pure hk⟩
  exact .advanceIs hk h.1 (by decide) fun hk => .advanceIdent hk h.2 .pure

theorem agrees_qualifiedName (hj : L.Closed i j) : L.Agrees i qualifiedName j :=
  (agrees_firstSegment hj).bind fun _ _ hk => (agrees_moreSegments hk).bind fun _ _ => .pure

theorem agrees_typeArg (hself : L.Good rules) (hj : L.Closed i j) :
    L.Agrees i (typeArg rules) j := by
  rw [typeArg, agrees_is (by decide) (by decide), agrees_is (by decide) (by decide), agrees_ite]
  exact ⟨fun _ => .pure hj, fun _ => hself.type hj⟩

/-- The closing `>` is no bracket, so that it may be consumed like any other token. -/
theorem agrees_typeArgs (hself : L.Good rules) (hj : L.Closed i j) :
    L.Agrees i (typeArgs rules) j := by
  refine .expect hj (by decide) fun hj _ => ?_
  refine (Agrees.separated hj fun k => agrees_typeArg hself).bind fun args k hk => ?_
  exact .expect hk (by decide) fun hk _ => .pure hk

theorem agrees_replaceArgs (hself : L.Good rules) (hj : L.Closed i j) (args : List TypeRef) :
    L.Agrees i (replaceArgs rules args) j := by
  rw [replaceArgs, agrees_is (by decide) (by decide), agrees_ite]
  exact ⟨fun _ => agrees_typeArgs hself hj, fun _ => .pure hj⟩

theorem agrees_namedType (hself : L.Good rules) (hj : L.Closed i j) :
    L.Agrees i (namedType rules) j := by
  refine (agrees_firstSegment hj).bind fun first k hk => ?_
  refine (agrees_replaceArgs hself hk []).bind fun args k hk => ?_
  refine (Agrees.extend hk ?_).bind fun _ _ => .pure
  rintro ⟨segments, args⟩ k hk
  simp only [agrees_is, agrees_peekIdent, agrees_ite, agrees_discard, Bool.and_eq_true, ne_eq,
    String.reduceEq, not_false_eq_true]
  refine ⟨fun h => ?_, fun _ => .pure hk⟩
  refine .advanceIs hk h.1 (by decide) fun hk => .advanceIdent hk h.2 fun hk => ?_
  exact (agrees_replaceArgs hself hk args).bind fun _ _ => .pure

theorem agrees_tupleElement (hself : L.Good rules) (hj : L.Closed i j) :
    L.Agrees i (tupleElement rules) j :=
  (hself.type hj).bind fun _ _ hk => (Agrees.optionalIdent hk).bind fun _ _ => .pure

theorem paren_mem : ("(", ")") ∈ brackets := by decide

theorem square_mem : ("[", "]") ∈ brackets := by decide

theorem brace_mem : (openBrace, closeBrace) ∈ brackets := by decide

theorem agrees_tupleType (hself : L.Good rules) (hj : L.Closed i j) :
    L.Agrees i (tupleType rules) j := by
  refine .expectOpen paren_mem hj fun hopen => ?_
  refine (Agrees.separated hopen.inside fun k => agrees_tupleElement hself).bind
    fun elements k hk => ?_
  refine .expectClose { hopen with inside := hk } fun hk => ?_
  rw [agrees_ite]
  exact ⟨fun _ => agrees_fail_bind, fun _ => .pure hk⟩

theorem agrees_arrayMark (hj : L.Closed i j) (h : (L.lexeme j).is "[" = true) :
    L.Agrees i arrayMark j := by
  rw [arrayMark, agrees_discard]
  refine .advanceOpen square_mem hj h fun hopen => ?_
  rw [agrees_discard]
  refine (Agrees.moreItems hopen.inside fun k => .pure).bind fun _ k hk => ?_
  rw [agrees_iff_bind_pure]
  exact .expectClose { hopen with inside := hk } .pure

theorem agrees_atArrayMark {f : Bool → Parser β} :
    L.Agrees i (atArrayMark >>= f) j ↔ L.Agrees i (f ((L.lexeme j).is "[" &&
      ((L.lexeme (j + 1)).is "]" || (L.lexeme (j + 1)).is ","))) j := by
  simp only [atArrayMark, bind_assoc, pure_bind, agrees_is, agrees_peekIs, ne_eq, String.reduceEq,
    not_false_eq_true]

/-- A mark asks for `?`, `*` or `[`, and neither ending is one of them. -/
theorem agrees_typeMark (hj : L.Closed i j) (t : TypeRef) : L.Agrees i (typeMark t) j := by
  simp only [typeMark, agrees_is, agrees_peekIs, agrees_atArrayMark, agrees_ite, agrees_discard,
    Bool.and_eq_true, ne_eq, String.reduceEq, not_false_eq_true]
  refine ⟨fun h => ?_, fun _ => ⟨fun h => ?_, fun _ => ⟨fun h => ?_, fun _ => .pure hj⟩⟩⟩
  · exact .advanceIs hj h.1.1 (by decide) .pure
  · exact .advanceIs hj h (by decide) .pure
  · exact (agrees_arrayMark hj h.1).bind fun _ _ => .pure

theorem Agrees.advancePredefined {f : Token → Parser β} (hj : L.Closed i j)
    (h : (L.lexeme j).isPredefinedType = true)
    (hf : L.Closed i (j + 1) → L.Agrees i (f (L.lexeme j)) (j + 1)) :
    L.Agrees i (advance >>= f) j := by
  rw [Token.isPredefinedType, Bool.and_eq_true, beq_iff_eq] at h
  have hplain : ∀ s ∈ predefinedTypes, Plain s := by decide
  have his : (L.lexeme j).is (L.lexeme j).text = true := by simp [Token.is, h.1]
  exact .advanceIs hj his (hplain _ (List.contains_iff_mem.mp h.2)) hf

theorem agrees_unmarkedType (hself : L.Good rules) (hj : L.Closed i j) :
    L.Agrees i (unmarkedType rules) j := by
  rw [unmarkedType, agrees_current (by simp [Token.isPredefinedType, Token.isIdent,
    L.arrow_isPunct.kind, L.semi_isPunct.kind, L.arrow_isPunct.is_eq, L.semi_isPunct.is_eq])]
  simp only [agrees_ite]
  exact ⟨fun _ => agrees_tupleType hself hj, fun _ => ⟨fun h => .advancePredefined hj h .pure,
    fun _ => ⟨fun _ => agrees_namedType hself hj, fun _ => agrees_failAt fun _ => rfl⟩⟩⟩

/-- A type is read alike as far as its marks go. -/
theorem agrees_type (hself : L.Good rules) (hj : L.Closed i j) : L.Agrees i (type rules) j := by
  rw [type, agrees_offset]
  refine (agrees_unmarkedType hself hj).bind fun base k hk => ?_
  refine (Agrees.extend hk fun t l hl => agrees_typeMark hl t).bind fun t l hl => ?_
  exact .spanned hl

theorem agrees_newType (hself : L.Good rules) (hj : L.Closed i j) :
    L.Agrees i (newType rules) j := by
  have hbase : L.Agrees i (unmarkedNewType rules) j := by
    rw [unmarkedNewType, agrees_current (by simp [Token.isPredefinedType, L.arrow_isPunct.kind,
      L.semi_isPunct.kind, L.arrow_isPunct.is_eq, L.semi_isPunct.is_eq])]
    simp only [agrees_ite]
    exact ⟨fun h => .advancePredefined hj h .pure, fun _ => ⟨fun _ => agrees_tupleType hself hj,
      fun _ => agrees_namedType hself hj⟩⟩
  rw [newType, agrees_offset]
  refine hbase.bind fun base k hk => ?_
  have hmarks (nullable : Bool) {l : Nat} (hl : L.Closed i l) : L.Agrees i (do
      let marks ← repeatWhile atArrayMark arrayMark
      return { base with nullable := base.nullable || nullable, rank := base.rank + marks.length,
                         span := ← spanFrom (L.lexeme j).span.start }) l := by
    refine (Agrees.repeatWhile hl fun m hm => ?_).bind fun marks m hm => ?_
    · simp only [optionalPart, agrees_atArrayMark, agrees_ite, Bool.and_eq_true]
      exact ⟨fun h => (agrees_arrayMark hm h.1).bind fun _ _ => .pure, fun _ => .pure hm⟩
    · exact .spanned hm
  rw [Layouts.acceptIf_bind]
  simp only [bind_assoc, pure_bind, agrees_is, agrees_peekIs, agrees_ite, Bool.and_eq_true, ne_eq,
    String.reduceEq, not_false_eq_true]
  exact ⟨fun h => .advanceIs hk h.1 (by decide) (hmarks true), fun _ => hmarks false hk⟩

theorem agrees_typeArgsInExpr (hself : L.Good rules) (hj : L.Closed i j) :
    L.Agrees i (typeArgsInExpr rules) j := by
  have hargs : L.Agrees i (typeArgsInExpr? rules) j := by
    rw [agrees_iff_bind_pure]
    refine .bindAttempt ?_ (.pure hj) fun _ _ => .pure
    refine (agrees_typeArgs hself hj).bind fun args k hk => ?_
    -- Type arguments may stand before both endings.
    rw [agrees_current (by simp [L.arrow_isPunct.kind, L.semi_isPunct.kind, L.arrow_isPunct.text,
      L.semi_isPunct.text, typeArgFollowers])]
    simp only [agrees_ite]
    exact ⟨fun _ => .pure hk, fun _ => agrees_fail⟩
  rw [typeArgsInExpr, agrees_is (by decide) (by decide), agrees_ite]
  exact ⟨fun _ => hargs.bind fun _ _ => .pure, fun _ => .pure hj⟩

/-! ### Operators, arguments and parameters -/

/-- No binary operator is a bracket or an ending. -/
theorem plain_of_precedence? {op : String} {p : Nat} (h : precedence? op = some p) : Plain op := by
  have hnone : ∀ s ∈ [";", "=>"] ++ bracketTexts, precedence? s = none := by decide
  have hne {s : String} (hs : s ∈ [";", "=>"] ++ bracketTexts) : op ≠ s := by
    rintro rfl
    rw [hnone _ hs] at h
    cases h
  exact ⟨hne (by decide), hne (by decide), fun hmem => hne (List.mem_append_right _ hmem) rfl⟩

/-- The tokens of an operator are consumed as a whole. -/
theorem Agrees.binaryOp? {f : Option Operator → Parser β} (hj : L.Closed i j)
    (hf : ∀ o, (∀ op ∈ o, L.Closed i (j + op.width)) → L.Agrees i (f o) j) :
    L.Agrees i (Grammar.binaryOp? >>= f) j := by
  have hnone : ∀ op ∈ (none : Option Operator), L.Closed i (j + op.width) := fun _ h => nomatch h
  have hsome (op : Operator) (h : L.Closed i (j + op.width)) :
      ∀ op' ∈ some op, L.Closed i (j + op'.width) := fun _ h' => Option.some.inj h' ▸ h
  have his (h : (L.lexeme j).kind = .punct ∨ (L.lexeme j).kind = .keyword) :
      (L.lexeme j).is (L.lexeme j).text = true := by
    rcases h with h | h <;> simp [Token.is, h]
  rw [Grammar.binaryOp?, bind_assoc, agrees_current (by simp [L.arrow_isPunct.kind,
    L.semi_isPunct.kind, L.arrow_isPunct.text, L.semi_isPunct.text, precedence?])]
  rw [Layouts.ite_bind, agrees_ite, pure_bind, Layouts.ite_bind, agrees_ite, pure_bind, bind_assoc]
  refine ⟨fun h => hf _ (hsome _ ?_), fun _ => ⟨fun _ => hf _ hnone, fun hkind => ?_⟩⟩
  · rw [Bool.and_eq_true, Bool.or_eq_true, beq_iff_eq, beq_iff_eq, beq_iff_eq] at h
    exact hj.succ_of_is (his (.inr h.1)) (by rcases h.2 with h | h <;> rw [h] <;> decide)
  have hpunct := his (.inl (by simpa using hkind))
  -- Both texts differ behind the ending only, and no operator reaches over it.
  rw [agrees_touchesNext ?_]
  · simp only [bind_assoc, agrees_peekIs, Layouts.ite_bind, agrees_ite, pure_bind, ne_eq,
      String.reduceEq, not_false_eq_true]
    refine ⟨fun h => ?_, fun _ => ⟨fun _ => hf _ hnone, fun _ => ?_⟩⟩
    · simp only [Bool.and_eq_true, beq_iff_eq] at h
      have hshift : L.Closed i (j + 2) :=
        (hj.succ_of_is (h.1.1 ▸ hpunct) (by decide)).succ_of_is h.2 (by decide)
      rw [agrees_nextTouches, agrees_ite]
      · refine ⟨fun h₂ => hf _ (hsome _ ?_), fun _ => hf _ (hsome _ hshift)⟩
        exact hshift.succ_of_is (Bool.and_eq_true_iff.mp h₂).1 (by decide)
      · intro hsize
        have hle := hshift.le
        omega
    · cases hprec : precedence? (L.lexeme j).text with
      | none => exact hf _ hnone
      | some p => exact hf _ (hsome _ (hj.succ_of_is hpunct (plain_of_precedence? hprec)))
  · intro hsize
    have htext : ((L.lexeme j).text == ">") = false := by
      rw [hsize, L.lexeme_size, L.semi_isPunct.text]
      rfl
    simp only [htext, Bool.false_and]

theorem Agrees.argumentName {f : String → Parser β} (hj : L.Closed i j)
    (hf : ∀ name k, L.Closed i k → L.Agrees i (f name) k) :
    L.Agrees i (Grammar.argumentName >>= f) j := by
  simp only [Grammar.argumentName, Layouts.ite_bind, bind_assoc, pure_bind, agrees_isIdent,
    Layouts.discard_bind, agrees_peekIs, agrees_ite, Bool.and_eq_true, ne_eq, String.reduceEq,
    not_false_eq_true]
  refine ⟨fun h => ?_, fun _ => hf "" j hj⟩
  exact .advanceIdent hj h.1.1 fun hk => .advanceIs hk h.1.2 (by decide) (hf _ _)

theorem Agrees.textOf {f : String → Parser β} {ss : List String} (hj : L.Closed i j)
    (hss : ∀ s ∈ ss, Plain s) (hf : ∀ text k, L.Closed i k → L.Agrees i (f text) k) :
    L.Agrees i (Grammar.textOf ss >>= f) j := by
  rw [Grammar.textOf, bind_assoc, agrees_isOneOf _ (fun h => (hss _ h).ne_semi rfl)
    (fun h => (hss _ h).ne_arrow rfl), Layouts.ite_bind, agrees_ite]
  refine ⟨fun h => ?_, fun _ => hf "" j hj⟩
  rw [bind_assoc]
  exact .advanceOneOf hj h hss (hf _ _)

theorem agrees_argumentValue (hself : L.Good rules) (hi : L.Inner i) (hj : L.Closed i j)
    (modifier : String) : L.Agrees i (argumentValue rules modifier) j := by
  rw [argumentValue, atTypeThenIdent, bind_assoc]
  have htype := agrees_type hself hj
  have hident : L.Agrees i (do discard <| type rules; isIdent) j := by
    rw [agrees_discard]
    exact htype.bind fun _ k hk => agrees_iff_bind_pure.mpr (agrees_isIdent.mpr (.pure hk))
  refine hident.bindLookahead fun o ho => ?_
  rw [pure_bind, agrees_ite]
  refine ⟨fun h => ?_, fun _ => hself.expr hj (.inr hi)⟩
  rw [agrees_offset]
  refine htype.bindRun fun t k hk hrun => ?_
  -- The look ahead has seen the identifier behind the type.
  have hname : o = some (L.lexeme k).isIdent := by
    refine ho false _ (L.cursor false k) ?_
    have hrun' : isIdent L.input (L.cursor false k) =
        .ok ((ahead L.input (L.cursor false k).rest 0).isIdent, L.cursor false k) := rfl
    rw [run_discard_bind, run_bind_of_ok (hrun false), hrun', ahead_cursor]
    rfl
  subst hname
  refine .advanceIdent hk (Bool.and_eq_true_iff.mp h).2 fun hk => ?_
  exact .spanned hk

theorem agrees_argument (hself : L.Good rules) (hi : L.Inner i) (hj : L.Closed i j) :
    L.Agrees i (argument rules) j := by
  rw [argument, agrees_offset]
  refine .argumentName hj fun name k hk => .textOf hk (by decide) fun modifier k hk => ?_
  refine (agrees_argumentValue hself hi hk modifier).bind fun value k hk => ?_
  exact .spanned hk

theorem agrees_arguments (hself : L.Good rules) (hj : L.Closed i j) {o c : String}
    (hb : (o, c) ∈ brackets) : L.Agrees i (arguments rules o c) j :=
  .enclosed hb hj fun _ _ => agrees_argument hself

theorem agrees_oneAttribute (hself : L.Good rules) (hj : L.Closed i j) (target : String) :
    L.Agrees i (oneAttribute rules target) j := by
  rw [oneAttribute, agrees_offset]
  refine (agrees_qualifiedName hj).bind fun name k hk => ?_
  refine (Agrees.skipIf hk (by decide) fun _ => agrees_typeArgs hself hk).bind fun _ k hk => ?_
  refine (Agrees.optionalList hk (by decide) fun _ => agrees_arguments hself hk paren_mem).bind
    fun args k hk => ?_
  exact .spanned hk

theorem agrees_attributeTarget (hj : L.Closed i j) : L.Agrees i attributeTarget j := by
  rw [attributeTarget, agrees_current (by simp [L.arrow_isPunct.kind, L.semi_isPunct.kind])]
  simp only [agrees_peekIs, agrees_ite, Bool.and_eq_true, Bool.or_eq_true, beq_iff_eq, ne_eq,
    String.reduceEq, not_false_eq_true]
  refine ⟨fun h => ?_, fun _ => .pure hj⟩
  obtain ⟨hkind, hcolon⟩ := h.1
  have hlt : j < L.size := lt_size_of_kind hj.le (by rcases hkind with h | h <;> simp [h])
  have hplain : (L.lexeme j).isBracket = false := by
    rcases hkind with h | h
    · exact Token.isBracket_of_kind (by simp [h]) (by simp [h])
    · exact L.clear.keyword_text _ (lexeme_mem hlt) h
  have hk : L.Closed i (j + 2) := (hj.succ hlt hplain).succ_of_is hcolon (by decide)
  exact (agrees_advanceBy hk.le).mpr (.pure hk)

theorem agrees_attributeGroup (hself : L.Good rules) (hj : L.Closed i j)
    (h : (L.lexeme j).is "[" = true) : L.Agrees i (attributeGroup rules) j := by
  rw [attributeGroup, agrees_discard]
  refine .advanceOpen square_mem hj h fun hopen => ?_
  refine (agrees_attributeTarget hopen.inside).bind fun target k hk => ?_
  refine (agrees_oneAttribute hself hk target).bind fun first k hk => ?_
  have hmore : L.Agrees (j + 1)
      (repeatWhile acceptNextAttribute (oneAttribute rules target)) k := by
    refine .repeatWhile hk fun l hl => ?_
    rw [optionalPart, acceptNextAttribute, bind_assoc]
    refine .accept hl (by decide) (fun hl _ => ?_) (.pure hl)
    rw [if_pos rfl, agrees_isNot (by decide) (by decide), agrees_ite]
    exact ⟨fun _ => (agrees_oneAttribute hself hl target).bind fun _ _ => .pure, fun _ => .pure hl⟩
  refine hmore.bind fun more k hk => ?_
  exact .expectClose { hopen with inside := hk } .pure

theorem agrees_attributes (hself : L.Good rules) (hj : L.Closed i j) :
    L.Agrees i (attributes rules) j := by
  refine (Agrees.repeatWhile hj fun k hk => ?_).bind fun _ _ => .pure
  exact .optionalPart_is hk (by decide) (agrees_attributeGroup hself hk)

theorem agrees_atParamModifier {f : Bool → Parser β} :
    L.Agrees i (atParamModifier >>= f) j ↔
      L.Agrees i (f (((L.lexeme j).kind == .keyword && paramModifiers.contains (L.lexeme j).text)
        || ((L.lexeme j).isWord "scoped" && (L.lexeme (j + 1)).kind != .punct))) j := by
  rw [atParamModifier, bind_assoc, agrees_current, bind_assoc, agrees_peek, pure_bind]
  · rw [L.arrow_isPunct.kind, L.semi_isPunct.kind]
  · simp only [Token.isWord, L.arrow_isPunct.kind, L.semi_isPunct.kind]
    rfl

theorem agrees_param (hself : L.Good rules) (hj : L.Closed i j) :
    L.Agrees i (param rules) j := by
  rw [param, agrees_offset]
  refine (Agrees.optionalList hj (by decide) fun _ => agrees_attributes hself hj).bind
    fun attributes k hk => ?_
  refine (Agrees.repeatWhile hk fun l hl => ?_).bind fun mods k hk => ?_
  · rw [optionalPart, agrees_atParamModifier, agrees_ite]
    refine ⟨fun h => ?_, fun _ => .pure hl⟩
    rw [bind_assoc]
    rcases Bool.or_eq_true_iff.mp h with h | h
    · rw [Bool.and_eq_true, beq_iff_eq, List.contains_iff_mem] at h
      have hplain : ∀ s ∈ paramModifiers, Plain s := by decide
      exact .advanceIs hl (s := (L.lexeme l).text) (by simp [Token.is, h.1]) (hplain _ h.2) .pure
    · exact .advanceWord hl (Bool.and_eq_true_iff.mp h).1 .pure
  refine (agrees_type hself hk).bind fun t k hk => .expectIdent hk fun hk => ?_
  have hdefault : L.Agrees i (optionalPart (accept "=") rules.expr) (k + 1) := by
    refine .accept hk (by decide) (fun hl hassign => ?_) (.pure hk)
    exact (hself.expr hl (starts_of_is hk.le hassign (by decide))).bind fun _ _ => .pure
  refine hdefault.bind fun default l hl => ?_
  exact .spanned hl

theorem agrees_params (hself : L.Good rules) (hj : L.Closed i j) {o c : String}
    (hb : (o, c) ∈ brackets) : L.Agrees i (params rules o c) j :=
  .enclosed hb hj fun _ _ _ => agrees_param hself

/-! ### Lambdas -/

theorem agrees_lambdaParam (hself : L.Good rules) (hj : L.Closed i j) :
    L.Agrees i (lambdaParam rules) j := by
  simp only [lambdaParam, agrees_isIdent, agrees_peekIs, agrees_ite, Bool.and_eq_true, ne_eq,
    String.reduceEq, not_false_eq_true]
  exact ⟨fun h => .advanceIdent hj h.1 .pure, fun _ => agrees_param hself hj⟩

theorem agrees_lambdaBody (hself : L.Good rules) (hj : L.Closed i (j + 1))
    (h : (L.lexeme j).is "=>" = true) : L.Agrees i (lambdaBody rules) (j + 1) := by
  rw [lambdaBody, agrees_is (by decide) (by decide), agrees_ite]
  exact ⟨fun _ => hself.block hj,
    fun _ => hself.expr hj (starts_of_is (Nat.le_of_succ_le hj.le) h (by decide))⟩

/-- No name before the ending of a guard is the parameter of a lambda, so the arrow behind a name
belongs to the guard. -/
theorem size_ne_of_name (h : (L.lexeme j).isIdent = true) (hj : j ≤ L.size)
    (hhead : ¬LambdaParams (L.guard.drop j)) : j + 1 ≠ L.size := by
  intro hsize
  refine hhead ?_
  rw [drop_eq_cons (lt_size_of_isIdent hj h), List.drop_eq_nil_of_le (Nat.le_of_eq hsize.symm)]
  exact .name h

/-- The same of the parenthesis that closes a group. -/
theorem Open.size_ne (h : L.Open "(" ")" i j k) (hcloses : (L.lexeme k).is ")" = true)
    (hhead : ¬LambdaParams (L.guard.drop j)) : k + 1 ≠ L.size := by
  intro hsize
  have hlt : k < L.size := lt_size_of_is h.inside.le hcloses (by decide)
  obtain ⟨-, ts, hts, hdrop⟩ := h.inside
  refine hhead ?_
  rw [drop_eq_cons h.lt_size, hdrop, drop_eq_cons hlt,
    List.drop_eq_nil_of_le (Nat.le_of_eq hsize.symm)]
  exact .group h.opens hts hcloses

/-- Where no lambda begins that an arrow would complete, both texts have a lambda or none.
-/
theorem agrees_lambdaFrom? (hself : L.Good rules) (lead : Nat) (hj : L.Closed i j)
    (hlead : L.Closed i (j + lead)) (hhead : ¬LambdaParams (L.guard.drop (j + lead)))
    (isAsync : Bool) : L.Agrees i (lambdaFrom? rules isAsync lead) j := by
  have hbody {start k : Nat} (params : List (Param Node)) (hk : L.Closed i (k + 1))
      (harrow : (L.lexeme k).is "=>" = true) : L.Agrees i (do
        let body ← lambdaBody rules
        return some (.lambda (← spanFrom start) params body isAsync) : Parser (Option Node))
      (k + 1) := by
    refine (agrees_lambdaBody hself hk harrow).bind fun body l hl => ?_
    exact .spanned hl
  rw [lambdaFrom?, agrees_offset, agrees_peekIdent, agrees_peekIs_of_congr, agrees_ite,
    ← Nat.add_assoc]
  · refine ⟨fun h => ?_, fun _ => ?_⟩
    · rw [Bool.and_eq_true] at h
      rw [agrees_advanceBy hlead.le]
      refine .advanceIdent hlead h.1 fun hk => ?_
      rw [agrees_discard, agrees_advance (lt_size_of_is hk.le h.2 (by decide))]
      exact hbody _ (hk.succ_of_arrow h.2) h.2
    · rw [agrees_peekIs (by decide) (by decide), agrees_ite]
      refine ⟨fun hparen => ?_, fun _ => .pure hj⟩
      obtain ⟨k, -, hinside, hcloses⟩ :=
        exists_closing (lt_size_of_is hlead.le hparen (by decide)) paren_mem hparen
      have hopen : L.Open "(" ")" i (j + lead) k := ⟨paren_mem, hlead, hparen, hinside⟩
      have hsize : k + 1 ≠ L.size := hopen.size_ne hcloses hhead
      have hindex : j + (lead + (k - (j + lead)) + 1) = k + 1 := by
        have := hopen.index_lt
        omega
      rw [agrees_get (fun w => by rw [cursor, List.drop_drop, hopen.closingParen?_eq hcloses w])]
      dsimp only
      rw [agrees_peekIs_of_congr (fun w => by rw [hindex, L.token_of_ne w hsize]), agrees_ite]
      refine ⟨fun harrow => ?_, fun _ => .pure hj⟩
      rw [hindex] at harrow
      rw [agrees_advanceBy hlead.le]
      refine .bindEnclosed paren_mem hlead (fun _ _ _ => agrees_lambdaParam hself)
        fun params k' hopen' hcloses' hk => ?_
      -- The parameters end where the counted parentheses do.
      have hend : k' = k := by
        have hcount := (hopen'.closingParen?_eq hcloses' false).symm.trans
          (hopen.closingParen?_eq hcloses false)
        have hdistance := Option.some.inj hcount
        have := hopen.index_lt
        have := hopen'.index_lt
        omega
      subst hend
      exact .expectOf (lt_size_of_is hk.le harrow (by decide)) hk (by decide)
        fun hl => hbody params hl harrow
  · intro w
    by_cases hident : (L.lexeme (j + lead)).isIdent = true
    · rw [← Nat.add_assoc, L.token_of_ne w (size_ne_of_name hident hlead.le hhead)]
    · simp only [hident, Bool.false_and]

/-- Where an expression may begin, both texts have a lambda or none. -/
theorem agrees_lambda? (hself : L.Good rules) (hj : L.Closed i j) (hs : L.Starts i j) :
    L.Agrees i (lambda? rules) j := by
  have hhead := hs.not_lambdaHead hj
  have hmodified (hlt : j < L.size)
      (h : (L.lexeme j).isWord "async" = true ∨ (L.lexeme j).is "static" = true) :
      ¬LambdaParams (L.guard.drop (j + 1)) := by
    intro hparams
    refine hhead ?_
    rw [drop_eq_cons hlt]
    exact .modified h hparams
  rw [lambda?, agrees_isWord, agrees_peekIdent, agrees_peekIs (by decide) (by decide),
    agrees_peekIs (by decide) (by decide)]
  cases hasync : (L.lexeme j).isWord "async" &&
    ((L.lexeme (j + 1)).isIdent || (L.lexeme (j + 1)).is "(")
  · cases hstatic : (L.lexeme j).is "static"
    · simp only [Bool.false_eq_true, if_false, Nat.add_zero, hstatic]
      exact agrees_lambdaFrom? hself 0 hj hj (fun h => hhead (.params h)) false
    · simp only [Bool.false_eq_true, if_false, Nat.add_zero, hstatic, if_true]
      have hlt := lt_size_of_is hj.le hstatic (by decide)
      exact agrees_lambdaFrom? hself 1 hj (hj.succ_of_is hstatic (by decide))
        (hmodified hlt (.inr hstatic)) false
  · rw [Bool.and_eq_true, Bool.or_eq_true] at hasync
    -- No `static` stands behind `async` then.
    have hstatic : (L.lexeme (j + 1)).is "static" = false := by
      rcases hasync.2 with h | h
      · exact Token.is_eq_false_of_isIdent h _
      · rw [Token.is_eq_of_is h]
        rfl
    have hlt := lt_size_of_isWord hj.le hasync.1
    simp only [if_true, hstatic, Bool.false_eq_true, if_false]
    exact agrees_lambdaFrom? hself 1 hj (hj.succ hlt (Token.isBracket_of_isWord hasync.1))
      (hmodified hlt (.inl hasync.1)) true

/-! ### Primary expressions -/

theorem agrees_initializerElement (hself : L.Good rules) (hi : L.Inner i) (hj : L.Closed i j) :
    L.Agrees i (initializerElement rules) j := by
  rw [initializerElement, agrees_is (by decide) (by decide), agrees_ite]
  exact ⟨fun _ => (hself.initializer hj).bind fun _ _ => .pure, fun _ => hself.expr hj (.inr hi)⟩

theorem agrees_initializer (hself : L.Good rules) (hj : L.Closed i j) :
    L.Agrees i (initializer rules) j := by
  rw [initializer, agrees_offset]
  refine (Agrees.enclosed brace_mem hj fun _ _ => agrees_initializerElement hself).bind
    fun elems k hk => ?_
  exact .spanned hk

theorem agrees_initializerExpr (hself : L.Good rules) (hj : L.Closed i j) :
    L.Agrees i (initializerExpr rules) j :=
  (agrees_initializer hself hj).bind fun _ _ => .pure

theorem agrees_optionalInitializer (hself : L.Good rules) (hj : L.Closed i j) :
    L.Agrees i (optionalInitializer rules) j := by
  rw [optionalInitializer, agrees_is (by decide) (by decide), agrees_ite]
  exact ⟨fun _ => (agrees_initializer hself hj).bind fun _ _ => .pure, fun _ => .pure hj⟩

theorem agrees_arraySizes (hself : L.Good rules) (hj : L.Closed i j) :
    L.Agrees i (arraySizes rules) j :=
  (agrees_arguments hself hj square_mem).bind fun _ _ => .pure

theorem agrees_typedCreation (hself : L.Good rules) (hj : L.Closed i j) :
    L.Agrees i (typedCreation rules) j := by
  refine (agrees_newType hself hj).bind fun t k hk => ?_
  rw [agrees_is (by decide) (by decide), agrees_ite]
  refine ⟨fun _ => (agrees_arraySizes hself hk).bind fun sizes k hk => ?_, fun _ => ?_⟩
  · rw [agrees_discard]
    refine (Agrees.repeatWhile hk fun l hl => ?_).bind fun _ _ => .pure
    exact .optionalPart_is hl (by decide) fun _ => .skipBalanced square_mem hl
  · exact (Agrees.optionalList hk (by decide) fun _ => agrees_arguments hself hk paren_mem).bind
      fun _ _ => .pure

theorem agrees_creation (hself : L.Good rules) (hj : L.Closed i j) :
    L.Agrees i (creation rules) j := by
  rw [creation, agrees_is (by decide) (by decide), agrees_ite, agrees_is (by decide) (by decide),
    agrees_ite, agrees_is (by decide) (by decide), agrees_ite]
  refine ⟨fun _ => ?_, fun _ => ⟨fun _ => ?_, fun _ => ⟨fun _ => .pure hj, fun _ => ?_⟩⟩⟩
  · exact (agrees_arguments hself hj paren_mem).bind fun _ _ => .pure
  · exact (Agrees.skipBalanced square_mem hj).bind fun _ _ => .pure
  · exact agrees_typedCreation hself hj

theorem agrees_newExpr (hself : L.Good rules) (hj : L.Closed i j) :
    L.Agrees i (newExpr rules) j := by
  rw [newExpr, agrees_offset]
  refine .expect hj (by decide) fun hj _ => ?_
  refine (agrees_creation hself hj).bind fun made k hk => ?_
  refine (agrees_optionalInitializer hself hk).bind fun init k hk => ?_
  exact .spanned hk

theorem agrees_stackallocExpr (hself : L.Good rules) (hj : L.Closed i j)
    (h : (L.lexeme j).is "stackalloc" = true) : L.Agrees i (stackallocExpr rules) j := by
  rw [stackallocExpr, agrees_offset, agrees_discard]
  refine .advanceIs hj h (by decide) fun hj => ?_
  have htype : L.Agrees i (optionalPart (isNot "[") (type rules)) (j + 1) := by
    rw [optionalPart, agrees_isNot (by decide) (by decide), agrees_ite]
    exact ⟨fun _ => (agrees_type hself hj).bind fun _ _ => .pure, fun _ => .pure hj⟩
  refine htype.bind fun t k hk => ?_
  refine (Agrees.optionalList hk (by decide) fun _ => agrees_arraySizes hself hk).bind
    fun sizes k hk => ?_
  refine (agrees_optionalInitializer hself hk).bind fun init k hk => ?_
  exact .spanned hk

theorem agrees_parenthesizedType (hself : L.Good rules) (hj : L.Closed i j) :
    L.Agrees i (parenthesizedType rules) j := by
  refine .expectOpen paren_mem hj fun hopen => ?_
  refine (agrees_type hself hopen.inside).bind fun t k hk => ?_
  exact .expectClose { hopen with inside := hk } .pure

theorem agrees_keywordPrimary (hself : L.Good rules) (hj : L.Closed i j)
    (h : (L.lexeme j).kind = .keyword) : L.Agrees i (keywordPrimary rules (L.lexeme j)) j := by
  -- A keyword is no ending, so there is a token behind it.
  have his {s : String} (htext : (L.lexeme j).text = s) : (L.lexeme j).is s = true := by
    simp [Token.is, h, htext]
  have hspan {start k : Nat} {f : Span → Node} (hk : L.Closed i k) :
      L.Agrees i (do return f (← spanFrom start)) k := by
    exact .spanned hk
  have hlt : j < L.size := lt_size_of_kind hj.le (by simp [h])
  have hnext : L.Closed i (j + 1) := hj.succ hlt (L.clear.keyword_text _ (lexeme_mem hlt) h)
  have htypeOf {start : Nat} {s : String} : L.Agrees i (do
      let ty ← parenthesizedType rules
      return Node.typeOf (← spanFrom start) s ty) (j + 1) :=
    (agrees_parenthesizedType hself hnext).bind fun _ _ => hspan
  have hchecked {start : Nat} : L.Agrees i (do
      discard <| expect "("
      let x ← rules.expr
      discard <| expect ")"
      return Node.paren (← spanFrom start) x) (j + 1) := by
    refine .expectOpen paren_mem hnext fun hopen => ?_
    refine (hself.expr hopen.inside (.inr hopen.inner)).bind fun x k hk => ?_
    exact .expectClose { hopen with inside := hk } hspan
  rw [keywordPrimary]
  -- one case for each keyword, in the order of the definition
  split <;> rename_i htext <;> try rw [agrees_discard, agrees_advance hlt]
  · exact hspan hnext
  · exact hspan hnext
  · exact hspan hnext
  · exact hspan hnext
  · exact hspan hnext
  · exact agrees_newExpr hself hj
  · exact agrees_stackallocExpr hself hj (his htext)
  · exact htypeOf
  · exact htypeOf
  · rw [agrees_is (by decide) (by decide), agrees_ite]
    exact ⟨fun _ => htypeOf, fun _ => hspan hnext⟩
  · exact hchecked
  · exact hchecked
  · refine (Agrees.optionalList hnext (by decide) fun _ => agrees_params hself hnext paren_mem).bind
      fun params k hk => ?_
    exact (hself.block hk).bind fun _ _ => hspan
  · rw [agrees_ite, agrees_discard, agrees_advance hlt]
    exact ⟨fun _ => hspan hnext, fun _ => agrees_failAt fun _ => rfl⟩

theorem agrees_parenOrTuple (hself : L.Good rules) (hj : L.Closed i j) :
    L.Agrees i (parenOrTuple rules) j := by
  rw [parenOrTuple, agrees_offset]
  refine .expectOpen paren_mem hj fun hopen => ?_
  refine (agrees_argument hself hopen.inner hopen.inside).bind fun first k hk => ?_
  have hopen : L.Open "(" ")" i j k := { hopen with inside := hk }
  rw [accept, Layouts.acceptIf_bind, agrees_is (by decide) (by decide), agrees_ite]
  refine ⟨fun hcloses => .advanceClose hopen hcloses fun hl => ?_, fun _ => ?_⟩
  · rw [if_pos rfl, agrees_ite, agrees_spanFrom]
    exact ⟨fun _ => .pure hl, fun _ => agrees_fail⟩
  · refine (Agrees.moreItems hk fun l => agrees_argument hself hopen.inner).bind fun more l hl => ?_
    refine .expectClose { hopen with inside := hl } fun hl => ?_
    exact .spanned hl

/-- A primary expression shows by its first token what it is. -/
theorem agrees_primary (hself : L.Good rules) (hj : L.Closed i j) :
    L.Agrees i (primary rules) j := by
  rw [primary, agrees_current (by simp [literalKind?, Token.isIdent, L.arrow_isPunct.kind,
    L.semi_isPunct.kind, L.arrow_isPunct.is_eq, L.semi_isPunct.is_eq, openBrace])]
  cases hliteral : literalKind? (L.lexeme j).kind with
  | some kind =>
    have hne : (L.lexeme j).kind ≠ .punct := fun h => by simp [h, literalKind?] at hliteral
    have hne' : (L.lexeme j).kind ≠ .keyword := fun h => by simp [h, literalKind?] at hliteral
    have hlt := lt_size_of_kind hj.le hne
    dsimp only
    rw [agrees_discard, agrees_advance hlt, agrees_spanFrom]
    exact .pure (hj.succ hlt (Token.isBracket_of_kind hne hne'))
  | none =>
    simp only [agrees_ite]
    refine ⟨fun h => ?_, fun _ => ⟨fun h => ?_, fun _ => ⟨fun _ => ?_, fun _ => ⟨fun _ => ?_,
      -- The tests look at this token only, so they go the same way in both texts.
      fun _ => ⟨fun _ => ?_, fun _ => agrees_failAt fun _ => rfl⟩⟩⟩⟩⟩
    · refine (agrees_firstSegment hj).bind fun name k hk => ?_
      refine (agrees_typeArgsInExpr hself hk).bind fun args k hk => ?_
      exact .spanned hk
    · exact agrees_keywordPrimary hself hj (beq_iff_eq.mp h)
    · exact agrees_parenOrTuple hself hj
    · refine (agrees_arraySizes hself hj).bind fun elems k hk => ?_
      exact .spanned hk
    · exact agrees_initializerExpr hself hj

/-! ### Postfix forms and unary expressions -/

theorem agrees_memberName (hj : L.Closed i j) : L.Agrees i memberName j := by
  rw [memberName, agrees_current (by simp [Token.isPredefinedType, Token.isIdent,
    L.arrow_isPunct.kind, L.semi_isPunct.kind])]
  rw [agrees_ite, agrees_discard]
  refine ⟨fun h => ?_, fun _ => agrees_failAt fun _ => rfl⟩
  rcases Bool.or_eq_true_iff.mp h with h | h
  · exact .advanceIdent hj h .pure
  · exact .advancePredefined hj h .pure

/-- The mark `!` does not stand before the ending. -/
theorem size_ne_of_forgiveness (h : (L.lexeme j).is "!" = true) (hj : j ≤ L.size) :
    j + 1 ≠ L.size := by
  intro hsize
  have hguard : L.guard = L.guard.take j ++ [L.lexeme j] := by
    rw [← take_succ (lt_size_of_is hj h (by decide)), hsize, size, List.take_length]
  have hlast : L.lexeme j ∈ L.guard.getLast? := by
    rw [hguard, List.getLast?_concat]
    rfl
  rw [L.clear.no_forgiveness _ hlast] at h
  cases h

/-- A `!` never stands directly before the ending, so that the token behind it is the same
in both texts. -/
theorem agrees_suffix (hself : L.Good rules) (hj : L.Closed i j) (start : Nat) (x : Node) :
    L.Agrees i (suffix rules start x) j := by
  have hspan {k : Nat} {f : Span → Node} (hk : L.Closed i k) :
      L.Agrees i (do return some (f (← spanFrom start))) k := by
    exact .spanned hk
  -- The ending is no question mark, so nothing looks at what touches it.
  have hquestion (hsize : j = L.size) : (L.lexeme j).is "?" = false := by
    rw [hsize, L.lexeme_size, L.semi_isPunct.is_eq]
    rfl
  rw [suffix, agrees_isOneOf _ (by decide) (by decide), agrees_ite, agrees_is (by decide) (by decide),
    agrees_peekIs (by decide) (by decide),
    agrees_touchesNext fun hsize => by simp only [hquestion hsize, Bool.false_and]]
  simp only [agrees_isOneOf ["++", "--"] (by decide) (by decide), agrees_ite, agrees_is,
    agrees_discard, Bool.and_eq_true, ne_eq, String.reduceEq, not_false_eq_true]
  refine ⟨fun h => ?_, fun _ => ⟨fun h => ?_, fun _ => ⟨fun _ => ?_, fun _ => ⟨fun _ => ?_,
    fun _ => ⟨fun h => ?_, fun _ => ?_⟩⟩⟩⟩⟩
  · refine .advanceOneOf hj h (by decide) fun hk => ?_
    refine (agrees_memberName hk).bind fun name k hk => ?_
    exact (agrees_typeArgsInExpr hself hk).bind fun _ _ => hspan
  · refine .advanceIs hj h.1.1 (by decide) fun hk => ?_
    exact (agrees_arguments hself hk square_mem).bind fun _ _ => hspan
  · exact (agrees_arguments hself hj paren_mem).bind fun _ _ => hspan
  · exact (agrees_arguments hself hj square_mem).bind fun _ _ => hspan
  · exact .advanceOneOf hj h (by decide) hspan
  · rw [agrees_peek_of_congr, agrees_ite, agrees_discard]
    -- Only behind a `!` does a test look further, and there no ending stands.
    · exact ⟨fun h => .advanceIs hj h.1 (by decide) hspan, fun _ => .pure hj⟩
    · intro w
      by_cases hmark : (L.lexeme j).is "!" = true
      · rw [L.token_of_ne w (size_ne_of_forgiveness hmark hj.le)]
      · rw [if_neg fun h => hmark h.1, if_neg fun h => hmark h.1]

theorem agrees_switchArm (hself : L.Good rules) (hi : L.Inner i) (hj : L.Closed i j) :
    L.Agrees i (switchArm rules) j := by
  rw [switchArm, agrees_offset]
  refine (hself.pattern hj).bind fun pattern k hk => ?_
  have hguard : L.Agrees i (optionalPart (acceptWord "when") rules.expr) k :=
    .acceptWord hk (fun hk => (hself.expr hk (.inr hi)).bind fun _ _ => .pure) (.pure hk)
  refine hguard.bind fun guard k hk => .expectOf (hi.lt_size hk) hk (by decide) fun hk => ?_
  refine (hself.expr hk (.inr hi)).bind fun value k hk => ?_
  exact .spanned hk

/-- The arms stand inside of braces, so that their arrows are not the ending. -/
theorem agrees_switchExpr (hself : L.Good rules) (hj : L.Closed i j) (start : Nat) (x : Node) :
    L.Agrees i (switchExpr rules start x) j := by
  refine .expect hj (by decide) fun hj _ => ?_
  refine (Agrees.enclosed brace_mem hj fun _ _ => agrees_switchArm hself).bind fun arms k hk => ?_
  exact .spanned hk

/-- A cast is tried with the same outcome in both texts. -/
theorem Agrees.bindCast? {f : Option Node → Parser β} (hself : L.Good rules) (hj : L.Closed i j)
    (hnone : L.Agrees i (f none) j)
    (hsome : ∀ x k, L.Closed i k → L.Agrees i (f (some x)) k) :
    L.Agrees i (cast? rules >>= f) j := by
  rw [cast?, bind_assoc, agrees_offset, bind_assoc, castType?]
  refine .bindAttempt (l := i) ?_ ?_ fun t k hk => ?_
  · refine .expectOpen paren_mem hj fun hopen => ?_
    refine (hself.type hopen.inside).bind fun t k hk => ?_
    refine .expectClose { hopen with inside := hk } fun hk => ?_
    -- Neither ending may follow a cast.
    rw [agrees_current (by simp [followsCast, L.arrow_isPunct.kind, L.semi_isPunct.kind,
      L.arrow_isPunct.text, L.semi_isPunct.text]), agrees_ite]
    exact ⟨fun _ => .pure hk, fun _ => agrees_fail⟩
  · exact hnone
  · rw [bind_assoc]
    refine (hself.unary hk).bind fun x k hk => ?_
    rw [bind_assoc, agrees_spanFrom]
    exact hsome _ k hk

theorem Agrees.atCast {f : Bool → Parser β} (hself : L.Good rules) (hj : L.Closed i j)
    (hf : ∀ b, L.Agrees i (f b) j) : L.Agrees i (Grammar.atCast rules >>= f) j := by
  have hcast : L.Agrees i (cast? rules) j :=
    agrees_iff_bind_pure.mpr (.bindCast? hself hj (.pure hj) fun _ _ => .pure)
  rw [Grammar.atCast, bind_assoc]
  exact hcast.bindLookahead fun _ _ => hf _

/-- A keyword of a guard is consumed, whatever it is. -/
theorem Agrees.advanceKeyword {f : Token → Parser β} (hj : L.Closed i j)
    (h : (L.lexeme j).kind = .keyword)
    (hf : L.Closed i (j + 1) → L.Agrees i (f (L.lexeme j)) (j + 1)) :
    L.Agrees i (advance >>= f) j := by
  have hlt : j < L.size := lt_size_of_kind hj.le (by simp [h])
  exact (agrees_advance hlt).mpr (hf (hj.succ hlt (L.clear.keyword_text _ (lexeme_mem hlt) h)))

theorem agrees_unary (hself : L.Good rules) (hj : L.Closed i j) :
    L.Agrees i (unary rules) j := by
  have hprefix {start : Nat} {f : Span → Node → Node} (hk : L.Closed i (j + 1)) :
      L.Agrees i (do
        let x ← rules.unary
        return f (← spanFrom start) x) (j + 1) := by
    refine (hself.unary hk).bind fun x k hk => ?_
    exact .spanned hk
  rw [unary, agrees_current (by simp [L.arrow_isPunct.kind, L.semi_isPunct.kind,
    L.arrow_isPunct.text, L.semi_isPunct.text, unaryOps, Token.isWord, L.start_eq])]
  simp only [agrees_ite, agrees_discard]
  -- a prefix, and else a cast or an operand with its suffixes
  refine ⟨fun h => ?_, fun _ => ?_⟩
  · rw [Bool.or_eq_true, Bool.and_eq_true, Bool.and_eq_true, beq_iff_eq, beq_iff_eq] at h
    rcases h with ⟨hkind, hop⟩ | ⟨hkind, -⟩
    · have hplain : ∀ op ∈ unaryOps, Plain op := by decide
      exact .advanceIs hj (s := (L.lexeme j).text) (by simp [Token.is, hkind])
        (hplain _ (List.contains_iff_mem.mp hop)) hprefix
    · exact .advanceKeyword hj hkind hprefix
  refine .bindCast? hself hj ?_ fun x k => .pure
  dsimp only
  rw [agrees_peek (by simp [startsOperand, L.arrow_isPunct.kind, L.semi_isPunct.kind,
    L.arrow_isPunct.text, L.semi_isPunct.text]), agrees_ite, agrees_discard]
  refine ⟨fun h => .advanceWord hj (Bool.and_eq_true_iff.mp h).1 hprefix, fun _ => ?_⟩
  refine (agrees_primary hself hj).bind fun x k hk => ?_
  refine (Agrees.extend hk fun x l hl => agrees_suffix hself hl _ x).bind fun x l hl => ?_
  rw [agrees_is (by decide) (by decide), agrees_peekIs (by decide) (by decide), agrees_ite]
  exact ⟨fun _ => agrees_switchExpr hself hl _ x, fun _ => .pure hl⟩

/-! ### Binary expressions -/

theorem agrees_atDesignation {f : Bool → Parser β} :
    L.Agrees i (atDesignation >>= f) j ↔
      L.Agrees i (f ((L.lexeme j).isIdent && !continuesPattern (L.lexeme j))) j := by
  rw [atDesignation, bind_assoc, agrees_current, pure_bind]
  simp only [Token.isIdent, L.arrow_isPunct.kind, L.semi_isPunct.kind]
  rfl

theorem agrees_declaration {ty : Parser TypeRef} (hty : L.Agrees i ty j) :
    L.Agrees i (declaration ty) j := by
  refine hty.bind fun t k hk => ?_
  rw [agrees_atDesignation, agrees_ite]
  exact ⟨fun h => .advanceIdent hk (Bool.and_eq_true_iff.mp h).1 .pure, fun _ => agrees_fail⟩

/-- A variable behind the type would be a name, and neither ending is one. -/
theorem agrees_typeTest (hself : L.Good rules) (hj : L.Closed i j) (start : Nat) (x : Node) :
    L.Agrees i (typeTest rules start x) j := by
  have hnegated : L.Agrees i (acceptWord "not") j :=
    agrees_iff_bind_pure.mpr (.acceptWord hj .pure (.pure hj))
  refine hnegated.bind fun negated k hk => ?_
  refine .bindAttempt (agrees_declaration (hself.type hk)) ?_ ?_
  · refine (hself.pattern hk).bind fun pattern l hl => ?_
    exact .spanned hl
  · rintro ⟨t, name⟩ l hl
    dsimp only
    exact .spanned hl

theorem agrees_rightOperand (hself : L.Good rules) (hj : L.Closed i j) (op : Operator) :
    L.Agrees i (rightOperand rules op) j := by
  rw [rightOperand, agrees_ite, agrees_is (by decide) (by decide), agrees_ite, agrees_offset,
    agrees_discard]
  refine ⟨fun _ => ⟨fun h => ?_, fun _ => hself.binary _ hj⟩, fun _ => hself.binary _ hj⟩
  refine .advanceIs hj h (by decide) fun hk => ?_
  refine (hself.expr hk (starts_of_is hj.le h (by decide))).bind fun x k hk => ?_
  exact .spanned hk

theorem agrees_binaryStep (hself : L.Good rules) (hj : L.Closed i j) (start minimum : Nat)
    (x : Node) : L.Agrees i (binaryStep rules start minimum x) j := by
  refine .binaryOp? hj fun o ho => ?_
  cases o with
  | none => exact .pure hj
  | some op =>
    have hk : L.Closed i (j + op.width) := ho op rfl
    dsimp only
    rw [agrees_ite, agrees_advanceBy hk.le, agrees_ite, agrees_ite]
    refine ⟨fun _ => .pure hj, fun _ => ⟨fun _ => ?_, fun _ => ⟨fun _ => ?_, fun _ => ?_⟩⟩⟩
    · exact (agrees_typeTest hself hk start x).bind fun _ _ => .pure
    · refine (hself.type hk).bind fun t k hk => ?_
      exact .spanned hk
    · refine (agrees_rightOperand hself hk op).bind fun y k hk => ?_
      exact .spanned hk

/-- No binary operator is an ending, so that the last operand ends before it. -/
theorem agrees_binary (hself : L.Good rules) (hj : L.Closed i j) (minimum : Nat) :
    L.Agrees i (binary rules minimum) j := by
  rw [binary, agrees_offset]
  refine (agrees_unary hself hj).bind fun x k hk => .extend hk fun x l hl => ?_
  exact agrees_binaryStep hself hl _ minimum x

/-! ### Expressions -/

theorem agrees_conditional (hself : L.Good rules) (hj : L.Closed i j) :
    L.Agrees i (conditional rules) j := by
  rw [conditional, agrees_offset]
  refine (agrees_binary hself hj _).bind fun cond k hk => ?_
  refine .accept hk (by decide) (fun hl hmark => ?_) (.pure hk)
  refine (hself.expr hl (starts_of_is hk.le hmark (by decide))).bind fun thenValue l hl => ?_
  refine .expect hl (by decide) fun hm hcolon => ?_
  refine (hself.expr hm (starts_of_is hl.le hcolon (by decide))).bind fun elseValue m hm => ?_
  exact .spanned hm

theorem agrees_assigned (hself : L.Good rules) (hj : L.Closed i (j + 1)) {op : String}
    (h : (L.lexeme j).is op = true) (hop : op ∈ exprOpeners) :
    L.Agrees i (assigned rules op) (j + 1) := by
  have hle : j ≤ L.size := Nat.le_of_succ_le hj.le
  rw [assigned, agrees_is (by decide) (by decide), agrees_ite, agrees_discard,
    Layouts.acceptIf_bind, bind_assoc, agrees_is (by decide) (by decide), pure_bind, agrees_ite]
  refine ⟨fun _ => agrees_initializerExpr hself hj, fun _ => ⟨fun h' => ?_, fun _ => ?_⟩⟩
  · rw [Bool.and_eq_true, beq_iff_eq] at h'
    refine .advanceIs hj h'.2 (by decide) fun hk => hself.expr hk ?_
    rw [Starts, take_succ hk.le, take_succ hj.le, List.append_assoc]
    exact .inl (.refAssign (h'.1 ▸ h) h'.2)
  · exact hself.expr hj (starts_of_is hle h hop)

/-- An expression that may begin here is no lambda up to the ending, since the guard ends
clearly. -/
theorem agrees_expr (hself : L.Good rules) (hj : L.Closed i j) (hs : L.Starts i j) :
    L.Agrees i (expr rules) j := by
  rw [expr, agrees_offset]
  refine (agrees_lambda? hself hj hs).bind fun o k hk => ?_
  cases o with
  | some x => exact .pure hk
  | none =>
    dsimp only
    refine .accept hk (by decide) (fun hl hthrow => ?_) ?_
    · refine (hself.expr hl (starts_of_is hk.le hthrow (by decide))).bind fun x l hl => ?_
      exact .spanned hl
    refine (agrees_conditional hself hk).bind fun lhs k hk => ?_
    -- Nothing looks behind the ending, since it is no `>`.
    have hgreater (hsize : k = L.size) : (L.lexeme k).is ">" = false := by
      rw [hsize, L.lexeme_size, L.semi_isPunct.is_eq]
      rfl
    rw [agrees_is (by decide) (by decide), agrees_peekIs (by decide) (by decide),
      agrees_touchesNext fun hsize => by simp only [hgreater hsize, Bool.false_and],
      agrees_ite, agrees_current (by simp [L.arrow_isPunct.text, L.semi_isPunct.text,
        assignmentOps]), agrees_ite, agrees_discard]
    refine ⟨fun h => ?_, fun _ => ⟨fun h => ?_, fun _ => .pure hk⟩⟩
    · simp only [Bool.and_eq_true] at h
      have hl : L.Closed i (k + 2) :=
        (hk.succ_of_is h.1.1 (by decide)).succ_of_is h.1.2 (by decide)
      -- An expression begins behind a shift with assignment, which is what `Starts` asks for.
      have hstarts : L.Starts i (k + 2) := by
        have hlt : k < L.size := lt_size_of_is hk.le h.1.1 (by decide)
        rw [Starts, take_succ hl.le, take_succ hlt, List.append_assoc]
        exact .inl (.shiftAssign h.1.1 h.1.2 h.2)
      rw [agrees_advanceBy hl.le]
      refine (hself.expr hl hstarts).bind fun rhs l hl => ?_
      exact .spanned hl
    · rw [Bool.and_eq_true, beq_iff_eq, List.contains_iff_mem] at h
      have his : (L.lexeme k).is (L.lexeme k).text = true := by simp [Token.is, h.1]
      have hplain : ∀ op ∈ assignmentOps, Plain op ∧ op ∈ exprOpeners := by decide
      refine .advanceIs hk his (hplain _ h.2).1 fun hl => ?_
      refine (agrees_assigned hself hl his (hplain _ h.2).2).bind fun rhs l hl => ?_
      exact .spanned hl

/-! ### Patterns -/

theorem agrees_acceptDesignation (hj : L.Closed i j) : L.Agrees i acceptDesignation j := by
  rw [acceptDesignation, agrees_atDesignation, agrees_ite, agrees_iff_bind_pure, agrees_discard]
  exact ⟨fun h => .advanceIdent hj (Bool.and_eq_true_iff.mp h).1 .pure, fun _ => .pure hj⟩

theorem agrees_bracketPattern (hj : L.Closed i j) {o c : String} (hb : (o, c) ∈ brackets) :
    L.Agrees i (bracketPattern o c) j := by
  rw [bracketPattern, agrees_offset]
  refine (Agrees.skipBalanced hb hj).bind fun _ k hk => ?_
  refine (agrees_acceptDesignation hk).bind fun _ k hk => ?_
  exact .spanned hk

theorem agrees_skipSubpattern (hj : L.Closed i j) : L.Agrees i skipSubpattern j := by
  rw [skipSubpattern, agrees_is (by decide) (by decide), agrees_ite]
  refine ⟨fun _ => ?_, fun _ => .pure hj⟩
  exact (Agrees.skipBalanced brace_mem hj).bind fun _ k hk => agrees_acceptDesignation hk

theorem agrees_primaryPattern (hself : L.Good rules) (hj : L.Closed i j) :
    L.Agrees i (primaryPattern rules) j := by
  rw [primaryPattern, agrees_current (by simp [Token.isWord, L.arrow_isPunct.kind,
    L.semi_isPunct.kind, L.arrow_isPunct.is_eq, L.semi_isPunct.is_eq, openBrace, L.start_eq])]
  simp only [agrees_ite, agrees_discard, agrees_peekIdent]
  refine ⟨fun h => .advanceWord hj h fun hk => ?_, fun _ => ⟨fun h => ?_, fun _ => ⟨fun h => ?_,
    fun _ => ⟨fun h => ?_, fun _ => ⟨fun h => ?_, fun _ => ?_⟩⟩⟩⟩⟩
  · refine (hself.primaryPattern hk).bind fun x k hk => ?_
    exact .spanned hk
  · refine .advanceOneOf hj h (by decide) fun hk => ?_
    refine (hself.binary _ hk).bind fun x k hk => ?_
    exact .spanned hk
  · exact agrees_bracketPattern hj brace_mem
  · exact agrees_bracketPattern hj square_mem
  · rw [Bool.and_eq_true] at h
    refine .advanceWord hj h.1 fun hk => .advanceIdent hk h.2 fun hl => ?_
    exact .spanned hl
  -- A pattern in parentheses, one with a type in front, or an expression is left.
  · refine .atCast hself hj fun cast => ?_
    rw [agrees_ite, agrees_discard]
    refine ⟨fun h => ?_, fun _ => ?_⟩
    · refine .advanceOpen paren_mem hj (Bool.and_eq_true_iff.mp h).1 fun hopen => ?_
      refine (hself.pattern hopen.inside).bind fun inner k hk => ?_
      refine .expectClose { hopen with inside := hk } fun hl => ?_
      exact .spanned hl
    · refine .bindAttempt (agrees_declaration (agrees_type hself hj)) ?_ ?_
      · refine (agrees_binary hself hj _).bind fun x k hk => ?_
        exact (agrees_skipSubpattern hk).bind fun _ _ => .pure
      · rintro ⟨ty, name⟩ k hk
        dsimp only
        exact .spanned hk

theorem agrees_pattern (hself : L.Good rules) (hj : L.Closed i j) :
    L.Agrees i (pattern rules) j := by
  rw [pattern, agrees_offset]
  refine (agrees_primaryPattern hself hj).bind fun x k hk => .extend hk fun x l hl => ?_
  rw [agrees_isWord, agrees_isWord, agrees_ite]
  refine ⟨fun h => ?_, fun _ => .pure hl⟩
  rcases Bool.or_eq_true_iff.mp h with h | h
  all_goals
    refine .advanceWord hl h fun hm => ?_
    refine (hself.primaryPattern hm).bind fun y m hm => ?_
    exact .spanned hm

end Endings

end CSharpAudit
