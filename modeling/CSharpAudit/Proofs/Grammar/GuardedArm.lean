import CSharpAudit.Grammar.Unit
import CSharpAudit.Proofs.Grammar.Guard
import CSharpAudit.Proofs.Lexing

/-!
# Arms with guards

An arm of a switch expression is read with its guard, if the guard ends clearly and is accepted in
full where a semicolon stands in the place of the arrow. A guard that is a name is not: with the
arrow behind it, it is taken for a lambda.

Statements stand in a guard between braces, as the body of a lambda. There the ending is not the
current token, so that statements are read alike in both texts, semicolons and arrows included.

## Main results

* `Endings.agrees_statement` — a statement inside of brackets
* `Endings.good_rules` — all nested constructs
* `EndsClearly.run_expr` — a guard before an arrow is read as before a semicolon
* `run_switchArm` — an arm is read with its guard
-/

namespace CSharpAudit

open Grammar

namespace Endings

variable {L : Endings} {rules : Rules} {β : Type} {i j k : Nat} {s : String}

/-! ### Signatures -/

theorem agrees_typeParam (hself : L.Good rules) (hj : L.Closed i j) :
    L.Agrees i (typeParam rules) j := by
  rw [typeParam, agrees_offset]
  refine (Agrees.skipIf hj (by decide) fun _ => agrees_attributes hself hj).bind fun _ k hk => ?_
  refine .textOf hk (by decide) fun variance k hk => ?_
  exact (Agrees.identText hk).bind fun name k => .spanned

theorem agrees_typeParams (hself : L.Good rules) (hj : L.Closed i j) :
    L.Agrees i (typeParams rules) j := by
  refine .expect hj (by decide) fun hj _ => ?_
  refine (Agrees.separated hj fun k => agrees_typeParam hself).bind fun ps k hk => ?_
  exact .expect hk (by decide) fun hk _ => .pure hk

theorem agrees_constraintType (hself : L.Good rules) (hj : L.Closed i j) :
    L.Agrees i (constraintType rules) j := by
  simp only [constraintType, agrees_is, agrees_peekIs, agrees_ite, agrees_discard, agrees_isWord,
    agrees_isOneOf ["class", "struct", "default"] (by decide) (by decide), Bool.and_eq_true, ne_eq,
    String.reduceEq, not_false_eq_true]
  refine ⟨fun h => ?_, fun _ => ⟨fun h => ?_, fun _ => ⟨fun h => ?_, fun _ => ?_⟩⟩⟩
  · refine .advanceIs hj h.1 (by decide) fun hk => ?_
    refine .expectOpen paren_mem hk fun hopen => ?_
    exact .expectClose hopen .pure
  · refine .advanceOneOf hj h (by decide) fun hk => ?_
    exact .accept hk (by decide) (fun hk _ => .pure hk) (.pure hk)
  · refine .advanceWord hj h fun hk => ?_
    refine .expect hk (by decide) fun hk _ => ?_
    rw [agrees_discard]
    exact .expectIdent hk .pure
  · exact (agrees_type hself hj).bind fun _ _ => .pure

theorem agrees_constraints (hself : L.Good rules) (hj : L.Closed i j) :
    L.Agrees i (constraints rules) j := by
  refine .repeatWhile hj fun k hk => ?_
  rw [optionalPart, agrees_isWord, agrees_ite]
  refine ⟨fun hwhere => ?_, fun _ => .pure hk⟩
  suffices hconstraint : L.Agrees i (constraint rules) k from hconstraint.bind fun _ _ => .pure
  rw [constraint, agrees_offset, agrees_discard]
  refine .advanceWord hk hwhere fun hk => (Agrees.identText hk).bind fun param k hk => ?_
  refine .expect hk (by decide) fun hk _ => ?_
  exact (Agrees.separated hk fun k => agrees_constraintType hself).bind fun types k => .spanned

/-- A body stands inside of braces, so that its arrow is not the ending. -/
theorem agrees_body (hself : L.Good rules) (hi : L.Inner i) (hj : L.Closed i j) :
    L.Agrees i (body rules) j := by
  rw [body, agrees_is (by decide) (by decide), agrees_ite, accept, Layouts.acceptIf_bind,
    agrees_is_of_lt (hi.lt_size hj), agrees_ite]
  refine ⟨fun _ => (hself.block hj).bind fun _ _ => .pure, fun _ => ⟨fun h => ?_, fun _ => ?_⟩⟩
  · refine (agrees_advance (hi.lt_size hj)).mpr ?_
    refine (hself.expr (hj.succ_of_arrow h) (.inr hi)).bind fun x k hk => ?_
    exact .expectOf (hi.lt_size hk) hk (by decide) .pure
  · exact .expectOf (hi.lt_size hj) hj (by decide) .pure

theorem agrees_methodRest (hself : L.Good rules) (hi : L.Inner i) (hj : L.Closed i j) (h : Header)
    (t : TypeRef) (name : String) (nameSpan : Span) (interface : String) :
    L.Agrees i (methodRest rules h t name nameSpan interface) j := by
  refine (Agrees.optionalList hj (by decide) fun _ => agrees_typeParams hself hj).bind
    fun typeParams k hk => ?_
  refine (agrees_params hself hk paren_mem).bind fun params k hk => ?_
  refine (agrees_constraints hself hk).bind fun constraints k hk => ?_
  exact (agrees_body hself hi hk).bind fun body k => .spanned

theorem Agrees.modifier? {f : Option Modifier → Parser β} (hi : L.Inner i) (hj : L.Closed i j)
    (hnone : L.Agrees i (f none) j)
    (hsome : ∀ m, L.Closed i (j + 1) → L.Agrees i (f (some m)) j) :
    L.Agrees i (Grammar.modifier? >>= f) j := by
  have hlt := hi.lt_size hj
  rw [Grammar.modifier?, bind_assoc, agrees_current_of_lt hlt, Layouts.ite_bind, agrees_ite]
  refine ⟨fun hkeyword => ?_, fun _ => ?_⟩
  · have hk := hj.succ hlt (L.clear.keyword_text _ (lexeme_mem hlt) (beq_iff_eq.mp hkeyword))
    -- Whether such a word is a modifier may depend on the token behind it.
    split
    · simp only [bind_assoc, agrees_peekIs, ne_eq, String.reduceEq, not_false_eq_true, pure_bind]
      split
      · exact hnone
      · exact hsome _ hk
    · rw [pure_bind]
      cases Modifier.ofWord? (L.lexeme j).text with
      | none => exact hnone
      | some m => exact hsome m hk
  · rw [bind_assoc, agrees_peek, bind_assoc, agrees_peek, Layouts.ite_bind, agrees_ite, pure_bind,
      pure_bind]
    · refine ⟨fun h => ?_, fun _ => hnone⟩
      simp only [Bool.and_eq_true] at h
      have hk := hj.succ hlt (Token.isBracket_of_isIdent h.1.1)
      cases Modifier.ofWord? (L.lexeme j).text with
      | none => exact hnone
      | some m => exact hsome m hk
    · simp [continuesDeclaration, L.arrow_isPunct.kind, L.semi_isPunct.kind]
    · simp [continuesDeclaration, L.arrow_isPunct.kind, L.semi_isPunct.kind, L.arrow_isPunct.text,
        L.semi_isPunct.text]

theorem agrees_modifiers (hi : L.Inner i) (hj : L.Closed i j) : L.Agrees i modifiers j := by
  refine .extend hj fun mods k hk => .modifier? hi hk (.pure hk) fun m hk' => ?_
  rw [agrees_discard]
  exact (agrees_advance (hi.lt_size hk)).mpr (.pure hk')

/-! ### Local declarations -/

theorem agrees_varDeclarator (hself : L.Good rules) (hi : L.Inner i) (hj : L.Closed i j) :
    L.Agrees i (varDeclarator rules) j := by
  refine .expectIdent hj fun hk => ?_
  refine (Agrees.skipIf hk (by decide) fun _ => .skipBalanced square_mem hk).bind fun _ k hk => ?_
  have hvalue {k : Nat} (hk : L.Closed i k) : L.Agrees i (varInitializer rules) k := by
    rw [varInitializer, agrees_is (by decide) (by decide), agrees_ite]
    exact ⟨fun _ => agrees_initializerExpr hself hk, fun _ => hself.expr hk (.inr hi)⟩
  exact (Agrees.optionalPart_accept hk (by decide) fun hk _ => hvalue hk).bind
    fun init k => .spanned

theorem agrees_localVars (hself : L.Good rules) (hi : L.Inner i) (hj : L.Closed i j)
    (t : TypeRef) : L.Agrees i (localVars rules t) j :=
  (Agrees.separated hj fun _ => agrees_varDeclarator hself hi).bind fun _ _ => .pure

theorem agrees_localDeclHead (hself : L.Good rules) (hi : L.Inner i) (hj : L.Closed i j)
    (start : Nat) (isConst : Bool) : L.Agrees i (localDeclHead rules start isConst) j := by
  refine (agrees_type hself hj).bind fun t k hk => ?_
  exact (agrees_localVars hself hi hk t).bind fun vars k => .spanned

theorem agrees_localDeclBefore (hself : L.Good rules) (hi : L.Inner i) (hj : L.Closed i j)
    (closing : String) : L.Agrees i (localDeclBefore rules closing) j := by
  rw [localDeclBefore, agrees_offset]
  refine (agrees_localDeclHead hself hi hj _ false).bind fun decl k hk => ?_
  rw [agrees_is_of_lt (hi.lt_size hk), agrees_ite]
  exact ⟨fun _ => .pure hk, fun _ => agrees_fail⟩

theorem agrees_acceptRef (hj : L.Closed i j) : L.Agrees i acceptRef j := by
  refine .accept hj (by decide) (fun hk _ => ?_) (.pure hj)
  rw [if_pos rfl, agrees_discard]
  exact .accept hk (by decide) (fun hk _ => .pure hk) (.pure hk)

theorem agrees_acceptScoped (hj : L.Closed i j) : L.Agrees i
    (acceptIf do return (← isWord "scoped") && (← peek 1).kind != .punct) j := by
  rw [agrees_iff_bind_pure, Layouts.acceptIf_bind, bind_assoc, agrees_isWord, bind_assoc,
    agrees_peek (by rw [L.arrow_isPunct.kind, L.semi_isPunct.kind]), pure_bind, agrees_ite]
  exact ⟨fun h => .advanceWord hj (Bool.and_eq_true_iff.mp h).1 .pure, fun _ => .pure hj⟩

/-- Semicolons behind declarations stand inside of braces as well. -/
theorem agrees_localDeclOrFunc (hself : L.Good rules) (hi : L.Inner i) (hj : L.Closed i j) :
    L.Agrees i (localDeclOrFunc rules) j := by
  -- All that may be looked at stands inside the braces, so in front of their end.
  rw [localDeclOrFunc, agrees_offset]
  refine (agrees_acceptRef hj).bind fun isRef k hk => ?_
  rw [agrees_discard]
  refine (agrees_acceptScoped hk).bind fun _ k hk => ?_
  rw [agrees_current_of_lt (hi.lt_size hk)]
  refine (Agrees.optionalList hk (by decide) fun _ => agrees_attributes hself hk).bind
    fun attributes k hk => ?_
  refine (agrees_modifiers hi hk).bind fun mods k hk => (agrees_type hself hk).bind fun t k hk => ?_
  rw [agrees_isIdent, agrees_ite]
  refine ⟨fun _ => agrees_fail_bind, fun hname => ?_⟩
  have hident : (L.lexeme k).isIdent = true := by
    cases hkind : (L.lexeme k).isIdent with
    | true => rfl
    | false => simp [hkind] at hname
  have hlt := hi.lt_size hk
  have hnext := hi.lt_size (hk.succ hlt (Token.isBracket_of_isIdent hident))
  rw [agrees_peekIs (by decide) (by decide), agrees_peekIs (by decide) (by decide), agrees_ite]
  refine ⟨fun _ => .advanceIdent hk hident fun hk => ?_, fun _ => ?_⟩
  · exact (agrees_methodRest hself hi hk _ t _ _ "").bind fun f k => .spanned
  rw [agrees_ite]
  refine ⟨fun _ => agrees_fail_bind, fun _ => ?_⟩
  rw [agrees_peekIs (by decide) (by decide), agrees_peekIs_of_lt hnext,
    agrees_peekIs (by decide) (by decide), agrees_ite]
  refine ⟨fun _ => agrees_fail_bind, fun _ => ?_⟩
  refine (agrees_localVars hself hi hk t).bind fun vars k hk => ?_
  exact .expectOf (hi.lt_size hk) hk (by decide) .spanned

/-! ### Loops and branches -/

/-- Behind its opening brace a block is inside of the guard, whatever token is asked for. -/
theorem agrees_block (hself : L.Good rules) (hj : L.Closed i j) : L.Agrees i (block rules) j := by
  rw [block, agrees_offset]
  refine .expectOpen brace_mem hj fun hopen => ?_
  refine (Agrees.repeatWhile hopen.inside fun k hk => .optionalPart_isNot hk (by decide)
    (.unlessEnd (hself.statement hopen.inner hk))).bind fun stmts k hk => ?_
  exact .expectClose { hopen with inside := hk } .spanned

theorem agrees_condition (hself : L.Good rules) (hj : L.Closed i j) :
    L.Agrees i (condition rules) j := by
  refine .expectOpen paren_mem hj fun hopen => ?_
  refine (hself.expr hopen.inside (.inr hopen.inner)).bind fun x k hk => ?_
  exact .expectClose { hopen with inside := hk } .pure

theorem agrees_ifStmt (hself : L.Good rules) (hi : L.Inner i) (hj : L.Closed i j) :
    L.Agrees i (ifStmt rules) j := by
  rw [ifStmt, agrees_offset]
  refine .expect hj (by decide) fun hk _ => (agrees_condition hself hk).bind fun cond k hk => ?_
  refine (hself.statement hi hk).bind fun thenBranch k hk => ?_
  exact (Agrees.optionalPart_accept hk (by decide) fun hk _ => hself.statement hi hk).bind
    fun elseBranch k => .spanned

theorem agrees_optionalExpr (hself : L.Good rules) (hi : L.Inner i) (hj : L.Closed i j) :
    L.Agrees i (optionalExpr rules) j := by
  rw [optionalExpr, optionalPart, agrees_isNot_of_lt (hi.lt_size hj), agrees_ite]
  exact ⟨fun _ => (hself.expr hj (.inr hi)).bind fun _ _ => .pure, fun _ => .pure hj⟩

theorem agrees_forInit (hself : L.Good rules) (hi : L.Inner i) (hj : L.Closed i j) :
    L.Agrees i (forInit rules) j := by
  rw [forInit, agrees_is_of_lt (hi.lt_size hj), agrees_ite]
  refine ⟨fun _ => .pure hj, fun _ => ?_⟩
  refine .bindAttempt (agrees_localDeclBefore hself hi hj ";") ?_ fun decl k => .pure
  refine .separated hj fun k hk => ?_
  rw [forInitExpr, agrees_offset]
  exact (hself.expr hk (.inr hi)).bind fun x k => .spanned

theorem agrees_forStmt (hself : L.Good rules) (hi : L.Inner i) (hj : L.Closed i j) :
    L.Agrees i (forStmt rules) j := by
  rw [forStmt, agrees_offset]
  refine .expect hj (by decide) fun hk _ => .expectOpen paren_mem hk fun hopen => ?_
  have hin := hopen.inner
  refine (agrees_forInit hself hin hopen.inside).bind fun init k hk => ?_
  refine .expectOf (hin.lt_size hk) hk (by decide) fun hk => ?_
  refine (agrees_optionalExpr hself hin hk).bind fun cond k hk => ?_
  refine .expectOf (hin.lt_size hk) hk (by decide) fun hk => ?_
  refine (Agrees.listUntil hk (by decide) fun k hk => hself.expr hk (.inr hin)).bind
    fun post k hk => ?_
  refine .expectClose { hopen with inside := hk } fun hk => ?_
  exact (hself.statement hi hk).bind fun body k => .spanned

theorem agrees_sourceText {f : String → Parser β} {start stop : Nat} :
    L.Agrees i (sourceText start stop >>= f) j ↔
      L.Agrees i (f (Text.Utf8.text ((L.input.source.drop start).take (stop - start)))) j :=
  agrees_bind_of_run fun _ => rfl

theorem agrees_foreachVar (hj : L.Closed i j) : L.Agrees i foreachVar j := by
  rw [foreachVar, agrees_offset, agrees_is (by decide) (by decide), agrees_ite]
  refine ⟨fun _ => (Agrees.skipBalanced paren_mem hj).bind fun _ k hk => ?_, fun _ => ?_⟩
  · rw [agrees_spanFrom, agrees_sourceText]
    exact .pure hk
  · exact (Agrees.identText hj).bind fun name k => .spanned

theorem agrees_foreachStmt (hself : L.Good rules) (hi : L.Inner i) (hj : L.Closed i j)
    (start : Nat) (isAwait : Bool) : L.Agrees i (foreachStmt rules start isAwait) j := by
  refine .expect hj (by decide) fun hk _ => .expectOpen paren_mem hk fun hopen => ?_
  refine (agrees_type hself hopen.inside).bind fun t k hk => ?_
  refine (agrees_foreachVar hk).bind fun var k hk => .expect hk (by decide) fun hk _ => ?_
  refine (hself.expr hk (.inr hopen.inner)).bind fun collection k hk => ?_
  refine .expectClose { hopen with inside := hk } fun hk => ?_
  exact (hself.statement hi hk).bind fun body k => .spanned

/-! ### Switches -/

theorem agrees_atCaseLabel {f : Bool → Parser β} : L.Agrees i (atCaseLabel >>= f) j ↔
    L.Agrees i (f ((L.lexeme j).is "case" ||
      ((L.lexeme j).is "default" && (L.lexeme (j + 1)).is ":"))) j := by
  simp only [atCaseLabel, bind_assoc, pure_bind, agrees_is, agrees_peekIs, ne_eq, String.reduceEq,
    not_false_eq_true]

theorem agrees_casePattern (hself : L.Good rules) (hj : L.Closed i j) :
    L.Agrees i (casePattern rules) j := by
  refine (agrees_type hself hj).bind fun t k hk => (Agrees.identText hk).bind fun name k hk => ?_
  rw [agrees_is (by decide) (by decide), agrees_isWord, agrees_ite]
  exact ⟨fun _ => .pure hk, fun _ => agrees_fail⟩

theorem agrees_caseLabel (hself : L.Good rules) (hi : L.Inner i) (hj : L.Closed i j) :
    L.Agrees i (caseLabel rules) j := by
  rw [caseLabel, agrees_offset]
  refine .accept hj (by decide) (fun hk _ => .expect hk (by decide) fun hk _ => .spanned hk) ?_
  refine .expect hj (by decide) fun hk _ => ?_
  refine (Agrees.attempt hk (agrees_casePattern hself hk)).bind fun declared k hk => ?_
  refine (Agrees.optionalPart_pure hk (hself.pattern hk)).bind fun value k hk => ?_
  refine (Agrees.optionalPart_acceptWord hk fun hk => hself.expr hk (.inr hi)).bind
    fun guard k hk => ?_
  exact .expect hk (by decide) fun hk _ => .spanned hk

theorem agrees_switchSection (hself : L.Good rules) (hi : L.Inner i) (hj : L.Closed i j) :
    L.Agrees i (switchSection rules) j := by
  rw [switchSection, agrees_offset]
  refine (Agrees.repeatWhile hj fun k hk => ?_).bind fun labels k hk => ?_
  · rw [optionalPart, agrees_atCaseLabel, agrees_ite]
    exact ⟨fun _ => (agrees_caseLabel hself hi hk).bind fun _ _ => .pure, fun _ => .pure hk⟩
  rw [agrees_ite]
  refine ⟨fun _ => agrees_failAt_bind fun _ => rfl, fun _ => ?_⟩
  refine (Agrees.repeatWhile hk fun l hl => ?_).bind fun stmts k => .spanned
  rw [optionalPart, bind_assoc, agrees_atCaseLabel, bind_assoc, agrees_is (by decide) (by decide),
    pure_bind, agrees_ite]
  exact ⟨fun _ => (Agrees.unlessEnd (hself.statement hi hl)).bind fun _ _ => .pure,
    fun _ => .pure hl⟩

theorem agrees_switchStmt (hself : L.Good rules) (hi : L.Inner i) (hj : L.Closed i j) :
    L.Agrees i (switchStmt rules) j := by
  rw [switchStmt, agrees_offset]
  refine .expect hj (by decide) fun hk _ => ?_
  have htag {k : Nat} (hk : L.Closed i k) : L.Agrees i (switchTag rules) k := by
    rw [switchTag, agrees_is (by decide) (by decide), agrees_ite]
    exact ⟨fun _ => agrees_primary hself hk, fun _ => hself.expr hk (.inr hi)⟩
  refine (htag hk).bind fun tag k hk => .expectOpen brace_mem hk fun hopen => ?_
  refine (Agrees.repeatWhile hopen.inside fun k hk => .optionalPart_isNot hk (by decide)
    (.unlessEnd (agrees_switchSection hself hopen.inner hk))).bind fun sections k hk => ?_
  exact .expectClose { hopen with inside := hk } .spanned

/-! ### Resources and exceptions -/

theorem agrees_usingStmt (hself : L.Good rules) (hi : L.Inner i) (hj : L.Closed i j)
    (start : Nat) (isAwait : Bool) : L.Agrees i (usingStmt rules start isAwait) j := by
  refine .expect hj (by decide) fun hk _ => .acceptOpen paren_mem hk (fun hopen => ?_) ?_
  · have hin := hopen.inner
    refine (Agrees.attempt hopen.inside (agrees_localDeclBefore hself hin hopen.inside ")")).bind
      fun decl k hk => ?_
    refine (Agrees.optionalPart_pure hk (hself.expr hk (.inr hin))).bind fun resource k hk => ?_
    refine .expectClose { hopen with inside := hk } fun hk => ?_
    exact (hself.statement hi hk).bind fun body k => .spanned
  · rw [if_neg Bool.false_ne_true, agrees_offset]
    refine (agrees_localDeclHead hself hi hk _ false).bind fun decl k hk => ?_
    exact .expectOf (hi.lt_size hk) hk (by decide) .spanned

theorem agrees_caught (hself : L.Good rules) (hj : L.Closed i j) :
    L.Agrees i (caught rules) j := by
  refine .acceptOpen paren_mem hj (fun hopen => ?_) (.pure hj)
  refine (agrees_type hself hopen.inside).bind fun t k hk => ?_
  refine (Agrees.optionalIdent hk).bind fun name k hk => ?_
  exact .expectClose { hopen with inside := hk } .pure

theorem agrees_catchClause (hself : L.Good rules) (hj : L.Closed i j)
    (h : (L.lexeme j).is "catch" = true) : L.Agrees i (catchClause rules) j := by
  rw [catchClause, agrees_offset, agrees_discard]
  refine .advanceIs hj h (by decide) fun hk => (agrees_caught hself hk).bind fun c k hk => ?_
  refine (Agrees.optionalPart_acceptWord hk fun hk => agrees_condition hself hk).bind
    fun filter k hk => ?_
  exact (agrees_block hself hk).bind fun body k => .spanned

theorem agrees_tryStmt (hself : L.Good rules) (hj : L.Closed i j) :
    L.Agrees i (tryStmt rules) j := by
  rw [tryStmt, agrees_offset]
  refine .expect hj (by decide) fun hk _ => (agrees_block hself hk).bind fun body k hk => ?_
  refine (Agrees.repeatWhile hk fun k hk => .optionalPart_is hk (by decide)
    (agrees_catchClause hself hk)).bind fun catches k hk => ?_
  refine (Agrees.optionalPart_accept hk (by decide) fun hk _ => agrees_block hself hk).bind
    fun finallyBlock k hk => ?_
  rw [agrees_ite]
  exact ⟨fun _ => agrees_fail_bind, fun _ => .spanned hk⟩

/-! ### Jumps -/

/-- The source text of a label lies in front of the ending, where the texts are the same. -/
theorem agrees_gotoLabel (hself : L.Good rules) (hi : L.Inner i) (hj : L.Closed i j) :
    L.Agrees i (gotoLabel rules) j := by
  refine .accept hj (by decide) (fun hk _ => ?_) ?_
  · refine (hself.expr hk (.inr hi)).bind fun x k hk => ?_
    rw [agrees_sourceText]
    exact .pure hk
  · exact .accept hj (by decide) (fun hk _ => .pure hk) (.identText hj)

theorem agrees_gotoStmt (hself : L.Good rules) (hi : L.Inner i) (hj : L.Closed i j)
    (h : (L.lexeme j).is "goto" = true) : L.Agrees i (gotoStmt rules) j := by
  rw [gotoStmt, agrees_offset, agrees_discard]
  refine .advanceIs hj h (by decide) fun hk => (agrees_gotoLabel hself hi hk).bind
    fun label k hk => ?_
  exact .expectOf (hi.lt_size hk) hk (by decide) .spanned

theorem agrees_yieldStmt (hself : L.Good rules) (hi : L.Inner i) (hj : L.Closed i j)
    (h : (L.lexeme j).isIdent = true) : L.Agrees i (yieldStmt rules) j := by
  rw [yieldStmt, agrees_offset, agrees_discard]
  have hyielded {k : Nat} (hk : L.Closed i k) : L.Agrees i (yielded rules) k :=
    .expect hk (by decide) fun hk _ => hself.expr hk (.inr hi)
  have hrest (isBreak : Bool) {k : Nat} (hk : L.Closed i k) : L.Agrees i (do
      let x ← optionalPart (pure !isBreak) (yielded rules)
      discard <| expect ";"
      return Node.yieldStmt (← spanFrom (L.lexeme j).span.start) isBreak x) k :=
    (Agrees.optionalPart_pure hk (hyielded hk)).bind fun x k hk =>
      .expectOf (hi.lt_size hk) hk (by decide) .spanned
  exact .advanceIdent hj h fun hk =>
    .accept hk (by decide) (fun hk _ => hrest true hk) (hrest false hk)

/-! ### Statements -/

/-- One case for each keyword. -/
theorem agrees_keywordStmt? (hself : L.Good rules) (hi : L.Inner i) (hj : L.Closed i j) :
    L.Agrees i (keywordStmt? rules) j := by
  have hlt := hi.lt_size hj
  rw [keywordStmt?, agrees_current_of_lt hlt, agrees_ite]
  refine ⟨fun _ => .pure hj, fun hkind => ?_⟩
  have his {s : String} (htext : (L.lexeme j).text = s) : (L.lexeme j).is s = true := by
    simp only [Bool.and_eq_true, bne_iff_ne, ne_eq, not_and, Decidable.not_not] at hkind
    by_cases h : (L.lexeme j).kind = .keyword
    · simp [Token.is, h, htext]
    · simp [Token.is, hkind h, htext]
  have hnext {s : String} (htext : (L.lexeme j).text = s) (hs : s ∉ bracketTexts) :
      L.Closed i (j + 1) := hj.succ hlt (Token.isBracket_of_is (his htext) hs)
  have hspan {k start : Nat} {f : Span → Node} (hk : L.Closed i k) :
      L.Agrees i (do return some (f (← spanFrom start))) k := .spanned hk
  have hsemi {k start : Nat} {f : Span → Node} (hk : L.Closed i k) : L.Agrees i (do
      discard <| expect ";"
      return some (f (← spanFrom start))) k :=
    .expectOf (hi.lt_size hk) hk (by decide) .spanned
  have hbody {k start : Nat} {f : Span → Node → Node} (hk : L.Closed i k) : L.Agrees i (do
      let body ← rules.statement
      return some (f (← spanFrom start) body)) k :=
    (hself.statement hi hk).bind fun _ _ => .spanned
  have hchecked {start : Nat} {text : String} (hs : text ∉ bracketTexts)
      (htext : (L.lexeme j).text = text) : L.Agrees i (do
      if ← peekIs 1 openBrace then
        discard advance
        let body ← block rules
        return some (Node.checkedStmt (← spanFrom start) (L.lexeme j).text body)
      else return none) j := by
    rw [agrees_peekIs (by decide) (by decide), agrees_ite, agrees_discard, agrees_advance hlt]
    exact ⟨fun _ => (agrees_block hself (hnext htext hs)).bind fun _ _ => hspan,
      fun _ => .pure hj⟩
  -- one case for each word that starts a statement, in the order of the definition
  split <;> rename_i htext <;> try rw [agrees_discard, agrees_advance hlt]
  · exact (agrees_block hself hj).bind fun _ _ => .pure
  · exact hspan (hnext htext (by decide))
  · exact (agrees_ifStmt hself hi hj).bind fun _ _ => .pure
  · exact (agrees_forStmt hself hi hj).bind fun _ _ => .pure
  · exact (agrees_foreachStmt hself hi hj _ false).bind fun _ _ => .pure
  · exact (agrees_condition hself (hnext htext (by decide))).bind fun _ _ => hbody
  · refine (hself.statement hi (hnext htext (by decide))).bind fun body k hk => ?_
    refine .expect hk (by decide) fun hk _ => (agrees_condition hself hk).bind fun _ _ => hsemi
  · exact (agrees_switchStmt hself hi hj).bind fun _ _ => .pure
  · exact (agrees_usingStmt hself hi hj _ false).bind fun _ _ => .pure
  · exact (agrees_tryStmt hself hj).bind fun _ _ => .pure
  · exact (agrees_optionalExpr hself hi (hnext htext (by decide))).bind fun _ _ => hsemi
  · exact hsemi (hnext htext (by decide))
  · exact hsemi (hnext htext (by decide))
  · exact (agrees_optionalExpr hself hi (hnext htext (by decide))).bind fun _ _ => hsemi
  · exact (agrees_condition hself (hnext htext (by decide))).bind fun _ _ => hbody
  · exact (agrees_gotoStmt hself hi hj (his htext)).bind fun _ _ => .pure
  · exact hchecked (by decide) htext
  · exact hchecked (by decide) htext
  · exact hchecked (by decide) htext
  · refine .expectOpen paren_mem (hnext htext (by decide)) fun hopen => ?_
    rw [agrees_offset, agrees_discard]
    refine (agrees_localDeclHead hself hopen.inner hopen.inside _ false).bind fun _ k hk => ?_
    exact .expectClose { hopen with inside := hk } hbody
  · refine (agrees_type hself (hnext htext (by decide))).bind fun t k hk => ?_
    exact (agrees_localVars hself hi hk t).bind fun _ _ => hsemi
  · exact .pure hj

/-- One case for each word. -/
theorem agrees_wordStmt? (hself : L.Good rules) (hi : L.Inner i) (hj : L.Closed i j) :
    L.Agrees i (wordStmt? rules) j := by
  have hlt := hi.lt_size hj
  rw [wordStmt?, agrees_current_of_lt hlt, agrees_ite]
  refine ⟨fun _ => .pure hj, fun hnot => ?_⟩
  have hident : (L.lexeme j).isIdent = true := by simpa using hnot
  have hnext := hj.succ hlt (Token.isBracket_of_isIdent hident)
  simp only [agrees_peekIs, agrees_ite, agrees_discard, ne_eq, String.reduceEq, not_false_eq_true]
  refine ⟨fun _ => ?_, fun _ => ⟨fun _ => ?_, fun _ => ⟨fun _ => ?_, fun _ => ⟨fun h => ?_,
    fun _ => .pure hj⟩⟩⟩⟩
  · exact (agrees_yieldStmt hself hi hj hident).bind fun _ _ => .pure
  · rw [agrees_advance hlt]
    exact (agrees_foreachStmt hself hi hnext _ true).bind fun _ _ => .pure
  · rw [agrees_advance hlt]
    exact (agrees_usingStmt hself hi hnext _ true).bind fun _ _ => .pure
  · have hlabeled : L.Closed i (j + 2) := hnext.succ_of_is (Bool.and_eq_true_iff.mp h).1 (by decide)
    rw [agrees_advanceBy hlabeled.le]
    exact (hself.statement hi hlabeled).bind fun _ _ => .spanned

/-- Statements are read alike, since they stand inside of brackets. -/
theorem agrees_statement (hself : L.Good rules) (hi : L.Inner i) (hj : L.Closed i j) :
    L.Agrees i (statement rules) j := by
  rw [statement, agrees_offset]
  refine (agrees_keywordStmt? hself hi hj).bind fun o k hk => ?_
  cases o with
  | some s => exact .pure hk
  | none =>
    refine (agrees_wordStmt? hself hi hk).bind fun o k hk => ?_
    cases o with
    | some s => exact .pure hk
    | none =>
      refine .bindAttempt (agrees_localDeclOrFunc hself hi hk) ?_ fun s k => .pure
      refine (agrees_expr hself hk (.inr hi)).bind fun x k hk => ?_
      exact .expectOf (hi.lt_size hk) hk (by decide) .spanned

/-! ### All nested constructs -/

/-- Where nesting is too deep, both texts are at fault. -/
theorem good_stop : L.Good Rules.stop where
  type _ _ _ := agrees_fail
  expr _ _ _ _ := agrees_fail
  unary _ _ _ := agrees_fail
  binary _ _ _ _ := agrees_fail
  pattern _ _ _ := agrees_fail
  primaryPattern _ _ _ := agrees_fail
  initializer _ _ _ := agrees_fail
  block _ _ _ := agrees_fail
  statement _ _ _ _ := agrees_fail

/-- One more level of nesting is read alike. -/
theorem Good.deepen (hself : L.Good rules) : L.Good rules.deepen where
  type _ _ := agrees_type hself
  expr _ _ := agrees_expr hself
  unary _ _ := agrees_unary hself
  binary minimum _ _ hj := agrees_binary hself hj minimum
  pattern _ _ := agrees_pattern hself
  primaryPattern _ _ := agrees_primaryPattern hself
  initializer _ _ := agrees_initializer hself
  block _ _ := agrees_block hself
  statement _ _ := agrees_statement hself

/-- Guards are read alike to any depth of nesting. -/
theorem good_rules (depth : Nat) : L.Good (Grammar.rules depth) := by
  induction depth with
  | zero => exact good_stop
  | succ depth ih => exact ih.deepen

end Endings

/-! ### Arms -/

variable {x : Input} {c c' : Grammar.Cursor} {depth : Nat}

/-- A guard that ends clearly is read before an arrow as before a semicolon. -/
theorem EndsClearly.run_expr {guard rest : List Token} {semi arrow : Token} {lastEnd stop : Nat}
    {g : Node} (hclear : EndsClearly guard) (hsemi : semi.IsPunct ";") (harrow : arrow.IsPunct "=>")
    (hstart : arrow.span.start = semi.span.start)
    (hrun : (rules depth).expr x ⟨guard ++ semi :: rest, lastEnd⟩ = .ok (g, ⟨semi :: rest, stop⟩)) :
    (rules depth).expr x ⟨guard ++ arrow :: rest, lastEnd⟩ = .ok (g, ⟨arrow :: rest, stop⟩) := by
  let L : Endings := ⟨x, lastEnd, guard, semi, arrow, rest, hclear, hsemi, harrow, hstart⟩
  have hgood := (L.good_rules depth).expr (Endings.Closed.refl (Nat.zero_le L.size))
    (Endings.starts_zero (i := 0))
  rcases hgood with ⟨a, k, ⟨hk, -⟩, hboth⟩ | ⟨b, hboth⟩
  · have hsame := (hboth false).symm.trans hrun
    obtain ⟨rfl, hcursor⟩ := Prod.mk.inj (Except.ok.inj hsame)
    obtain ⟨hrest, hstop⟩ := Grammar.Cursor.mk.inj hcursor
    -- As many tokens are left as behind the guard.
    have hsize : k = L.size := by
      have hlength := congrArg List.length hrest
      rw [List.length_drop, Endings.tokens, List.length_append] at hlength
      simp only [List.length_cons] at hlength
      have : L.guard.length = L.size := rfl
      have : L.rest.length = rest.length := rfl
      omega
    rw [hsize] at hstop
    have htrue := hboth true
    rw [hsize, Endings.cursor, Endings.cursor, Endings.tokens, Endings.size, List.drop_left] at htrue
    exact htrue.trans (congrArg (fun e => Except.ok (a, (⟨arrow :: rest, e⟩ : Grammar.Cursor))) hstop)
  · obtain ⟨e, he, -⟩ := hboth false
    cases hrun.symm.trans he

/-- An arm is read with its guard, if the guard ends clearly and is accepted in full with a
semicolon in the place of the arrow. -/
theorem run_switchArm {guard rest : List Token} {mark semi arrow : Token} {stop stop' : Nat}
    {p g v : Node} (hclear : EndsClearly guard) (hmark : mark.isWord "when" = true)
    (hsemi : semi.IsPunct ";") (harrow : arrow.IsPunct "=>")
    (hstart : arrow.span.start = semi.span.start)
    (hpattern : (rules depth).pattern x c = .ok (p, ⟨mark :: (guard ++ arrow :: rest), stop⟩))
    (hguard : (rules depth).expr x ⟨guard ++ semi :: rest, mark.span.stop⟩ =
      .ok (g, ⟨semi :: rest, stop'⟩))
    (hvalue : (rules depth).expr x ⟨rest, arrow.span.stop⟩ = .ok (v, c')) :
    switchArm (rules depth) x c =
      .ok (.switchArm ⟨(ahead x c.rest 0).span.start, c'.lastEnd⟩ p (some g) v, c') := by
  have hrun := hclear.run_expr hsemi harrow hstart hguard
  have hpart : optionalPart (acceptWord "when") (rules depth).expr x
      ⟨mark :: (guard ++ arrow :: rest), stop⟩ = .ok (some g, ⟨arrow :: rest, stop'⟩) := by
    rw [optionalPart, run_acceptWord_bind, if_pos hmark, if_pos rfl]
    exact run_bind_of_ok hrun
  have harrow' : arrow.is "=>" = true := by rw [harrow.is_eq, beq_self_eq_true]
  rw [switchArm, run_offset_bind, run_bind_of_ok hpattern, run_bind_of_ok hpart, run_discard_bind,
    run_expect_bind, if_pos harrow', run_bind_of_ok hvalue, run_spanFrom_bind, run_pure]

/-! ### Two arms -/

namespace SampleArm

/-- A file with the arm `1 when f(0)=>2`. -/
def callText : List UInt8 :=
  "class C\x7bint M()=>x switch\x7b1 when f(0)=>2\x7d;\x7d".toList.map Lexer.ascii

/-- A file with the arm `1 when flag=>2`. -/
def nameText : List UInt8 :=
  "class C\x7bint M()=>x switch\x7b1 when flag=>2\x7d;\x7d".toList.map Lexer.ascii

def eof : Token := ⟨.eof, "", ⟨43, 43⟩, ""⟩

def one : Token := ⟨.int, "1", ⟨26, 27⟩, ""⟩

def mark : Token := ⟨.ident, "when", ⟨28, 32⟩, ""⟩

def call : List Token := [⟨.ident, "f", ⟨33, 34⟩, ""⟩, ⟨.punct, "(", ⟨34, 35⟩, ""⟩,
  ⟨.int, "0", ⟨35, 36⟩, ""⟩, ⟨.punct, ")", ⟨36, 37⟩, ""⟩]

def name : List Token := [⟨.ident, "flag", ⟨33, 37⟩, ""⟩]

def arrow : Token := ⟨.punct, "=>", ⟨37, 39⟩, ""⟩

def semi : Token := ⟨.punct, ";", ⟨37, 38⟩, ""⟩

def rest : List Token := [⟨.int, "2", ⟨39, 40⟩, ""⟩, ⟨.punct, closeBrace, ⟨40, 41⟩, ""⟩,
  ⟨.punct, ";", ⟨41, 42⟩, ""⟩, ⟨.punct, closeBrace, ⟨42, 43⟩, ""⟩]

/-- The literals `1` and `2`, and what is read as the guards. -/
def pattern : Node := .literal ⟨26, 27⟩ .int "1"

def value : Node := .literal ⟨39, 40⟩ .int "2"

def callNode : Node := .invocation ⟨33, 37⟩ (.ident ⟨33, 34⟩ "f" [])
  [{ span := ⟨35, 36⟩, value := .literal ⟨35, 36⟩ .int "0" }]

def nameNode : Node := .ident ⟨33, 37⟩ "flag" []

end SampleArm

section Samples

open SampleArm

theorem endsClearly_call : EndsClearly call where
  balanced := by
    have hzero : Balanced [⟨.int, "0", ⟨35, 36⟩, ""⟩] := .token (by decide) .nil
    exact .token (by decide) (.group Endings.paren_mem (by decide) hzero (by decide) .nil)
  keyword_text := by decide
  no_forgiveness := by decide
  no_lambda := not_lambdaHead_of_all (by decide) fun h => absurd h.head (by decide)

/-- The call is accepted in full with a semicolon in the place of the arrow. -/
theorem run_call : (rules 9).expr ⟨callText, eof⟩ ⟨call ++ semi :: rest, 32⟩ =
    .ok (callNode, ⟨semi :: rest, 37⟩) := rfl

/-- A call is read as the guard that it is. -/
theorem callGuard_read :
    (lex callText).toOption.map (·.1.drop 11) =
      some (one :: mark :: (call ++ arrow :: rest) ++ [eof]) ∧
    switchArm (rules 9) ⟨callText, eof⟩ ⟨one :: mark :: (call ++ arrow :: rest), 26⟩ =
      .ok (.switchArm ⟨26, 40⟩ pattern (some callNode) value, ⟨rest.drop 1, 40⟩) := by
  refine ⟨by rw [show callText = _ from Lexer.ascii_ofList _]; decide +kernel, ?_⟩
  have hmark : mark.isWord "when" = true := rfl
  have hsemi : semi.IsPunct ";" := ⟨rfl, rfl⟩
  have harrow : arrow.IsPunct "=>" := ⟨rfl, rfl⟩
  have hpattern : (rules 9).pattern ⟨callText, eof⟩ ⟨one :: mark :: (call ++ arrow :: rest), 26⟩ =
      .ok (pattern, ⟨mark :: (call ++ arrow :: rest), 27⟩) := rfl
  have hvalue : (rules 9).expr ⟨callText, eof⟩ ⟨rest, 39⟩ = .ok (value, ⟨rest.drop 1, 40⟩) := rfl
  exact run_switchArm endsClearly_call hmark hsemi harrow rfl hpattern run_call hvalue

/-- A name is taken for the parameter of a lambda, though it is accepted in full with a semicolon in
the place of the arrow. -/
theorem nameGuard_not_read :
    (lex nameText).toOption.map (·.1.drop 11) =
      some (one :: mark :: (name ++ arrow :: rest) ++ [eof]) ∧
    (rules 9).pattern ⟨nameText, eof⟩ ⟨one :: mark :: (name ++ arrow :: rest), 26⟩ =
      .ok (pattern, ⟨mark :: (name ++ arrow :: rest), 27⟩) ∧
    (rules 9).expr ⟨nameText, eof⟩ ⟨name ++ semi :: rest, 32⟩ =
      .ok (nameNode, ⟨semi :: rest, 37⟩) ∧
    (rules 9).expr ⟨nameText, eof⟩ ⟨rest, 39⟩ = .ok (value, ⟨rest.drop 1, 40⟩) ∧
    (∀ span c, switchArm (rules 9) ⟨nameText, eof⟩
      ⟨one :: mark :: (name ++ arrow :: rest), 26⟩ ≠
        .ok (.switchArm span pattern (some nameNode) value, c)) ∧
    (parse nameText).toOption.isNone = true := by
  have hrun : switchArm (rules 9) ⟨nameText, eof⟩ ⟨one :: mark :: (name ++ arrow :: rest), 26⟩ =
      .error ⟨40, .expected "=>" ⟨.punct, closeBrace, ⟨40, 41⟩, ""⟩⟩ := rfl
  obtain ⟨hlex, hparse⟩ : (lex nameText).toOption.map (·.1.drop 11) =
      some (one :: mark :: (name ++ arrow :: rest) ++ [eof]) ∧
        (parse nameText).toOption.isNone = true := by
    rw [show nameText = _ from Lexer.ascii_ofList _]
    decide +kernel
  refine ⟨hlex, rfl, rfl, rfl, fun span c h => ?_, hparse⟩
  cases hrun.symm.trans h

end Samples

end CSharpAudit
