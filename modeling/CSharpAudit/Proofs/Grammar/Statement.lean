import CSharpAudit.Grammar.Statement
import CSharpAudit.Proofs.Grammar.Signature
import CSharpAudit.Proofs.Utf8

/-!
# Statements in all layouts

## Main results

* `Layouts.yields_block`, `Layouts.yields_statement` — blocks and statements
* `Layouts.reads_foreachVar`, `Layouts.reads_gotoLabel` — the two names that are kept as source
  text are the same in all layouts once they are erased
-/

namespace CSharpAudit

open Grammar

attribute [local simp] frames_iff Layered.nodes Layered.erase NodeKind.node NodeKind.erase
  Node.nodesBelow Node.children Node.unvisitedNodes Node.span Node.Synthesises Node.ChainedInside
  Node.erase flatMap_singleton_eq_map

namespace Layouts

variable {ω : Type} {L : Layouts ω} {i j k b : Nat} {self : Rules}

/-- A block has the span of its braces, and its statements are laid inside of them. -/
theorem yields_block (hself : L.Good b self) (hb : b ≤ j + 1) :
    L.Yields j (fun _ => block self) j := by
  simp only [Yields, block, reads_offset, reads_discard, reads_expect]
  intro _
  refine (Allows.repeatWhile (fun _ _ => tests_isNot) fun k hk _ =>
    Yields.unlessEnd rfl (hself.statement (by omega))).bind fun stmts cs k hk hstmts => ?_
  simp only [reads_discard, reads_expect, reads_spanFrom]
  exact fun _ => .pure fun hk' => ⟨by omega, _, (hstmts.mono (i := j) (by omega) (by omega)).frame
    Node.block (by simp) (by omega) hk'⟩

theorem yields_condition (hself : L.Good b self) (hb : b ≤ j + 1) :
    L.Yields j (fun _ => condition self) j := by
  simp only [Yields, condition, reads_discard, reads_expect]
  intro _
  refine (hself.expr (by omega)).bind fun x c k hk hx => ?_
  simp only [reads_discard, reads_expect]
  exact fun _ => .pure fun _ => ⟨by omega, c, hx.mono (by omega) (by omega)⟩

/-! ### Local declarations -/

theorem isBare_erase (t : TypeRef) : t.erase.isBare = t.isBare := by
  simp [TypeRef.isBare]

/-- A plain `var` is no type, with or without spans. -/
theorem yields_localVars (hself : L.Good b self) (hb : b ≤ j + 1) (hij : i ≤ j)
    {t : ω → TypeRef} {c : TypeRef} (ht : L.Laid i j t c) :
    L.Yields i (fun w => localVars self (t w)) j := by
  refine (Yields.separated fun k hk => yields_varDeclarator hself (by omega)).bind
    fun vars cs k hk hvars => ?_
  have hname (w : ω) : (t w).name = c.name := by simp [← ht.erase w]
  have hbare (w : ω) : (t w).isBare = c.isBare := by simp [← ht.erase w, isBare_erase]
  obtain ⟨d, hd⟩ := ht.keptUnless ((c.name == "var" && c.isBare) = true)
  simp only [hname, hbare]
  exact .pure fun _ => ⟨hk, _, hd.andThen hvars hij (by omega)⟩

/-- The node of a local declaration with its variables. -/
theorem Laid.localDecl {x : ω → Option TypeRef × List (VarDeclarator Node)}
    {c : Option TypeRef × List (VarDeclarator Node)} (hx : L.Laid j k x c) (hjk : j < k)
    (hk : k ≤ L.size) (isConst isRef : Bool) :
    ∃ b, L.Laid j k (fun w =>
      Node.localDecl ⟨L.start w j, L.behind w k⟩ (x w).1 isConst isRef (x w).2) b :=
  ⟨_, hx.frame (fun s x => Node.localDecl s x.1 isConst isRef x.2) (by simp) hjk hk⟩

theorem yields_localDeclHead (hself : L.Good b self) (hb : b ≤ j + 1) (hij : i ≤ j)
    (isConst : Bool) :
    L.Yields i (fun w => localDeclHead self (L.start w i) isConst) j := by
  refine (yields_type hself hb).bind fun t c k hk ht => ?_
  refine (yields_localVars hself (by omega) (i := i) (by omega)
    (ht.mono hij (Nat.le_refl k))).bind fun x d l hl hx => ?_
  simp only [reads_spanFrom]
  exact .pure fun hl' => ⟨by omega, hx.localDecl (by omega) hl' isConst false⟩

theorem yields_localDeclBefore (hself : L.Good b self) (hb : b ≤ j + 1) (closing : String) :
    L.Yields j (fun _ => localDeclBefore self closing) j := by
  simp only [Yields, localDeclBefore, reads_offset]
  refine (yields_localDeclHead hself hb (Nat.le_refl j) false).bind fun x c k hk hx => ?_
  simp only [reads_is, reads_ite]
  exact ⟨fun _ => .pure fun _ => ⟨hk, c, hx⟩, fun _ => reads_fail (by simp)⟩

theorem uniform_acceptRef : L.Reads (fun _ => acceptRef) j fun a k => j ≤ k ∧ Uniform a := by
  simp only [acceptRef, reads_accept, if_true, Bool.false_eq_true, if_false, reads_discard]
  refine ⟨fun _ => ⟨fun _ => ?_, fun _ => ?_⟩, fun _ => ?_⟩
  all_goals exact .pure fun _ => ⟨by omega, _, rfl⟩

theorem reads_acceptScoped :
    L.Reads (fun _ => acceptIf do return (← isWord "scoped") && (← peek 1).kind != .punct) j
      fun _ k => j ≤ k := by
  rw [reads_iff_bind_pure]
  simp only [acceptIf_bind, bind_assoc, pure_bind, reads_isWord, reads_peek, token_kind]
  rw [reads_ite_advance fun h => L.lt_size_of_isWord (Bool.and_eq_true_iff.mp h).1]
  exact ⟨fun _ => .pure fun _ => Nat.le_succ j, fun _ => .pure fun _ => Nat.le_refl j⟩

/-- A local function is told by the bracket behind its name. -/
theorem yields_localDeclOrFunc (hself : L.Good b self) (hb : b ≤ j + 1) :
    L.Yields j (fun _ => localDeclOrFunc self) j := by
  simp only [Yields, localDeclOrFunc, reads_offset]
  refine uniform_acceptRef.bindUniform fun isRef k hk => ?_
  rw [reads_discard]
  refine reads_acceptScoped.bind fun _ l hl => ?_
  rw [reads_current]
  refine (allows_optionalAttributes hself (by omega)).bind fun as cs m hm has => ?_
  refine reads_modifiers.bindUniform fun mods n hn => ?_
  refine (yields_type hself (by omega)).bind fun t c o ho ht => ?_
  -- Only the name of the type is tested, which is the same in all layouts.
  have hname (w : ω) : (t w).name = c.name := by simp [← ht.erase w]
  simp only [reads_isIdent, hname]
  rw [reads_ite]
  refine ⟨fun _ => reads_fail_bind (by simp), fun hident => ?_⟩
  have ho' : o < L.size := L.lt_size_of_isIdent (by simp_all)
  have ht : L.Laid j o t c := ht.mono (by omega) (Nat.le_refl o)
  simp only [reads_peekIs]
  rw [reads_ite]
  refine ⟨fun _ => ?_, fun _ => ?_⟩
  · simp only [reads_advance ho', token_text]
    have hheads : L.Heads j (o + 1) fun w => ⟨L.start w j, (L.token w l).doc, as w, mods⟩ :=
      .intro (has.mono (by omega) (by omega)) _ mods
    refine (yields_methodRest hself (by omega) (by omega) hheads
      (ht.mono (Nat.le_refl j) (Nat.le_succ o)) _ _ "").bind fun f d p hp hf => ?_
    rw [reads_spanFrom]
    exact .pure fun hp' => ⟨by omega, _, hf.frame Node.localFunc (by simp) (by omega) hp'⟩
  rw [reads_ite]
  refine ⟨fun _ => reads_fail_bind (by simp), fun _ => ?_⟩
  simp only [reads_peekIs]
  rw [reads_ite]
  refine ⟨fun _ => reads_fail_bind (by simp), fun _ => ?_⟩
  refine (yields_localVars hself (by omega) (by omega) ht).bind fun x d p hp hx => ?_
  simp only [reads_discard, reads_expect, reads_spanFrom]
  exact fun _ => .pure fun hp' => ⟨by omega,
    (hx.mono (Nat.le_refl j) (Nat.le_succ p)).localDecl (by omega) hp' false isRef⟩

/-! ### Loops and branches -/

theorem yields_ifStmt (hself : L.Good b self) (hb : b ≤ j + 1) :
    L.Yields j (fun _ => ifStmt self) j := by
  simp only [Yields, ifStmt, reads_offset, reads_discard, reads_expect]
  intro _
  refine (yields_condition hself (by omega)).bind fun cond c k hk hcond => ?_
  refine (hself.statement (by omega)).bind fun thenBranch d l hl hthen => ?_
  refine (Allows.optionalPart tests_accept (Nat.le_succ l) fun _ =>
    (hself.statement (by omega)).allows).bind fun elseBranch e m hm helse => ?_
  rw [reads_spanFrom]
  have hparts := hcond.andThen (hthen.andThen helse (by omega) (by omega)) (by omega) (by omega)
  exact .pure fun hm' => ⟨by omega, _, (hparts.mono (i := j) (by omega) (Nat.le_refl m)).frame
    (fun s x => Node.ifStmt s x.1 x.2.1 x.2.2) (by simp) (by omega) hm'⟩

theorem yields_forInitExpr (hself : L.Good b self) (hb : b ≤ j) :
    L.Yields j (fun _ => forInitExpr self) j := by
  simp only [Yields, forInitExpr, reads_offset]
  refine (hself.expr hb).bind fun x c k hk hx => ?_
  rw [reads_spanFrom]
  exact .pure fun hk' => ⟨hk, _, hx.frame Node.exprStmt (by simp) hk hk'⟩

theorem allows_forInit (hself : L.Good b self) (hb : b ≤ j) :
    L.Allows j (fun _ => forInit self) j := by
  simp only [Allows, forInit, reads_is, reads_ite]
  refine ⟨fun _ => .pure fun _ => ⟨Nat.le_refl j, _, .nil⟩, fun _ => ?_⟩
  refine (yields_localDeclBefore hself (by omega) ";").attempt.bind ?_ fun decl c k hk hdecl => ?_
  · exact (Yields.separated fun k hk => yields_forInitExpr hself (by omega)).allows
  · exact .pure fun _ => ⟨by omega, _, hdecl.cons .nil⟩

/-- The three parts of the head may be missing, each by itself. -/
theorem yields_forStmt (hself : L.Good b self) (hb : b ≤ j + 1) :
    L.Yields j (fun _ => forStmt self) j := by
  simp only [Yields, forStmt, reads_offset, reads_discard, reads_expect]
  intro _ _
  refine (allows_forInit hself (by omega)).bind fun init cs k hk hinit => ?_
  simp only [reads_discard, reads_expect]
  intro _
  refine (Allows.optionalPart tests_isNot (Nat.le_refl _) fun _ =>
    (hself.expr (by omega)).allows).bind fun cond c l hl hcond => ?_
  simp only [reads_discard, reads_expect]
  intro _
  refine (Allows.listUntil fun m hm => hself.expr (by omega)).bind fun post ds m hm hpost => ?_
  simp only [reads_discard, reads_expect]
  intro _
  refine (hself.statement (by omega)).bind fun body d n hn hbody => ?_
  rw [reads_spanFrom]
  have hparts := hinit.andThen (hcond.andThen (hpost.andThen hbody (by omega) (by omega))
    (by omega) (by omega)) (by omega) (by omega)
  exact .pure fun hn' => ⟨by omega, _, (hparts.mono (i := j) (by omega) (Nat.le_refl n)).frame
    (fun s x => Node.forStmt s x.1 x.2.1 x.2.2.1 x.2.2.2) (by simp) (by omega) hn'⟩

/-! ### Names that are source text -/

/-- Text that starts with a parenthesis is erased but for it. -/
theorem eraseVariable_text {bs : List UInt8} (h : bs[0]? = some (Lexer.ascii '(')) :
    eraseVariable (Text.Utf8.text bs) = "(" := by
  cases bs with
  | nil => simp at h
  | cons b bs =>
    have hb : b = Lexer.ascii '(' := by simpa using h
    rw [eraseVariable, hb, Text.Utf8.text_cons_ascii (by decide)]
    rfl

/-- The variable of a loop is source text, which may differ in what stands between its
tokens. Erased, it is the same in all layouts. -/
theorem reads_foreachVar :
    L.Reads (fun _ => foreachVar) j fun v k => j < k ∧ ∃ name, ∀ w, eraseVariable (v w).1 = name := by
  simp only [foreachVar, reads_offset, reads_is, reads_ite]
  refine ⟨fun hparen => ?_, fun _ => ?_⟩
  · have hj := L.lt_size_of_is hparen
    refine Reads.skipBalanced.bind fun _ k hk => ?_
    simp only [reads_spanFrom, sourceText, bind_assoc, pure_bind, reads_read]
    refine .pure fun hk' => ⟨hk, "(", fun w => eraseVariable_text ?_⟩
    have hsource := L.source_paren w _ (L.token_mem hj) (by simpa using hparen)
    have hlt := L.start_lt_behind_of_lt w hk hk'
    rw [List.getElem?_take_of_lt (by omega), List.getElem?_drop]
    exact hsource
  · simp only [reads_identText, reads_spanFrom]
    exact fun _ => .pure fun _ => ⟨by omega, eraseVariable (L.lexeme j).text, fun _ => rfl⟩

theorem yields_foreachStmt (hself : L.Good b self) (hb : b ≤ j + 1) (hij : i ≤ j)
    (isAwait : Bool) : L.Yields i (fun w => foreachStmt self (L.start w i) isAwait) j := by
  simp only [Yields, foreachStmt, reads_discard, reads_expect]
  intro _ _
  refine (yields_type hself (by omega)).bind fun t c k hk ht => ?_
  -- The word `var` stands for no type, which all layouts agree on.
  have hname (w : ω) : (t w).name = c.name := by simp [← ht.erase w]
  have hargs (w : ω) : (t w).args.isEmpty = c.args.isEmpty := by simp [← ht.erase w]
  obtain ⟨d, hd⟩ := ht.keptUnless ((c.name == "var" && c.args.isEmpty) = true)
  refine reads_foreachVar.bind fun v l hread => ?_
  obtain ⟨hl, name, hname'⟩ := hread
  simp only [reads_discard, reads_expect]
  intro _
  refine (hself.expr (by omega)).bind fun collection e m hm hcollection => ?_
  simp only [reads_discard, reads_expect]
  intro _
  refine (hself.statement (by omega)).bind fun body f n hn hbody => ?_
  simp only [hname, hargs, reads_spanFrom]
  have hparts := (hd.andThen (hcollection.andThen hbody (by omega) (by omega)) (by omega)
    (by omega)).mono (i := i) (by omega) (Nat.le_refl n)
  refine .pure fun hn' => ⟨by omega, _, Laid.node (m := .foreachStmt .none d name .none e f isAwait)
    (fun _ => rfl) (fun w x hx => .inr (hparts.fits w x ?_)) (fun _ => ?_) (fun w => ?_) (by omega)
    hn'⟩
  · simpa using hx
  · trivial
  · have := hparts.erase w
    simp_all

/-! ### Switches -/

theorem tests_atCaseLabel : L.Tests atCaseLabel j j (j < L.size) := by
  rw [Tests, reads_iff_bind_pure]
  simp only [atCaseLabel, bind_assoc, pure_bind, reads_is, reads_peekIs]
  refine tests_pure.imp fun h => ?_
  rcases Bool.or_eq_true_iff.mp h with h | h
  · exact L.lt_size_of_is h
  · exact L.lt_size_of_is (Bool.and_eq_true_iff.mp h).1

theorem tests_inSection :
    L.Tests (do return !(← atCaseLabel) && !(← is closeBrace)) j j True := by
  refine Reads.bind tests_atCaseLabel fun c k hc => ?_
  rw [reads_iff_bind_pure]
  rcases hc with ⟨rfl, rfl, -⟩ | ⟨rfl, rfl⟩
  all_goals
    simp only [bind_assoc, pure_bind, reads_is]
    exact tests_pure.imp fun _ => trivial

theorem yields_casePattern (hself : L.Good b self) (hb : b ≤ j + 1) :
    L.Yields j (fun _ => casePattern self) j := by
  refine (yields_type hself hb).bind fun t c k hk ht => ?_
  simp only [reads_identText, reads_is, reads_isWord, reads_ite]
  exact fun _ => ⟨fun _ => .pure fun _ => ⟨by omega, _, ht.andThen (.text _) (Nat.le_refl j)
    (Nat.le_succ k)⟩, fun _ => reads_fail (by simp)⟩

/-- A label holds a declaration where one can be read, and another pattern otherwise. -/
theorem yields_caseLabel (hself : L.Good b self) (hb : b ≤ j + 1) :
    L.Yields j (fun _ => caseLabel self) j := by
  simp only [Yields, caseLabel, reads_offset, reads_accept, if_true, Bool.false_eq_true, if_false,
    reads_discard, reads_expect, reads_spanFrom]
  refine ⟨fun _ _ => .pure fun hj => ⟨by omega, _, Laid.unit.frame
    (fun s _ => Node.caseLabel s none none "" none) (by simp) (by omega) hj⟩, fun _ _ => ?_⟩
  refine (yields_casePattern hself (by omega)).attempt.allows.bind fun declared d k hk hdeclared => ?_
  -- Whether a declaration was read, and under which name, is the same in all layouts.
  have hnone (w : ω) : (declared w).isNone = d.isNone := by simp [← hdeclared.erase w]
  have hname (w : ω) : ((declared w).map (·.2)).getD "" = (d.map (·.2)).getD "" := by
    rw [← hdeclared.erase w]
    cases declared w <;> rfl
  have htype : L.Laid (j + 1) k (fun w => (declared w).map (·.1)) (d.map (·.1)) := by
    refine hdeclared.map (f := Option.map (·.1)) (fun w o ho n hn => ho n ?_) fun o => ?_
    · cases o <;> simp_all
    · cases o <;> rfl
  simp only [hnone, hname]
  refine (Allows.optionalPart tests_pure (Nat.le_refl k) fun _ =>
    (hself.pattern (by omega)).allows).bind fun value e l hl hvalue => ?_
  refine (Allows.optionalPart tests_acceptWord (Nat.le_succ l) fun _ =>
    (hself.expr (by omega)).allows).bind fun guard f m hm hguard => ?_
  simp only [reads_discard, reads_expect, reads_spanFrom]
  have hparts := htype.andThen (hvalue.andThen hguard (by omega) (by omega)) (by omega) (by omega)
  exact fun _ => .pure fun hm' => ⟨by omega, _, (hparts.mono (i := j) (by omega)
    (Nat.le_succ m)).frame (fun s x => Node.caseLabel s x.2.1 x.1 _ x.2.2)
    { span _ _ := rfl, parts _ _ c := by simp; grind, chained _ _ := by simp,
      erase _ _ := by simp } (by omega) hm'⟩

theorem yields_switchSection (hself : L.Good b self) (hb : b ≤ j + 1) :
    L.Yields j (fun _ => switchSection self) j := by
  simp only [Yields, switchSection, reads_offset]
  refine (Yields.repeatWhile (fun _ _ => tests_atCaseLabel) fun k hk _ =>
    yields_caseLabel hself (by omega)).bind fun labels k hread => ?_
  obtain ⟨hlabels, hk, cs, hcs⟩ := hread
  rcases hlabels with rfl | hjk
  · exact reads_failAt_bind (by simp)
  have hempty (w : ω) : (labels w).isEmpty = cs.isEmpty := by simp [← hcs.erase w]
  simp only [hempty]
  rw [reads_ite]
  refine ⟨fun _ => reads_failAt_bind (by simp), fun _ => ?_⟩
  refine (Allows.repeatWhile (fun _ _ => tests_inSection) fun l hl _ =>
    Yields.unlessEnd rfl (hself.statement (by omega))).bind fun stmts ds l hl hstmts => ?_
  rw [reads_spanFrom]
  exact .pure fun hl' => ⟨by omega, _, (hcs.andThen hstmts (by omega) (by omega)).frame
    (fun s x => Node.switchSection s x.1 x.2) (by simp) (by omega) hl'⟩

theorem yields_switchTag (hself : L.Good b self) (hb : b ≤ j) :
    L.Yields j (fun _ => switchTag self) j := by
  simp only [Yields, switchTag, reads_is, reads_ite]
  exact ⟨fun _ => yields_primary hself (by omega), fun _ => hself.expr hb⟩

theorem yields_switchStmt (hself : L.Good b self) (hb : b ≤ j + 1) :
    L.Yields j (fun _ => switchStmt self) j := by
  simp only [Yields, switchStmt, reads_offset, reads_discard, reads_expect]
  intro _
  refine (yields_switchTag hself (by omega)).bind fun tag c k hk htag => ?_
  simp only [reads_discard, reads_expect]
  intro _
  refine (Allows.repeatWhile (fun _ _ => tests_isNot) fun l hl _ =>
    Yields.unlessEnd rfl (yields_switchSection hself (by omega))).bind
    fun sections cs l hl hsections => ?_
  simp only [reads_discard, reads_expect, reads_spanFrom]
  have hparts := htag.andThen hsections (by omega) (by omega)
  exact fun _ => .pure fun hl' => ⟨by omega, _, (hparts.mono (i := j) (by omega)
    (Nat.le_succ l)).frame (fun s x => Node.switchStmt s x.1 x.2) (by simp) (by omega) hl'⟩

/-! ### Resources and exceptions -/

/-- A resource in parentheses is declared there or is an expression. One without is
declared. -/
theorem yields_usingStmt (hself : L.Good b self) (hb : b ≤ j + 1) (hij : i ≤ j) (isAwait : Bool) :
    L.Yields i (fun w => usingStmt self (L.start w i) isAwait) j := by
  simp only [Yields, usingStmt, reads_discard, reads_expect, reads_accept, if_true,
    Bool.false_eq_true, if_false]
  refine fun _ => ⟨fun _ => ?_, fun _ => ?_⟩
  · refine (yields_localDeclBefore hself (by omega) ")").attempt.allows.bind fun decl c k hk hdecl => ?_
    -- Whether a declaration was read is the same in all layouts.
    have hnone (w : ω) : (decl w).isNone = c.isNone := by simp [← hdecl.erase w]
    simp only [hnone]
    refine (Allows.optionalPart tests_pure (Nat.le_refl k) fun _ =>
      (hself.expr (by omega)).allows).bind fun resource d l hl hresource => ?_
    simp only [reads_discard, reads_expect]
    intro _
    refine (hself.statement (by omega)).bind fun body e m hm hbody => ?_
    rw [reads_spanFrom]
    have hparts := hdecl.andThen (hresource.andThen hbody (by omega) (by omega)) (by omega)
      (by omega)
    exact .pure fun hm' => ⟨by omega, _, (hparts.mono (i := i) (by omega) (Nat.le_refl m)).frame
      (fun s x => Node.usingStmt s x.1 x.2.1 (some x.2.2) isAwait) (by simp) (by omega) hm'⟩
  · rw [reads_offset]
    refine (yields_localDeclHead hself (by omega) (Nat.le_refl _) false).bind
      fun decl c k hk hdecl => ?_
    simp only [reads_discard, reads_expect, reads_spanFrom]
    exact fun _ => .pure fun hk' => ⟨by omega, _, (hdecl.mono (i := i) (by omega)
      (Nat.le_succ k)).frame (fun s x => Node.usingStmt s (some x) none none isAwait) (by simp)
      (by omega) hk'⟩

theorem allows_caught (hself : L.Good b self) (hb : b ≤ j + 1) :
    L.Allows j (fun _ => caught self) j := by
  simp only [Allows, caught, reads_accept, if_true, Bool.false_eq_true, if_false]
  refine ⟨fun _ => ?_, fun _ => .pure fun _ => ⟨Nat.le_refl j, _, Laid.none.pair (.text "")⟩⟩
  refine (yields_type hself (by omega)).bind fun t c k hk ht => ?_
  refine uniform_optionalIdent.bindUniform fun name l hl => ?_
  simp only [reads_discard, reads_expect]
  exact fun _ => .pure fun _ => ⟨by omega, _,
    (ht.some.pair (.text name)).mono (by omega) (by omega)⟩

theorem yields_catchClause (hself : L.Good b self) (hb : b ≤ j + 1) (h : j < L.size) :
    L.Yields j (fun _ => catchClause self) j := by
  simp only [Yields, catchClause, reads_offset, reads_discard, reads_advance h]
  refine (allows_caught hself (by omega)).bind fun t c k hk ht => ?_
  refine (Allows.optionalPart tests_acceptWord (Nat.le_succ k) fun _ =>
    (yields_condition hself (by omega)).allows).bind fun filter d l hl hfilter => ?_
  refine (yields_block hself (by omega)).bind fun body e m hm hbody => ?_
  have hname (w : ω) : (t w).2 = c.2 := ht.snd.erase w
  simp only [hname, reads_spanFrom]
  have hparts := ht.fst.andThen (hfilter.andThen hbody (by omega) (by omega)) (by omega) (by omega)
  exact .pure fun hm' => ⟨by omega, _, (hparts.mono (i := j) (by omega) (Nat.le_refl m)).frame
    (fun s x => Node.catchClause s x.1 c.2 x.2.1 x.2.2) (by simp) (by omega) hm'⟩

theorem yields_tryStmt (hself : L.Good b self) (hb : b ≤ j + 1) :
    L.Yields j (fun _ => tryStmt self) j := by
  simp only [Yields, tryStmt, reads_offset, reads_discard, reads_expect]
  intro _
  refine (yields_block hself (by omega)).bind fun body c k hk hbody => ?_
  refine (Allows.repeatWhile (fun _ _ => tests_is) fun l hl h =>
    yields_catchClause hself (by omega) (L.lt_size_of_is h)).bind fun catches cs l hl hcatches => ?_
  refine (Allows.optionalPart tests_accept (Nat.le_succ l) fun _ =>
    (yields_block hself (by omega)).allows).bind fun finallyBlock d m hm hfinally => ?_
  have hempty (w : ω) : (catches w).isEmpty = cs.isEmpty := by simp [← hcatches.erase w]
  have hnone (w : ω) : (finallyBlock w).isNone = d.isNone := by simp [← hfinally.erase w]
  simp only [hempty, hnone]
  rw [reads_ite]
  refine ⟨fun _ => reads_fail_bind (by simp), fun _ => ?_⟩
  rw [reads_spanFrom]
  have hparts := hbody.andThen (hcatches.andThen hfinally (by omega) (by omega)) (by omega)
    (by omega)
  exact .pure fun hm' => ⟨by omega, _, (hparts.mono (i := j) (by omega) (Nat.le_refl m)).frame
    (fun s x => Node.tryStmt s x.1 x.2.1 x.2.2) (by simp) (by omega) hm'⟩

/-! ### Jumps -/

theorem allows_optionalExpr (hself : L.Good b self) (hb : b ≤ j) :
    L.Allows j (fun _ => optionalExpr self) j :=
  .optionalPart tests_isNot (Nat.le_refl j) fun _ => (hself.expr hb).allows

/-- A label that is kept as source text is erased but for its keyword. -/
theorem eraseLabel_case (s : String) : eraseLabel ("case " ++ s) = "case " := by
  simp [eraseLabel]

/-- The label of a jump is source text as well. -/
theorem reads_gotoLabel (hself : L.Good b self) (hb : b ≤ j + 1) :
    L.Reads (fun _ => gotoLabel self) j fun a k =>
      j < k ∧ ∃ label, ∀ w, eraseLabel (a w) = label := by
  simp only [gotoLabel, reads_accept, if_true, Bool.false_eq_true, if_false]
  refine ⟨fun _ => ?_, fun _ => ⟨fun _ => ?_, fun _ => ?_⟩⟩
  · refine (hself.expr (by omega)).bind fun x c k hk hx => ?_
    simp only [sourceText, bind_assoc, pure_bind, reads_read]
    exact .pure fun _ => ⟨by omega, _, fun w => eraseLabel_case _⟩
  · exact .pure fun _ => ⟨by omega, eraseLabel "default", fun _ => rfl⟩
  · rw [reads_iff_bind_pure, reads_identText]
    exact fun _ => .pure fun _ => ⟨by omega, eraseLabel (L.lexeme j).text, fun _ => rfl⟩

theorem yields_gotoStmt (hself : L.Good b self) (hb : b ≤ j + 1) (h : j < L.size) :
    L.Yields j (fun _ => gotoStmt self) j := by
  simp only [Yields, gotoStmt, reads_offset, reads_discard, reads_advance h]
  refine (reads_gotoLabel hself (by omega)).bind fun a k hread => ?_
  obtain ⟨hk, label, hlabel⟩ := hread
  simp only [reads_discard, reads_expect, reads_spanFrom]
  refine fun _ => .pure fun hk' => ⟨by omega, _, Laid.node (m := .gotoStmt .none label)
    (fun _ => rfl) (fun w c hc => ?_) (fun _ => ?_) (fun w => ?_) (by omega) hk'⟩
  · simp at hc
  · trivial
  · simp [hlabel]

theorem yields_yieldStmt (hself : L.Good b self) (hb : b ≤ j + 1) (h : j < L.size) :
    L.Yields j (fun _ => yieldStmt self) j := by
  simp only [Yields, yieldStmt, reads_offset, reads_discard, reads_advance h]
  refine uniform_accept.bindUniform fun isBreak k hk => ?_
  refine (Allows.optionalPart tests_pure (Nat.le_refl k) fun _ => ?_).bind fun x c l hl hx => ?_
  · simp only [Allows, yielded, reads_discard, reads_expect]
    refine fun _ => Reads.imp (hself.expr (j := k + 1) (by omega)) fun _ l _ hread => ?_
    obtain ⟨hl, c, hx⟩ := hread
    exact ⟨by omega, c, hx.mono (Nat.le_succ k) (Nat.le_refl l)⟩
  · simp only [reads_discard, reads_expect, reads_spanFrom]
    exact fun _ => .pure fun hl' => ⟨by omega, _, (hx.mono (i := j) (by omega) (Nat.le_succ l)).frame
      (fun s x => Node.yieldStmt s isBreak x) (by simp) (by omega) hl'⟩

/-! ### Statements -/

/-- A statement that is a keyword and a semicolon. -/
theorem mayYield_wordStmt (h : j < L.size) (mk : Span → Unit → Node) (hmk : Frames mk) :
    L.MayYield j (fun w => do
      discard advance
      discard <| expect ";"
      return some (mk (← spanFrom (L.start w j)) ())) j := by
  simp only [MayYield, reads_discard, reads_advance h, reads_expect, reads_spanFrom]
  exact fun _ => .pure fun hj => .some ⟨by omega, _, Laid.unit.frame mk hmk (by omega) hj⟩

/-- A statement that is a keyword, perhaps an expression, and a semicolon. -/
theorem mayYield_valueStmt (hself : L.Good b self) (hb : b ≤ j + 1) (h : j < L.size)
    (mk : Span → Option Node → Node) (hmk : Frames mk) :
    L.MayYield j (fun w => do
      discard advance
      let x ← optionalExpr self
      discard <| expect ";"
      return some (mk (← spanFrom (L.start w j)) x)) j := by
  simp only [MayYield, reads_discard, reads_advance h]
  refine (allows_optionalExpr hself (by omega)).bind fun x c k hk hx => ?_
  simp only [reads_discard, reads_expect, reads_spanFrom]
  exact fun _ => .pure fun hk' => .some ⟨by omega, _, (hx.mono (i := j) (by omega)
    (Nat.le_succ k)).frame mk hmk (by omega) hk'⟩

/-- A statement that is a keyword, a condition and a body. -/
theorem mayYield_conditionStmt (hself : L.Good b self) (hb : b ≤ j + 1) (h : j < L.size)
    (mk : Span → Node × Node → Node) (hmk : Frames mk) :
    L.MayYield j (fun w => do
      discard advance
      let cond ← condition self
      let body ← self.statement
      return some (mk (← spanFrom (L.start w j)) (cond, body))) j := by
  simp only [MayYield, reads_discard, reads_advance h]
  refine (yields_condition hself (by omega)).bind fun cond c k hk hcond => ?_
  refine (hself.statement (by omega)).bind fun body d l hl hbody => ?_
  rw [reads_spanFrom]
  exact .pure fun hl' => .some ⟨by omega, _, ((hcond.andThen hbody (by omega) (by omega)).mono
    (i := j) (by omega) (Nat.le_refl l)).frame mk hmk (by omega) hl'⟩

theorem mayYield_doStmt (hself : L.Good b self) (hb : b ≤ j + 1) (h : j < L.size) :
    L.MayYield j (fun w => do
      discard advance
      let body ← self.statement
      discard <| expect "while"
      let cond ← condition self
      discard <| expect ";"
      return some (Node.doStmt (← spanFrom (L.start w j)) body cond)) j := by
  simp only [MayYield, reads_discard, reads_advance h]
  refine (hself.statement (by omega)).bind fun body c k hk hbody => ?_
  simp only [reads_discard, reads_expect]
  intro _
  refine (yields_condition hself (by omega)).bind fun cond d l hl hcond => ?_
  simp only [reads_discard, reads_expect, reads_spanFrom]
  have hparts := hbody.andThen hcond (by omega) (by omega)
  exact fun _ => .pure fun hl' => .some ⟨by omega, _, (hparts.mono (i := j) (by omega)
    (Nat.le_succ l)).frame (fun s x => Node.doStmt s x.1 x.2) (by simp) (by omega) hl'⟩

theorem mayYield_checkedStmt (hself : L.Good b self) (hb : b ≤ j + 1) (h : j < L.size)
    (keyword : String) :
    L.MayYield j (fun w => do
      if ← peekIs 1 openBrace then
        discard advance
        let body ← block self
        return some (Node.checkedStmt (← spanFrom (L.start w j)) keyword body)
      else return none) j := by
  simp only [MayYield, reads_peekIs, reads_ite]
  refine ⟨fun _ => ?_, fun _ => .pure fun _ => .none rfl⟩
  rw [reads_discard, reads_advance h]
  refine (yields_block hself (by omega)).bind fun body c k hk hbody => ?_
  rw [reads_spanFrom]
  exact .pure fun hk' => .some ⟨by omega, _, (hbody.mono (i := j) (by omega) (Nat.le_refl k)).frame
    (fun s x => Node.checkedStmt s keyword x) (by simp) (by omega) hk'⟩

theorem mayYield_fixedStmt (hself : L.Good b self) (hb : b ≤ j + 1) (h : j < L.size) :
    L.MayYield j (fun w => do
      discard advance
      discard <| expect "("
      discard <| localDeclHead self (← offset) false
      discard <| expect ")"
      let body ← self.statement
      return some (Node.checkedStmt (← spanFrom (L.start w j)) "fixed" body)) j := by
  simp only [MayYield, reads_discard, reads_advance h, reads_expect, reads_offset]
  intro _
  refine (yields_localDeclHead hself (by omega) (Nat.le_refl _) false).bind fun _ _ k hk _ => ?_
  simp only [reads_discard, reads_expect]
  intro _
  refine (hself.statement (by omega)).bind fun body c l hl hbody => ?_
  rw [reads_spanFrom]
  exact .pure fun hl' => .some ⟨by omega, _, (hbody.mono (i := j) (by omega) (Nat.le_refl l)).frame
    (fun s x => Node.checkedStmt s "fixed" x) (by simp) (by omega) hl'⟩

theorem mayYield_constStmt (hself : L.Good b self) (hb : b ≤ j + 1) (h : j < L.size) :
    L.MayYield j (fun w => do
      discard advance
      let (ty, vars) ← localVars self (← type self)
      discard <| expect ";"
      return some (Node.localDecl (← spanFrom (L.start w j)) ty true false vars)) j := by
  simp only [MayYield, reads_discard, reads_advance h]
  refine (yields_type hself (by omega)).bind fun t c k hk ht => ?_
  refine (yields_localVars hself (by omega) (by omega) (ht.mono (i := j) (by omega)
    (Nat.le_refl k))).bind fun x d l hl hx => ?_
  simp only [reads_discard, reads_expect, reads_spanFrom]
  exact fun _ => .pure fun hl' => .some ⟨by omega,
    (hx.mono (Nat.le_refl j) (Nat.le_succ l)).localDecl (by omega) hl' true false⟩

/-- One case for each keyword. Where none of them stands, no token is consumed. -/
theorem mayYield_keywordStmt? (hself : L.Good b self) (hb : b ≤ j + 1) :
    L.MayYield j (fun _ => keywordStmt? self) j := by
  simp only [MayYield, keywordStmt?, reads_current, token_kind, token_text, reads_ite]
  refine ⟨fun _ => .pure fun _ => .none rfl, fun hkind => ?_⟩
  have h : j < L.size := L.lt_size_of_kind fun hk => by simp [hk] at hkind
  -- one case for each keyword, in the order of the definition
  split
  case h_1 => exact (yields_block hself hb).some
  case h_2 => exact (yields_token h (fun s _ => .emptyStmt s) (by simp)).some
  case h_3 => exact (yields_ifStmt hself hb).some
  case h_4 => exact (yields_forStmt hself hb).some
  case h_5 => exact (yields_foreachStmt hself hb (Nat.le_refl j) false).some
  case h_6 => exact mayYield_conditionStmt hself hb h (fun s x => .whileStmt s x.1 x.2) (by simp)
  case h_7 => exact mayYield_doStmt hself hb h
  case h_8 => exact (yields_switchStmt hself hb).some
  case h_9 => exact (yields_usingStmt hself hb (Nat.le_refl j) false).some
  case h_10 => exact (yields_tryStmt hself hb).some
  case h_11 => exact mayYield_valueStmt hself hb h Node.returnStmt (by simp)
  case h_12 => exact mayYield_wordStmt h (fun s _ => .breakStmt s) (by simp)
  case h_13 => exact mayYield_wordStmt h (fun s _ => .continueStmt s) (by simp)
  case h_14 => exact mayYield_valueStmt hself hb h Node.throwStmt (by simp)
  case h_15 => exact mayYield_conditionStmt hself hb h (fun s x => .lockStmt s x.1 x.2) (by simp)
  case h_16 => exact (yields_gotoStmt hself hb h).some
  case h_17 | h_18 | h_19 => exact mayYield_checkedStmt hself hb h _
  case h_20 => exact mayYield_fixedStmt hself hb h
  case h_21 => exact mayYield_constStmt hself hb h
  case h_22 => exact .pure fun _ => .none rfl

/-- One case for each word. Where none of them stands, no token is consumed. -/
theorem mayYield_wordStmt? (hself : L.Good b self) (hb : b ≤ j + 1) :
    L.MayYield j (fun _ => wordStmt? self) j := by
  simp only [MayYield, wordStmt?, reads_current, token_isIdent, token_text, reads_ite, reads_peekIs]
  refine ⟨fun _ => .pure fun _ => .none rfl, fun hident => ?_⟩
  have h : j < L.size := L.lt_size_of_isIdent (by simpa using hident)
  refine ⟨fun _ => (yields_yieldStmt hself hb h).some, fun _ => ⟨fun _ => ?_, fun _ =>
    ⟨fun _ => ?_, fun _ => ⟨fun hcolon => ?_, fun _ => .pure fun _ => .none rfl⟩⟩⟩⟩
  · rw [reads_discard, reads_advance h]
    refine (yields_foreachStmt hself (by omega) (Nat.le_succ j) true).bind fun x c k hk hx => ?_
    exact .pure fun _ => .some ⟨by omega, c, hx⟩
  · rw [reads_discard, reads_advance h]
    refine (yields_usingStmt hself (by omega) (Nat.le_succ j) true).bind fun x c k hk hx => ?_
    exact .pure fun _ => .some ⟨by omega, c, hx⟩
  · rw [reads_advanceBy (L.lt_size_of_is (Bool.and_eq_true_iff.mp hcolon).1)]
    refine (hself.statement (by omega)).bind fun x c k hk hx => ?_
    rw [reads_spanFrom]
    exact .pure fun hk' => .some ⟨by omega, _, (hx.mono (i := j) (by omega) (Nat.le_refl k)).frame
      (fun s x => Node.labeledStmt s (L.lexeme j).text x) (by simp) (by omega) hk'⟩

/-- What neither a keyword nor a word introduces is a declaration, if one can be read, and
an expression otherwise. -/
theorem yields_statement (hself : L.Good b self) (hb : b ≤ j + 1) :
    L.Yields j (fun _ => statement self) j := by
  simp only [Yields, statement, reads_offset]
  refine (mayYield_keywordStmt? hself hb).bind ?_ fun x c k hk hx => .pure fun _ => ⟨hk, c, hx⟩
  refine (mayYield_wordStmt? hself hb).bind ?_ fun x c k hk hx => .pure fun _ => ⟨hk, c, hx⟩
  refine (yields_localDeclOrFunc hself hb).attempt.bind ?_
    fun x c k hk hx => .pure fun _ => ⟨hk, c, hx⟩
  refine (yields_expr hself hb).bind fun x c k hk hx => ?_
  simp only [reads_discard, reads_expect, reads_spanFrom]
  exact fun _ => .pure fun hk' => ⟨by omega, _, (hx.mono (Nat.le_refl j) (Nat.le_succ k)).frame
    Node.exprStmt (by simp) (by omega) hk'⟩

end Layouts

end CSharpAudit
