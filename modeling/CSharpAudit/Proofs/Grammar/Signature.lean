import CSharpAudit.Grammar.Signature
import CSharpAudit.Proofs.Grammar.Expression

/-!
# Headers and bodies in all layouts

## Main definitions

* `Layouts.Heads` — a header that was read from a given token on

## Main results

* `Layouts.reads_header` — attributes and modifiers
* `Layouts.allows_constraints` — constraint clauses
* `Layouts.yields_body` — the body of a member
* `Layouts.yields_methodRest` — a method from behind its name
-/

namespace CSharpAudit

open Grammar

attribute [local simp] frames_iff Layered.nodes Layered.erase NodeKind.node NodeKind.erase
  Node.nodesBelow Node.children Node.unvisitedNodes Node.span Node.Synthesises Node.ChainedInside
  Node.erase flatMap_singleton_eq_map

instance : Layered Header :=
  ⟨fun h => Layered.nodes h.attributes,
    fun h => ⟨0, "", Layered.erase h.attributes, h.modifiers⟩⟩

instance : Layered Body :=
  ⟨fun b => Layered.nodes (b.block, b.expr),
    fun b => ⟨Layered.erase b.block, Layered.erase b.expr⟩⟩

namespace Layouts

variable {ω : Type} {L : Layouts ω} {i j k b : Nat} {self : Rules}

/-! ### Modifiers -/

/-- Whether a declaration goes on is told by the tokens alone. -/
theorem continuesDeclaration_token (w : ω) (j k : Nat) :
    continuesDeclaration (L.token w j) (L.token w k) =
      continuesDeclaration (L.lexeme j) (L.lexeme k) := by
  simp [continuesDeclaration]

/-- A modifier is the same in all layouts. -/
theorem reads_modifier? :
    L.Reads (fun _ => modifier?) j fun o k =>
      k = j ∧ ∃ m : Option Modifier, (o = fun _ => m) ∧ (m.isSome → j < L.size) := by
  simp only [modifier?, reads_current, token_kind, token_text, token_isIdent, reads_peek,
    continuesDeclaration_token, reads_ite]
  refine ⟨fun h => ?_, fun _ => ⟨fun h => ?_, fun _ => ?_⟩⟩
  · have hj : j < L.size := L.lt_size_of_kind fun hk => by simp [hk] at h
    split
    · simp only [reads_peekIs]
      exact .pure fun _ => ⟨rfl, _, rfl, fun _ => hj⟩
    · exact .pure fun _ => ⟨rfl, _, rfl, fun _ => hj⟩
  · have hj : j < L.size := L.lt_size_of_isIdent (by simp_all)
    exact .pure fun _ => ⟨rfl, _, rfl, fun _ => hj⟩
  · exact .pure fun _ => ⟨rfl, none, rfl, by simp⟩

/-- Modifiers are the same in all layouts. -/
theorem reads_modifiers : L.Reads (fun _ => modifiers) j fun a k => j ≤ k ∧ Uniform a := by
  refine Reads.extend (P := fun a _ => Uniform a) ?_ ⟨_, rfl⟩
  rintro - k - ⟨mods, rfl⟩
  refine reads_modifier?.bind ?_
  rintro - l ⟨rfl, m, rfl, hm⟩
  cases m with
  | none => exact .pure fun _ => .none rfl
  | some m =>
    simp only [reads_discard, reads_advance (hm rfl)]
    exact .pure fun _ => .some ⟨by omega, _, rfl⟩

/-! ### Headers -/

variable (L) in
/-- Headers that were read from the token at `i` to the one before `j`. -/
def Heads (i j : Nat) (h : ω → Header) : Prop :=
  (∃ c, L.Laid i j h c) ∧ ∀ w, (h w).start = L.start w i

/-- A header is made of attributes that are laid and of modifiers. -/
theorem Heads.intro {as : ω → List (Attribute Node)} {cs : List (Attribute Node)}
    (has : L.Laid i j as cs) (doc : ω → String) (mods : Modifiers) :
    L.Heads i j fun w => ⟨L.start w i, doc w, as w, mods⟩ :=
  ⟨⟨⟨0, "", cs, mods⟩, has.fits, fun w => by rw [← has.erase w]; rfl⟩, fun _ => rfl⟩

theorem Heads.mono {h : ω → Header} (hh : L.Heads i j h) (hjk : j ≤ k) : L.Heads i k h := by
  obtain ⟨⟨c, hc⟩, hstart⟩ := hh
  exact ⟨⟨c, hc.mono (Nat.le_refl i) hjk⟩, hstart⟩

/-- A header is laid from its first token on. Its documentation is no part of the tree
without layout. -/
theorem reads_header (hself : L.Good b self) (hb : b ≤ j + 1) :
    L.Reads (fun _ => header self) j fun h k => j ≤ k ∧ L.Heads j k h := by
  simp only [header, reads_current]
  refine (allows_optionalAttributes hself hb).bind fun as cs k hk has => ?_
  rw [reads_current]
  refine reads_modifiers.bindUniform fun mods l hl => ?_
  exact .pure fun _ => ⟨by omega, .intro (has.mono (Nat.le_refl j) hl) _ mods⟩

/-! ### Type parameters and constraints -/

theorem yields_typeParam (hself : L.Good b self) (hb : b ≤ j + 1) :
    L.Yields j (fun _ => typeParam self) j := by
  simp only [Yields, typeParam, reads_offset]
  refine (Reads.skipIf tests_is (Nat.le_refl j) (fun _ => allows_attributes hself hb)
    fun _ _ h => h.1).bind fun _ k hk => ?_
  refine uniform_textOf.bindUniform fun variance l hl => ?_
  simp only [reads_identText, reads_spanFrom]
  exact fun _ => .pure fun hl' => ⟨by omega, _, Laid.unit.frame
    (fun span _ => { span, name := (L.lexeme l).text, variance : TypeParam })
    (by simp [TypeParam.erase]) (by omega) hl'⟩

/-- Type parameters are laid between their angle brackets. -/
theorem yields_typeParams (hself : L.Good b self) (hb : b ≤ j + 1) :
    L.Yields j (fun _ => typeParams self) j := by
  simp only [Yields, typeParams, reads_discard, reads_expect]
  intro _
  refine (Yields.separated fun k hk => yields_typeParam hself (by omega)).bind
    fun ps cs k hk hps => ?_
  simp only [reads_discard, reads_expect]
  exact fun _ => .pure fun _ => ⟨by omega, cs, hps.mono (by omega) (by omega)⟩

theorem allows_optionalTypeParams (hself : L.Good b self) (hb : b ≤ j + 1) :
    L.Allows j (fun _ => optionalTypeParams self) j :=
  .optionalList tests_is (Nat.le_refl j) fun _ => (yields_typeParams hself hb).allows

variable (L) in
/-- An entry of a constraint clause: none is kept, or a type that may be `new()`. -/
def Constrains (j : Nat) (t : ω → Option TypeRef) (k : Nat) : Prop :=
  (t = fun _ => none) ∨ ∃ (o : ω → Option TypeRef) (b : Option TypeRef),
    L.Laid j k o b ∧ t = fun w => some ((o w).getD .newConstraint)

theorem Gathers.constrains {ts : ω → List (Option TypeRef)} (h : Gathers L.Constrains j ts k) :
    L.LaidBut .newConstraint j k fun w => (ts w).filterMap id := by
  obtain ⟨xs, rfl, hxs⟩ := h
  induction xs with
  | nil => exact .nil
  | cons x xs ih =>
    obtain ⟨os, bs, hos, heq⟩ := ih fun y hy => hxs y (List.mem_cons_of_mem x hy)
    obtain ⟨l, m, hl, hm, rfl | ⟨o, b, ho, rfl⟩⟩ := hxs x List.mem_cons_self
    · exact ⟨os, bs, hos, heq⟩
    · refine ⟨fun w => o w :: os w, b :: bs, (ho.mono hl hm).cons hos, funext fun w => ?_⟩
      exact congrArg _ (congrFun heq w)

/-- An entry of a constraint is a type, a word that stands for one, or nothing. -/
theorem reads_constraintType (hself : L.Good b self) (hb : b ≤ j + 1) :
    L.Reads (fun _ => constraintType self) j fun t k => j + 1 ≤ k ∧ L.Constrains j t k := by
  simp only [constraintType, reads_is, reads_peekIs, reads_isOneOf, reads_isWord, reads_ite,
    Bool.and_eq_true]
  refine ⟨fun h => ?_, fun _ => ⟨fun h => ?_, fun _ => ⟨fun h => ?_, fun _ => ?_⟩⟩⟩
  · simp only [reads_discard, reads_advance (L.lt_size_of_is h.1), reads_expect]
    exact fun _ _ => .pure fun _ => ⟨by omega, .inr ⟨fun _ => none, none, .none, rfl⟩⟩
  · rw [reads_advance (lt_size_of_any h)]
    refine .of_le fun hj => ?_
    refine uniform_accept.bindUniform fun nullable k hk => .pure fun hk' => ⟨by omega, .inr ?_⟩
    have hword : L.Laid j (j + 1) _ _ := (Laid.token j).frame
      (fun span t => { span, name := t.text, nullable : TypeRef })
      (by simp [Token.erase, TypeRef.erase_mk]) (by omega) hj
    exact ⟨_, _, (hword.mono (Nat.le_refl j) hk).some, rfl⟩
  · simp only [reads_discard, reads_advance (L.lt_size_of_isWord h), reads_expect,
      reads_expectIdent]
    exact fun _ _ => .pure fun _ => ⟨by omega, .inl rfl⟩
  · refine (yields_type hself hb).bind fun t c k hk ht => .pure fun _ => ⟨hk, .inr ?_⟩
    exact ⟨_, _, ht.some, rfl⟩

/-- A clause with types, of which some may be `new()`. -/
theorem LaidBut.constraint {ts : ω → List TypeRef} (hts : L.LaidBut .newConstraint j k ts)
    (hjk : j < k) (hk : k ≤ L.size) (param : String) :
    ∃ b, L.Laid j k (fun w => (⟨⟨L.start w j, L.behind w k⟩, param, ts w⟩ : Constraint)) b := by
  obtain ⟨os, bs, hos, rfl⟩ := hts
  refine ⟨_, hos.frame (fun s os => (⟨s, param, TypeRef.newConstraint.fill os⟩ : Constraint))
    ⟨fun _ _ => rfl, fun s os c hc => ?_, fun _ _ => ?_, fun s os => ?_⟩ hjk hk⟩
  · exact TypeRef.mem_map_type_fill (by simpa [-List.mem_map] using hc)
  · trivial
  · simp [Constraint.erase, TypeRef.map_erase_fill TypeRef.erase_newConstraint]

/-- Constraint clauses are laid one behind the other. -/
theorem allows_constraints (hself : L.Good b self) (hb : b ≤ j + 1) :
    L.Allows j (fun _ => constraints self) j := by
  refine Allows.repeatWhile (fun _ _ => tests_isWord) fun k hk h => ?_
  simp only [Yields, constraint, reads_offset, reads_discard,
    reads_advance (L.lt_size_of_isWord h), reads_identText, reads_expect]
  intro _ _
  refine (Reads.separated (n := 1) fun l hl => reads_constraintType hself (by omega)).bind
    fun ts l hread => ?_
  obtain ⟨hl, hts⟩ := hread
  rw [reads_spanFrom]
  have htypes := hts.constrains.mono (i := k) (l := l) (by omega) (Nat.le_refl l)
  exact .pure fun hl' => ⟨by omega, htypes.constraint (by omega) hl' _⟩

/-! ### Bodies -/

theorem Laid.body {block expr : ω → Option Node} {c : Option Node × Option Node}
    (h : L.Laid j k (fun w => (block w, expr w)) c) :
    L.Laid j k (fun w => (⟨block w, expr w⟩ : Body)) ⟨c.1, c.2⟩ where
  fits := h.fits
  erase w := by rw [← h.erase w]; rfl

/-- A body is a block, an expression or a semicolon. -/
theorem yields_body (hself : L.Good b self) (hb : b ≤ j) :
    L.Yields j (fun _ => body self) j := by
  simp only [Yields, body, reads_is, reads_ite, reads_accept, if_true, Bool.false_eq_true, if_false]
  refine ⟨fun _ => ?_, fun _ => ⟨fun _ => ?_, fun _ => ?_⟩⟩
  · refine (hself.block hb).bind fun x c k hk hx => ?_
    exact .pure fun _ => ⟨hk, _, (hx.some.pair .none).body⟩
  · refine (hself.expr (by omega)).bind fun x c k hk hx => ?_
    simp only [reads_discard, reads_expect]
    exact fun _ => .pure fun _ => ⟨by omega, _,
      (Laid.none.pair (hx.mono (by omega) (by omega)).some).body⟩
  · simp only [reads_discard, reads_expect]
    exact fun _ => .pure fun _ => ⟨by omega, _, (Laid.none.pair .none).body⟩

/-- A method is laid from its header on. -/
theorem yields_methodRest (hself : L.Good b self) (hb : b ≤ j) (hij : i ≤ j) {h : ω → Header}
    (hh : L.Heads i j h) {returnType : ω → TypeRef} {c : TypeRef}
    (ht : L.Laid i j returnType c) (name : String) (nameSpan : ω → Span)
    (explicitInterface : String) :
    L.Yields i (fun w => methodRest self (h w) (returnType w) name (nameSpan w) explicitInterface)
      j := by
  obtain ⟨⟨g, hh⟩, hstart⟩ := hh
  refine (allows_optionalTypeParams hself (by omega)).bind fun typeParams ps k hk htypeParams => ?_
  refine (yields_params hself (by omega)).bind fun params qs l hl hparams => ?_
  refine (allows_constraints hself (by omega)).bind fun constraints cs m hm hconstraints => ?_
  refine (yields_body hself (by omega)).bind fun body d n hn hbody => ?_
  simp only [hstart, reads_spanFrom]
  -- The name stands in the header or behind it, so it is laid along with the type.
  have hsignature := htypeParams.andThen (hparams.andThen hconstraints (by omega) hm) hk (by omega)
  have hparts := (hh.pair (ht.pair (.span nameSpan))).andThen
    (hsignature.andThen hbody (by omega) (by omega)) hij (by omega)
  exact .pure fun hn' => ⟨by omega, _, hparts.frame
    (fun span x => ({ span, name, nameSpan := x.1.2.2, modifiers := x.1.1.modifiers,
                      attributes := x.1.1.attributes, returnType := x.1.2.1,
                      typeParams := x.2.1.1, constraints := x.2.1.2.2, params := x.2.1.2.1,
                      body := x.2.2.block, exprBody := x.2.2.expr, doc := x.1.1.doc,
                      explicitInterface } : Method Node))
    { span _ _ := rfl, parts _ _ c := by simp; grind, chained _ _ := by simp,
      erase _ _ := by simp [Node.eraseMethod] }
    (by omega) hn'⟩

/-! ### Variables -/

theorem yields_varInitializer (hself : L.Good b self) (hb : b ≤ j) :
    L.Yields j (fun _ => varInitializer self) j := by
  simp only [Yields, varInitializer, reads_is, reads_ite]
  exact ⟨fun _ => yields_initializerExpr hself (by omega), fun _ => hself.expr hb⟩

theorem allows_optionalInit (hself : L.Good b self) (hb : b ≤ j + 1) :
    L.Allows j (fun _ => optionalInit self) j :=
  .optionalPart tests_accept (Nat.le_succ j) fun _ => (yields_varInitializer hself hb).allows

/-- A variable is laid with its initial value. -/
theorem yields_varDeclarator (hself : L.Good b self) (hb : b ≤ j + 1) :
    L.Yields j (fun _ => varDeclarator self) j := by
  simp only [Yields, varDeclarator, reads_expectIdent]
  intro _
  refine (Reads.skipIf tests_is (Nat.le_refl _) (fun _ => Reads.skipBalanced)
    fun _ _ h => Nat.le_of_lt h).bind fun _ k hk => ?_
  refine (allows_optionalInit hself (by omega)).bind fun init c l hl hinit => ?_
  rw [reads_spanFrom]
  exact .pure fun hl' => ⟨by omega, _,
    ((Laid.token j).andThen hinit (i := j) (k := j) (by omega) (by omega)).frame
      (fun span x => { span, name := x.1.text, nameSpan := x.1.span, init := x.2 : VarDeclarator Node })
      (by simp [Node.eraseVar, Token.erase]) (by omega) hl'⟩

end Layouts

end CSharpAudit
