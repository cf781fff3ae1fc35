import CSharpAudit.Proofs.Grammar.Type

/-!
# Arguments, attributes and parameters in all layouts

## Main results

* `Layouts.yields_argument`, `Layouts.yields_arguments` — arguments
* `Layouts.allows_attributes` — attribute groups
* `Layouts.yields_param`, `Layouts.yields_params` — parameters
* `Layouts.mayYield_lambda?` — lambdas
-/

namespace CSharpAudit

open Grammar

attribute [local simp] frames_iff Layered.nodes Layered.erase NodeKind.node NodeKind.erase
  Node.nodesBelow Node.children Node.unvisitedNodes Node.span Node.Synthesises Node.ChainedInside
  Node.erase flatMap_singleton_eq_map

namespace Layouts

variable {ω : Type} {L : Layouts ω} {i j k b : Nat} {self : Rules}

/-! ### Arguments -/

/-- The name in front of an argument is the same in all layouts. -/
theorem reads_argumentName : L.Reads (fun _ => argumentName) j fun a k => j ≤ k ∧ Uniform a := by
  simp only [argumentName, reads_isIdent, reads_peekIs, reads_ite, Bool.and_eq_true]
  refine ⟨fun h => ?_, fun _ => .pure fun _ => ⟨Nat.le_refl j, _, rfl⟩⟩
  have hj := L.lt_size_of_is h.1.2
  simp only [reads_discard, reads_advance (Nat.lt_of_succ_lt hj), reads_advance hj, token_text]
  exact .pure fun _ => ⟨by omega, _, rfl⟩

/-- A declaration behind `out` is read only if a type with an identifier behind it was seen, and it
is read alike when it is read again. -/
theorem yields_argumentValue (hself : L.Good b self) (hb : b ≤ j) {modifier : String} :
    L.Yields j (fun _ => argumentValue self modifier) j := by
  have hexpr : L.Yields j (fun _ => self.expr) j := hself.expr hb
  intro hj
  -- whether a type stands here decides which way both readings of it go
  rcases yields_type hself (by omega) hj with ⟨t, k, hk, ⟨hjk, c, ht⟩, hrun⟩ | he
  · have htype : L.Reads (fun _ => type self) j fun a l => a = t ∧ l = k :=
      fun _ => .inl ⟨t, k, hk, ⟨rfl, rfl⟩, hrun⟩
    have hseen := tests_atTypeThenIdent (htype.imp (Q := fun _ l =>
      (L.lexeme l).isIdent = true → (L.lexeme k).isIdent = true) fun _ _ _ hread => by simp [hread.2])
    refine (Reads.bind hseen fun d l hd => ?_) hj
    rcases hd with ⟨rfl, rfl, hident⟩ | ⟨rfl, rfl⟩
    · simp only [reads_ite]
      refine ⟨fun _ => ?_, fun _ => hexpr⟩
      rw [reads_offset]
      refine htype.bind fun a m hm => ?_
      obtain ⟨rfl, rfl⟩ := hm
      rw [reads_advance (L.lt_size_of_isIdent hident), reads_spanFrom]
      refine .pure fun hm => ?_
      have hname (w : ω) : (a w).name = c.name := by simp [← ht.erase w, Layered.erase]
      obtain ⟨d, hd⟩ := ht.keptUnless ((c.name == "var") = true)
      simp only [hname, token_text]
      exact ⟨by omega, _, (hd.mono (Nat.le_refl l) (Nat.le_succ m)).frame
        (fun s t => Node.declExpr s t (L.lexeme m).text) (by simp) (by omega) hm⟩
    · simp only [Bool.and_false, Bool.false_eq_true, if_false]
      exact hexpr
  · have hseen : L.Tests (atTypeThenIdent self) j j False :=
      tests_atTypeThenIdent (fun _ => .inr he)
    refine (Reads.bind hseen fun d l hd => ?_) hj
    rcases hd with ⟨-, -, hfalse⟩ | ⟨rfl, rfl⟩
    · exact hfalse.elim
    · simp only [Bool.and_false, Bool.false_eq_true, if_false]
      exact hexpr

/-- A declaration behind `out` is laid like an expression. -/
theorem yields_argument (hself : L.Good b self) (hb : b ≤ j) :
    L.Yields j (fun _ => argument self) j := by
  simp only [Yields, argument, reads_offset]
  refine reads_argumentName.bindUniform fun name k hk => ?_
  refine uniform_textOf.bindUniform fun modifier l hl => ?_
  refine (yields_argumentValue hself (by omega)).bind fun value c m hm hvalue => ?_
  rw [reads_spanFrom]
  exact .pure fun hm => ⟨by omega, _, (hvalue.mono (i := j) (by omega) (Nat.le_refl m)).frame
    (fun span value => { span, name, modifier, value : Argument Node })
    (by simp [Node.eraseArgument]) (by omega) hm⟩

theorem yields_arguments (hself : L.Good b self) (hb : b ≤ j + 1) {opening closing : String} :
    L.Yields j (fun _ => arguments self opening closing) j :=
  .enclosed fun _ _ => yields_argument hself (by omega)

/-! ### Attributes -/

theorem yields_oneAttribute (hself : L.Good b self) (hb : b ≤ j + 1) {target : String} :
    L.Yields j (fun _ => oneAttribute self target) j := by
  simp only [Yields, oneAttribute, reads_offset]
  refine reads_qualifiedName.bindUniform fun name k hk => ?_
  refine (Reads.skipIf tests_is (Nat.le_refl k) (fun _ => reads_typeArgs hself (by omega))
    fun _ _ h => Nat.le_of_lt h.1).bind fun _ l hl => ?_
  refine (Allows.optionalList tests_is (Nat.le_refl l) fun _ =>
    (yields_arguments hself (by omega)).allows).bind fun args bs m hm hargs => ?_
  rw [reads_spanFrom]
  exact .pure fun hm => ⟨by omega, _, (hargs.mono (i := j) (by omega) (Nat.le_refl m)).frame
    (fun span args => { span, target, name, args : Attribute Node })
    (by simp [Node.eraseAttribute]) (by omega) hm⟩

theorem reads_attributeTarget :
    L.Reads (fun _ => attributeTarget) j fun a k => j ≤ k ∧ Uniform a := by
  simp only [attributeTarget, reads_current, reads_peekIs, token_kind, token_text, reads_ite,
    Bool.and_eq_true]
  refine ⟨fun h => ?_, fun _ => .pure fun _ => ⟨Nat.le_refl j, _, rfl⟩⟩
  rw [reads_advanceBy (L.lt_size_of_is h.1.2)]
  exact .pure fun _ => ⟨by omega, _, rfl⟩

theorem reads_acceptNextAttribute :
    L.Reads (fun _ => acceptNextAttribute) j fun c k =>
      ((c = fun _ => true) ∧ j < k) ∨ ((c = fun _ => false) ∧ j ≤ k) := by
  simp only [acceptNextAttribute, reads_accept, if_true, Bool.false_eq_true, if_false]
  refine ⟨fun _ => ?_, fun _ => .pure fun _ => .inr ⟨rfl, Nat.le_refl j⟩⟩
  refine Reads.imp tests_isNot ?_
  rintro c k - (⟨hc, rfl, -⟩ | ⟨hc, rfl⟩)
  · exact .inl ⟨hc, by omega⟩
  · exact .inr ⟨hc, by omega⟩

/-- The attributes of a group stand behind its opening bracket. -/
theorem reads_attributeGroup (hself : L.Good b self) (hb : b ≤ j + 1)
    (h : (L.lexeme j).is "[" = true) :
    L.Reads (fun _ => attributeGroup self) j fun as k => j < k ∧ ∃ cs, L.Laid (j + 1) k as cs := by
  simp only [attributeGroup, reads_discard, reads_advance (L.lt_size_of_is h)]
  refine reads_attributeTarget.bindUniform fun target k hk => ?_
  refine (yields_oneAttribute hself (by omega)).bind fun first c l hl hfirst => ?_
  refine (Reads.repeatWhile (I := fun j a k => ∃ b, L.Laid j k a b) fun m hm => ?_).bind ?_
  · refine reads_acceptNextAttribute.bind fun d n hd => ?_
    rcases hd with ⟨rfl, hn⟩ | ⟨rfl, hn⟩
    · refine (yields_oneAttribute hself (by omega)).bind fun a e o ho ha => ?_
      exact .pure fun _ => .some ⟨by omega, e, ha.mono (by omega) (Nat.le_refl o)⟩
    · exact .pure fun _ => .none hn
  · rintro more m ⟨hm, hmore⟩
    obtain ⟨bs, hmore⟩ := hmore.laid
    rw [reads_discard, reads_expect]
    refine fun _ => .pure fun _ => ⟨by omega, c :: bs, ?_⟩
    exact (hfirst.mono (by omega) (by omega)).cons (hmore.mono (by omega) (by omega))

/-- The attributes of a group share its target. -/
theorem yields_attributeGroup (hself : L.Good b self) (hb : b ≤ j + 1)
    (h : (L.lexeme j).is "[" = true) : L.Yields j (fun _ => attributeGroup self) j := by
  refine (reads_attributeGroup hself hb h).imp fun as k _ hread => ?_
  obtain ⟨hk, cs, has⟩ := hread
  exact ⟨hk, cs, has.mono (Nat.le_succ j) (Nat.le_refl k)⟩

/-- Attribute groups are laid one behind the other. -/
theorem allows_attributes (hself : L.Good b self) (hb : b ≤ j + 1) :
    L.Allows j (fun _ => attributes self) j := by
  refine (Allows.repeatWhile (fun _ _ => tests_is) fun k hk h =>
    yields_attributeGroup hself (by omega) h).bind fun groups bs k hk hgroups => ?_
  exact .pure fun _ => ⟨hk, _, hgroups.flatten⟩

/-- Behind an opening bracket there is at least one attribute. -/
theorem yields_attributes (hself : L.Good b self) (hb : b ≤ j + 1)
    (h : (L.lexeme j).is "[" = true) : L.Yields j (fun _ => attributes self) j := by
  refine (Yields.repeatWhileIs h fun k hk h =>
    yields_attributeGroup hself (by omega) h).bind fun groups bs k hk hgroups => ?_
  exact .pure fun _ => ⟨hk, _, hgroups.flatten⟩

/-- The attributes before a declaration, if there are any. -/
theorem allows_optionalAttributes (hself : L.Good b self) (hb : b ≤ j + 1) :
    L.Allows j (fun _ => optionalList (is "[") (attributes self)) j :=
  .optionalList tests_is (Nat.le_refl j) fun _ => allows_attributes hself hb

/-! ### Parameters -/

theorem tests_atParamModifier : L.Tests atParamModifier j j (j < L.size) := by
  rw [Tests, reads_iff_bind_pure]
  simp only [atParamModifier, bind_assoc, pure_bind, reads_current, reads_peek, token_kind,
    token_text, token_isWord]
  refine tests_pure.imp fun h => ?_
  rcases Bool.or_eq_true_iff.mp h with h | h
  · refine L.lt_size_of_kind fun hk => ?_
    simp [hk] at h
  · exact L.lt_size_of_isWord (Bool.and_eq_true_iff.mp h).1

/-- A parameter is laid from its attributes on. -/
theorem yields_param (hself : L.Good b self) (hb : b ≤ j + 1) :
    L.Yields j (fun _ => param self) j := by
  simp only [Yields, param, reads_offset]
  refine (allows_optionalAttributes hself hb).bind fun attributes as k hk hattributes => ?_
  refine (Allows.repeatWhile (fun _ _ => tests_atParamModifier) fun l hl h => ?_).bind
    -- Modifiers are words, so they take up tokens but leave nothing behind that has a span.
    fun mods ms l hl hmods => ?_
  · simp only [Yields, reads_advance h, token_text]
    exact .pure fun _ => ⟨by omega, _, .text _⟩
  refine (yields_type hself (by omega)).bind fun t c m hm ht => ?_
  rw [reads_expectIdent]
  intro _
  refine (Allows.optionalPart tests_accept (Nat.le_succ _) fun _ =>
    (hself.expr (by omega)).allows).bind fun default d n hn hdefault => ?_
  -- the same modifiers in all layouts
  have hmods (w : ω) : mods w = ms := by simpa [Layered.erase] using hmods.erase w
  rw [reads_spanFrom]
  simp only [hmods]
  have hparts := (hattributes.andThen (ht.andThen (hdefault.pair (.token m)) (by omega) (by omega))
    (by omega) (by omega))
  exact .pure fun hn => ⟨by omega, _, hparts.frame
    (fun span x => { span, name := x.2.2.2.text, nameSpan := x.2.2.2.span, type := some x.2.1,
                     modifier := keptModifier ms, default := x.2.2.1, attributes := x.1 : Param Node })
    (by simp [Node.eraseParam, Token.erase]) (by omega) hn⟩

theorem yields_params (hself : L.Good b self) (hb : b ≤ j + 1) {opening closing : String} :
    L.Yields j (fun _ => params self opening closing) j :=
  .enclosed fun _ _ => yields_param hself (by omega)

/-! ### Lambdas -/

theorem yields_lambdaParam (hself : L.Good b self) (hb : b ≤ j + 1) :
    L.Yields j (fun _ => lambdaParam self) j := by
  simp only [Yields, lambdaParam, reads_isIdent, reads_peekIs, reads_ite, Bool.and_eq_true]
  refine ⟨fun h => ?_, fun _ => yields_param hself hb⟩
  rw [reads_advance (L.lt_size_of_isIdent h.1)]
  exact .pure fun hj => ⟨by omega, _, (Laid.token j).frame
    (fun span t => { span, name := t.text, nameSpan := t.span : Param Node })
    (by simp [Node.eraseParam, Token.erase]) (by omega) hj⟩

theorem yields_lambdaBody (hself : L.Good b self) (hb : b ≤ j) :
    L.Yields j (fun _ => lambdaBody self) j := by
  simp only [Yields, lambdaBody, reads_is, reads_ite]
  exact ⟨fun _ => hself.block hb, fun _ => hself.expr hb⟩

/-- Which parenthesis closes a list depends on the tokens only. -/
theorem closingParen?_map_erase (depth : Nat) (ts : List Token) :
    closingParen? depth (ts.map Token.erase) = closingParen? depth ts := by
  induction ts generalizing depth with
  | nil => rfl
  | cons t ts ih =>
    simp only [List.map_cons, closingParen?, ih]
    rfl

/-- The parenthesis that closes another one is found in the tokens alone. -/
theorem closingParen?_rest (w : ω) (j lead depth : Nat) :
    closingParen? depth ((L.cursor w j).rest.drop lead) =
      closingParen? depth ((L.lexemes.drop j).drop lead) := by
  rw [← L.map_erase w, ← List.map_drop, ← List.map_drop, closingParen?_map_erase]
  rfl

theorem mayYield_lambdaFrom? (hself : L.Good b self) (hb : b ≤ j + 1) {isAsync : Bool} {lead : Nat} :
    L.MayYield j (fun _ => lambdaFrom? self isAsync lead) j := by
  simp only [MayYield, lambdaFrom?, reads_offset, reads_peekIdent, reads_peekIs, reads_ite, reads_get,
    closingParen?_rest, Bool.and_eq_true]
  refine ⟨fun hname => ?_, fun _ => ⟨fun h => ?_, fun _ => .pure fun _ => .none rfl⟩⟩
  · -- a single name
    have hj := L.lt_size_of_is hname.2
    rw [reads_advanceBy (by omega), reads_advance (by omega), reads_discard,
      reads_advance (by omega)]
    refine (yields_lambdaBody hself (by omega)).bind fun body c k hk hbody => ?_
    rw [reads_spanFrom]
    refine .pure fun hk => .some ⟨by omega, ?_⟩
    have hname : L.Laid (j + lead) (j + lead + 1) _ _ := (Laid.token (j + lead)).frame
      (fun span t => { span, name := t.text, nameSpan := t.span : Param Node })
      (by simp [Node.eraseParam, Token.erase]) (by omega) (by omega)
    exact ⟨_, (((hname.cons .nil).andThen hbody (by omega) (by omega)).mono (i := j) (by omega)
      (Nat.le_refl k)).frame (fun span x => Node.lambda span x.1 x.2 isAsync) (by simp)
      (by omega) hk⟩
  · split
    · exact .pure fun _ => .none rfl
    · have hj := L.lt_size_of_is h
      simp only [reads_peekIs, reads_ite]
      refine ⟨fun _ => ?_, fun _ => .pure fun _ => .none rfl⟩
      rw [reads_advanceBy (by omega)]
      refine (Yields.enclosed fun l hl => yields_lambdaParam hself (by omega)).bind
        fun params ps k hk hparams => ?_
      rw [reads_discard, reads_expect]
      intro _
      refine (yields_lambdaBody hself (by omega)).bind fun body c l hl hbody => ?_
      rw [reads_spanFrom]
      exact .pure fun hl => .some ⟨by omega, _, ((hparams.andThen hbody (by omega) (by omega)).mono
        (i := j) (by omega) (Nat.le_refl l)).frame
        (fun span x => Node.lambda span x.1 x.2 isAsync) (by simp) (by omega) hl⟩

/-- Whether a lambda begins is told by the tokens alone. -/
theorem mayYield_lambda? (hself : L.Good b self) (hb : b ≤ j + 1) :
    L.MayYield j (fun _ => lambda? self) j := by
  simp only [MayYield, lambda?, reads_isWord, reads_peekIdent, reads_peekIs]
  exact mayYield_lambdaFrom? hself hb

end Layouts

end CSharpAudit
