import CSharpAudit.Grammar.Declaration
import CSharpAudit.Proofs.Grammar.Statement
import CSharpAudit.Proofs.Running

/-!
# Types and members in all layouts

What is to be known of all that a production reads is put together from what is known of its parts.
For productions that choose between many parts a lemma says so once, for whatever is to be known.

## Main results

* `Layouts.Reads.member`, `Layouts.Reads.typedMember`, `Layouts.Reads.typeContents` — members and
  contents of types, for whatever is to be known of them
* `Layouts.yields_typeDecl`, `Layouts.yields_delegateDecl` — type declarations from their keyword on
* `Layouts.yields_constructorDecl` — a constructor, in which the call of another one lies inside
* `Layouts.yields_member`, `Layouts.yields_typeLevelDecl` — members and declarations at namespace
  level
-/

namespace CSharpAudit

open Grammar

attribute [local simp] frames_iff Layered.nodes Layered.erase NodeKind.node NodeKind.erase
  Node.nodesBelow Node.children Node.unvisitedNodes Node.span Node.Synthesises Node.ChainedInside
  Node.erase flatMap_singleton_eq_map

namespace Layouts

variable {ω : Type} {L : Layouts ω} {i j k b : Nat} {self : Rules} {h : ω → Header}

/-! ### Types -/

theorem tests_atTypeKeyword : L.Tests atTypeKeyword j j (j < L.size) := by
  have hfold (w : ω) : (L.token w j).is = (L.lexeme j).is := funext (L.token_is w j)
  rw [Tests, reads_iff_bind_pure]
  simp only [atTypeKeyword, bind_assoc, pure_bind, reads_current, reads_peek, hfold, token_isWord,
    token_isIdent, token_is]
  refine tests_pure.imp fun h => ?_
  rcases Bool.or_eq_true_iff.mp h with h | h
  · exact lt_size_of_any h
  · exact L.lt_size_of_isWord (Bool.and_eq_true_iff.mp h).1

theorem yields_enumMember (hself : L.Good b self) (hb : b ≤ j + 1) :
    L.Yields j (fun _ => enumMember self) j := by
  simp only [Yields, enumMember, reads_offset]
  refine (allows_optionalAttributes hself hb).bind fun as cs k hk has => ?_
  rw [reads_identText]
  intro _
  refine (Allows.optionalPart tests_accept (Nat.le_succ _) fun _ =>
    (hself.expr (by omega)).allows).bind fun value c l hl hvalue => ?_
  rw [reads_spanFrom]
  exact .pure fun hl' => ⟨by omega, _, (has.andThen hvalue (by omega) (by omega)).frame
    (fun s x => Node.enumMember s (L.lexeme k).text x.1 x.2) (by simp) (by omega) hl'⟩

theorem reads_typeKind (hj : j < L.size) :
    L.Reads (fun _ => typeKind) j fun a k => j < k ∧ Uniform a := by
  simp only [typeKind, reads_advance hj, token_text]
  split
  case h_4 =>
    simp only [reads_accept, if_true, Bool.false_eq_true, if_false, reads_discard]
    refine ⟨fun _ => .pure fun _ => ⟨by omega, _, rfl⟩, fun _ => ⟨fun _ => ?_, fun _ => ?_⟩⟩
    all_goals exact .pure fun _ => ⟨by omega, _, rfl⟩
  all_goals exact .pure fun _ => ⟨by omega, _, rfl⟩

/-- The arguments of a base constructor are skipped, so that the type ends in front of them.
-/
theorem yields_baseType (hself : L.Good b self) (hb : b ≤ j + 1) :
    L.Yields j (fun _ => baseType self) j := by
  refine (yields_type hself hb).bind fun t c k hk ht => ?_
  refine (Reads.skipIf tests_is (Nat.le_refl k) (fun _ => yields_arguments hself (by omega))
    fun _ _ h => Nat.le_of_lt h.1).bind fun _ l hl => ?_
  exact .pure fun _ => ⟨by omega, c, ht.mono (Nat.le_refl j) hl⟩

/-- What is to be known of the body of a type is known if it is behind the loop over its members. -/
theorem Reads.typeBody {kind : TypeKind} {name : String} {Q : (ω → List Node) → Nat → Prop}
    (hmembers : L.Reads (fun _ => Grammar.repeatWhile (isNot closeBrace)
      (Grammar.unlessEnd (.unterminatedType kind.text name) self.member)) (j + 1)
        fun ms k => ∀ l, k < l → Q ms l) :
    L.Reads (fun _ => Grammar.typeBody self kind name) j Q := by
  simp only [Grammar.typeBody, reads_discard, reads_expect]
  refine fun _ => hmembers.bind fun ms k hms => ?_
  simp only [reads_discard, reads_expect]
  exact fun _ => uniform_accept.bindUniform fun _ l hl => .pure fun _ => hms l (by omega)

theorem yields_typeBody (hself : L.Good b self) (hb : b ≤ j + 1) (kind : TypeKind) (name : String) :
    L.Yields j (fun _ => typeBody self kind name) j := by
  refine Reads.typeBody <| (Allows.repeatWhile (fun _ _ => tests_isNot) fun k hk _ =>
    Yields.unlessEnd rfl (hself.member (by omega))).imp ?_
  rintro ms k - ⟨hk, cs, hms⟩ l hl
  exact ⟨by omega, cs, hms.mono (by omega) (by omega)⟩

/-- A type holds the members of an enumeration, nothing, or the members of its body. -/
theorem Reads.typeContents {kind : TypeKind} {name : String}
    {Q : (ω → List Node × List Node) → Nat → Prop}
    (henum : L.Reads (fun _ => Grammar.enclosed openBrace closeBrace (enumMember self)) j
      fun ms k => ∀ l, k ≤ l → Q (fun w => ([], ms w)) l)
    (hnone : Q (fun _ => ([], [])) (j + 1))
    (hbody : L.Reads (fun _ => Grammar.typeBody self kind name) j
      fun ms k => Q (fun w => (ms w, [])) k) :
    L.Reads (fun _ => Grammar.typeContents self kind name) j Q := by
  simp only [Grammar.typeContents, reads_ite, reads_accept, if_true, Bool.false_eq_true, if_false]
  refine ⟨fun _ => ?_, fun _ => ⟨fun _ => .pure fun _ => hnone, fun _ => ?_⟩⟩
  · refine henum.bind fun ms k hms => ?_
    rw [reads_discard]
    exact uniform_accept.bindUniform fun _ l hl => .pure fun _ => hms l hl
  · exact hbody.bind fun ms k hms => .pure fun _ => hms

theorem yields_typeContents (hself : L.Good b self) (hb : b ≤ j + 1) (kind : TypeKind)
    (name : String) : L.Yields j (fun _ => typeContents self kind name) j := by
  refine Reads.typeContents
    ((Yields.enclosed fun k hk => yields_enumMember hself (by omega)).imp ?_)
    ⟨Nat.lt_succ_self j, _, Laid.nil.pair .nil⟩ ((yields_typeBody hself hb kind name).imp ?_)
  · rintro ms k - ⟨hk, cs, hms⟩ l hl
    exact ⟨by omega, _, Laid.nil.pair (hms.mono (Nat.le_refl j) hl)⟩
  · rintro ms k - ⟨hk, cs, hms⟩
    exact ⟨hk, _, hms.pair .nil⟩

/-- A type is laid from its header on, which begins at index `i`. -/
theorem yields_typeDecl (hself : L.Good b self) (hb : b ≤ j + 1) (hij : i ≤ j)
    (hh : L.Heads i j h) (hj : j < L.size) : L.Yields i (fun w => typeDecl self (h w)) j := by
  obtain ⟨⟨g, hh⟩, hstart⟩ := hh
  refine (reads_typeKind hj).bindUniform fun kind k hk => ?_
  -- the parts of the header, in the order in which they are written
  rw [reads_expectIdent]
  intro _
  refine (allows_optionalTypeParams hself (by omega)).bind fun typeParams ps l hl htypeParams => ?_
  refine (Allows.optionalList tests_is (Nat.le_refl l) fun _ =>
    (yields_params hself (by omega)).allows).bind fun primaryParams qs m hm hprimaryParams => ?_
  refine (Allows.optionalList tests_accept (Nat.le_succ m) fun _ => (Yields.separated fun n hn =>
    yields_baseType hself (by omega)).allows).bind fun baseTypes ts n hn hbaseTypes => ?_
  refine (allows_constraints hself (by omega)).bind fun constraints cs o ho hconstraints => ?_
  simp only [token_text]
  refine (yields_typeContents hself (by omega) kind _).bind fun contents d p hp hcontents => ?_
  simp only [hstart, reads_spanFrom]
  -- Each part ends where the next one starts, so they are laid side by side.
  have hsignature := htypeParams.andThen (hprimaryParams.andThen (hbaseTypes.andThen hconstraints
    hn ho) hm (by omega)) hl (by omega)
  have hparts := (hh.pair (.token k)).andThen (hsignature.andThen hcontents (by omega) (by omega))
    (by omega) (by omega)
  exact .pure fun hp' => ⟨by omega, _, hparts.frame
    (fun span x => Node.typeDecl
      { span, kind, name := (L.lexeme k).text, nameSpan := x.1.2.span,
        modifiers := x.1.1.modifiers, attributes := x.1.1.attributes, typeParams := x.2.1.1,
        constraints := x.2.1.2.2.2, primaryParams := x.2.1.2.1, baseTypes := x.2.1.2.2.1,
        members := x.2.2.1, enumMembers := x.2.2.2, doc := x.1.1.doc })
    { span _ _ := rfl, parts _ _ c := by simp; grind, chained _ _ := by simp,
      erase _ _ := by simp [Node.eraseTypeDecl, Token.erase] } (by omega) hp'⟩

theorem yields_delegateDecl (hself : L.Good b self) (hb : b ≤ j + 1) (hij : i ≤ j)
    (hh : L.Heads i j h) : L.Yields i (fun w => delegateDecl self (h w)) j := by
  obtain ⟨⟨g, hh⟩, hstart⟩ := hh
  simp only [Yields, delegateDecl, reads_discard, reads_expect]
  intro _
  refine (yields_type hself (by omega)).bind fun returnType c k hk ht => ?_
  rw [reads_expectIdent]
  intro _
  refine (allows_optionalTypeParams hself (by omega)).bind fun typeParams ps l hl htypeParams => ?_
  refine (yields_params hself (by omega)).bind fun params qs m hm hparams => ?_
  rw [reads_discard]
  refine (allows_constraints hself (by omega)).bind fun _ _ n hn _ => ?_
  simp only [reads_discard, reads_expect, hstart, reads_spanFrom, token_text]
  have hparts := (hh.pair (.token k)).andThen (ht.andThen (htypeParams.andThen hparams hl
    (by omega)) (by omega) (by omega)) (by omega) (by omega)
  exact fun _ => .pure fun hn' => ⟨by omega, _, (hparts.mono (Nat.le_refl i) (by omega)).frame
    (fun span x => Node.delegate
      { span, name := (L.lexeme k).text, nameSpan := x.1.2.span, modifiers := x.1.1.modifiers,
        attributes := x.1.1.attributes, returnType := x.2.1, typeParams := x.2.2.1,
        params := x.2.2.2, doc := x.1.1.doc })
    { span _ _ := rfl, parts _ _ c := by simp; grind, chained _ _ := by simp,
      erase _ _ := by simp [Node.eraseDelegate, Token.erase] } (by omega) hn'⟩

/-! ### Constructors -/

theorem uniform_chainedToBase : L.Reads (fun _ => chainedToBase) j fun a k => j < k ∧ Uniform a := by
  simp only [chainedToBase, reads_accept, if_true, Bool.false_eq_true, if_false]
  refine ⟨fun _ => .pure fun _ => ⟨by omega, _, rfl⟩, fun _ => ⟨fun _ => ?_, fun _ => ?_⟩⟩
  · exact .pure fun _ => ⟨by omega, _, rfl⟩
  · exact reads_fail (by simp)

/-- The call of another constructor covers its arguments. -/
theorem reads_chainedCall (hself : L.Good b self) (hb : b ≤ j + 1) :
    L.Reads (fun _ => chainedCall self) j fun a k => j < k ∧
      ∃ (toBase : Bool) (args : ω → List (Argument Node)) (as : List (Argument Node)),
        L.Laid j k args as ∧ a = fun w => (⟨⟨L.start w j, L.behind w k⟩, toBase⟩, args w) := by
  simp only [chainedCall, reads_offset]
  refine uniform_chainedToBase.bindUniform fun toBase k hk => ?_
  refine (yields_arguments hself (by omega)).bind fun args as l hl hargs => ?_
  rw [reads_spanFrom]
  exact .pure fun _ => ⟨by omega, toBase, args, as, hargs.mono (by omega) (Nat.le_refl l), rfl⟩

/-- The call of another constructor is read in front of the body, so it lies inside. -/
theorem yields_constructorDecl (hself : L.Good b self) (hb : b ≤ j + 1) (hij : i ≤ j)
    (hh : L.Heads i j h) : L.Yields i (fun w => constructorDecl self (h w)) j := by
  obtain ⟨⟨g, hh⟩, hstart⟩ := hh
  simp only [Yields, constructorDecl, reads_expectIdent, token_text]
  intro _
  refine (yields_params hself (by omega)).bind fun params qs k hk hparams => ?_
  refine ((tests_accept.optionalPart fun _ => reads_chainedCall hself (by omega)).bindPerhaps
    (fun l hl => ?_) ?_)
  -- without and with the call of another constructor
  · refine (yields_body hself (by omega)).bind fun body d m hm hbody => ?_
    simp only [hstart, reads_spanFrom]
    have hparts := (hh.pair (.token j)).andThen (hparams.andThen hbody (by omega) (by omega))
      (by omega) (by omega)
    exact .pure fun hm' => ⟨by omega, _, hparts.frame
      (fun span x => Node.constructor
        { span, name := (L.lexeme j).text, nameSpan := x.1.2.span, modifiers := x.1.1.modifiers,
          attributes := x.1.1.attributes, params := x.2.1, body := x.2.2.block,
          exprBody := x.2.2.expr, doc := x.1.1.doc })
      (by simp [Node.eraseConstructor, Token.erase]) (by omega) hm'⟩
  · rintro - l ⟨hl, toBase, args, as, hargs, rfl⟩
    refine (yields_body hself (by omega)).bind fun body d m hm hbody => ?_
    simp only [hstart, reads_spanFrom]
    have hparts := (hh.pair (.token j)).andThen (hparams.andThen (hargs.andThen hbody (by omega)
      (by omega)) (by omega) (by omega)) (by omega) (by omega)
    refine .pure fun hm' => ⟨by omega, _, Laid.node (m := .constructor
      { span := .none, name := (L.lexeme j).text, nameSpan := .none, modifiers := g.modifiers,
        attributes := g.attributes, params := qs, chained := some ⟨.none, toBase⟩,
        chainedArgs := as, body := d.block, exprBody := d.expr, doc := "" })
      (fun w => rfl) (fun w n hn => .inr (hparts.fits w n ?_)) (fun w => ?_) (fun w => ?_)
      (by omega) hm'⟩
    · simp at hn ⊢
      grind
    -- The call has a span of its own, behind the parameters and in front of the body.
    · rintro call hcall
      obtain rfl : _ = call := by simpa using hcall
      refine ⟨⟨L.start_lt_behind_of_lt w (by omega) (by omega), L.start_mono w (by omega),
        L.behind_mono w (by omega)⟩, fun a ha => ?_⟩
      have hfits := hargs.fits w (.argument a) (by simpa using ha)
      exact ⟨hfits.start_lt_stop, hfits.start_le, hfits.stop_le⟩
    · obtain rfl := hh.erase w
      obtain rfl := hparams.erase w
      obtain rfl := hargs.erase w
      obtain rfl := hbody.erase w
      simp [Node.eraseConstructor, ChainedCall.erase]

/-! ### Methods and operators -/

/-- A method whose type is written, or a destructor. -/
theorem yields_plainMethod (hself : L.Good b self) (hb : b ≤ j + 1) (hij : i ≤ j)
    (hh : L.Heads i j h) {returnType : ω → TypeRef} {c : TypeRef} (name : String)
    (nameSpan : ω → Span) (isOperator isDestructor : Bool)
    (hwritten : isDestructor = true ∧ (returnType = fun _ => .implicitVoid) ∨
      ∀ w, L.Fits w i j (.type (returnType w)))
    (herase : ∀ w, (returnType w).erase = c) :
    L.Yields i (fun w => plainMethod self (h w) (returnType w) name (nameSpan w) isOperator
      isDestructor) j := by
  obtain ⟨⟨g, hh⟩, hstart⟩ := hh
  refine (yields_params hself (by omega)).bind fun params qs k hk hparams => ?_
  refine (yields_body hself (by omega)).bind fun body d l hl hbody => ?_
  simp only [hstart, reads_spanFrom]
  have hparts := hh.andThen (hparams.andThen hbody (by omega) (by omega)) (by omega) (by omega)
  refine .pure fun hl' => ⟨by omega, _, Laid.node (m := .method
    { span := .none, name, nameSpan := .none, modifiers := g.modifiers, attributes := g.attributes,
      returnType := c, params := qs, body := d.block, exprBody := d.expr, isOperator,
      isDestructor }) (fun _ => rfl) (fun w n hn => ?_) (fun _ => ?_) (fun w => ?_) (by omega) hl'⟩
  -- The type of a destructor is not written, so it is excepted from lying inside.
  · by_cases htype : n = .type (returnType w)
    · subst htype
      rcases hwritten with ⟨hdestructor, rfl⟩ | hfits
      · exact .inl ⟨hdestructor, rfl⟩
      · exact .inr ((hfits w).mono (Nat.le_refl i) (by omega))
    · refine .inr (hparts.fits w n ?_)
      simp [htype] at hn ⊢
      grind
  · trivial
  · obtain rfl := hh.erase w
    obtain rfl := hparams.erase w
    obtain rfl := hbody.erase w
    obtain rfl := herase w
    simp [Node.eraseMethod]

theorem yields_destructorDecl (hself : L.Good b self) (hb : b ≤ j + 1) (hij : i ≤ j)
    (hh : L.Heads i j h) : L.Yields i (fun w => destructorDecl self (h w)) j := by
  simp only [Yields, destructorDecl, reads_discard, reads_expect, reads_expectIdent, token_text]
  intro _ _
  exact (yields_plainMethod hself (by omega) (by omega) (hh.mono (k := j + 1 + 1)
    (by omega)) _ _ false true (.inl ⟨rfl, rfl⟩) fun _ => rfl).since (by omega)

theorem lt_size_of_overloadable (hop : overloadableOps.contains (L.lexeme j).text = true) :
    j < L.size := by
  refine Nat.lt_of_not_le fun hj => ?_
  rw [L.lexeme_of_size_le hj] at hop
  revert hop
  decide

/-- The operator that is overloaded, shifts included. -/
theorem reads_overloadedOp : L.Reads (fun _ => overloadedOp) j fun a k =>
    j < k ∧ ∃ op ∈ ">>>" :: ">>" :: ">" :: overloadableOps, a = fun _ => op := by
  -- A shift is written with signs that touch, which all layouts agree on.
  obtain ⟨shift, hshift, hd⟩ := L.exists_touches (j := j)
    (c := (L.lexeme j).is ">" && (L.lexeme (j + 1)).is ">") fun h => by simp_all [Token.joins]
  obtain ⟨triple, htriple, he⟩ := L.exists_touches (j := j + 1)
    (c := (L.lexeme (j + 1)).is ">" && (L.lexeme (j + 2)).is ">") fun h => by
      simp_all [Token.joins]
  simp only [overloadedOp, reads_is, reads_peekIs, reads_touchesNext, hd, reads_ite]
  refine ⟨fun h => ?_, fun _ => ?_⟩
  · have hnext := (Bool.and_eq_true_iff.mp (hshift h)).2
    have hthird (w : ω) : ((L.lexeme (j + 2)).is ">" &&
        (L.cursor w (j + 2)).lastEnd == (L.token w (j + 2)).span.start) = triple := by
      rw [← he w, hnext, Bool.true_and]
      rfl
    have hj : j + 2 ≤ L.size := L.lt_size_of_is hnext
    simp only [reads_advanceBy hj, reads_current, reads_get, token_is, hthird,
      reads_ite]
    refine ⟨fun h => ?_, fun _ => .pure fun _ => ⟨by omega, _, by simp, rfl⟩⟩
    rw [reads_discard, reads_advance (L.lt_size_of_is (Bool.and_eq_true_iff.mp (htriple h)).2)]
    exact .pure fun _ => ⟨by omega, _, by simp, rfl⟩
  · simp only [reads_accept, if_true, Bool.false_eq_true, if_false, reads_current, token_text,
      reads_ite]
    refine ⟨fun _ => .pure fun _ => ⟨by omega, _, by simp, rfl⟩, fun _ => ⟨fun h => ?_, fun _ =>
      reads_failAt (by simp)⟩⟩
    simp only [reads_advance (lt_size_of_overloadable h), token_text]
    exact .pure fun _ => ⟨by omega, _, by simp_all, rfl⟩

theorem uniform_overloadedOp : L.Reads (fun _ => overloadedOp) j fun a k => j < k ∧ Uniform a :=
  reads_overloadedOp.imp fun _ _ _ hread => by
    obtain ⟨hk, op, -, hop⟩ := hread
    exact ⟨hk, op, hop⟩

theorem yields_operatorDecl (hself : L.Good b self) (hb : b ≤ j + 1) (hij : i ≤ j)
    (hh : L.Heads i j h) {returnType : ω → TypeRef} {c : TypeRef}
    (ht : L.Laid i j returnType c) :
    L.Yields i (fun w => operatorDecl self (h w) (returnType w)) j := by
  simp only [Yields, operatorDecl, reads_expect, reads_discard]
  intro _
  refine uniform_accept.bindUniform fun _ k hk => ?_
  refine uniform_overloadedOp.bindUniform fun op l hl => ?_
  rw [reads_spanFrom]
  have ht := ht.mono (Nat.le_refl i) (l := l) (by omega)
  exact (yields_plainMethod hself (by omega) (by omega) (hh.mono (k := l) (by omega)) _ _
    true false (.inr fun w => ht.fits w _ (List.mem_singleton.mpr rfl)) ht.erase).since (by omega)

theorem yields_conversionDecl (hself : L.Good b self) (hb : b ≤ j + 1) (hij : i ≤ j)
    (hh : L.Heads i j h) (hj : j < L.size) :
    L.Yields i (fun w => conversionDecl self (h w)) j := by
  simp only [Yields, conversionDecl, reads_advance hj, reads_expect, reads_discard, token_text]
  intro _
  refine uniform_accept.bindUniform fun _ k hk => ?_
  refine (yields_type hself (by omega)).bind fun t c l hl ht => ?_
  have htext (w : ω) : (t w).text = c.text := by
    rw [← ht.erase w]
    exact (TypeRef.text_erase _).symm
  simp only [reads_spanFrom, htext]
  have ht := ht.mono (i := i) (by omega) (Nat.le_refl l)
  exact (yields_plainMethod hself (by omega) (by omega) (hh.mono (k := l) (by omega)) _ _
    true false (.inr fun w => ht.fits w _ (List.mem_singleton.mpr rfl)) ht.erase).since (by omega)

/-! ### Properties, fields and events -/

theorem yields_accessor (hself : L.Good b self) (hb : b ≤ j + 1) :
    L.Yields j (fun _ => accessor self) j := by
  simp only [Yields, accessor, reads_offset]
  refine (Reads.skipIf tests_is (Nat.le_refl j) (fun _ => allows_attributes hself hb)
    fun _ _ h => h.1).bind fun _ k hk => ?_
  refine reads_modifiers.bindUniform fun mods l hl => ?_
  rw [reads_identText]
  intro _
  rw [reads_ite]
  refine ⟨fun _ => reads_fail_bind (by simp), fun _ => ?_⟩
  refine (yields_body hself (by omega)).bind fun body c m hm hbody => ?_
  rw [reads_spanFrom]
  exact .pure fun hm' => ⟨by omega, _, (hbody.mono (i := j) (by omega) (Nat.le_refl m)).frame
    (fun s x => Node.accessor s (L.lexeme l).text mods x.block x.expr) (by simp) (by omega) hm'⟩

theorem yields_accessors (hself : L.Good b self) (hb : b ≤ j + 1) :
    L.Yields j (fun _ => accessors self) j := by
  simp only [Yields, accessors, reads_discard, reads_expect]
  intro _
  refine (Allows.repeatWhile (fun _ _ => tests_isNot) fun k hk _ =>
    yields_accessor hself (by omega)).bind fun as cs k hk has => ?_
  simp only [reads_discard, reads_expect]
  exact fun _ => .pure fun _ => ⟨by omega, cs, has.mono (by omega) (by omega)⟩

theorem yields_propertyBody (hself : L.Good b self) (hb : b ≤ j + 1) :
    L.Yields j (fun _ => propertyBody self) j := by
  simp only [Yields, propertyBody, reads_accept, if_true, Bool.false_eq_true, if_false]
  refine ⟨fun _ => ?_, fun _ => ?_⟩
  · refine (hself.expr (by omega)).bind fun x c k hk hx => ?_
    simp only [reads_discard, reads_expect]
    exact fun _ => .pure fun _ => ⟨by omega, _,
      Laid.nil.pair (hx.mono (by omega) (by omega)).some⟩
  · refine (yields_accessors hself hb).bind fun as cs k hk has => ?_
    exact .pure fun _ => ⟨hk, _, has.pair .none⟩

theorem yields_indexerDecl (hself : L.Good b self) (hb : b ≤ j + 1) (hij : i ≤ j)
    (hh : L.Heads i j h) {t : ω → TypeRef} {c : TypeRef} (ht : L.Laid i j t c)
    (explicitName : String) :
    L.Yields i (fun w => indexerDecl self (h w) (t w) explicitName) j := by
  obtain ⟨⟨g, hh⟩, hstart⟩ := hh
  simp only [Yields, indexerDecl, reads_expect]
  intro _
  refine (yields_params hself (by omega)).bind fun indexParams qs k hk hparams => ?_
  refine (yields_propertyBody hself (by omega)).bind fun body d l hl hbody => ?_
  simp only [hstart, reads_spanFrom]
  have hparts := (hh.pair (ht.pair (.token j))).andThen (hparams.andThen hbody (by omega)
    (by omega)) (by omega) (by omega)
  exact .pure fun hl' => ⟨by omega, _, hparts.frame
    (fun span x => Node.property
      { span, name := if explicitName.isEmpty then "this" else explicitName ++ ".this",
        nameSpan := x.1.2.2.span, type := x.1.2.1, modifiers := x.1.1.modifiers,
        attributes := x.1.1.attributes, indexParams := x.2.1, accessors := x.2.2.1,
        exprBody := x.2.2.2, doc := x.1.1.doc })
    (by simp [Node.eraseProperty, Token.erase]) (by omega) hl'⟩

theorem yields_propertyInit (hself : L.Good b self) (hb : b ≤ j) :
    L.Yields j (fun _ => propertyInit self) j := by
  refine (hself.expr hb).bind fun x c k hk hx => ?_
  simp only [reads_discard, reads_expect]
  exact fun _ => .pure fun _ => ⟨by omega, c, hx.mono (Nat.le_refl j) (Nat.le_succ k)⟩

theorem tests_acceptInit (c : Bool) :
    L.Tests (acceptIf do return c && (← is "=")) j (j + 1) True := by
  rw [Tests, reads_iff_bind_pure]
  simp only [acceptIf_bind, bind_assoc, pure_bind, reads_is]
  rw [reads_ite_advance fun h => L.lt_size_of_is (Bool.and_eq_true_iff.mp h).2]
  exact ⟨fun _ => .pure fun _ => .inl ⟨rfl, rfl, trivial⟩, fun _ => .pure fun _ => .inr ⟨rfl, rfl⟩⟩

theorem yields_propertyRest (hself : L.Good b self) (hb : b ≤ j + 1) (hij : i ≤ j)
    (hh : L.Heads i j h) {t : ω → TypeRef} {c : TypeRef} (ht : L.Laid i j t c) (name : String)
    (nameSpan : ω → Span) :
    L.Yields i (fun w => propertyRest self (h w) (t w) name (nameSpan w)) j := by
  obtain ⟨⟨g, hh⟩, hstart⟩ := hh
  refine (yields_propertyBody hself hb).bind fun body d k hk hbody => ?_
  have hnone (w : ω) : (body w).2.isNone = d.2.isNone := by simp [← hbody.snd.erase w]
  simp only [hnone]
  refine (Allows.optionalPart (tests_acceptInit _) (Nat.le_succ k) fun _ =>
    (yields_propertyInit hself (by omega)).allows).bind fun init e l hl hinit => ?_
  simp only [hstart, reads_spanFrom]
  have hparts := (hh.pair (ht.pair (.span nameSpan))).andThen (hbody.andThen hinit (by omega) hl)
    (by omega) (by omega)
  exact .pure fun hl' => ⟨by omega, _, hparts.frame
    (fun span x => Node.property
      { span, name, nameSpan := x.1.2.2, type := x.1.2.1, modifiers := x.1.1.modifiers,
        attributes := x.1.1.attributes, accessors := x.2.1.1, exprBody := x.2.1.2,
        initializer := x.2.2, doc := x.1.1.doc })
    (by simp [Node.eraseProperty]) (by omega) hl'⟩

/-- Further variables share the type, so all of them are laid behind it. -/
theorem yields_fieldRest (hself : L.Good b self) (hb : b ≤ j + 1) (hik : i ≤ k) (hkj : k < j)
    (hh : L.Heads i j h) {t : ω → TypeRef} {c : TypeRef} (ht : L.Laid i j t c) (name : String)
    (nameSpan : ω → Span) (hname : ∀ w, (nameSpan w).start = L.start w k) :
    L.Yields i (fun w => fieldRest self (h w) (t w) name (nameSpan w)) j := by
  obtain ⟨⟨g, hh⟩, hstart⟩ := hh
  refine (allows_optionalInit hself hb).bind fun init d l hl hinit => ?_
  -- The first variable was begun before it was known that the member is a field.
  simp only [hname, reads_spanFrom]
  refine .of_le fun hl' => ?_
  have hfirst : L.Laid k l _ _ := ((Laid.span nameSpan).andThen hinit (i := k) (k := k) (by omega)
    (by omega)).frame (fun span x => { span, name, nameSpan := x.1, init := x.2 : VarDeclarator Node })
    (by simp [Node.eraseVar]) (by omega) hl'
  refine (Allows.moreItems fun m hm => yields_varDeclarator hself (by omega)).bind
    fun more cs m hm hmore => ?_
  simp only [reads_discard, reads_expect, hstart, reads_spanFrom]
  have hvars : L.Laid k (m + 1) _ _ :=
    (hfirst.mono (Nat.le_refl k) (by omega)).cons (hmore.mono (by omega) (by omega))
  have hparts := (hh.pair ht).andThen hvars (by omega) (by omega)
  exact fun _ => .pure fun hm' => ⟨by omega, _, hparts.frame
    (fun span x => Node.field
      { span, type := x.1.2, modifiers := x.1.1.modifiers, attributes := x.1.1.attributes,
        vars := x.2, doc := x.1.1.doc })
    (by simp [Node.eraseField]) (by omega) hm'⟩

theorem yields_eventBody (hself : L.Good b self) (hb : b ≤ j + 1) :
    L.Yields j (fun _ => eventBody self) j := by
  simp only [Yields, eventBody, reads_is, reads_ite]
  refine ⟨fun _ => yields_accessors hself hb, fun _ => ?_⟩
  refine (Reads.skipIf tests_accept (Nat.le_succ j) (fun _ => hself.expr (by omega))
    fun _ _ h => Nat.le_of_lt h.1).bind fun _ k hk => ?_
  rw [reads_discard]
  refine (Allows.moreItems fun l hl => yields_varDeclarator hself (by omega)).bind
    fun _ _ l hl _ => ?_
  simp only [reads_discard, reads_expect]
  exact fun _ => .pure fun _ => ⟨by omega, [], .nil⟩

/-- Of the variables behind the first one nothing is kept, so the event is laid up to its
semicolon. -/
theorem yields_eventDecl (hself : L.Good b self) (hb : b ≤ j + 1) (hij : i ≤ j)
    (hh : L.Heads i j h) : L.Yields i (fun w => eventDecl self (h w)) j := by
  obtain ⟨⟨g, hh⟩, hstart⟩ := hh
  simp only [Yields, eventDecl, reads_discard, reads_expect]
  intro _
  refine (yields_type hself (by omega)).bind fun t c k hk ht => ?_
  rw [reads_expectIdent]
  intro _
  refine reads_moreSegments.bindUniform fun segments l hl => ?_
  refine (yields_eventBody hself (by omega)).bind fun accessors cs m hm haccessors => ?_
  simp only [hstart, reads_spanFrom, token_text]
  have hparts := (hh.pair (.token k)).andThen (ht.andThen haccessors (by omega) (by omega))
    (by omega) (by omega)
  exact .pure fun hm' => ⟨by omega, _, hparts.frame
    (fun span x => Node.event
      { span, name := segments.getLast?.getD (L.lexeme k).text, nameSpan := x.1.2.span,
        type := x.2.1, modifiers := x.1.1.modifiers, attributes := x.1.1.attributes,
        accessors := x.2.2 })
    (by simp [Node.eraseEvent, Token.erase]) (by omega) hm'⟩

/-! ### Members -/

theorem uniform_atInterfaceArgs (hself : L.Good b self) (hb : b ≤ j + 1) :
    L.Reads (fun _ => atInterfaceArgs self) j fun c k => k = j ∧ Uniform c := by
  have h : L.Reads (fun _ => do discard <| typeArgs self; is ".") j fun c _ => Uniform c := by
    rw [reads_discard]
    refine (reads_typeArgs hself hb).bind fun _ k _ => ?_
    rw [reads_iff_bind_pure, reads_is]
    exact .pure fun _ => ⟨_, rfl⟩
  simp only [atInterfaceArgs, reads_is]
  refine h.lookahead.bind ?_
  rintro o k ⟨rfl, l, ⟨rfl, -⟩ | ⟨-, rfl, c, rfl⟩⟩
  all_goals exact .pure fun _ => ⟨rfl, _, rfl⟩

/-- The spelling of types that are laid is the same in all layouts. -/
theorem LaidBut.text {ts : ω → List TypeRef} (hts : L.LaidBut .omitted j k ts) :
    ∃ text, ∀ w, ({ span := .none, name := "", args := ts w } : TypeRef).text = text := by
  obtain ⟨os, bs, hos, rfl⟩ := hts
  refine ⟨({ span := .none, name := "", args := TypeRef.omitted.fill bs } : TypeRef).text,
    fun w => ?_⟩
  obtain rfl := hos.erase w
  rw [← TypeRef.text_erase]
  simp [TypeRef.erase_mk, TypeRef.map_erase_fill TypeRef.erase_omitted]

theorem uniform_withInterfaceArgs (hself : L.Good b self) (hb : b ≤ j + 1) (name : String) :
    L.Reads (fun _ => withInterfaceArgs self name) j fun a k => j ≤ k ∧ Uniform a := by
  refine (uniform_atInterfaceArgs hself hb).bindUniform fun c k hk => ?_
  subst hk
  rw [reads_ite]
  refine ⟨fun _ => ?_, fun _ => .pure fun _ => ⟨Nat.le_refl k, _, rfl⟩⟩
  refine (reads_typeArgs hself hb).bind fun ts l hread => ?_
  obtain ⟨hl, hts⟩ := hread
  obtain ⟨text, htext⟩ := hts.text
  simp only [htext]
  exact .pure fun _ => ⟨by omega, _, rfl⟩

/-- The name of a member and its interface are the same in all layouts. -/
theorem uniform_memberNameWithInterface (hself : L.Good b self) (hb : b ≤ j + 1) :
    L.Reads (fun _ => memberNameWithInterface self) j fun a k => j < k ∧ Uniform a := by
  simp only [memberNameWithInterface, reads_identText]
  intro _
  refine (uniform_withInterfaceArgs hself (by omega) _).bindUniform fun first k hk => ?_
  refine Reads.imp (Reads.extend (P := fun a _ => Uniform a) ?_ ⟨_, rfl⟩) fun _ _ _ hread =>
    ⟨Nat.lt_of_lt_of_le hk hread.1, hread.2⟩
  rintro - l hl ⟨⟨name, interface⟩, rfl⟩
  simp only [reads_is, reads_peekIdent, reads_ite, Bool.and_eq_true]
  refine ⟨fun h => ?_, fun _ => .pure fun _ => .none rfl⟩
  have hident := L.lt_size_of_isIdent h.2
  simp only [reads_discard, reads_advance (Nat.lt_of_succ_lt hident), reads_advance hident,
    token_text]
  refine (uniform_withInterfaceArgs hself (by omega) _).bindUniform fun name m hm => ?_
  exact .pure fun _ => .some ⟨by omega, _, rfl⟩

section TypedMember

variable {Q : (ω → Node) → Nat → Prop} {T : (ω → TypeRef) → Nat → Prop}
  {M : Nat → String → String → Nat → Prop}

/-- What is to be known of members that start with a type is known if it is behind the type for
operators and indexers and behind the name for all others. No point stands behind the name of a
method or a property. -/
theorem Reads.typedMember (htype : L.Reads (fun _ => Grammar.type self) j T)
    (hname : ∀ {t k}, T t k → L.Reads (fun _ => memberNameWithInterface self) k
      fun a l => ∃ name interface, a = (fun _ => (name, interface)) ∧ M k name interface l)
    (hoperator : ∀ {t k}, T t k → L.Reads (fun w => operatorDecl self (h w) (t w)) k Q)
    (hindexer : ∀ {t k}, T t k → L.Reads (fun w => indexerDecl self (h w) (t w) "") k Q)
    (hexplicit : ∀ {t k name interface l}, T t k → M k name interface l →
      L.Reads (fun w => indexerDecl self (h w) (t w) name) (l + 1) Q)
    (hmethod : ∀ {t k name interface l}, T t k → M k name interface l →
      (L.lexeme l).is "." = false →
        L.Reads (fun w => methodRest self (h w) (t w) name ⟨L.start w k, L.behind w l⟩ interface) l
          fun m n => Q (fun w => .method (m w)) n)
    (hproperty : ∀ {t k name interface l}, T t k → M k name interface l →
      (L.lexeme l).is "." = false →
        L.Reads (fun w => propertyRest self (h w) (t w) name ⟨L.start w k, L.behind w l⟩) l Q)
    (hfield : ∀ {t k name interface l}, T t k → M k name interface l →
      L.Reads (fun w => fieldRest self (h w) (t w) name ⟨L.start w k, L.behind w l⟩) l Q) :
    L.Reads (fun w => Grammar.typedMember self (h w)) j Q := by
  refine htype.bind fun t k ht => ?_
  simp only [reads_is, reads_peekIs, reads_ite]
  refine ⟨fun _ => hoperator ht, fun _ => ⟨fun _ => hindexer ht, fun _ => ?_⟩⟩
  rw [reads_offset]
  refine (hname ht).bind ?_
  -- The first test behind the name that succeeds decides what the member is.
  rintro - l ⟨name, interface, rfl, hM⟩
  simp only [reads_spanFrom, reads_is, reads_peekIs, reads_ite]
  refine ⟨fun hdot => ?_, fun _ => ⟨fun hparen => ?_, fun _ => ⟨fun hbody => ?_, fun _ =>
    hfield ht hM⟩⟩⟩
  · rw [reads_discard, reads_advance (L.lt_size_of_is (Bool.and_eq_true_iff.mp hdot).1)]
    exact hexplicit ht hM
  · have hpoint : (L.lexeme l).is "." = false := by
      rcases Bool.or_eq_true_iff.mp hparen with h | h <;> exact Token.is_eq_of_is h "."
    exact (hmethod ht hM hpoint).bind fun m n hm => .pure fun _ => hm
  · have hpoint : (L.lexeme l).is "." = false := by
      rcases Bool.or_eq_true_iff.mp hbody with h | h <;> exact Token.is_eq_of_is h "."
    exact hproperty ht hM hpoint

end TypedMember

/-- The type in front decides nothing. What the member is shows behind its name. -/
theorem yields_typedMember (hself : L.Good b self) (hb : b ≤ j + 1) (hij : i ≤ j)
    (hh : L.Heads i j h) : L.Yields i (fun w => typedMember self (h w)) j := by
  -- The readings start at `j` or later, and are to be laid from `i` on.
  refine Reads.typedMember (T := fun t k => j < k ∧ ∃ c, L.Laid j k t c) (M := fun k _ _ l => k < l)
    (yields_type hself hb)
    (fun ⟨hk, _⟩ => (uniform_memberNameWithInterface hself (by omega)).imp ?_)
    (fun ⟨hk, c, ht⟩ => (yields_operatorDecl hself (by omega) (by omega) (hh.mono (by omega))
      (ht.mono hij (Nat.le_refl _))).since (by omega))
    (fun ⟨hk, c, ht⟩ => (yields_indexerDecl hself (by omega) (by omega) (hh.mono (by omega))
      (ht.mono hij (Nat.le_refl _)) "").since (by omega))
    (fun ⟨hk, c, ht⟩ hl => (yields_indexerDecl hself (by omega) (by omega) (hh.mono (by omega))
      (ht.mono hij (by omega)) _).since (by omega))
    (fun ⟨hk, c, ht⟩ hl _ => (yields_methodRest hself (by omega) (by omega) (hh.mono (by omega))
      (ht.mono hij (Nat.le_of_lt hl)) _ _ _).imp ?_)
    (fun ⟨hk, c, ht⟩ hl _ => (yields_propertyRest hself (by omega) (by omega)
      (hh.mono (by omega)) (ht.mono hij (Nat.le_of_lt hl)) _ _).since (by omega))
    (fun {t k name interface l} ⟨hk, c, ht⟩ hl => (yields_fieldRest hself (by omega)
      (Nat.le_trans hij (Nat.le_of_lt hk)) hl (hh.mono (by omega)) (ht.mono hij (Nat.le_of_lt hl))
      name (fun w => ⟨L.start w k, L.behind w l⟩) fun _ => rfl).since (by omega))
  · rintro - l - ⟨hl, ⟨name, interface⟩, rfl⟩
    exact ⟨name, interface, rfl, hl⟩
  · rintro d m - ⟨hm, e, hd⟩
    exact ⟨by omega, _, hd.map (f := Node.method) (fun w x hx => hx) fun x => rfl⟩

section Members

variable {Q : (ω → Node) → Nat → Prop} {H : (ω → Header) → Nat → Prop}

/-- What is to be known of members is known if it is behind a header for members of each kind. -/
theorem Reads.member (hheader : L.Reads (fun _ => header self) j H)
    (hdelegate : ∀ {h k}, H h k → L.Reads (fun w => delegateDecl self (h w)) k Q)
    (htype : ∀ {h k}, H h k → k < L.size → L.Reads (fun w => typeDecl self (h w)) k Q)
    (hdestructor : ∀ {h k}, H h k → L.Reads (fun w => destructorDecl self (h w)) k Q)
    (hevent : ∀ {h k}, H h k → L.Reads (fun w => eventDecl self (h w)) k Q)
    (hconversion : ∀ {h k}, H h k → k < L.size → L.Reads (fun w => conversionDecl self (h w)) k Q)
    (hconstructor : ∀ {h k}, H h k → L.Reads (fun w => constructorDecl self (h w)) k Q)
    (htyped : ∀ {h k}, H h k → L.Reads (fun w => Grammar.typedMember self (h w)) k Q) :
    L.Reads (fun _ => Grammar.member self) j Q := by
  refine hheader.bind fun h k hread => ?_
  simp only [reads_is, reads_ite]
  refine ⟨fun _ => hdelegate hread, fun _ => ?_⟩
  refine Reads.bind tests_atTypeKeyword fun c l hc => ?_
  rcases hc with ⟨rfl, rfl, hj⟩ | ⟨rfl, rfl⟩
  · exact htype hread hj
  simp only [Bool.false_eq_true, if_false, reads_is, reads_isIdent, reads_peekIs, reads_ite,
    Bool.or_eq_true]
  exact ⟨fun _ => hdestructor hread, fun _ => ⟨fun _ => hevent hread, fun _ =>
    ⟨fun hword => hconversion hread (hword.elim L.lt_size_of_is L.lt_size_of_is), fun _ =>
      ⟨fun _ => hconstructor hread, fun _ => htyped hread⟩⟩⟩⟩

/-- One case for each kind of member, from its header on. -/
theorem yields_member (hself : L.Good b self) (hb : b ≤ j + 1) :
    L.Yields j (fun _ => member self) j :=
  Reads.member (reads_header hself hb)
    (fun ⟨hk, hh⟩ => (yields_delegateDecl hself (by omega) hk hh).since hk)
    (fun ⟨hk, hh⟩ hj => (yields_typeDecl hself (by omega) hk hh hj).since hk)
    (fun ⟨hk, hh⟩ => (yields_destructorDecl hself (by omega) hk hh).since hk)
    (fun ⟨hk, hh⟩ => (yields_eventDecl hself (by omega) hk hh).since hk)
    (fun ⟨hk, hh⟩ hj => (yields_conversionDecl hself (by omega) hk hh hj).since hk)
    (fun ⟨hk, hh⟩ => (yields_constructorDecl hself (by omega) hk hh).since hk)
    (fun ⟨hk, hh⟩ => (yields_typedMember hself (by omega) hk hh).since hk)

/-- At namespace level the same header stands in front of a type or a delegate. -/
theorem yields_typeLevelDecl (hself : L.Good b self) (hb : b ≤ j + 1) :
    L.Yields j (fun _ => typeLevelDecl self) j := by
  refine (reads_header hself hb).bind fun h k hread => ?_
  obtain ⟨hk, hh⟩ := hread
  simp only [reads_is, reads_ite]
  refine ⟨fun _ => (yields_delegateDecl hself (by omega) hk hh).since hk, fun _ => ?_⟩
  refine Reads.bind tests_atTypeKeyword fun c l hc => ?_
  rcases hc with ⟨rfl, rfl, hj⟩ | ⟨rfl, rfl⟩
  · exact (yields_typeDecl hself (by omega) hk hh hj).since hk
  · exact reads_failAt (by simp)

/-- What is declared at namespace level may be declared in a type as well. -/
theorem run_member_of_typeLevelDecl {x : Input} {c c' : Grammar.Cursor} {n : Node}
    (hrun : typeLevelDecl self x c = .ok (n, c')) : Grammar.member self x c = .ok (n, c') := by
  rw [typeLevelDecl, run_bind_eq_ok] at hrun
  obtain ⟨h, c₁, hheader, hrun⟩ := hrun
  rw [run_is_bind, run_ite] at hrun
  rw [Grammar.member, run_bind_of_ok hheader, run_is_bind, run_ite]
  split at hrun
  · next hdelegate => rwa [if_pos hdelegate]
  · next hdelegate =>
    rw [if_neg hdelegate]
    obtain ⟨atType, c₂, hatType, hrun⟩ := run_bind_eq_ok.mp hrun
    rw [run_bind_of_ok hatType]
    cases atType with
    | true => exact hrun
    | false => cases hrun

/-- What is known of all that the production for members reads is known of declarations at namespace
level. -/
theorem Reads.typeLevelDecl (hself : L.Good b self) (hb : b ≤ j + 1)
    (hmember : L.Reads (fun _ => Grammar.member self) j Q) [Nonempty ω] :
    L.Reads (fun _ => Grammar.typeLevelDecl self) j Q :=
  ((yields_typeLevelDecl hself hb).andOf hmember fun _ _ _ _ => run_member_of_typeLevelDecl).imp
    fun _ _ _ hread => hread.2

end Members

end Layouts

end CSharpAudit
