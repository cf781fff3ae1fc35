import CSharpAudit.Proofs.Grammar.Argument

/-!
# Expressions and patterns in all layouts

## Main results

* `Layouts.reads_binaryOp?` — an operator is written by tokens that stand in the text
* `Layouts.yields_expr`, `Layouts.yields_unary`, `Layouts.yields_binary` — expressions
* `Layouts.yields_pattern`, `Layouts.yields_primaryPattern` — patterns
-/

namespace CSharpAudit

open Grammar

attribute [local simp] frames_iff Layered.nodes Layered.erase NodeKind.node NodeKind.erase
  Node.nodesBelow Node.children Node.unvisitedNodes Node.span Node.Synthesises Node.ChainedInside
  Node.erase flatMap_singleton_eq_map

namespace Layouts

variable {ω : Type} {L : Layouts ω} {i j k b : Nat} {self : Rules}

/-! ### Braced lists and array sizes -/

/-- An element is a nested list where a brace stands, and an expression elsewhere. -/
theorem yields_initializerElement (hself : L.Good b self) (hb : b ≤ j) :
    L.Yields j (fun _ => initializerElement self) j := by
  simp only [Yields, initializerElement, reads_is, reads_ite]
  refine ⟨fun _ => ?_, fun _ => hself.expr hb⟩
  exact (hself.initializer hb).bind fun a k hread => .pure fun _ => hread

/-- A braced list is laid together with its span, which is that of the braces. -/
theorem reads_initializer (hself : L.Good b self) (hb : b ≤ j + 1) :
    L.Reads (fun _ => initializer self) j fun a k =>
      j < k ∧ ∃ b, L.Laid j k (fun w => Node.initializer (a w).2 (a w).1) b := by
  simp only [initializer, reads_offset]
  refine (Yields.enclosed fun k hk => yields_initializerElement hself (by omega)).bind
    fun elems bs k hk helems => ?_
  rw [reads_spanFrom]
  exact .pure fun hk' => ⟨hk, _, helems.frame Node.initializer (by simp) hk hk'⟩

theorem yields_initializerExpr (hself : L.Good b self) (hb : b ≤ j + 1) :
    L.Yields j (fun _ => initializerExpr self) j :=
  (reads_initializer hself hb).bind fun _ _ hread => .pure fun _ => hread

/-- The elements of a braced list are laid where the list is. -/
theorem Laid.elems {span : ω → Span} {elems : ω → List Node} {n : Node}
    (h : L.Laid j k (fun w => Node.initializer (span w) (elems w)) n) :
    L.Laid j k elems n.children where
  fits w c hc := (h.fits w _ (List.mem_singleton.mpr rfl)).part (by simpa using hc) (by simp)
  erase w := by rw [← h.erase w]; simp

theorem allows_optionalInitializer (hself : L.Good b self) (hb : b ≤ j + 1) :
    L.Allows j (fun _ => optionalInitializer self) j := by
  simp only [Allows, optionalInitializer, reads_is, reads_ite]
  refine ⟨fun _ => ?_, fun _ => .pure fun _ => ⟨Nat.le_refl j, _, .nil⟩⟩
  refine (reads_initializer hself hb).bind fun a k hread => ?_
  obtain ⟨hk, c, h⟩ := hread
  exact .pure fun _ => ⟨Nat.le_of_lt hk, _, h.elems⟩

theorem Fits.argument_value {w : ω} {a : Argument Node} (h : L.Fits w j k (.argument a)) :
    L.Fits w j k a.value :=
  h.part (by simp) (by simp)

theorem Laid.value {a : ω → Argument Node} {c : Argument Node} (h : L.Laid j k a c) :
    L.Laid j k (fun w => (a w).value) c.value where
  fits w n hn := by
    rw [List.mem_singleton.mp hn]
    exact (h.fits w _ (List.mem_singleton.mpr rfl)).argument_value
  erase w := by
    rw [← h.erase w]
    cases a w
    rfl

theorem yields_arraySizes (hself : L.Good b self) (hb : b ≤ j + 1) :
    L.Yields j (fun _ => arraySizes self) j := by
  refine (yields_arguments hself hb).bind fun args bs k hk hargs => ?_
  have hvalues : L.Laid j k (fun w => (args w).map (·.value)) (bs.map (·.value)) := by
    refine hargs.listMap (fun w a ha n hn => ?_) fun a => ?_
    · rw [List.mem_singleton.mp hn]
      exact (ha _ (List.mem_singleton.mpr rfl)).argument_value
    · cases a
      rfl
  exact .pure fun _ => ⟨hk, _, hvalues⟩

/-! ### Creations -/

instance : Layered Creation :=
  ⟨fun c => Layered.nodes (c.type, c.args, c.sizes),
    fun c => ⟨Layered.erase c.type, Layered.erase c.args, Layered.erase c.sizes⟩⟩

theorem Laid.creation {t : ω → Option TypeRef} {args : ω → List (Argument Node)}
    {sizes : ω → List Node} {c : Option TypeRef × List (Argument Node) × List Node}
    (h : L.Laid j k (fun w => (t w, args w, sizes w)) c) :
    L.Laid j k (fun w => (⟨t w, args w, sizes w⟩ : Creation)) ⟨c.1, c.2.1, c.2.2⟩ where
  fits := h.fits
  erase w := by rw [← h.erase w]; rfl

/-- The rank of a type has no layout. -/
theorem Laid.withRank {t : ω → TypeRef} {c : TypeRef} (h : L.Laid j k t c) (rank : Nat) :
    L.Laid j k (fun w => { t w with rank := (t w).rank + rank })
      { c with rank := c.rank + rank } where
  fits w n hn := by
    have ht := h.fits w _ (List.mem_singleton.mpr rfl)
    rw [List.mem_singleton.mp hn]
    refine ht.of_span_eq rfl ?_
    cases ht.nested with
    | intro inside chained below => exact .intro inside chained below
  erase w := by
    rw [← h.erase w]
    cases t w
    simp [Layered.erase, TypeRef.erase_mk]

theorem reads_skipRanks :
    L.Reads (fun _ => repeatWhile (is "[") (skipBalanced "[" "]")) j fun _ k => j ≤ k := by
  refine Reads.imp (Allows.repeatWhile (fun _ _ => tests_is) fun k _ _ => ?_) fun _ _ _ h => h.1
  exact Reads.skipBalanced.imp fun _ _ _ h => ⟨h, (), .unit⟩

/-- The type behind `new` is laid before its sizes or arguments. Ranks that are skipped
leave it where it is. -/
theorem yields_typedCreation (hself : L.Good b self) (hb : b ≤ j + 1) :
    L.Yields j (fun _ => typedCreation self) j := by
  refine (yields_newType hself hb).bind fun t c k hk ht => ?_
  simp only [reads_is, reads_ite]
  refine ⟨fun _ => ?_, fun _ => ?_⟩
  · refine (yields_arraySizes hself (by omega)).bind fun sizes ss l hl hsizes => ?_
    rw [reads_discard]
    refine reads_skipRanks.bind fun _ m hm => ?_
    exact .pure fun _ => ⟨by omega, _, ((ht.withRank 1).some.andThen (Laid.nil.pair hsizes)
      (by omega) (by omega)).creation.mono (Nat.le_refl j) hm⟩
  · refine (Allows.optionalList tests_is (Nat.le_refl k) fun _ =>
      (yields_arguments hself (by omega)).allows).bind fun args as l hl hargs => ?_
    exact .pure fun _ => ⟨by omega, _,
      (ht.some.andThen (hargs.pair .nil) (by omega) (by omega)).creation⟩

theorem allows_creation (hself : L.Good b self) (hb : b ≤ j + 1) :
    L.Allows j (fun _ => creation self) j := by
  simp only [Allows, creation, reads_is, reads_ite]
  refine ⟨fun _ => ?_, fun _ => ⟨fun _ => ?_, fun _ => ⟨fun _ => ?_, fun _ => ?_⟩⟩⟩
  · refine (yields_arguments hself hb).bind fun args as k hk hargs => ?_
    exact .pure fun _ => ⟨by omega, _, (Laid.none.pair (hargs.pair .nil)).creation⟩
  · refine Reads.skipBalanced.bind fun _ k hk => ?_
    exact .pure fun _ => ⟨by omega, _, (Laid.none.pair (Laid.nil.pair .nil)).creation⟩
  · exact .pure fun _ => ⟨Nat.le_refl j, _, (Laid.none.pair (Laid.nil.pair .nil)).creation⟩
  · exact (yields_typedCreation hself hb).allows

theorem yields_newExpr (hself : L.Good b self) (hb : b ≤ j + 1) :
    L.Yields j (fun _ => newExpr self) j := by
  simp only [Yields, newExpr, reads_offset, reads_discard, reads_expect]
  intro _
  refine (allows_creation hself (by omega)).bind fun made c k hk hmade => ?_
  refine (allows_optionalInitializer hself (by omega)).bind fun init is l hl hinit => ?_
  rw [reads_spanFrom]
  exact .pure fun hl => ⟨by omega, _, ((hmade.andThen hinit hk (by omega)).mono (i := j) (by omega)
    (Nat.le_refl l)).frame (fun s x => Node.newExpr s x.1.type x.1.args x.2 x.1.sizes)
    (by simp) (by omega) hl⟩

theorem yields_stackallocExpr (hself : L.Good b self) (hb : b ≤ j + 1) (h : j < L.size) :
    L.Yields j (fun _ => stackallocExpr self) j := by
  simp only [Yields, stackallocExpr, reads_offset, reads_discard, reads_advance h]
  refine (Allows.optionalPart tests_isNot (Nat.le_refl _) fun _ =>
    (yields_type hself (by omega)).allows).bind fun t c k hk ht => ?_
  refine (Allows.optionalList tests_is (Nat.le_refl k) fun _ =>
    (yields_arraySizes hself (by omega)).allows).bind fun sizes ss l hl hsizes => ?_
  refine (allows_optionalInitializer hself (by omega)).bind fun init is m hm hinit => ?_
  rw [reads_spanFrom]
  have hparts := ht.andThen (hsizes.andThen hinit hl hm) hk (by omega)
  exact .pure fun hm => ⟨by omega, _, (hparts.mono (i := j) (by omega) (Nat.le_refl m)).frame
    (fun s x => Node.newExpr s x.1 [] x.2.2 x.2.1) (by simp) (by omega) hm⟩

theorem yields_parenthesizedType (hself : L.Good b self) (hb : b ≤ j + 1) :
    L.Yields j (fun _ => parenthesizedType self) j := by
  simp only [Yields, parenthesizedType, reads_discard, reads_expect]
  intro _
  refine (yields_type hself (by omega)).bind fun t c k hk ht => ?_
  rw [reads_discard, reads_expect]
  exact fun _ => .pure fun _ => ⟨by omega, c, ht.mono (by omega) (by omega)⟩

/-! ### Primary expressions -/

/-- An expression that is a single token. -/
theorem yields_token (h : j < L.size) (mk : Span → Unit → Node) (hmk : Frames mk) :
    L.Yields j (fun w => do
      discard advance
      return mk (← spanFrom (L.start w j)) ()) j := by
  simp only [Yields, reads_discard, reads_advance h, reads_spanFrom]
  exact .pure fun hj => ⟨by omega, _, Laid.unit.frame mk hmk (by omega) hj⟩

theorem yields_typeOf (hself : L.Good b self) (hb : b ≤ j + 1) (h : j < L.size) (keyword : String) :
    L.Yields j (fun w => do
      discard advance
      let ty ← parenthesizedType self
      return Node.typeOf (← spanFrom (L.start w j)) keyword ty) j := by
  simp only [Yields, reads_discard, reads_advance h]
  refine (yields_parenthesizedType hself (by omega)).bind fun t c k hk ht => ?_
  rw [reads_spanFrom]
  exact .pure fun hk => ⟨by omega, _, (ht.mono (i := j) (by omega) (Nat.le_refl k)).frame
    (fun s t => Node.typeOf s keyword t) (by simp) (by omega) hk⟩

/-- What a keyword starts is laid from the keyword on. -/
theorem yields_keywordPrimary (hself : L.Good b self) (hb : b ≤ j + 1) (h : j < L.size) :
    L.Yields j (fun w => keywordPrimary self (L.token w j)) j := by
  simp only [Yields, keywordPrimary, token_text]
  -- one case for each keyword, in the order of the definition
  split
  case h_1 | h_2 | h_3 =>
    exact yields_token h (fun s _ => .literal s _ _) (by simp)
  case h_4 => exact yields_token h (fun s _ => .thisExpr s) (by simp)
  case h_5 => exact yields_token h (fun s _ => .baseExpr s) (by simp)
  case h_6 => exact yields_newExpr hself hb
  case h_7 => exact yields_stackallocExpr hself hb h
  case h_8 | h_9 => exact yields_typeOf hself hb h _
  case h_10 =>
    simp only [reads_discard, reads_advance h, reads_is, reads_ite]
    refine ⟨fun _ => ?_, fun _ => ?_⟩
    · refine (yields_parenthesizedType hself (by omega)).bind fun t c k hk ht => ?_
      rw [reads_spanFrom]
      exact .pure fun hk => ⟨by omega, _, (ht.mono (i := j) (by omega) (Nat.le_refl k)).frame
        (fun s t => Node.typeOf s "default" t) (by simp) (by omega) hk⟩
    · rw [reads_spanFrom]
      exact .pure fun hj => ⟨by omega, _, Laid.unit.frame (fun s _ => Node.defaultExpr s) (by simp)
        (by omega) hj⟩
  case h_11 | h_12 =>
    simp only [reads_discard, reads_advance h, reads_expect]
    intro _
    refine (hself.expr (by omega)).bind fun x c k hk hx => ?_
    simp only [reads_discard, reads_expect, reads_spanFrom]
    exact fun _ => .pure fun hk => ⟨by omega, _, (hx.mono (i := j) (by omega) (by omega)).frame
      Node.paren (by simp) (by omega) hk⟩
  case h_13 =>
    simp only [reads_discard, reads_advance h]
    refine (Allows.optionalList tests_is (Nat.le_refl _) fun _ =>
      (yields_params hself (by omega)).allows).bind fun ps cs k hk hps => ?_
    refine (hself.block (by omega)).bind fun body c l hl hbody => ?_
    rw [reads_spanFrom]
    exact .pure fun hl => ⟨by omega, _, ((hps.andThen hbody hk (by omega)).mono (i := j) (by omega)
      (Nat.le_refl l)).frame (fun s x => Node.lambda s x.1 x.2 false) (by simp) (by omega) hl⟩
  case h_14 =>
    simp only [reads_ite]
    refine ⟨fun _ => ?_, fun _ => reads_failAt (by simp)⟩
    exact yields_token h (fun s _ => .predefinedType s _) (by simp)

/-- A group has the span of its parentheses, as a tuple has. -/
theorem yields_parenOrTuple (hself : L.Good b self) (hb : b ≤ j + 1) :
    L.Yields j (fun _ => parenOrTuple self) j := by
  simp only [Yields, parenOrTuple, reads_offset, reads_discard, reads_expect]
  intro _
  refine (yields_argument hself (by omega)).bind fun first c k hk hfirst => ?_
  -- Name and modifier of the first argument decide between group and tuple.
  have hname (w : ω) : (first w).name = c.name := by
    rw [← hfirst.erase w]
    cases first w
    rfl
  have hmodifier (w : ω) : (first w).modifier = c.modifier := by
    rw [← hfirst.erase w]
    cases first w
    rfl
  simp only [reads_accept, if_true, Bool.false_eq_true, if_false, hname, hmodifier, reads_ite,
    reads_spanFrom]
  refine ⟨fun _ => ⟨fun _ => .pure fun hk => ?_, fun _ => reads_fail (by simp)⟩, fun _ => ?_⟩
  · exact ⟨by omega, _, (hfirst.value.mono (i := j) (by omega) (by omega)).frame Node.paren (by simp)
      (by omega) hk⟩
  · refine (Allows.moreItems fun l hl => yields_argument hself (by omega)).bind
      fun more cs l hl hmore => ?_
    simp only [reads_discard, reads_expect, reads_spanFrom]
    refine fun _ => .pure fun hl => ⟨by omega, _, (Laid.cons (hfirst.mono (i := j) (by omega) (by omega))
      (hmore.mono (by omega) (by omega))).frame Node.tuple (by simp) (by omega) hl⟩

/-- A name with type arguments, of which some may be omitted. -/
theorem LaidBut.ident {ts : ω → List TypeRef} (hts : L.LaidBut .omitted j k ts) (hjk : j < k)
    (hk : k ≤ L.size) (name : String) :
    ∃ b, L.Laid j k (fun w => Node.ident ⟨L.start w j, L.behind w k⟩ name (ts w)) b := by
  obtain ⟨os, bs, hos, rfl⟩ := hts
  refine ⟨_, hos.frame (fun s os => Node.ident s name (TypeRef.omitted.fill os))
    ⟨fun _ _ => rfl, fun s os c hc => ?_, fun _ _ => ?_, fun s os => ?_⟩ hjk hk⟩
  · exact TypeRef.mem_map_type_fill (by simpa [-List.mem_map] using hc)
  · trivial
  · simp [TypeRef.map_erase_fill TypeRef.erase_omitted]

theorem lt_size_of_literalKind? {kind : LiteralKind}
    (h : literalKind? (L.lexeme j).kind = some kind) : j < L.size := by
  refine L.lt_size_of_kind fun hk => ?_
  simp [hk, literalKind?] at h

theorem yields_primary (hself : L.Good b self) (hb : b ≤ j + 1) :
    L.Yields j (fun _ => primary self) j := by
  simp only [Yields, primary, reads_current, token_kind, token_text, token_isIdent, token_is]
  split
  · exact yields_token (lt_size_of_literalKind? ‹_›) (fun s _ => .literal s _ _) (by simp)
  simp only [reads_ite]
  refine ⟨fun _ => ?_, fun _ => ⟨fun h => ?_, fun _ => ⟨fun _ => ?_, fun _ => ⟨fun _ => ?_,
    fun _ => ⟨fun _ => ?_, fun _ => reads_failAt (by simp)⟩⟩⟩⟩⟩
  · refine reads_firstSegment.bindUniform fun name k hk => ?_
    refine (reads_typeArgsInExpr hself (by omega)).bind fun ts l hread => ?_
    obtain ⟨hl, hts⟩ := hread
    have hts : L.LaidBut .omitted j l ts := hts.mono (by omega) (Nat.le_refl l)
    rw [reads_spanFrom]
    exact .pure fun hl => ⟨by omega, hts.ident (by omega) hl name⟩
  · refine yields_keywordPrimary hself hb (L.lt_size_of_kind fun hk => ?_)
    simp [hk] at h
  · exact yields_parenOrTuple hself hb
  · refine (yields_arraySizes hself hb).bind fun elems cs k hk helems => ?_
    rw [reads_spanFrom]
    exact .pure fun hk' => ⟨hk, _, helems.frame Node.initializer (by simp) hk hk'⟩
  · exact yields_initializerExpr hself hb

/-! ### Postfix forms and unary expressions -/

theorem reads_memberName : L.Reads (fun _ => memberName) j fun a k => j < k ∧ Uniform a := by
  simp only [memberName, reads_current, token_isIdent, token_isPredefinedType, token_text,
    reads_ite, reads_discard, Bool.or_eq_true]
  refine ⟨fun h => ?_, fun _ => reads_failAt (by simp)⟩
  rw [reads_advance (h.elim L.lt_size_of_isIdent L.lt_size_of_isPredefinedType)]
  exact .pure fun _ => ⟨by omega, _, rfl⟩

theorem followsForgiveness_token (w : ω) (j : Nat) :
    followsForgiveness (L.token w j) = followsForgiveness (L.lexeme j) := by
  simp [followsForgiveness]

/-- A member access with type arguments, of which some may be omitted. -/
theorem Laid.memberAccess {x : ω → Node} {c : Node} {ts : ω → List TypeRef} (hx : L.Laid j k x c)
    (hts : L.LaidBut .omitted j k ts) (hjk : j < k) (hk : k ≤ L.size) (name : String)
    (nullCond : Bool) :
    ∃ b, L.Laid j k
      (fun w => Node.memberAccess ⟨L.start w j, L.behind w k⟩ (x w) name (ts w) nullCond) b := by
  obtain ⟨os, bs, hos, rfl⟩ := hts
  refine ⟨_, (hx.pair hos).frame
    (fun s x => Node.memberAccess s x.1 name (TypeRef.omitted.fill x.2) nullCond)
    ⟨fun _ _ => rfl, fun s x n hn => ?_, fun _ _ => ?_, fun s x => ?_⟩ hjk hk⟩
  · obtain rfl | hn : n = x.1 ∨ n ∈ (TypeRef.omitted.fill x.2).map .type := by
      simpa [-List.mem_map] using hn
    · exact .inr List.mem_cons_self
    · exact (TypeRef.mem_map_type_fill hn).imp_right (List.mem_cons_of_mem _)
  · trivial
  · simp [TypeRef.map_erase_fill TypeRef.erase_omitted]

/-- A suffix with arguments behind an expression. -/
theorem reads_argumentSuffix (hself : L.Good b self) (hb : b ≤ j + 1) (hij : i < j)
    {opening closing : String} {x : ω → Node} {c : Node} (hx : L.Laid i j x c)
    (mk : Span → Node × List (Argument Node) → Node) (hmk : Frames mk) :
    L.Reads (fun w => do
      let args ← arguments self opening closing
      return some (mk (← spanFrom (L.start w i)) (x w, args))) j
      (Perhaps (fun y k => j < k ∧ ∃ b, L.Laid i k y b) (· = j)) := by
  refine (yields_arguments hself hb).bind fun args cs k hk hargs => ?_
  rw [reads_spanFrom]
  exact .pure fun hk' => .some ⟨hk, _, (hx.andThen hargs (by omega) (by omega)).frame mk hmk
    (by omega) hk'⟩

/-- A postfix form is laid from where the expression in front of it began. -/
theorem mayYield_suffix (hself : L.Good b self) (hb : b ≤ j + 1) (hij : i < j) {x : ω → Node}
    {c : Node} (hx : L.Laid i j x c) :
    L.MayYield i (fun w => suffix self (L.start w i) (x w)) j := by
  -- A question mark touches the bracket behind it in all layouts or in none.
  obtain ⟨d, hjoined, hd⟩ := L.exists_touches (j := j)
    (c := (L.lexeme j).is "?" && (L.lexeme (j + 1)).is "[") fun h => by
      simp_all [Token.joins]
  simp only [MayYield, suffix, reads_isOneOf, reads_is, reads_peekIs, reads_touchesNext, reads_peek,
    followsForgiveness_token, reads_ite, hd]
  refine ⟨fun h => ?_, fun _ => ⟨fun h => ?_, fun _ => ⟨fun _ => ?_, fun _ => ⟨fun _ => ?_,
    fun _ => ⟨fun h => ?_, fun _ => ⟨fun h => ?_, fun _ => .pure fun _ => .none rfl⟩⟩⟩⟩⟩⟩
  · simp only [reads_advance (lt_size_of_any h), token_text]
    refine reads_memberName.bindUniform fun name k hk => ?_
    refine (reads_typeArgsInExpr hself (by omega)).bind fun ts l hread => ?_
    obtain ⟨hl, hts⟩ := hread
    have hx : L.Laid i l x c := hx.mono (Nat.le_refl i) (by omega)
    rw [reads_spanFrom]
    exact .pure fun hl' => .some ⟨by omega, hx.memberAccess (hts.mono (by omega) (Nat.le_refl l))
      (by omega) hl' name _⟩
  · have hj := L.lt_size_of_is (Bool.and_eq_true_iff.mp (hjoined h)).1
    rw [reads_discard, reads_advance hj]
    refine (yields_arguments hself (by omega)).bind fun args cs k hk hargs => ?_
    rw [reads_spanFrom]
    exact .pure fun hk' => .some ⟨by omega, _, (hx.andThen hargs (by omega) (by omega)).frame
      (fun s x => Node.elementAccess s x.1 x.2 true) (by simp +contextual) (by omega) hk'⟩
  · exact reads_argumentSuffix hself hb hij hx (fun s x => .invocation s x.1 x.2)
      (by simp +contextual)
  · exact reads_argumentSuffix hself hb hij hx (fun s x => .elementAccess s x.1 x.2 false)
      (by simp +contextual)
  · simp only [reads_advance (lt_size_of_any h), token_text, reads_spanFrom]
    exact .pure fun hj => .some ⟨by omega, _, (hx.mono (Nat.le_refl i) (Nat.le_succ j)).frame
      (fun s x => Node.unary s (L.lexeme j).text x true) (by simp) (by omega) hj⟩
  · simp only [reads_discard, reads_advance (L.lt_size_of_is (Bool.and_eq_true_iff.mp h).1),
      reads_spanFrom]
    exact .pure fun hj => .some ⟨by omega, _, (hx.mono (Nat.le_refl i) (Nat.le_succ j)).frame
      (fun s x => Node.unary s "!" x true) (by simp) (by omega) hj⟩

theorem yields_switchArm (hself : L.Good b self) (hb : b ≤ j) :
    L.Yields j (fun _ => switchArm self) j := by
  simp only [Yields, switchArm, reads_offset]
  refine (hself.pattern hb).bind fun pattern c k hk hpattern => ?_
  refine (Allows.optionalPart tests_acceptWord (Nat.le_succ k) fun _ =>
    (hself.expr (by omega)).allows).bind fun guard d l hl hguard => ?_
  rw [reads_discard, reads_expect]
  intro _
  refine (hself.expr (by omega)).bind fun value e m hm hvalue => ?_
  rw [reads_spanFrom]
  have hparts := hpattern.andThen (hguard.andThen hvalue (by omega) (by omega)) (by omega)
    (by omega)
  exact .pure fun hm => ⟨by omega, _, hparts.frame
    (fun s x => Node.switchArm s x.1 x.2.1 x.2.2) (by simp) (by omega) hm⟩

/-- The arms are laid inside of the braces, and the whole from where its operand began. -/
theorem yields_switchExpr (hself : L.Good b self) (hb : b ≤ j + 1) (hij : i < j) {x : ω → Node}
    {c : Node} (hx : L.Laid i j x c) :
    L.Yields i (fun w => switchExpr self (L.start w i) (x w)) j := by
  simp only [Yields, switchExpr, reads_discard, reads_expect]
  intro _
  refine (Yields.enclosed fun k hk => yields_switchArm hself (by omega)).bind
    fun arms cs k hk harms => ?_
  rw [reads_spanFrom]
  exact .pure fun hk' => ⟨by omega, _, (hx.andThen harms (by omega) (by omega)).frame
    (fun s x => Node.switchExpr s x.1 x.2) (by simp) (by omega) hk'⟩

theorem continuesPattern_token (w : ω) (j : Nat) :
    continuesPattern (L.token w j) = continuesPattern (L.lexeme j) := by
  simp [continuesPattern]

theorem startsOperand_token (w : ω) (j : Nat) :
    startsOperand (L.token w j) = startsOperand (L.lexeme j) := by
  simp [startsOperand]

/-- Whether a token may follow a cast does not depend on the layout. -/
theorem followsCast_token {t : TypeRef} (w : ω) (j : Nat) :
    followsCast t (L.token w j) = followsCast t.erase (L.lexeme j) := by
  simp [followsCast, continuesPattern_token, startsOperand_token, TypeRef.isTuple]

theorem mayYield_castType? (hself : L.Good b self) (hb : b ≤ j + 1) :
    L.MayYield j (fun _ => castType? self) j := by
  refine Yields.attempt ?_
  simp only [Yields, reads_discard, reads_expect]
  intro _
  refine (hself.type hb).bind fun t c k hk ht => ?_
  have hfollows (w : ω) : followsCast (t w) (L.token w (k + 1)) = followsCast c (L.lexeme (k + 1)) := by
    rw [← ht.erase w]
    exact followsCast_token w (k + 1)
  simp only [reads_discard, reads_expect, reads_current, hfollows, reads_ite]
  exact fun _ => ⟨fun _ => .pure fun _ => ⟨by omega, c, ht.mono (by omega) (by omega)⟩,
    fun _ => reads_fail (by simp)⟩

/-- A cast is tried. Where no operand follows, the cursor is back at the parenthesis in all
layouts. -/
theorem mayYield_cast? (hself : L.Good b self) (hb : b ≤ j + 1) :
    L.MayYield j (fun _ => cast? self) j := by
  simp only [MayYield, cast?, reads_offset]
  refine (mayYield_castType? hself hb).bind (.pure fun _ => .none rfl) fun t c k hk ht => ?_
  refine (hself.unary (by omega)).bind fun x d l hl hx => ?_
  rw [reads_spanFrom]
  exact .pure fun hl' => .some ⟨by omega, _, (ht.andThen hx (by omega) (by omega)).frame
    (fun s x => Node.cast s x.1 x.2) (by simp) (by omega) hl'⟩

theorem reads_atCast (hself : L.Good b self) (hb : b ≤ j + 1) :
    L.Reads (fun _ => atCast self) j fun c k => k = j ∧ Uniform c := by
  refine (Reads.lookahead (mayYield_cast? hself hb)).bind ?_
  rintro o k ⟨rfl, l, ⟨rfl, -⟩ | ⟨o, rfl, ⟨rfl, -⟩ | ⟨x, rfl, -⟩⟩⟩
  all_goals exact .pure fun _ => ⟨rfl, _, rfl⟩

theorem yields_unary (hself : L.Good b self) (hb : b ≤ j + 1) :
    L.Yields j (fun _ => unary self) j := by
  simp only [Yields, unary, reads_current, token_kind, token_text, reads_ite, token_isWord]
  -- a prefix, and else a cast, an `await`, or an operand with its suffixes
  refine ⟨fun h => ?_, fun _ => ?_⟩
  · have hj : j < L.size := L.lt_size_of_kind fun hk => by simp [hk] at h
    rw [reads_discard, reads_advance hj]
    refine (hself.unary (by omega)).bind fun x c k hk hx => ?_
    rw [reads_spanFrom]
    exact .pure fun hk' => ⟨by omega, _, (hx.mono (i := j) (by omega) (Nat.le_refl k)).frame
      (fun s x => Node.unary s (L.lexeme j).text x false) (by simp) (by omega) hk'⟩
  · refine (mayYield_cast? hself hb).bind ?_ fun x c k hk hx => .pure fun _ => ⟨hk, c, hx⟩
    simp only [reads_peek, startsOperand_token, reads_ite, Bool.and_eq_true]
    refine ⟨fun h => ?_, fun _ => ?_⟩
    · rw [reads_discard, reads_advance (L.lt_size_of_isWord h.1)]
      refine (hself.unary (by omega)).bind fun x c k hk hx => ?_
      rw [reads_spanFrom]
      exact .pure fun hk' => ⟨by omega, _, (hx.mono (i := j) (by omega) (Nat.le_refl k)).frame
        Node.await (by simp) (by omega) hk'⟩
    · refine (yields_primary hself hb).bind fun x c k hk hx => ?_
      refine (Allows.extend hx fun x c l hl hx =>
        mayYield_suffix hself (by omega) (by omega) hx).bind fun x c l hl hx => ?_
      simp only [reads_is, reads_peekIs, reads_ite]
      refine ⟨fun _ => ?_, fun _ => .pure fun _ => ⟨by omega, c, hx⟩⟩
      exact Reads.imp (yields_switchExpr hself (by omega) (by omega) hx) fun _ _ _ hread =>
        ⟨Nat.lt_of_le_of_lt (by omega) hread.1, hread.2⟩

/-! ### Binary expressions -/

/-- The operator at a place is the same in all layouts, and its tokens stand in the text. -/
theorem reads_binaryOp? :
    L.Reads (fun _ => binaryOp?) j fun o k =>
      k = j ∧ ∃ op? : Option Operator, (o = fun _ => op?) ∧
        ∀ op ∈ op?, 0 < op.width ∧ j + op.width ≤ L.size := by
  -- the three tests on tokens that touch are the same in all layouts
  obtain ⟨shift, hshift, hd⟩ := L.exists_touches (j := j)
    (c := (L.lexeme j).is ">" && (L.lexeme (j + 1)).is ">") fun h => by simp_all [Token.joins]
  obtain ⟨triple, htriple, he⟩ := L.exists_touches (j := j + 1)
    (c := (L.lexeme (j + 1)).is ">" && (L.lexeme (j + 2)).is ">") fun h => by
      simp_all [Token.joins]
  obtain ⟨assign, -, hf⟩ := L.exists_touches (j := j)
    (c := (L.lexeme j).is ">" && (L.lexeme (j + 1)).is ">=") fun h => by simp_all [Token.joins]
  simp only [binaryOp?, reads_current, token_kind, token_text, reads_ite]
  refine ⟨fun h => .pure fun _ => ⟨rfl, _, rfl, ?_⟩, fun _ => ⟨fun _ => .pure fun _ =>
    ⟨rfl, none, rfl, by simp⟩, fun hkind => ?_⟩⟩
  · have hj : j < L.size := L.lt_size_of_kind fun hk => by simp [hk] at h
    simp
    omega
  have hkind : (L.lexeme j).kind = .punct := by simpa using hkind
  have his (s : String) : ((L.lexeme j).text == s) = (L.lexeme j).is s := by simp [Token.is, hkind]
  have hshift' (w : ω) : ((L.lexeme j).text == ">" && (L.token w j).touches (L.token w (j + 1)) &&
      (L.lexeme (j + 1)).is ">") = shift := by
    rw [his, Bool.and_right_comm]
    exact hd w
  have hassign' (w : ω) : ((L.lexeme j).text == ">" && (L.token w j).touches (L.token w (j + 1)) &&
      (L.lexeme (j + 1)).is ">=") = assign := by
    rw [his, Bool.and_right_comm]
    exact hf w
  simp only [reads_touchesNext, reads_peekIs, reads_nextTouches, hshift', hassign', reads_ite]
  refine ⟨fun h => ?_, fun _ => ⟨fun _ => .pure fun _ => ⟨rfl, none, rfl, by simp⟩, fun _ => ?_⟩⟩
  · have hnext := (Bool.and_eq_true_iff.mp (hshift h)).2
    simp only [hnext, Bool.true_and] at he htriple
    have hj := L.lt_size_of_is hnext
    simp only [he, reads_ite]
    refine ⟨fun h => .pure fun _ => ⟨rfl, _, rfl, ?_⟩, fun _ => .pure fun _ => ⟨rfl, _, rfl, ?_⟩⟩
    · have := L.lt_size_of_is (htriple h)
      simp
      omega
    · simp
      omega
  · have hj : j < L.size := L.lt_size_of_kind (by simp [hkind])
    refine .pure fun _ => ⟨rfl, _, rfl, ?_⟩
    simp
    omega

theorem yields_declaration {ty : Parser TypeRef} (hty : L.Yields j (fun _ => ty) j) :
    L.Yields j (fun _ => declaration ty) j := by
  refine hty.bind fun t c k hk ht => ?_
  simp only [atDesignation, bind_assoc, pure_bind, reads_current, token_isIdent,
    continuesPattern_token, reads_ite, Bool.and_eq_true]
  refine ⟨fun h => ?_, fun _ => reads_fail (by simp)⟩
  simp only [reads_advance (L.lt_size_of_isIdent h.1), token_text]
  exact .pure fun _ => ⟨by omega, _, ht.andThen (.text _) (Nat.le_refl j) (Nat.le_succ k)⟩

/-- A type that is named like an expression and covers the same text. -/
theorem Laid.named {x : ω → Node} {c : Node} (h : L.Laid j k x c) (name : String) :
    L.Laid j k (fun w => { span := (x w).span, name : TypeRef }) { span := .none, name } where
  fits w n hn := by
    rw [List.mem_singleton.mp hn]
    exact (h.fits w (x w) (List.mem_singleton.mpr rfl)).of_span_eq rfl
      (.intro (by simp) trivial (by simp))
  erase w := rfl

/-- The test tries a declaration first, then a pattern. Which of them succeeds is the same
in all layouts. -/
theorem yields_typeTest (hself : L.Good b self) (hb : b ≤ j) (hij : i < j) {x : ω → Node}
    {c : Node} (hx : L.Laid i j x c) :
    L.Yields i (fun w => typeTest self (L.start w i) (x w)) j := by
  refine uniform_acceptWord.bindUniform fun negated k hk => ?_
  refine (yields_declaration (hself.type (by omega))).attempt.bind ?_ fun t d l hl ht => ?_
  · refine (hself.pattern (by omega)).bind fun pattern d l hl hpattern => ?_
    have hname (w : ω) : (pattern w).qualifiedName = d.qualifiedName := by
      rw [← hpattern.erase w]
      exact (Node.qualifiedName_erase _).symm
    obtain ⟨e, htype⟩ := (hpattern.named d.qualifiedName).keptUnless
      (d.qualifiedName.isEmpty = true)
    simp only [hname, reads_spanFrom]
    have hparts := hx.andThen (htype.pair hpattern.some) (by omega) (by omega)
    exact .pure fun hl' => ⟨by omega, _, hparts.frame
      (fun s x => Node.isExpr s x.1 x.2.1 x.2.2 "" negated) (by simp) (by omega) hl'⟩
  · have hname (w : ω) : (t w).2 = d.2 := ht.snd.erase w
    simp only [hname, reads_spanFrom]
    exact .pure fun hl' => ⟨by omega, _, (hx.andThen ht.fst.some (by omega) (by omega)).frame
      (fun s x => Node.isExpr s x.1 x.2 none d.2 negated) (by simp) (by omega) hl'⟩

theorem yields_rightOperand (hself : L.Good b self) (hb : b ≤ j) (op : Operator) :
    L.Yields j (fun _ => rightOperand self op) j := by
  simp only [Yields, rightOperand, reads_ite, reads_is, reads_offset, reads_discard]
  refine ⟨fun _ => ⟨fun h => ?_, fun _ => hself.binary hb⟩, fun _ => hself.binary hb⟩
  rw [reads_advance (L.lt_size_of_is h)]
  refine (hself.expr (by omega)).bind fun x c k hk hx => ?_
  rw [reads_spanFrom]
  exact .pure fun hk' => ⟨by omega, _, (hx.mono (i := j) (by omega) (Nat.le_refl k)).frame
    Node.throwExpr (by simp) (by omega) hk'⟩

/-- One more operator is laid from where the left operand began. The tokens that write it
touch in all layouts or in none. -/
theorem mayYield_binaryStep (hself : L.Good b self) (hb : b ≤ j + 1) (hij : i < j)
    {minimum : Nat} {x : ω → Node} {c : Node} (hx : L.Laid i j x c) :
    L.MayYield i (fun w => binaryStep self (L.start w i) minimum (x w)) j := by
  simp only [MayYield, binaryStep]
  refine reads_binaryOp?.bind ?_
  rintro - k ⟨rfl, op?, rfl, hwidth⟩
  cases op? with
  | none => exact .pure fun _ => .none rfl
  | some op =>
    obtain ⟨hpos, hsize⟩ := hwidth op rfl
    simp only [reads_ite]
    -- An operator that binds too loosely is left to the caller.
    refine ⟨fun _ => .pure fun _ => .none rfl, fun _ => ?_⟩
    rw [reads_advanceBy hsize]
    have hx : L.Laid i (k + op.width) x c := hx.mono (Nat.le_refl i) (by omega)
    simp only [reads_ite]
    refine ⟨fun _ => ?_, fun _ => ⟨fun _ => ?_, fun _ => ?_⟩⟩
    · refine (yields_typeTest hself (by omega) (by omega) hx).bind fun y d l hl hy => ?_
      exact .pure fun _ => .some ⟨by omega, d, hy⟩
    · refine (hself.type (by omega)).bind fun t d l hl ht => ?_
      rw [reads_spanFrom]
      exact .pure fun hl' => .some ⟨by omega, _, (hx.andThen ht (by omega) (by omega)).frame
        (fun s x => Node.asExpr s x.1 x.2) (by simp) (by omega) hl'⟩
    · refine (yields_rightOperand hself (by omega) op).bind fun y d l hl hy => ?_
      rw [reads_spanFrom]
      exact .pure fun hl' => .some ⟨by omega, _, (hx.andThen hy (by omega) (by omega)).frame
        (fun s x => Node.binary s op.text x.1 x.2) (by simp) (by omega) hl'⟩

/-- Operators of at least the given precedence are laid one around the other. -/
theorem yields_binary (hself : L.Good b self) (hb : b ≤ j + 1) (minimum : Nat) :
    L.Yields j (fun _ => binary self minimum) j := by
  simp only [Yields, binary, reads_offset]
  refine (yields_unary hself hb).bind fun x c k hk hx => ?_
  exact Reads.imp (Allows.extend hx fun x c l hl hx =>
    mayYield_binaryStep hself (by omega) (by omega) hx) fun _ _ _ hread =>
    ⟨Nat.lt_of_lt_of_le hk hread.1, hread.2⟩

theorem yields_conditional (hself : L.Good b self) (hb : b ≤ j + 1) :
    L.Yields j (fun _ => conditional self) j := by
  simp only [Yields, conditional, reads_offset]
  refine (yields_binary hself hb _).bind fun cond c k hk hcond => ?_
  simp only [reads_accept, if_true, Bool.false_eq_true, if_false]
  refine ⟨fun _ => ?_, fun _ => .pure fun _ => ⟨hk, c, hcond⟩⟩
  refine (hself.expr (by omega)).bind fun thenValue d l hl hthen => ?_
  rw [reads_discard, reads_expect]
  intro _
  refine (hself.expr (by omega)).bind fun elseValue e m hm helse => ?_
  rw [reads_spanFrom]
  have hparts := hcond.andThen (hthen.andThen helse (by omega) (by omega)) (by omega) (by omega)
  exact .pure fun hm => ⟨by omega, _, hparts.frame
    (fun s x => Node.conditional s x.1 x.2.1 x.2.2) (by simp) (by omega) hm⟩

theorem yields_assigned (hself : L.Good b self) (hb : b ≤ j) (op : String) :
    L.Yields j (fun _ => assigned self op) j := by
  simp only [Yields, assigned, reads_is, reads_ite]
  refine ⟨fun _ => yields_initializerExpr hself (by omega), fun _ => ?_⟩
  simp only [reads_discard, acceptIf_bind, bind_assoc, pure_bind, reads_is]
  rw [reads_ite_advance fun h => L.lt_size_of_is (Bool.and_eq_true_iff.mp h).2]
  refine ⟨fun _ => ?_, fun _ => hself.expr hb⟩
  refine Reads.imp (hself.expr (j := j + 1) (by omega)) fun _ k _ hread => ?_
  obtain ⟨hk, c, h⟩ := hread
  exact ⟨by omega, c, h.mono (Nat.le_succ j) (Nat.le_refl k)⟩

/-- An expression is a lambda, an assignment or a conditional expression. Each is laid from
its first token on. -/
theorem yields_expr (hself : L.Good b self) (hb : b ≤ j + 1) :
    L.Yields j (fun _ => expr self) j := by
  simp only [Yields, expr, reads_offset]
  refine (mayYield_lambda? hself hb).bind ?_ fun x c k hk hx => .pure fun _ => ⟨hk, c, hx⟩
  simp only [reads_accept, if_true, Bool.false_eq_true, if_false]
  refine ⟨fun _ => ?_, fun _ => ?_⟩
  · refine (hself.expr (by omega)).bind fun x c k hk hx => ?_
    rw [reads_spanFrom]
    exact .pure fun hk' => ⟨by omega, _, (hx.mono (i := j) (by omega) (Nat.le_refl k)).frame
      Node.throwExpr (by simp) (by omega) hk'⟩
  -- Only the sign behind the left side tells an assignment.
  refine (yields_conditional hself hb).bind fun lhs c k hk hlhs => ?_
  obtain ⟨shift, hshift, hd⟩ := L.exists_touches (j := k)
    (c := (L.lexeme k).is ">" && (L.lexeme (k + 1)).is ">=") fun h => by simp_all [Token.joins]
  simp only [reads_is, reads_peekIs, reads_touchesNext, hd, reads_ite, reads_current, token_kind,
    token_text]
  refine ⟨fun h => ?_, fun _ => ⟨fun h => ?_, fun _ => .pure fun _ => ⟨hk, c, hlhs⟩⟩⟩
  · rw [reads_advanceBy (L.lt_size_of_is (Bool.and_eq_true_iff.mp (hshift h)).2)]
    refine (hself.expr (by omega)).bind fun rhs d l hl hrhs => ?_
    rw [reads_spanFrom]
    exact .pure fun hl' => ⟨by omega, _, (hlhs.andThen hrhs (by omega) (by omega)).frame
      (fun s x => Node.assign s ">>=" x.1 x.2) (by simp) (by omega) hl'⟩
  · have hk' : k < L.size := L.lt_size_of_kind fun hk => by simp [hk] at h
    rw [reads_discard, reads_advance hk']
    refine (yields_assigned hself (by omega) _).bind fun rhs d l hl hrhs => ?_
    rw [reads_spanFrom]
    exact .pure fun hl' => ⟨by omega, _, (hlhs.andThen hrhs (by omega) (by omega)).frame
      (fun s x => Node.assign s (L.lexeme k).text x.1 x.2) (by simp) (by omega) hl'⟩

/-! ### Patterns -/

theorem reads_acceptDesignation : L.Reads (fun _ => acceptDesignation) j fun _ k => j ≤ k := by
  simp only [acceptDesignation, atDesignation, bind_assoc, pure_bind, reads_current, token_isIdent,
    continuesPattern_token, reads_ite, Bool.and_eq_true]
  refine ⟨fun h => ?_, fun _ => .pure fun _ => Nat.le_refl j⟩
  rw [reads_iff_bind_pure, reads_discard, reads_advance (L.lt_size_of_isIdent h.1)]
  exact .pure fun _ => Nat.le_succ j

/-- Patterns in brackets are skipped up to the bracket that closes them. -/
theorem yields_bracketPattern {opening closing : String} :
    L.Yields j (fun _ => bracketPattern opening closing) j := by
  simp only [Yields, bracketPattern, reads_offset]
  refine Reads.skipBalanced.bind fun _ k hk => ?_
  refine reads_acceptDesignation.bind fun _ l hl => ?_
  rw [reads_spanFrom]
  exact .pure fun hl' => ⟨by omega, _, Laid.unit.frame (fun s _ => Node.initializer s []) (by simp)
    (by omega) hl'⟩

theorem reads_skipSubpattern : L.Reads (fun _ => skipSubpattern) j fun _ k => j ≤ k := by
  simp only [skipSubpattern, reads_is, reads_ite]
  refine ⟨fun _ => ?_, fun _ => .pure fun _ => Nat.le_refl j⟩
  refine Reads.skipBalanced.bind fun _ k hk => ?_
  exact reads_acceptDesignation.imp fun _ _ _ _ => by omega

theorem yields_primaryPattern (hself : L.Good b self) (hb : b ≤ j + 1) :
    L.Yields j (fun _ => primaryPattern self) j := by
  have hfold (w : ω) : (L.token w j).is = (L.lexeme j).is := funext (L.token_is w j)
  simp only [Yields, primaryPattern, reads_current, token_isWord, hfold, token_text, reads_ite]
  refine ⟨fun h => ?_, fun _ => ⟨fun h => ?_, fun _ => ⟨fun _ => yields_bracketPattern,
    fun _ => ⟨fun _ => yields_bracketPattern, fun _ => ?_⟩⟩⟩⟩
  · rw [reads_discard, reads_advance (L.lt_size_of_isWord h)]
    refine (hself.primaryPattern (by omega)).bind fun x c k hk hx => ?_
    rw [reads_spanFrom]
    exact .pure fun hk' => ⟨by omega, _, (hx.mono (i := j) (by omega) (Nat.le_refl k)).frame
      (fun s x => Node.unary s "not" x false) (by simp) (by omega) hk'⟩
  · rw [reads_discard, reads_advance (lt_size_of_any h)]
    refine (hself.binary (by omega)).bind fun x c k hk hx => ?_
    rw [reads_spanFrom]
    exact .pure fun hk' => ⟨by omega, _, (hx.mono (i := j) (by omega) (Nat.le_refl k)).frame
      (fun s x => Node.unary s (L.lexeme j).text x false) (by simp) (by omega) hk'⟩
  simp only [reads_peekIdent, reads_ite, Bool.and_eq_true]
  refine ⟨fun h => ?_, fun _ => ?_⟩
  · have hj := L.lt_size_of_isIdent h.2
    simp only [reads_discard, reads_advance (Nat.lt_of_succ_lt hj), reads_advance hj, token_text,
      reads_spanFrom]
    exact .pure fun hj' => ⟨by omega, _, Laid.unit.frame
      (fun s _ => Node.declExpr s none (L.lexeme (j + 1)).text) (by simp) (by omega) hj'⟩
  -- A pattern in parentheses, one with a type in front, or an expression is left.
  refine (reads_atCast hself hb).bindUniform fun cast k hk => ?_
  subst hk
  simp only [reads_ite]
  refine ⟨fun h => ?_, fun _ => ?_⟩
  · rw [reads_discard, reads_advance (L.lt_size_of_is h.1)]
    refine (hself.pattern (by omega)).bind fun x c l hl hx => ?_
    simp only [reads_discard, reads_expect, reads_spanFrom]
    exact fun _ => .pure fun hl' => ⟨by omega, _, (hx.mono (i := k) (by omega) (by omega)).frame
      Node.paren (by simp) (by omega) hl'⟩
  · refine (yields_declaration (yields_type hself hb)).attempt.bind ?_ fun t d l hl ht => ?_
    · refine (yields_binary hself hb _).bind fun x c l hl hx => ?_
      refine reads_skipSubpattern.bind fun _ m hm => ?_
      exact .pure fun _ => ⟨by omega, c, hx.mono (Nat.le_refl k) hm⟩
    · have hname (w : ω) : (t w).2 = d.2 := ht.snd.erase w
      simp only [hname, reads_spanFrom]
      exact .pure fun hl' => ⟨by omega, _, ht.fst.some.frame
        (fun s x => Node.declExpr s x d.2) (by simp) (by omega) hl'⟩

theorem yields_pattern (hself : L.Good b self) (hb : b ≤ j + 1) :
    L.Yields j (fun _ => pattern self) j := by
  simp only [Yields, pattern, reads_offset]
  refine (yields_primaryPattern hself hb).bind fun x c k hk hx => ?_
  refine Reads.imp (Allows.extend hx fun x c l hl hx => ?_) fun _ _ _ hread =>
    ⟨Nat.lt_of_lt_of_le hk hread.1, hread.2⟩
  simp only [MayYield, reads_isWord, reads_ite, Bool.or_eq_true]
  refine ⟨fun h => ?_, fun _ => .pure fun _ => .none rfl⟩
  simp only [reads_advance (h.elim L.lt_size_of_isWord L.lt_size_of_isWord), token_text]
  refine (hself.primaryPattern (by omega)).bind fun y d m hm hy => ?_
  rw [reads_spanFrom]
  exact .pure fun hm' => .some ⟨by omega, _, (hx.andThen hy (by omega) (by omega)).frame
    (fun s x => Node.binary s (L.lexeme l).text x.1 x.2) (by simp) (by omega) hm'⟩

end Layouts

end CSharpAudit
