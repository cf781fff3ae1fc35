import CSharpAudit.Proofs.Productions

/-!
# Types in all layouts

## Main results

* `Layouts.reads_qualifiedName` — a dotted name is the same in all layouts
* `Layouts.yields_type` — a type is laid between its first and its last token
* `Layouts.reads_typeArgs` — so are type arguments, unless they are omitted
-/

namespace CSharpAudit

open Grammar

namespace Layouts

variable {ω : Type} {L : Layouts ω} {i j k b : Nat} {self : Rules}

/-! ### Names -/

/-- The segments of a name are the same in all layouts. -/
theorem reads_moreSegments :
    L.Reads (fun _ => moreSegments) j fun a k => j ≤ k ∧ Uniform a := by
  refine (Reads.repeatWhile (I := fun _ a _ => Uniform a) fun k _ => ?_).imp
    fun _ _ _ hread => ⟨hread.1, hread.2.uniform⟩
  simp only [optionalPart, bind_assoc, pure_bind, reads_is, reads_peekIdent, reads_ite,
    Bool.and_eq_true]
  refine ⟨fun hsegment => ?_, fun _ => .pure fun _ => .none (Nat.le_refl k)⟩
  have hk := L.lt_size_of_isIdent hsegment.2
  rw [reads_discard, reads_advance (by omega)]
  simp only [reads_advance hk, token_text]
  exact .pure fun _ => .some ⟨by omega, _, rfl⟩

theorem reads_firstSegment :
    L.Reads (fun _ => firstSegment) j fun a k => j < k ∧ Uniform a := by
  simp only [firstSegment, reads_identText, reads_accept, if_true, Bool.false_eq_true, if_false]
  refine fun _ => ⟨fun _ => ?_, fun _ => .pure fun _ => ⟨by omega, _, rfl⟩⟩
  rw [reads_iff_bind_pure, reads_identText]
  exact fun _ => .pure fun _ => ⟨by omega, _, rfl⟩

/-- A dotted name is the same in all layouts. -/
theorem reads_qualifiedName :
    L.Reads (fun _ => qualifiedName) j fun a k => j < k ∧ Uniform a := by
  refine reads_firstSegment.bindUniform fun first k hk => ?_
  refine reads_moreSegments.bindUniform fun more l hl => ?_
  exact .pure fun _ => ⟨by omega, _, rfl⟩

/-! ### Type arguments -/

/-- A type argument is laid where it is read, unless it is omitted. -/
theorem reads_typeArg (hself : L.Good b self) (hb : b ≤ j) :
    L.Reads (fun _ => typeArg self) j fun t k => j ≤ k ∧
      ∃ (o : ω → Option TypeRef) (b : Option TypeRef),
        L.Laid j k o b ∧ t = fun w => (o w).getD .omitted := by
  simp only [typeArg, reads_is, reads_ite]
  refine ⟨fun _ => .pure fun _ => ⟨Nat.le_refl j, fun _ => none, none, .none, rfl⟩, fun _ => ?_⟩
  refine (hself.type hb).imp fun t k _ hread => ?_
  obtain ⟨hjk, c, hc⟩ := hread
  exact ⟨Nat.le_of_lt hjk, fun w => some (t w), some c, hc.some, rfl⟩

/-- Type arguments are laid between their angle brackets, unless they are omitted. -/
theorem reads_typeArgs (hself : L.Good b self) (hb : b ≤ j + 1) :
    L.Reads (fun _ => typeArgs self) j fun ts k => j < k ∧ L.LaidBut .omitted j k ts := by
  simp only [typeArgs, reads_discard, reads_expect]
  intro _
  refine (Reads.separated (n := 0) fun k hk => reads_typeArg hself (by omega)).bind ?_
  rintro ts k ⟨hk, hts⟩
  simp only [reads_discard, reads_expect]
  exact fun _ => .pure fun _ => ⟨by omega, hts.laidBut.mono (by omega) (by omega)⟩

theorem reads_replaceArgs (hself : L.Good b self) (hb : b ≤ j + 1) (hij : i ≤ j)
    {args : ω → List TypeRef} (hargs : L.LaidBut .omitted i j args) :
    L.Reads (fun w => replaceArgs self (args w)) j fun ts k =>
      j ≤ k ∧ L.LaidBut .omitted i k ts := by
  simp only [replaceArgs, reads_is, reads_ite]
  refine ⟨fun _ => ?_, fun _ => .pure fun _ => ⟨Nat.le_refl j, hargs⟩⟩
  refine (reads_typeArgs hself hb).imp fun ts k _ hread => ?_
  obtain ⟨hjk, hts⟩ := hread
  exact ⟨Nat.le_of_lt hjk, hts.mono hij (Nat.le_refl k)⟩

/-! ### Types without span -/

variable (L) in
/-- A type whose arguments are laid between two indices. All else is the same in all layouts. -/
def Unspanned (j k : Nat) (t : ω → TypeRef) : Prop :=
  ∃ (base : TypeRef) (args : ω → List TypeRef), L.LaidBut .omitted j k args ∧
    t = fun w => { base with args := args w }

/-- A name with its arguments has no span yet. -/
theorem reads_namedType (hself : L.Good b self) (hb : b ≤ j + 1) :
    L.Reads (fun _ => namedType self) j fun t k => j < k ∧ L.Unspanned j k t := by
  refine reads_firstSegment.bindUniform fun first k hk => ?_
  refine (reads_replaceArgs (i := j) hself (by omega) (by omega) .nil).bind fun args l hread => ?_
  obtain ⟨hl, hargs⟩ := hread
  -- each further segment may replace the arguments read before it
  refine (Reads.extend (P := fun x k => ∃ (segments : List String) (args : ω → List TypeRef),
    L.LaidBut .omitted j k args ∧ x = fun w => (segments, args w)) ?_ ⟨_, args, hargs, rfl⟩).bind ?_
  · rintro - m hm ⟨segments, args, hargs, rfl⟩
    simp only [reads_is, reads_peekIdent, reads_ite, Bool.and_eq_true]
    refine ⟨fun hsegment => ?_, fun _ => .pure fun _ => .none rfl⟩
    have hm' := L.lt_size_of_isIdent hsegment.2
    rw [reads_discard, reads_advance (by omega), reads_advance hm']
    simp only [token_text]
    refine (reads_replaceArgs hself (by omega) (by omega)
      (hargs.mono (Nat.le_refl j) (by omega))).bind fun args n hread => ?_
    obtain ⟨hn, hargs⟩ := hread
    exact .pure fun _ => .some ⟨by omega, _, args, hargs, rfl⟩
  · rintro - m ⟨hm, segments, args, hargs, rfl⟩
    exact .pure fun _ => ⟨by omega, ⟨_, _, [], _, _, _, _⟩, args, hargs, rfl⟩

theorem reads_predefinedType (h : j < L.size) :
    L.Reads (fun _ => predefinedType) j fun t k => j < k ∧ L.Unspanned j k t := by
  simp only [predefinedType, reads_advance h, token_text]
  exact .pure fun _ => ⟨by omega, ⟨_, _, [], _, _, _, _⟩, _, .nil, rfl⟩

theorem yields_tupleElement (hself : L.Good b self) (hb : b ≤ j) :
    L.Yields j (fun _ => tupleElement self) j := by
  refine (hself.type hb).bind fun t c k hk ht => ?_
  refine uniform_optionalIdent.bindUniform fun name l hl => ?_
  exact .pure fun _ => ⟨by omega, _, ht.andThen (.text name) (Nat.le_refl j) hl⟩

/-- A tuple lists the names of its elements apart from their types. -/
theorem reads_tupleType (hself : L.Good b self) (hb : b ≤ j + 1) :
    L.Reads (fun _ => tupleType self) j fun t k => j < k ∧ L.Unspanned j k t := by
  simp only [tupleType, reads_discard, reads_expect]
  intro _
  refine (Yields.separated fun k hk => yields_tupleElement hself (by omega)).bind ?_
  intro elements bs k hk helements
  have hlength (w : ω) : (elements w).length = bs.length := by
    simp [← helements.erase w, Layered.erase]
  have hnames (w : ω) : (elements w).map (·.2) = bs.map (·.2) := by
    simp [← helements.erase w, Layered.erase, NodeKind.erase]
  simp only [reads_discard, reads_expect, hlength, hnames, reads_ite]
  refine fun _ => ⟨fun _ => reads_fail_bind (by simp), fun _ => .pure fun _ => ⟨by omega, ?_⟩⟩
  have htypes : L.Laid (j + 1) k (fun w => (elements w).map (·.1)) (bs.map (·.1)) :=
    helements.listMap (fun w x hx n hn => hx n (List.mem_append_left _ hn)) fun _ => rfl
  exact ⟨⟨_, _, [], _, _, _, _⟩, _, (htypes.laidBut _).mono (by omega) (by omega), rfl⟩

/-! ### Marks -/

theorem tests_atArrayMark : L.Tests atArrayMark j j ((L.lexeme j).is "[" = true) := by
  rw [Tests, reads_iff_bind_pure]
  simp only [atArrayMark, bind_assoc, pure_bind, reads_is, reads_peekIs]
  exact tests_pure.imp (by simp +contextual)

theorem reads_arrayMark (h : (L.lexeme j).is "[" = true) :
    L.Reads (fun _ => arrayMark) j fun _ k => j < k := by
  simp only [arrayMark, reads_discard, reads_advance (L.lt_size_of_is h)]
  refine (Reads.moreItems (I := fun _ _ _ => True) fun k _ => .pure fun _ => ⟨Nat.le_refl k, trivial⟩).bind
    fun _ k hread => ?_
  obtain ⟨hk, _⟩ := hread
  rw [reads_iff_bind_pure]
  simp only [reads_discard, reads_expect]
  exact fun _ => .pure fun _ => by omega

/-- A mark changes neither the place of a type nor those of the types inside of it. -/
theorem reads_typeMark {t : ω → TypeRef} (ht : L.Unspanned i j t) :
    L.Reads (fun w => typeMark (t w)) j
      (Perhaps (fun t k => j < k ∧ L.Unspanned i k t) (· = j)) := by
  obtain ⟨base, args, hargs, rfl⟩ := ht
  have hmore (k : Nat) (hk : j < k) : L.LaidBut .omitted i k args :=
    hargs.mono (Nat.le_refl i) (by omega)
  simp only [typeMark, reads_is, reads_peekIs, reads_ite, reads_discard, Bool.and_eq_true]
  refine ⟨fun h => ?_, fun _ => ⟨fun h => ?_, fun _ => ?_⟩⟩
  · rw [reads_advance (L.lt_size_of_is h.1.1)]
    exact .pure fun _ => .some ⟨by omega, { base with nullable := true }, args, hmore _ (by omega), rfl⟩
  · rw [reads_advance (L.lt_size_of_is h)]
    exact .pure fun _ => .some ⟨by omega, { base with pointer := true }, args, hmore _ (by omega), rfl⟩
  · refine Reads.bind tests_atArrayMark fun c l hc => ?_
    rcases hc with ⟨rfl, rfl, h⟩ | ⟨rfl, rfl⟩
    · refine (reads_arrayMark h).bind fun _ k hk => ?_
      exact .pure fun _ => .some ⟨hk, { base with rank := base.rank + 1 }, args, hmore _ hk, rfl⟩
    · exact .pure fun _ => .none rfl

/-! ### Types -/

/-- A type without span becomes a type when it gets the span that was read. -/
theorem Unspanned.laid {t : ω → TypeRef} (ht : L.Unspanned j k t) (hjk : j < k) (hk : k ≤ L.size) :
    ∃ b, L.Laid j k (fun w => { t w with span := ⟨L.start w j, L.behind w k⟩ }) b := by
  obtain ⟨base, -, ⟨os, bs, hos, rfl⟩, rfl⟩ := ht
  refine ⟨_, hos.frame (fun s os => { base with span := s, args := TypeRef.omitted.fill os })
    ⟨fun _ _ => rfl, fun s os c hc => ?_, fun _ _ => ?_, fun s os => ?_⟩ hjk hk⟩
  · exact TypeRef.mem_map_type_fill (by simpa [Node.nodesBelow, Node.children, Node.unvisitedNodes,
      NodeKind.node] using hc)
  · trivial
  · simp [Layered.erase, NodeKind.erase, TypeRef.erase_mk, TypeRef.map_erase_fill TypeRef.erase_omitted]

theorem reads_unmarkedType (hself : L.Good b self) (hb : b ≤ j + 1) :
    L.Reads (fun _ => unmarkedType self) j fun t k => j < k ∧ L.Unspanned j k t := by
  simp only [unmarkedType, reads_current, token_is, token_isPredefinedType, token_isIdent,
    reads_ite]
  refine ⟨fun _ => reads_tupleType hself hb, fun _ => ⟨fun h => ?_, fun _ => ⟨fun _ => ?_, ?_⟩⟩⟩
  · exact reads_predefinedType (L.lt_size_of_isPredefinedType h)
  · exact reads_namedType hself hb
  · exact fun _ => reads_failAt (by simp)

/-- A type is laid between its first and its last token. -/
theorem yields_type (hself : L.Good b self) (hb : b ≤ j + 1) :
    L.Yields j (fun _ => type self) j := by
  simp only [Yields, type, reads_offset]
  refine (reads_unmarkedType hself hb).bind fun t k hread => ?_
  obtain ⟨hjk, ht⟩ := hread
  refine (Reads.extend (fun t l _ ht => reads_typeMark ht) ht).bind fun t l hread => ?_
  obtain ⟨hkl, ht⟩ := hread
  rw [reads_spanFrom]
  exact .pure fun hl => ⟨by omega, ht.laid (by omega) hl⟩

theorem reads_unmarkedNewType (hself : L.Good b self) (hb : b ≤ j + 1) :
    L.Reads (fun _ => unmarkedNewType self) j fun t k => j < k ∧ L.Unspanned j k t := by
  simp only [unmarkedNewType, reads_current, token_is, token_isPredefinedType, reads_ite]
  refine ⟨fun h => reads_predefinedType (L.lt_size_of_isPredefinedType h), fun _ => ⟨fun _ => ?_, ?_⟩⟩
  · exact reads_tupleType hself hb
  · exact fun _ => reads_namedType hself hb

/-- A mark that is consumed if it stands here, unless another token stands behind it. -/
theorem reads_acceptIf_is {s t : String} :
    L.Reads (fun _ => acceptIf do return (← is s) && !(← peekIs 1 t)) j fun c k =>
      j ≤ k ∧ Uniform c := by
  rw [reads_iff_bind_pure]
  simp only [acceptIf_bind, bind_assoc, pure_bind, reads_is, reads_peekIs]
  rw [reads_ite_advance fun h => L.lt_size_of_is (Bool.and_eq_true_iff.mp h).1]
  exact ⟨fun _ => .pure fun _ => ⟨by omega, _, rfl⟩, fun _ => .pure fun _ => ⟨Nat.le_refl j, _, rfl⟩⟩

/-- The type behind `new` ends in front of an array size. -/
theorem yields_newType (hself : L.Good b self) (hb : b ≤ j + 1) :
    L.Yields j (fun _ => newType self) j := by
  simp only [Yields, newType, reads_offset]
  refine (reads_unmarkedNewType hself hb).bind fun t k hread => ?_
  obtain ⟨hjk, base, args, hargs, ht⟩ := hread
  subst ht
  refine (reads_acceptIf_is).bindUniform fun nullable l hkl => ?_
  refine (Allows.repeatWhile (fun _ _ => tests_atArrayMark) fun m hm h => ?_).bind
    fun marks bs m hlm hmarks => ?_
  · exact (reads_arrayMark h).imp fun _ n _ hn => ⟨hn, (), .unit⟩
  · have hlength (w : ω) : (marks w).length = bs.length := by
      simp [← hmarks.erase w, Layered.erase]
    simp only [reads_spanFrom, hlength]
    refine .pure fun hm => ⟨by omega, ?_⟩
    have hargs : L.LaidBut .omitted j m args := hargs.mono (Nat.le_refl j) (by omega)
    refine Unspanned.laid ⟨{ base with
      nullable := base.nullable || nullable, rank := base.rank + bs.length }, args, hargs, rfl⟩ ?_ hm
    omega

/-! ### Types in expressions -/

/-- Whether `<` opens type arguments is told by the tokens alone. -/
theorem reads_typeArgsInExpr (hself : L.Good b self) (hb : b ≤ j + 1) :
    L.Reads (fun _ => typeArgsInExpr self) j fun ts k => j ≤ k ∧ L.LaidBut .omitted j k ts := by
  simp only [typeArgsInExpr, reads_is, reads_ite]
  refine ⟨fun _ => ?_, fun _ => .pure fun _ => ⟨Nat.le_refl j, .nil⟩⟩
  have hargs : L.Reads (fun _ => typeArgsInExpr? self) j
      (Perhaps (fun ts k => j < k ∧ L.LaidBut .omitted j k ts) (· = j)) := by
    refine Reads.attempt ((reads_typeArgs hself hb).bind fun ts k hts => ?_)
    simp only [reads_current, token_kind, token_text, reads_ite]
    exact ⟨fun _ => .pure fun _ => hts, fun _ => reads_fail (by simp)⟩
  refine hargs.bindPerhaps (fun k hk => ?_) fun ts k hread => ?_
  · exact .pure fun _ => ⟨Nat.le_of_eq hk.symm, .nil⟩
  · exact .pure fun _ => ⟨Nat.le_of_lt hread.1, hread.2⟩

theorem tests_atTypeThenIdent {holds : Prop}
    (h : L.Reads (fun _ => type self) j fun _ k => (L.lexeme k).isIdent = true → holds) :
    L.Tests (atTypeThenIdent self) j j holds := by
  have hseen : L.Reads (fun _ => do discard <| type self; isIdent) j fun c _ =>
      ∃ d : Bool, (c = fun _ => d) ∧ (d = true → holds) := by
    rw [reads_discard]
    refine h.bind fun _ k hk => ?_
    rw [reads_iff_bind_pure, reads_isIdent]
    exact .pure fun _ => ⟨_, rfl, hk⟩
  refine hseen.lookahead.bind ?_
  rintro o k ⟨rfl, l, ⟨rfl, -⟩ | ⟨-, rfl, c, rfl, hc⟩⟩
  · exact .pure fun _ => .inr ⟨rfl, rfl⟩
  · exact tests_pure.imp hc

end Layouts

end CSharpAudit
