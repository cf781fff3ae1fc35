import CSharpAudit.Proofs.Switches

/-!
# Which codes an entry emits

The findings of an entry of the pipeline bear codes from a list of its own. Each rule and each pass
is looked at by itself; what a shared walk finds bears the codes of the rules that share it.

No code belongs to two entries, so the code of a finding tells who has found it.

## Main definitions

* `Emits` — findings bear codes from a list
* `Entry.codes` — the codes of an entry

## Main results

* `emits_runRules` — a walk finds what its rules find
* `Entry.emits_findings` — a registered entry emits its codes only
* `Session.filter_emissions` — the findings of a code in a run are those of one entry
-/

namespace CSharpAudit

/-- Findings bear codes from a list. -/
def Emits (codes : List Code) (ds : List Diagnostic) : Prop := ∀ d ∈ ds, d.code ∈ codes

section Emits

universe v

variable {α : Type v} {codes codes' : List Code} {ds es : List Diagnostic} {d : Diagnostic}

/-- More codes are allowed than are used. -/
theorem Emits.mono (h : Emits codes ds) (hcodes : codes ⊆ codes') : Emits codes' ds :=
  fun d hd => hcodes (h d hd)

@[simp]
theorem emits_nil : Emits codes [] := fun _ h => absurd h List.not_mem_nil

@[simp]
theorem emits_cons : Emits codes (d :: ds) ↔ d.code ∈ codes ∧ Emits codes ds := List.forall_mem_cons

/-- Two lists of findings bear the codes if both do. -/
@[simp]
theorem emits_append : Emits codes (ds ++ es) ↔ Emits codes ds ∧ Emits codes es :=
  List.forall_mem_append

@[simp]
theorem emits_ite {p : Prop} [Decidable p] :
    Emits codes (if p then ds else es) ↔ (p → Emits codes ds) ∧ (¬p → Emits codes es) := by
  by_cases h : p <;> simp [h]

@[simp]
theorem emits_map {f : α → Diagnostic} {as : List α} :
    Emits codes (as.map f) ↔ ∀ a ∈ as, (f a).code ∈ codes := List.forall_mem_map

/-- What is found element by element bears the codes if each finding does. -/
@[simp]
theorem emits_flatMap {f : α → List Diagnostic} {as : List α} :
    Emits codes (as.flatMap f) ↔ ∀ a ∈ as, Emits codes (f a) := List.forall_mem_flatMap

/-- A finding has the code that it is made with. -/
@[simp]
theorem code_finding (s : Session) (code : Code) (span : Span)
    (message symbol suggestion : String) :
    (s.finding code span message symbol suggestion).code = code := rfl

theorem location_finding (s : Session) (code : Code) (span : Span)
    (message symbol suggestion : String) :
    (s.finding code span message symbol suggestion).location = s.locate span := rfl

/-- Findings of one code are all kept when that code is looked for. -/
theorem Emits.filter_eq_self {code : Code} (h : Emits [code] ds) :
    ds.filter (·.code == code) = ds :=
  List.filter_eq_self.mpr fun d hd => by rw [List.mem_singleton.mp (h d hd), BEq.rfl]

/-- A code that is not emitted is not found. -/
theorem Emits.filter_eq_nil {code : Code} (h : Emits codes ds) (hcode : code ∉ codes) :
    ds.filter (·.code == code) = [] :=
  List.filter_eq_nil_iff.mpr fun d hd heq => hcode (eq_of_beq heq ▸ h d hd)

end Emits

/-! ### Walks -/

/-- A rule finds what bears codes from a list. -/
def Rule.Emits (codes : List Code) (r : Rule) : Prop :=
  ∀ s state c, CSharpAudit.Emits codes (r.visit s state c).2

section Walks

variable {codes : List Code} {s : Session} {rs : List RunningRule}

/-- A walk emits what its rules emit. -/
theorem RunningRule.emits_walk (cs : List Cursor) (h : ∀ r ∈ rs.map (·.rule), r.Emits codes) :
    Emits codes (walk s rs cs) := by
  induction cs generalizing rs with
  | nil => exact emits_nil
  | cons c cs ih =>
    have hstep : Emits codes (stepAll s rs c).2 := by
      refine emits_flatMap.mpr fun p hp => ?_
      obtain ⟨r, hr, rfl⟩ := List.mem_map.mp hp
      exact h r.rule (List.mem_map_of_mem hr) s r.state c
    have hrules : ∀ r ∈ (stepAll s rs c).1.map (·.rule), r.Emits codes := by
      rwa [map_rule_stepAll]
    exact emits_append.mpr ⟨hstep, ih hrules⟩

/-- A walk finds what its rules find. -/
theorem emits_runRules {rules : List Rule} (u : CompilationUnit Node) (s : Session)
    (h : ∀ r ∈ rules, r.Emits codes) : Emits codes (runRules u s rules) := by
  refine RunningRule.emits_walk _ ?_
  rw [List.map_map]
  simpa [RunningRule.ofRule] using h

end Walks

/-! ### Rules -/

namespace Rules

/-- The rule for names of types keeps to two codes. -/
theorem emits_typeNaming : typeNaming.Emits [.namingConvention, .pascalCase] := by
  intro s state c
  simp only [typeNaming, Rule.stateless]
  split <;> simp

theorem emits_memberNaming : memberNaming.Emits [.pascalCase] := by
  intro s state c
  simp only [memberNaming, Rule.stateless]
  split <;> simp

theorem emits_localNaming : localNaming.Emits [.camelCase] := by
  intro s state c
  simp only [localNaming, Rule.stateless]
  split
  · split <;> simp
  all_goals simp

/-- The rule for constructors keeps to codes of its own. -/
theorem emits_constructors : constructors.Emits
    [.interfaceConstructor, .constructorName, .constructorVirtual, .constructorOverride,
      .asyncConstructor] := by
  intro s state c
  simp only [constructors, Rule.stateless]
  split <;> simp

theorem emits_methodModifiers : methodModifiers.Emits
    [.interfaceMethodBody, .abstractWithBody, .missingBody, .virtualInSealed, .virtualStatic,
      .staticOverride, .asyncReturnType] := by
  intro s state c
  simp only [methodModifiers, Rule.stateless]
  split <;> simp

theorem emits_parameters : parameters.Emits [.duplicateParameter, .tooManyParams] := by
  intro s state c
  simp [parameters, Rule.stateless]

theorem emits_methodLength : methodLength.Emits [.methodTooLong] := by
  intro s state c
  simp [methodLength, Rule.stateless]

theorem emits_documentation : documentation.Emits [.missingDocs] := by
  intro s state c
  simp only [documentation, Rule.stateless]
  split <;> simp

/-- The rule for dead statements keeps to one code. -/
theorem emits_unreachable : unreachable.Emits [.unreachable] := by
  intro s state c
  simp [unreachable, Rule.stateless]

theorem emits_emptyBlock : emptyBlock.Emits [.emptyBlock] := by
  intro s state c
  simp only [emptyBlock, Rule.stateless]
  split <;> simp

theorem emits_stringConcat : stringConcat.Emits [.stringConcatLoop] := by
  intro s state c
  simp [stringConcat, Rule.stateless]

theorem emits_allocation : allocation.Emits [.allocationInLoop] := by
  intro s state c
  simp only [allocation, Rule.stateless]
  split <;> simp

theorem emits_linearSearch : linearSearch.Emits [.collectionUsage] := by
  intro s state c
  simp only [linearSearch, Rule.stateless]
  split
  · split <;> simp
  · simp

theorem emits_nestedSearch : nestedSearch.Emits [.collectionUsage] := by
  intro s state c
  simp only [nestedSearch, Rule.stateless]
  split <;> simp

theorem emits_collectionGrowth : collectionGrowth.Emits [.collectionUsage] := by
  intro s state c
  simp only [collectionGrowth]
  split
  · simp
  · split
    · simp
    · split
      · simp
      · split <;> simp
  · simp

theorem emits_nullAssignment : nullAssignment.Emits [.nullToNonNullable] := by
  intro s state c
  simp only [nullAssignment]
  split
  · simp
  · simp
  · simp
  · simp
  · split <;> simp
  · simp

/-- The rule for complexity keeps to one code. -/
theorem emits_highComplexity : highComplexity.Emits [.highComplexity] := by
  intro s state c
  simp only [highComplexity, Rule.stateless]
  split <;> simp

theorem emits_deepNesting : deepNesting.Emits [.deepNesting] := by
  intro s state c
  simp only [deepNesting, Rule.stateless]
  split <;> simp

/-! ### Passes -/

/-- What is found about the access of a member bears codes of its own. -/
theorem emits_memberAccess (s : Session) (t : TypeDecl Node) (m : Node) :
    Emits [.privateInInterface, .protectedInStruct, .abstractInNonAbstract, .privateAbstract,
      .privateVirtual, .sealedNotOverride, .staticCtorModifiers] (memberAccess s t m) := by
  unfold memberAccess
  cases t.kind
  all_goals
    dsimp only
    split <;> simp

theorem emits_overloads (s : Session) (t : TypeDecl Node) :
    Emits [.duplicateConstructor, .duplicateMethod] (overloads s t) := by
  unfold overloads
  refine emits_flatMap.mpr fun m _ => ?_
  split <;> simp

theorem emits_extensions (s : Session) (d : Declared) :
    Emits [.extensionOutsideStatic] (extensions s d) := by
  unfold extensions
  split <;> simp

theorem emits_attributes (u : CompilationUnit Node) (s : Session) :
    Emits [.duplicateAttr] (attributes u s) := by
  simp [attributes, repeatedAttributes]

theorem emits_generics (u : CompilationUnit Node) (s : Session) :
    Emits [.duplicateTypeParam, .constraintUnsatisfied] (generics u s) := by
  refine emits_flatMap.mpr fun v _ => ?_
  split
  · simp
  · refine emits_append.mpr ⟨by simp [typeParameters], ?_⟩
    split
    · simp only [constraints, emits_flatMap]
      intro clause _ place _
      split <;> simp
    · simp

/-- What is found about base types bears codes of its own. -/
theorem emits_inheritance (u : CompilationUnit Node) (s : Session) :
    Emits [.interfaceFromClass, .structInherits, .classFromInterface, .circularType]
      (inheritance u s) := by
  unfold inheritance
  split
  · simp only [emits_append, emits_flatMap, emits_map, wrongBase]
    refine ⟨fun t _ b _ => ?_, by simp⟩
    cases t.type.kind <;> simp
  · simp

end Rules

/-! ### Entries -/

namespace Entry

/-- The codes of an entry. -/
def codes (e : Entry) : List Code :=
  match e.id with
  | "naming" => [.namingConvention, .pascalCase, .camelCase]
  | "semantic" =>
    [.interfaceConstructor, .constructorName, .constructorVirtual, .constructorOverride,
      .asyncConstructor, .interfaceMethodBody, .abstractWithBody, .missingBody, .virtualInSealed,
      .virtualStatic, .staticOverride, .asyncReturnType, .duplicateParameter, .tooManyParams,
      .methodTooLong, .missingDocs]
  | "control_flow_smells" => [.highComplexity, .deepNesting]
  | "types" => [.interfaceFromClass, .structInherits, .classFromInterface, .circularType]
  | "overload" => [.duplicateConstructor, .duplicateMethod]
  | "generics" => [.duplicateTypeParam, .constraintUnsatisfied]
  | "flow" =>
    [.unusedVariable, .unreachable, .emptyBlock, .stringConcatLoop, .allocationInLoop,
      .collectionUsage]
  | "nullability" => [.nullToNonNullable]
  | "attributes" => [.duplicateAttr]
  | "access" =>
    [.privateInInterface, .protectedInStruct, .abstractInNonAbstract, .privateAbstract,
      .privateVirtual, .sealedNotOverride, .staticCtorModifiers]
  | "extensions" => [.extensionOutsideStatic]
  | _ => []

/-- No code belongs to two entries. -/
theorem nodup_codes : (all.flatMap codes).Nodup := by decide

variable {e d : Entry} {code : Code}

/-- A code belongs to one entry. -/
theorem eq_of_mem_codes (he : e ∈ all) (hd : d ∈ all) (hecode : code ∈ e.codes)
    (hdcode : code ∈ d.codes) : e = d :=
  eq_of_mem_of_nodup nodup_codes he hd hecode hdcode

section Findings

variable {run : CompilationUnit Node → Session → Session} {found : List Diagnostic}
  {u : CompilationUnit Node} {s : Session}

/-- A pass that only reports finds what it reports. -/
theorem findings_of_report (hwork : e.work = .pass run) (hrun : run u s = s.report found) :
    e.findings u s = found := by
  simp only [findings, hwork, hrun, Session.report, List.drop_left]

/-- A pass that only stores finds nothing. -/
theorem findings_of_store (hwork : e.work = .pass run)
    (hrun : (run u s).diagnostics = s.diagnostics) : e.findings u s = [] := by
  simp only [findings, hwork, hrun, List.drop_length]

theorem emits_of_report (hwork : e.work = .pass run) (hrun : run u s = s.report found)
    (hfound : Emits e.codes found) : Emits e.codes (e.findings u s) := by
  rwa [findings_of_report hwork hrun]

theorem emits_of_store (hwork : e.work = .pass run)
    (hrun : (run u s).diagnostics = s.diagnostics) : Emits e.codes (e.findings u s) := by
  rw [findings_of_store hwork hrun]
  exact emits_nil

end Findings

open Rules

/-- Each rule for names keeps to the codes of its entry. -/
theorem emits_of_mem_naming {r : Rule} (hr : r ∈ Rules.naming) :
    r.Emits Passes.naming.codes := by
  intro s state c
  simp only [Rules.naming, List.mem_cons, List.not_mem_nil, or_false] at hr
  rcases hr with rfl | rfl | rfl
  · exact (emits_typeNaming s state c).mono (by decide)
  · exact (emits_memberNaming s state c).mono (by decide)
  · exact (emits_localNaming s state c).mono (by decide)

theorem emits_of_mem_declarations {r : Rule} (hr : r ∈ Rules.declaration) :
    r.Emits Passes.declarations.codes := by
  intro s state c
  simp only [Rules.declaration, List.mem_cons, List.not_mem_nil, or_false] at hr
  rcases hr with rfl | rfl | rfl | rfl | rfl
  · exact (emits_constructors s state c).mono (by decide)
  · exact (emits_methodModifiers s state c).mono (by decide)
  · exact (emits_parameters s state c).mono (by decide)
  · exact (emits_methodLength s state c).mono (by decide)
  · exact (emits_documentation s state c).mono (by decide)

theorem emits_of_mem_controlFlowSmells {r : Rule} (hr : r ∈ Rules.controlFlow) :
    r.Emits Passes.controlFlowSmells.codes := by
  intro s state c
  simp only [Rules.controlFlow, List.mem_cons, List.not_mem_nil, or_false] at hr
  rcases hr with rfl | rfl
  · exact (emits_highComplexity s state c).mono (by decide)
  · exact (emits_deepNesting s state c).mono (by decide)

theorem emits_flowRules (u : CompilationUnit Node) (s : Session) :
    Emits [.unreachable, .emptyBlock, .stringConcatLoop, .allocationInLoop, .collectionUsage]
      (runRules u s Passes.flowRules) := by
  refine emits_runRules u s fun r hr s state c => ?_
  simp only [Passes.flowRules, List.mem_cons, List.not_mem_nil, or_false] at hr
  rcases hr with rfl | rfl | rfl | rfl | rfl | rfl | rfl
  · exact (emits_unreachable s state c).mono (by decide)
  · exact (emits_emptyBlock s state c).mono (by decide)
  · exact (emits_stringConcat s state c).mono (by decide)
  · exact (emits_allocation s state c).mono (by decide)
  · exact (emits_linearSearch s state c).mono (by decide)
  · exact (emits_nestedSearch s state c).mono (by decide)
  · exact (emits_collectionGrowth s state c).mono (by decide)

/-- The flow entry emits its codes only. -/
theorem emits_flow (u : CompilationUnit Node) (s : Session) :
    Emits Passes.flow.codes (Passes.flow.findings u s) := by
  refine emits_of_report rfl rfl (emits_append.mpr ⟨?_, (emits_flowRules u s).mono (by decide)⟩)
  simp only [Passes.unusedLocals, emits_flatMap, emits_map, code_finding]
  intro scopes _ sc _ l _
  decide

theorem emits_nullability (u : CompilationUnit Node) (s : Session) :
    Emits Passes.nullability.codes (Passes.nullability.findings u s) := by
  cases hnullable : u.nullableEnabled with
  | false =>
    refine emits_of_store rfl ?_
    simp only [hnullable, Bool.false_eq_true, if_false]
  | true =>
    have hrules : Emits Passes.nullability.codes (runRules u s [nullAssignment]) := by
      refine emits_runRules u s fun r hr => ?_
      rw [List.mem_singleton.mp hr]
      exact emits_nullAssignment
    refine emits_of_report rfl ?_ hrules
    simp only [hnullable, if_true]

theorem emits_dependencies (u : CompilationUnit Node) (s : Session) :
    Emits Passes.dependencies.codes (Passes.dependencies.findings u s) := by
  refine emits_of_store rfl ?_
  simp only []
  split <;> rfl

/-- A registered entry emits its codes only. -/
theorem emits_findings (he : e ∈ all) (u : CompilationUnit Node) (s : Session) :
    Emits e.codes (e.findings u s) := by
  simp only [all, List.mem_cons, List.not_mem_nil, or_false] at he
  rcases he with rfl | rfl | rfl | rfl | rfl | rfl | rfl | rfl | rfl | rfl | rfl | rfl | rfl | rfl |
    rfl | rfl | rfl | rfl | rfl
  · exact emits_of_store rfl rfl
  · exact emits_of_store rfl rfl
  · exact emits_of_store rfl rfl
  · exact emits_runRules u s fun r hr => emits_of_mem_naming hr
  · exact emits_runRules u s fun r hr => emits_of_mem_declarations hr
  · exact emits_of_store rfl rfl
  · exact emits_dependencies u s
  · exact emits_runRules u s fun r hr => emits_of_mem_controlFlowSmells hr
  · exact emits_of_store rfl rfl
  · exact emits_of_store rfl rfl
  · exact emits_of_report rfl rfl (emits_inheritance u s)
  · exact emits_of_report rfl rfl (emits_flatMap.mpr fun t _ => emits_overloads s t)
  · exact emits_of_report rfl rfl (emits_generics u s)
  · exact emits_flow u s
  · exact emits_nullability u s
  · exact emits_of_report rfl rfl (emits_attributes u s)
  · exact emits_of_report rfl rfl (emits_flatMap.mpr fun t _ =>
      emits_flatMap.mpr fun m _ => emits_memberAccess s t m)
  · exact emits_of_report rfl rfl (emits_flatMap.mpr fun d _ => emits_extensions s d)
  · -- the findings in their final form are no findings of the pass that gives them this form
    have hnone : Passes.reporting.findings u s = [] :=
      List.drop_eq_nil_of_le (length_finalDiagnostics_le s.settings s.diagnostics)
    rw [hnone]
    exact emits_nil

end Entry

/-! ### Runs -/

/-- What a run emits was found by one of its entries. -/
theorem exists_findings_of_mem_sequential {u : CompilationUnit Node} {s : Session} {es : List Entry}
    {m : Emission} (h : m ∈ sequential u s es) :
    ∃ e ∈ es, m.1 = e.id ∧ ∃ t, m.2 ∈ e.findings u t := by
  induction es generalizing s with
  | nil => exact absurd h List.not_mem_nil
  | cons e es ih =>
    rcases List.mem_append.mp h with h | h
    · obtain ⟨d, hd, rfl⟩ := List.mem_map.mp h
      exact ⟨e, List.mem_cons_self, rfl, s, hd⟩
    · obtain ⟨e', he', hfound⟩ := ih h
      exact ⟨e', List.mem_cons_of_mem e he', hfound⟩

namespace Session

variable {u : CompilationUnit Node} {s : Session} {e : Entry} {code : Code} {m : Emission}

/-- What is emitted in a run bears a code of the entry that emits it. -/
theorem exists_entry_of_mem_emissions (h : m ∈ s.emissions u) :
    ∃ e ∈ Entry.all, m.1 = e.id ∧ m.2.code ∈ e.codes := by
  -- in a run of one entry after the other the same is emitted under each name
  have hnamed : m.2 ∈ emissionsOf m.1 (s.emissions u) :=
    List.mem_map.mpr ⟨m, List.mem_filter.mpr ⟨h, BEq.rfl⟩, rfl⟩
  rw [emissions, Entry.enabled_eq_filter, Traced.emissionsOf_ofEntries u
    (fun e he => Entry.confined_of_mem e (List.mem_of_mem_filter he))
    (Entry.nodup_ids.sublist (List.filter_sublist.map _))] at hnamed
  obtain ⟨m', hm', hsame⟩ := List.mem_map.mp hnamed
  obtain ⟨hm', hid⟩ := List.mem_filter.mp hm'
  obtain ⟨e, he, hname, t, hfound⟩ := exists_findings_of_mem_sequential hm'
  have heall := List.mem_of_mem_filter he
  refine ⟨e, heall, (eq_of_beq hid).symm.trans hname, ?_⟩
  exact Entry.emits_findings heall u t m.2 (hsame ▸ hfound)

/-- The findings of a code in a run are those that the entry of the code emits. -/
theorem filter_emissions (he : e ∈ Entry.all) (hcode : code ∈ e.codes) :
    ((s.emissions u).map (·.2)).filter (·.code == code) =
      (s.emitted u e).filter (·.code == code) := by
  rw [emitted, emissionsOf, List.filter_map, List.filter_map, List.filter_filter]
  refine congrArg (List.map _) (List.filter_congr fun m hm => ?_)
  obtain ⟨d, hd, hid, hdcode⟩ := exists_entry_of_mem_emissions hm
  by_cases hm : m.2.code = code
  · obtain rfl := Entry.eq_of_mem_codes he hd hcode (hm ▸ hdcode)
    simp [hm, hid]
  · simp [hm]

end Session

end CSharpAudit
