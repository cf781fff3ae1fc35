import CSharpAudit.Proofs.FlowReports
import CSharpAudit.Proofs.Sorting

/-!
# The final form of findings

Before findings are reported they are put into their final form. What this form is can be said
without saying how it is reached: what a finding says is its code, its location and its message;
all that is said under a code that is not switched off is said once, in the words of the finding
that was the first to say it, with the severity of the settings; and findings are listed by file,
line, column and code, those that share these in the order in which they were first said.

A finding in the report of a file was emitted by the one entry that uses its code, in the session
that the entries in front of it leave behind, and unless its code is switched off all that is
emitted is reported.

## Main definitions

* `Diagnostic.content`, `Diagnostic.Precedes`, `Diagnostic.Ties` — what a finding says, and its
  place among others
* `FinalForm` — the final form of some findings

## Main results

* `Diagnostics.finalForm` — overriding severities, dropping repetitions and sorting give the form
* `FinalForm.again_eq` — findings in their final form are left as they are
* `reported_findings_final` — what a run of the pipeline reports is in its final form
* `Session.emitted_eq_findings` — what an entry emits it finds behind the entries in front
* `content_mem_emitted_of_report`, `content_mem_report_of_emitted` — what a report says was emitted,
  and what is emitted is said in the report
-/

namespace CSharpAudit

/-! ### The order of findings -/

theorem compare_text_eq_lt {a b : String} : compare a b = .lt ↔ a < b := by
  rw [show compare a b = compareOfLessAndEq a b from rfl, compareOfLessAndEq]
  split
  · exact iff_of_true rfl ‹_›
  · split <;> exact iff_of_false (by decide) ‹_›

namespace Diagnostic

variable {a b : Diagnostic}

/-- What a finding says: its code, where it is and its message. -/
def content (d : Diagnostic) : Code × Location × String := (d.code, d.location, d.message)

theorem same_eq : a.same b = decide (a.content = b.content) := by
  simp only [same, content, Prod.mk.injEq, Bool.decide_and, beq_eq_decide, Bool.and_assoc]

/-- Findings share what they are sorted by. -/
structure Ties (a b : Diagnostic) : Prop where
  file : a.location.file = b.location.file
  line : a.location.line = b.location.line
  column : a.location.column = b.location.column
  code : a.code = b.code

/-- A finding is listed in front of another one: by file, by line, by column, by code. -/
inductive Precedes (a b : Diagnostic) : Prop
  | file (file : a.location.file < b.location.file)
  | line (file : a.location.file = b.location.file) (line : a.location.line < b.location.line)
  | column (file : a.location.file = b.location.file) (line : a.location.line = b.location.line)
      (column : a.location.column < b.location.column)
  | code (file : a.location.file = b.location.file) (line : a.location.line = b.location.line)
      (column : a.location.column = b.location.column) (code : a.code.id < b.code.id)

theorem compare_eq_eq_iff : a.compare b = .eq ↔ a.Ties b := by
  simp only [compare, Ordering.then_eq_eq, Std.LawfulEqOrd.compare_eq_iff_eq]
  constructor
  · rintro ⟨hfile, hline, hcolumn, hid⟩
    exact ⟨hfile, hline, hcolumn, congrArg Code.mk hid⟩
  · rintro ⟨hfile, hline, hcolumn, hcode⟩
    exact ⟨hfile, hline, hcolumn, congrArg Code.id hcode⟩

theorem compare_eq_lt_iff : a.compare b = .lt ↔ a.Precedes b := by
  simp only [compare, Ordering.then_eq_lt, Std.LawfulEqOrd.compare_eq_iff_eq, compare_text_eq_lt,
    Std.compare_eq_lt]
  constructor
  · rintro (hfile | ⟨hfile, hline | ⟨hline, hcolumn | ⟨hcolumn, hid⟩⟩⟩)
    · exact .file hfile
    · exact .line hfile hline
    · exact .column hfile hline hcolumn
    · exact .code hfile hline hcolumn hid
  · rintro (hfile | ⟨hfile, hline⟩ | ⟨hfile, hline, hcolumn⟩ | ⟨hfile, hline, hcolumn, hid⟩)
    · exact .inl hfile
    · exact .inr ⟨hfile, .inl hline⟩
    · exact .inr ⟨hfile, .inr ⟨hline, .inl hcolumn⟩⟩
    · exact .inr ⟨hfile, .inr ⟨hline, .inr ⟨hcolumn, hid⟩⟩⟩

theorem isLE_compare_iff : (a.compare b).isLE = true ↔ a.Precedes b ∨ a.Ties b := by
  rw [Ordering.isLE_iff_eq_lt_or_eq_eq, compare_eq_lt_iff, compare_eq_eq_iff]

theorem tied_iff : tied (fun a b => (a.compare b).isLE) a b = true ↔ a.Ties b := by
  rw [← compare_eq_eq_iff, tied, Bool.and_eq_true]
  constructor
  · exact fun h => Std.OrientedCmp.isLE_antisymm h.1 h.2
  · intro h
    have hswap : b.compare a = .eq := Std.OrientedCmp.eq_symm h
    rw [h, hswap]
    exact ⟨rfl, rfl⟩

end Diagnostic

/-! ### Stable sorting -/

section Sorting

variable {α : Type} {le : α → α → Bool} {l : List α} {R : α → α → Prop}

/-- A stable sort leaves tied elements in the relation in which they stood. -/
theorem pairwise_tied_mergeSort (htrans : ∀ a b c, le a b = true → le b c = true → le a c = true)
    (htotal : ∀ a b, (le a b || le b a) = true) (h : l.Pairwise R) :
    (l.mergeSort le).Pairwise fun a b => tied le a b = true → R a b := by
  refine List.pairwise_iff_forall_sublist.mpr fun {a b} hsub htied => ?_
  have hself : tied le a a = true := by simpa [tied] using htotal a a
  have hclass : [a, b].filter (tied le a) = [a, b] := by simp [hself, htied]
  have hkept := hsub.filter (tied le a)
  rw [hclass, filter_tied_mergeSort htrans htotal] at hkept
  exact List.pairwise_iff_forall_sublist.mp h (hkept.trans List.filter_sublist)

end Sorting

/-- Of two elements that pass a test, the one that comes first among those that do comes first. -/
theorem idxOf_lt_of_filter {α : Type} [BEq α] [LawfulBEq α] {p : α → Bool} {l : List α} {a b : α}
    (ha : p a = true) (hb : p b = true) (h : (l.filter p).idxOf a < (l.filter p).idxOf b) :
    l.idxOf a < l.idxOf b := by
  have hne : a ≠ b := by
    rintro rfl
    exact Nat.lt_irrefl _ h
  induction l with
  | nil => exact absurd h (Nat.lt_irrefl 0)
  | cons c l ih =>
    by_cases hca : c = a
    · subst hca
      have hcb : (c == b) = false := beq_eq_false_iff_ne.mpr hne
      simp [List.idxOf_cons, hcb]
    · have hcb : c ≠ b := by
        rintro rfl
        simp [hb] at h
      have hl : (l.filter p).idxOf a < (l.filter p).idxOf b := by
        by_cases hc : p c = true
        · simpa [hc, hca, hcb] using h
        · simpa [hc] using h
      simpa [hca, hcb] using ih hl

namespace Diagnostics

variable {ds kept : List Diagnostic} {d : Diagnostic} {severities : Code → Option Severity}

/-! ### Repetitions -/

theorem any_same_iff : kept.any (·.same d) = true ↔ d.content ∈ kept.map (·.content) := by
  simp only [List.any_eq_true, List.mem_map, Diagnostic.same_eq, decide_eq_true_eq]

/-- One more finding is kept if none that is kept says the same. -/
theorem dedup_concat (ds : List Diagnostic) (d : Diagnostic) : dedup (ds ++ [d]) =
    if d.content ∈ (dedup ds).map (·.content) then dedup ds else dedup ds ++ [d] := by
  rw [dedup, List.foldl_append, List.foldl_cons, List.foldl_nil, ← dedup]
  simp only [any_same_iff]

/-- What is said at all is still said. -/
theorem mem_content_dedup {c : Code × Location × String} :
    c ∈ (dedup ds).map (·.content) ↔ c ∈ ds.map (·.content) := by
  induction ds using List.reverseRecOn with
  | nil => rfl
  | append_singleton ds d ih =>
    rw [dedup_concat, List.map_append, List.mem_append, ← ih, List.map_singleton,
      List.mem_singleton]
    split
    · rename_i hknown
      exact ⟨.inl, fun h => h.elim id fun h => h ▸ hknown⟩
    · rw [List.map_append, List.mem_append, List.map_singleton, List.mem_singleton]

/-- What is kept is the first finding that says so. -/
theorem find?_of_mem_dedup (h : d ∈ dedup ds) :
    ds.find? (·.content = d.content) = some d := by
  induction ds using List.reverseRecOn with
  | nil => exact absurd h List.not_mem_nil
  | append_singleton ds e ih =>
    rw [dedup_concat] at h
    rw [List.find?_append]
    split at h
    · rw [ih h, Option.some_or]
    · rename_i hnew
      rcases List.mem_append.mp h with h | h
      · rw [ih h, Option.some_or]
      · obtain rfl := List.mem_singleton.mp h
        rw [mem_content_dedup] at hnew
        have hnone : ds.find? (·.content = d.content) = none :=
          List.find?_eq_none.mpr fun e he heq =>
            hnew (List.mem_map.mpr ⟨e, he, of_decide_eq_true heq⟩)
        simp [hnone]

/-- Findings are kept in the order in which they were first said, so each is kept once. -/
theorem pairwise_dedup (ds : List Diagnostic) : (dedup ds).Pairwise fun a b =>
    (ds.map (·.content)).idxOf a.content < (ds.map (·.content)).idxOf b.content := by
  induction ds using List.reverseRecOn with
  | nil => exact .nil
  | append_singleton ds d ih =>
    have hmem {a : Diagnostic} (ha : a ∈ dedup ds) : a.content ∈ ds.map (·.content) :=
      mem_content_dedup.mp (List.mem_map_of_mem ha)
    have hbefore : (dedup ds).Pairwise fun a b =>
        ((ds ++ [d]).map (·.content)).idxOf a.content <
          ((ds ++ [d]).map (·.content)).idxOf b.content := by
      refine ih.imp_of_mem fun {a b} ha hb hlt => ?_
      rwa [List.map_append, List.idxOf_append_of_mem (hmem ha), List.idxOf_append_of_mem (hmem hb)]
    rw [dedup_concat]
    split
    · exact hbefore
    · rename_i hnew
      rw [mem_content_dedup] at hnew
      refine List.pairwise_append.mpr ⟨hbefore, List.pairwise_singleton _ d, fun a ha b hb => ?_⟩
      rw [List.mem_singleton.mp hb, List.map_append, List.idxOf_append_of_mem (hmem ha),
        List.idxOf_append_of_notMem hnew]
      exact Nat.lt_add_right _ (List.idxOf_lt_length_of_mem (hmem ha))

/-! ### Severities -/

end Diagnostics

/-- A finding with the severity that is configured for its code, if any is. -/
def Diagnostic.rated (severities : Code → Option Severity) (d : Diagnostic) : Diagnostic :=
  { d with severity := (severities d.code).getD d.severity }

namespace Diagnostics

theorem override_eq : override severities ds =
    (ds.filter fun d => severities d.code != some .off).map (·.rated severities) := by
  rw [override, ← List.filterMap_eq_map, List.filterMap_filter]
  refine List.filterMap_congr fun d _ => ?_
  cases hs : severities d.code with
  | none => simp [Diagnostic.rated, hs]
  | some s => cases s <;> simp [Diagnostic.rated, hs]

/-- Severities do not matter to what findings say. -/
theorem map_content_override : (override severities ds).map (·.content) =
    (ds.map (·.content)).filter fun c => severities c.1 != some .off := by
  rw [override_eq, List.map_map, List.filter_map]
  rfl

/-- What is first said under a code that is not switched off is said by a finding that comes first
among all of them. -/
theorem find?_override (hon : severities d.code ≠ some .off)
    (h : (override severities ds).find? (·.content = d.content) = some d) :
    ∃ e, ds.find? (·.content = d.content) = some e ∧ d = e.rated severities := by
  rw [override_eq, List.find?_map] at h
  obtain ⟨e, he, hrated⟩ := Option.map_eq_some_iff.mp h
  refine ⟨e, ?_, hrated.symm⟩
  rw [← he, List.find?_filter]
  refine congrArg (List.find? · ds) (funext fun a => ?_)
  -- whoever says what the finding says has its code
  by_cases ha : a.content = d.content
  · have hcode : a.code = d.code := congrArg Prod.fst ha
    have hsame : (a.rated severities).content = d.content := ha
    simp [ha, hsame, hcode, hon]
  · have hsame : (a.rated severities).content ≠ d.content := ha
    simp [ha, hsame]

/-! ### The final form -/

end Diagnostics

/-- The final form of findings that were emitted one after the other. -/
structure FinalForm (severities : Code → Option Severity) (emitted final : List Diagnostic) :
    Prop where
  /-- Findings are sorted, and those that share what they are sorted by are listed in the order in
  which they were first emitted. -/
  sorted : final.Pairwise fun a b => a.Precedes b ∨ a.Ties b ∧
    (emitted.map (·.content)).idxOf a.content < (emitted.map (·.content)).idxOf b.content
  /-- Nothing is said twice. -/
  nodup : (final.map (·.content)).Nodup
  /-- What is said is what was emitted under the codes that are not switched off. -/
  mem_iff : ∀ c, c ∈ final.map (·.content) ↔
    c ∈ emitted.map (·.content) ∧ severities c.1 ≠ some .off
  /-- It is said as it was first emitted, but for the severity. -/
  first : ∀ d ∈ final, ∃ e, emitted.find? (·.content = d.content) = some e ∧ d = e.rated severities
  /-- A finding has the severity that is configured for its code. -/
  severity : ∀ d ∈ final, ∀ s, severities d.code = some s → d.severity = s ∧ s ≠ .off

namespace Diagnostics

variable {ds : List Diagnostic} {d : Diagnostic} {severities : Code → Option Severity}

/-- Findings get their final form by overriding severities, dropping repetitions and sorting. -/
theorem finalForm (severities : Code → Option Severity) (ds : List Diagnostic) :
    FinalForm severities ds (sort (dedup (override severities ds))) := by
  have hperm : (sort (dedup (override severities ds))).Perm (dedup (override severities ds)) :=
    List.mergeSort_perm _ _
  -- Dropping repetitions and sorting keep the contents, so only the override removes any.
  have hmem (c : Code × Location × String) :
      c ∈ (sort (dedup (override severities ds))).map (·.content) ↔
        c ∈ ds.map (·.content) ∧ severities c.1 ≠ some .off := by
    rw [(hperm.map _).mem_iff, mem_content_dedup, map_content_override, List.mem_filter,
      bne_iff_ne]
  have hon : ∀ d ∈ sort (dedup (override severities ds)), severities d.code ≠ some .off :=
    fun d hd => ((hmem d.content).mp (List.mem_map_of_mem hd)).2
  have hfirst : ∀ d ∈ sort (dedup (override severities ds)),
      ∃ e, ds.find? (·.content = d.content) = some e ∧ d = e.rated severities := fun d hd =>
    find?_override (hon d hd) (find?_of_mem_dedup (hperm.mem_iff.mp hd))
  refine ⟨?_, ?_, hmem, hfirst, ?_⟩
  · have hsorted := List.pairwise_mergeSort (fun _ _ _ => Std.TransCmp.isLE_trans)
      (isLE_total Diagnostic.compare) (dedup (override severities ds))
    -- The sort is stable, and what is tied stands in the order of first emission.
    have hstable := pairwise_tied_mergeSort (fun _ _ _ => Std.TransCmp.isLE_trans)
      (isLE_total Diagnostic.compare) (pairwise_dedup (override severities ds))
    refine (hsorted.and hstable).imp_of_mem fun {a b} ha hb h => ?_
    rw [Diagnostic.tied_iff, map_content_override] at h
    refine (Diagnostic.isLE_compare_iff.mp h.1).imp_right fun hties => ⟨hties, ?_⟩
    have hkept {d : Diagnostic} (hd : d ∈ sort (dedup (override severities ds))) :
        (severities d.content.1 != some .off) = true := bne_iff_ne.mpr (hon d hd)
    exact idxOf_lt_of_filter (p := fun c : Code × Location × String => severities c.1 != some .off)
      (hkept ha) (hkept hb) (h.2 hties)
  -- Contents that are kept once only are still different when they are sorted.
  · refine (hperm.map _).nodup_iff.mpr (List.pairwise_map.mpr ?_)
    refine (pairwise_dedup (override severities ds)).imp fun {a b} hlt heq => ?_
    rw [heq] at hlt
    exact Nat.lt_irrefl _ hlt
  · intro d hd s hs
    obtain ⟨e, -, rfl⟩ := hfirst d hd
    have hs : severities e.code = some s := hs
    refine ⟨by rw [Diagnostic.rated, hs, Option.getD_some], ?_⟩
    rintro rfl
    exact hon _ hd hs

end Diagnostics

/-- Findings in their final form are left as they are. -/
theorem FinalForm.again_eq {severities : Code → Option Severity} {emitted final : List Diagnostic}
    (h : FinalForm severities emitted final) :
    Diagnostics.sort (Diagnostics.dedup (Diagnostics.override severities final)) = final := by
  have hoverride : Diagnostics.override severities final = final := by
    refine (List.filterMap_congr fun d hd => ?_).trans List.filterMap_some
    cases hs : severities d.code with
    | none => rfl
    | some s =>
      obtain ⟨rfl, hoff⟩ := h.severity d hd s hs
      -- the severity is not `off`, and to set it again changes nothing
      obtain ⟨code, severity, message, location, symbol, suggestion⟩ := d
      cases severity with
      | off => exact absurd rfl hoff
      | _ => rfl
  have hdedup : Diagnostics.dedup final = final := by
    refine Diagnostics.dedup_eq_self ((List.pairwise_map.mp h.nodup).imp fun {a b} hne => ?_)
    rw [Diagnostic.same_eq, decide_eq_false hne]
  rw [hoverride, hdedup]
  refine List.mergeSort_of_pairwise (h.sorted.imp fun {a b} hab => ?_)
  exact Diagnostic.isLE_compare_iff.mpr (hab.imp_right And.left)

/-- The codes of findings in their final form are the ones that were emitted and not switched
off. -/
theorem FinalForm.mem_code_iff {severities : Code → Option Severity}
    {emitted final : List Diagnostic} (h : FinalForm severities emitted final) {code : Code} :
    code ∈ final.map (·.code) ↔ code ∈ emitted.map (·.code) ∧ severities code ≠ some .off := by
  have hcode (ds : List Diagnostic) :
      code ∈ ds.map (·.code) ↔ ∃ c ∈ ds.map (·.content), c.1 = code := by
    simp only [List.mem_map, exists_exists_and_eq_and]
    rfl
  simp only [hcode, h.mem_iff]
  constructor
  · rintro ⟨c, ⟨hc, hon⟩, rfl⟩
    exact ⟨⟨c, hc, rfl⟩, hon⟩
  · rintro ⟨⟨c, hc, rfl⟩, hon⟩
    exact ⟨c, ⟨hc, hon⟩, rfl⟩

/-! ### Runs -/

namespace Session

variable {u : CompilationUnit Node} {s : Session}

/-- A run leaves the configured severities as they are. -/
theorem severity?_runEnabled (u : CompilationUnit Node) (s : Session) :
    (s.runEnabled u).settings.severity? = s.settings.severity? := by
  have hcore : (s.runEnabled u).settings.core = s.settings.core :=
    Traced.core_run u s fun e he => (Entry.mem_enabled_iff.mp he).1
  have hsame (settings : Settings) : settings.severity? = settings.core.severity? := rfl
  rw [hsame, hcore, ← hsame]

/-- What a run emits is emitted in front of the pass that puts the findings into their final
form. -/
theorem emissions_eq (u : CompilationUnit Node) (s : Session) : s.emissions u =
    Traced.emissions u s
      (Traced.Stage.ofEntries (Entry.all.dropLast.filter (Entry.isEnabled s.settings))) := by
  rw [emissions, Entry.enabled_eq_append]
  split
  · exact Traced.emissions_append_reporting u s
  · rw [List.append_nil]

end Session

/-- A run of the pipeline that puts the findings into their final form ends with the final form of
what its entries emitted, behind what had been found before. To put them into their final form again
changes nothing, and the report lists them as they are. -/
theorem reported_findings_final (u : CompilationUnit Node) (s : Session)
    (hreporting : s.settings.passEnabled "reporting" = true) :
    FinalForm s.settings.severity? (s.diagnostics ++ (s.emissions u).map (·.2))
        (s.runEnabled u).diagnostics ∧
      (s.runEnabled u).run u [Passes.reporting] = s.runEnabled u ∧
      (s.runEnabled u).toReport.diagnostics = (s.runEnabled u).diagnostics := by
  have hform : FinalForm s.settings.severity? (s.diagnostics ++ (s.emissions u).map (·.2))
      (s.runEnabled u).diagnostics := by
    have hon : Entry.isEnabled s.settings Passes.reporting = true := hreporting
    rw [Session.diagnostics_runEnabled, if_pos hon]
    exact Diagnostics.finalForm _ _
  have hagain : Passes.finalDiagnostics (s.runEnabled u).settings (s.runEnabled u).diagnostics =
      (s.runEnabled u).diagnostics := by
    rw [Passes.finalDiagnostics, Session.severity?_runEnabled]
    exact hform.again_eq
  refine ⟨hform, ?_, ?_⟩
  · change { s.runEnabled u with
      diagnostics := Passes.finalDiagnostics (s.runEnabled u).settings (s.runEnabled u).diagnostics } =
        s.runEnabled u
    rw [hagain]
  · rw [Session.diagnostics_toReport]
    refine List.mergeSort_of_pairwise (hform.sorted.imp fun {a b} hab => ?_)
    exact Diagnostic.isLE_compare_iff.mpr (hab.imp_right And.left)

/-- A file with members that are too complex and nested too deeply, under settings that switch the
former findings off, raise the severity of the latter and ask for no findings about types. -/
def overloadsSession : Session where
  document := ⟨"C.cs", overloadsText⟩
  settings := { strictSettings with
    passes := ⟨[(Passes.types.id, false)]⟩
    severities := ⟨[(Code.highComplexity.id, .off), (Code.deepNesting.id, .error)]⟩ }
  assemblies := fun _ => none

/-- Of what is emitted for it, errors about the nesting are reported. -/
theorem overloads_reported_final : ∃ u, parse overloadsText = .ok u ∧
    overloadsSession.settings.passEnabled "reporting" = true ∧
    (overloadsSession.emissions u).map (·.2.code) =
      [.highComplexity, .deepNesting, .highComplexity, .deepNesting] ∧
    FinalForm overloadsSession.settings.severity?
      (overloadsSession.diagnostics ++ (overloadsSession.emissions u).map (·.2))
      (overloadsSession.runEnabled u).diagnostics ∧
    (overloadsSession.runEnabled u).toReport.diagnostics ≠ [] ∧
    ∀ d ∈ (overloadsSession.runEnabled u).toReport.diagnostics,
      d.code = .deepNesting ∧ d.severity = .error := by
  have hemitted : (parse overloadsText).toOption.map (fun u => (Traced.emissions u overloadsSession
      (Traced.Stage.ofEntries (Entry.all.dropLast.filter
        (Entry.isEnabled overloadsSession.settings)))).map (·.2.code)) =
        some [.highComplexity, .deepNesting, .highComplexity, .deepNesting] := by
    rw [show overloadsText = _ from Lexer.ascii_ofList_append _ _]
    decide +kernel
  obtain ⟨u, hparse, hemitted⟩ := exists_parse_of_map hemitted
  have hcodes : (overloadsSession.emissions u).map (·.2.code) =
      [.highComplexity, .deepNesting, .highComplexity, .deepNesting] := by
    rw [Session.emissions_eq]
    exact hemitted
  obtain ⟨hform, -, hreport⟩ := reported_findings_final u overloadsSession rfl
  have hemits (code : Code) :
      code ∈ (overloadsSession.runEnabled u).diagnostics.map (·.code) ↔
        code ∈ [Code.highComplexity, .deepNesting, .highComplexity, .deepNesting] ∧
          overloadsSession.settings.severity? code ≠ some .off := by
    rw [hform.mem_code_iff, ← hcodes]
    simp [overloadsSession, Function.comp_def]
  refine ⟨u, hparse, rfl, hcodes, hform, ?_, ?_⟩
  · have hmem := (hemits .deepNesting).mpr (by decide)
    rw [hreport]
    intro hnil
    rw [hnil] at hmem
    exact List.not_mem_nil hmem
  · rw [hreport]
    intro d hd
    obtain ⟨hcode, hon⟩ := (hemits d.code).mp (List.mem_map_of_mem hd)
    have hne : d.code ≠ .highComplexity := fun h => hon (h ▸ rfl)
    have hcode : d.code = .deepNesting := by simpa [hne] using hcode
    exact ⟨hcode, (hform.severity d hd .error (by rw [hcode]; rfl)).1⟩

/-! ### Where the findings of a report come from -/

section Origin

variable {u : CompilationUnit Node} {s : Session} {e : Entry}

/-- What an entry emits in a run it finds in the session behind the entries in front of it. -/
theorem Session.emitted_eq_findings {front back : List Entry}
    (hall : Entry.all = front ++ e :: back) : s.emitted u e =
      if Entry.isEnabled s.settings e then
        e.findings u ((front.filter (Entry.isEnabled s.settings)).foldl (Entry.advance u) s)
      else [] := by
  have hids : ((front ++ e :: back).map (·.id)).Nodup := hall ▸ Entry.nodup_ids
  rw [List.map_append, List.map_cons, List.nodup_middle, List.nodup_cons,
    ← List.map_append] at hids
  have hne : ∀ b ∈ front ++ back, b.id ≠ e.id := fun b hb heq =>
    hids.1 (heq ▸ List.mem_map_of_mem hb)
  have hfront : ∀ b ∈ front.filter (Entry.isEnabled s.settings), b.id ≠ e.id := fun b hb =>
    hne b (List.mem_append_left _ (List.mem_of_mem_filter hb))
  have hback : ∀ b ∈ back.filter (Entry.isEnabled s.settings), b.id ≠ e.id := fun b hb =>
    hne b (List.mem_append_right _ (List.mem_of_mem_filter hb))
  rw [emitted_eq_sequential, hall, List.filter_append, List.filter_cons]
  split
  · exact Entry.emissionsOf_sequential_append_cons hfront hback
  · exact Entry.emissionsOf_sequential_eq_nil fun b hb =>
      (List.mem_append.mp hb).elim (hfront b) (hback b)

variable {settings : Settings} {assemblies : AssemblyTypes} {document : Document}
  {c : Code × Location × String}

/-- Of the contents with the codes of an entry, the entry emits all that are emitted. -/
theorem Session.content_mem_emissions_iff (he : e ∈ Entry.all) (hcode : c.1 ∈ e.codes) :
    c ∈ ((s.emissions u).map (·.2)).map (·.content) ↔ c ∈ (s.emitted u e).map (·.content) := by
  have hfilter (ds : List Diagnostic) : c ∈ ds.map (·.content) ↔
      c ∈ (ds.filter (·.code == c.1)).map (·.content) := by
    simp only [List.mem_map, List.mem_filter, beq_iff_eq]
    constructor
    · rintro ⟨d, hd, rfl⟩
      exact ⟨d, ⟨hd, rfl⟩, rfl⟩
    · rintro ⟨d, ⟨hd, -⟩, rfl⟩
      exact ⟨d, hd, rfl⟩
  rw [hfilter, Session.filter_emissions he hcode, ← hfilter]

theorem content_mem_toReport (s : Session) :
    c ∈ s.toReport.diagnostics.map (·.content) ↔ c ∈ s.diagnostics.map (·.content) := by
  rw [Session.diagnostics_toReport]
  exact ((List.mergeSort_perm _ _).map _).mem_iff

section Report

variable (hparse : parse document.source = .ok u)
  (hanalyze : analyze settings assemblies document = .ok s) (he : e ∈ Entry.all)
  (hcode : c.1 ∈ e.codes)
include hparse hanalyze he hcode

/-- What the report of a parsed file says was emitted by the entry that uses its code. -/
theorem content_mem_emitted_of_report (h : c ∈ s.toReport.diagnostics.map (·.content)) :
    c ∈ (Session.emitted u { document, settings, assemblies } e).map (·.content) := by
  rw [analyze, hparse] at hanalyze
  obtain rfl := Except.ok.inj hanalyze
  rw [content_mem_toReport, Session.diagnostics_runEnabled, List.nil_append] at h
  refine (Session.content_mem_emissions_iff he hcode).mp ?_
  split at h
  · exact (((Diagnostics.finalForm _ _).mem_iff c).mp h).1
  · exact h

/-- What an entry emits is said in the report of a parsed file, unless its code is switched off. -/
theorem content_mem_report_of_emitted (hon : settings.severity? c.1 ≠ some .off)
    (h : c ∈ (Session.emitted u { document, settings, assemblies } e).map (·.content)) :
    c ∈ s.toReport.diagnostics.map (·.content) := by
  rw [analyze, hparse] at hanalyze
  obtain rfl := Except.ok.inj hanalyze
  rw [content_mem_toReport, Session.diagnostics_runEnabled, List.nil_append]
  have hmem := (Session.content_mem_emissions_iff he hcode).mpr h
  split
  · exact ((Diagnostics.finalForm _ _).mem_iff c).mpr ⟨hmem, hon⟩
  · exact hmem

end Report

end Origin

end CSharpAudit
