import CSharpAudit.Proofs.FlowReports
import CSharpAudit.Proofs.FullNames
import CSharpAudit.Proofs.Workspaces
import CSharpAudit.Workspace.Load
import Mathlib.Data.Finset.Card

/-!
# Dependencies of a workspace

A report counts the dependencies of all files by the names of the types. Names and kinds tell the
texts apart that are counted, so each dependency between names counts once. In the graph of a file a
dependency leads from a symbol to another one. But several symbols of a file can have one full name,
the parts of a partial type for instance. A dependency between these leads from a name to itself,
and it is counted like any other.

## Main definitions

* `NamedDependency` — a dependency of a type on a type, by their full names
* `Workspace.namedDependencies` — the dependencies that are found in the files of a workspace

## Main results

* `CompilationUnit.mem_namedDependencies` — the named dependencies of a file are those of its graph
* `Session.dependencies_runEnabled` — which graph a run of the passes leaves
* `NamedDependency.text_injOn` — texts tell named dependencies apart
* `Workspace.dependencies_counted_by_name` — the count in a report, and what it takes for loops
-/

namespace CSharpAudit

/-! ### Dependencies between names -/

/-- A dependency of a type on a type, by their full names. -/
structure NamedDependency where
  source : String
  target : String
  kind : String
  deriving DecidableEq, Repr

namespace NamedDependency

variable {n m : NamedDependency}

/-- The text by which a dependency is counted. -/
def text (n : NamedDependency) : String :=
  n.source ++ " -> " ++ n.target ++ " (" ++ n.kind ++ ")"

/-- The dependencies whose names are unbroken. -/
def unbroken : Set NamedDependency := {n | Text.Unbroken n.source ∧ Text.Unbroken n.target}

/-- A blank ends the source and the target, and a bracket the kind. -/
theorem text_injOn : Set.InjOn text unbroken := by
  intro n hn m hm h
  have hplain {s : String} (hs : Text.Unbroken s) : ∀ c ∈ s.toList, (c != ' ') = true :=
    fun c hc => bne_iff_ne.mpr fun heq => hs.notMem (heq ▸ hc)
  have hblank (cs : List Char) : ∀ c ∈ (' ' :: cs).head?, (c != ' ') = false := by
    rintro _ ⟨⟩
    rfl
  have htext (n : NamedDependency) : n.text.toList = n.source.toList ++ ' ' :: '-' :: '>' :: ' ' ::
      (n.target.toList ++ ' ' :: '(' :: (n.kind.toList ++ [')'])) := by
    simp [text, String.toList_append]
  have h := congrArg String.toList h
  rw [htext, htext] at h
  obtain ⟨hsource, h⟩ := append_inj_of_forall (hplain hn.1) (hplain hm.1) (hblank _) (hblank _) h
  simp only [List.cons.injEq, true_and] at h
  obtain ⟨htarget, h⟩ := append_inj_of_forall (hplain hn.2) (hplain hm.2) (hblank _) (hblank _) h
  simp only [List.cons.injEq, List.append_cancel_right_eq, true_and] at h
  obtain ⟨source, target, kind⟩ := n
  rw [mk.injEq]
  exact ⟨String.toList_inj.mp hsource, String.toList_inj.mp htarget, String.toList_inj.mp h⟩

end NamedDependency

/-! ### The dependencies of a file -/

/-- The full name of the type with a number. -/
def SymbolIndex.typeName (x : SymbolIndex) (id : Int) : String :=
  ((x.types.find? fun s => s.id == id).map (·.fullName)).getD ""

/-- The dependencies of a file, by the full names of its types. -/
def CompilationUnit.namedDependencies (u : CompilationUnit Node) : List NamedDependency :=
  let index := symbolIndex u
  (dependencyGraph u index).edges.map fun e =>
    ⟨index.typeName e.source, index.typeName e.target, e.kind⟩

section

variable {u : CompilationUnit Node} {s t : Symbol} {e : Dependency} {n : NamedDependency}

theorem find?_types (hs : s ∈ (symbolIndex u).types) :
    (symbolIndex u).types.find? (fun t => (t.id : Int) == s.id) = some s := by
  obtain ⟨t, ht⟩ : ∃ t, (symbolIndex u).types.find? (fun t => (t.id : Int) == s.id) = some t :=
    Option.isSome_iff_exists.mp (List.find?_isSome.mpr ⟨s, hs, beq_self_eq_true _⟩)
  have hid : t.id = s.id := by simpa using List.find?_some ht
  rw [ht, List.inj_on_of_nodup_map (nodup_id_types u) (List.mem_of_find?_eq_some ht) hs hid]

theorem typeName_id (hs : s ∈ (symbolIndex u).types) :
    (symbolIndex u).typeName s.id = s.fullName := by
  rw [SymbolIndex.typeName, find?_types hs]
  rfl

/-- Both ends of a dependency are types of the file. -/
theorem exists_types_of_mem_edges (he : e ∈ (dependencyGraph u (symbolIndex u)).edges) :
    ∃ s ∈ (symbolIndex u).types, ∃ t ∈ (symbolIndex u).types, e = ⟨s.id, t.id, e.kind⟩ := by
  obtain ⟨⟨d, hd, hcontributed⟩, -⟩ := mem_edges_dependencyGraph.mp he
  obtain ⟨⟨s, hs, hsource⟩, t, ht, htarget⟩ := exists_types_of_mem_dependencies hd hcontributed
  exact ⟨s, hs, t, ht, by rw [← hsource, ← htarget]⟩

/-- The named dependencies of a file are those between two symbols of its types. -/
theorem CompilationUnit.mem_namedDependencies : n ∈ u.namedDependencies ↔
    ∃ s ∈ (symbolIndex u).types, ∃ t ∈ (symbolIndex u).types, s.id ≠ t.id ∧
      s.fullName = n.source ∧ t.fullName = n.target ∧
        ⟨s.id, t.id, n.kind⟩ ∈ (dependencyGraph u (symbolIndex u)).edges := by
  rw [namedDependencies, List.mem_map]
  constructor
  · rintro ⟨e, he, rfl⟩
    obtain ⟨s, hs, t, ht, heq⟩ := exists_types_of_mem_edges he
    rw [heq] at he ⊢
    have hne : (s.id : Int) ≠ t.id := (mem_edges_dependencyGraph.mp he).2
    exact ⟨s, hs, t, ht, fun hid => hne (by rw [hid]), (typeName_id hs).symm,
      (typeName_id ht).symm, he⟩
  · rintro ⟨s, hs, t, ht, -, hsource, htarget, he⟩
    refine ⟨_, he, ?_⟩
    rw [typeName_id hs, typeName_id ht, hsource, htarget]

/-- In the graph of a parsed file, the key of a type is its full name. -/
theorem nodeKey_eq {source : List UInt8} (hparse : parse source = .ok u) (file : String)
    (hs : s ∈ (symbolIndex u).types) :
    FileResult.nodeKey file (dependencyGraph u (symbolIndex u)) s.id = s.fullName := by
  -- a full name is not empty, so no other key takes its place
  have hfull : s.fullName.isEmpty = false := by
    have hne := (unbroken_fullName_of_parse hparse hs).ne_empty
    exact Bool.eq_false_iff.mpr fun h => hne (String.isEmpty_iff.mp h)
  rw [FileResult.nodeKey, (wellFormed_dependencyGraph u).nodes_eq, List.find?_map,
    show ((fun n : DependencyNode => n.id == (s.id : Int)) ∘ fun s : Symbol =>
      (⟨s.id, s.fullName, s.kind⟩ : DependencyNode)) = fun t => (t.id : Int) == s.id from rfl,
    find?_types hs]
  simp [hfull]

/-- The dependencies of a parsed file are counted by the texts of the named ones. -/
theorem dependencyKeys_eq {source : List UInt8} (hparse : parse source = .ok u) (file : String) :
    (FileResult.dependencyKeys file (dependencyGraph u (symbolIndex u))).2 =
      u.namedDependencies.map NamedDependency.text := by
  rw [CompilationUnit.namedDependencies, List.map_map]
  refine List.map_congr_left fun e he => ?_
  obtain ⟨s, hs, t, ht, heq⟩ := exists_types_of_mem_edges he
  rw [heq]
  dsimp only [Function.comp_apply]
  rw [nodeKey_eq hparse file hs, nodeKey_eq hparse file ht, typeName_id hs, typeName_id ht]
  rfl

theorem mem_unbroken_of_parse {source : List UInt8} (hparse : parse source = .ok u)
    (hn : n ∈ u.namedDependencies) : n ∈ NamedDependency.unbroken := by
  obtain ⟨s, hs, t, ht, -, hsource, htarget, -⟩ := CompilationUnit.mem_namedDependencies.mp hn
  exact ⟨hsource ▸ unbroken_fullName_of_parse hparse hs,
    htarget ▸ unbroken_fullName_of_parse hparse ht⟩

end

/-! ### Behind a run of the passes -/

/-- Whether the passes are on that find the dependencies of a file. -/
def Settings.findsDependencies (settings : Settings) : Bool :=
  Entry.isEnabled settings Passes.indexing && Entry.isEnabled settings Passes.dependencies

namespace Session

variable {u : CompilationUnit Node} {s : Session} {on : Entry → Bool}

theorem artifacts_foldl_indexing :
    (([Passes.indexing].filter on).foldl (Entry.advance u) s).artifacts =
      { s.artifacts with
        symbols := if on Passes.indexing then some (symbolIndex u) else s.artifacts.symbols } := by
  rw [List.filter_singleton]
  cases on Passes.indexing <;> rfl

theorem dependencies_foldl_dependencies :
    (([Passes.dependencies].filter on).foldl (Entry.advance u) s).artifacts.dependencies =
      if on Passes.dependencies then
        (s.artifacts.symbols.map (dependencyGraph u)).or s.artifacts.dependencies
      else s.artifacts.dependencies := by
  rw [List.filter_singleton]
  cases on Passes.dependencies with
  | false => rfl
  | true =>
    simp only [cond_true, List.foldl_cons, List.foldl_nil, Entry.advance, Passes.dependencies]
    cases s.artifacts.symbols <;> rfl

/-- What the two passes write is not touched by others. -/
theorem agree_foldl_filter {es : List Entry} (hes : ∀ e ∈ es, e ∈ Entry.all)
    (hwrites : ∀ e ∈ es, ∀ k ∈ e.writes, k ≠ .symbols ∧ k ≠ .dependencies) (s : Session) :
    ((es.filter on).foldl (Entry.advance u) s).Agree
      (fun k => k = .symbols ∨ k = .dependencies) s :=
  Entry.agree_foldl_advance u s fun e he => ⟨hes e (List.mem_of_mem_filter he), fun k hk =>
    not_or.mpr (hwrites e (List.mem_of_mem_filter he) k hk)⟩

/-- Behind a run of the passes, a session has the graph between the symbols of the file, or none if
one of the passes is off. -/
theorem dependencies_runEnabled (hsymbols : s.artifacts.symbols = none)
    (hdependencies : s.artifacts.dependencies = none) :
    (s.runEnabled u).artifacts.dependencies =
      if s.settings.findsDependencies then some (dependencyGraph u (symbolIndex u)) else none := by
  -- the two passes are the first and the seventh entry
  let on := Entry.isEnabled s.settings
  let front := (Entry.all.take 6).drop 1
  let back := Entry.all.drop 7
  have hsplit : Entry.all.filter on = [Passes.indexing].filter on ++
      (front.filter on ++ ([Passes.dependencies].filter on ++ back.filter on)) := by
    simp only [← List.filter_append]
    rfl
  let indexed := ([Passes.indexing].filter on).foldl (Entry.advance u) s
  have hfront : ((front.filter on).foldl (Entry.advance u) indexed).Agree _ indexed :=
    agree_foldl_filter (fun e he => List.mem_of_mem_take (List.mem_of_mem_drop he)) (by decide) _
  have hback (t : Session) : ((back.filter on).foldl (Entry.advance u) t).Agree _ t :=
    agree_foldl_filter (fun e he => List.mem_of_mem_drop he) (by decide) t
  have hrun : (s.runEnabled u).Agree (fun _ => True)
      ((Entry.enabled s.settings).foldl (Entry.advance u) s) :=
    run_agree u s fun e he => Entry.confined_of_mem e (Entry.mem_enabled_iff.mp he).1
  refine (hrun.artifacts .dependencies trivial).trans ?_
  rw [Entry.enabled_eq_filter, hsplit, List.foldl_append, List.foldl_append, List.foldl_append]
  refine ((hback _).artifacts .dependencies (.inr rfl)).trans ?_
  have hsymbols' := hfront.artifacts .symbols (.inl rfl)
  have hdependencies' := hfront.artifacts .dependencies (.inr rfl)
  simp only [indexed, Artifacts.get?, artifacts_foldl_indexing] at hsymbols' hdependencies'
  simp only [Artifacts.get?]
  rw [dependencies_foldl_dependencies, hsymbols', hdependencies', hsymbols, hdependencies,
    show s.settings.findsDependencies = (on Passes.indexing && on Passes.dependencies) from rfl]
  cases on Passes.indexing <;> cases on Passes.dependencies <;> rfl

end Session

/-! ### The dependencies of a workspace -/

theorem length_eraseDups {α : Type} [DecidableEq α] (l : List α) :
    l.eraseDups.length = l.toFinset.card := by
  rw [← List.toFinset_card_of_nodup (nodup_eraseDups l)]
  congr 1
  ext a
  rw [List.mem_toFinset, List.mem_toFinset, List.mem_eraseDups]

namespace Workspace

variable {fs : FileSystem} {settings : Settings} {w : Workspace} {u : CompilationUnit Node}
  {path : String} {n : NamedDependency}

/-- The file of a path, if it can be read and parsed. -/
def parsed? (fs : FileSystem) (path : String) : Option (CompilationUnit Node) :=
  (fs.read path).toOption.bind fun source => (parse source).toOption

variable (fs settings w) in
/-- The files of a workspace that are analysed. -/
def units : List (CompilationUnit Node) :=
  ((w.selected settings.workspace).1.map (·.path)).filterMap (parsed? fs)

variable (fs settings w) in
/-- The dependencies that are found in the files of a workspace, by the names of the types. -/
def namedDependencies : List NamedDependency :=
  if settings.findsDependencies then (w.units fs settings).flatMap (·.namedDependencies) else []

theorem parsed?_eq_some_iff : parsed? fs path = some u ↔
    ∃ source, fs.read path = .ok source ∧ parse source = .ok u := by
  unfold parsed?
  cases fs.read path with
  | error e => simp [Except.toOption]
  | ok source => cases hparse : parse source <;> simp [Except.toOption, hparse]

/-- What comes of a file that cannot be parsed. -/
theorem analyzed_eq_false_of_parsed? (h : parsed? fs path = none) :
    (analyzeFile fs settings path).analyzed = false := by
  unfold analyzeFile
  split
  · rfl
  · next source hread =>
    cases hparse : parse source with
    | ok u => rw [parsed?_eq_some_iff.mpr ⟨source, hread, hparse⟩] at h; cases h
    | error e => simp [CSharpAudit.analyze, hparse, bind, Except.bind, FileResult.skipped]

/-- What comes of a file that can be parsed. -/
theorem dependencies_analyzeFile (settings : Settings) (h : parsed? fs path = some u) :
    (analyzeFile fs settings path).analyzed = true ∧
      ((analyzeFile fs settings path).dependencies.getD ([], [])).2 =
        if settings.findsDependencies then u.namedDependencies.map NamedDependency.text
        else [] := by
  obtain ⟨source, hread, hparse⟩ := parsed?_eq_some_iff.mp h
  have hfile : analyzeFile fs settings path = .ofSession (Session.runEnabled u
      { document := { file := path, source }, settings, assemblies := assemblyTypes fs }) := by
    simp [analyzeFile, hread, CSharpAudit.analyze, hparse, bind, Except.bind, pure, Except.pure]
  refine ⟨by rw [hfile]; rfl, ?_⟩
  rw [hfile, FileResult.ofSession]
  dsimp only
  rw [Session.dependencies_runEnabled rfl rfl]
  cases settings.findsDependencies with
  | false => rfl
  | true => exact dependencyKeys_eq hparse _

theorem keys_analyzeFile (paths : List String) :
    ((paths.map (analyzeFile fs settings)).filter (·.analyzed)).flatMap
        (fun r => (r.dependencies.getD ([], [])).2) =
      (paths.filterMap (parsed? fs)).flatMap fun u =>
        if settings.findsDependencies then u.namedDependencies.map NamedDependency.text
        else [] := by
  induction paths with
  | nil => rfl
  | cons path paths ih =>
    rw [List.map_cons, List.filter_cons, List.filterMap_cons]
    cases hparsed : parsed? fs path with
    | none => rw [analyzed_eq_false_of_parsed? hparsed, if_neg Bool.false_ne_true, ih]
    | some u =>
      obtain ⟨hanalyzed, hkeys⟩ := dependencies_analyzeFile settings hparsed
      rw [hanalyzed, if_pos rfl, List.flatMap_cons, List.flatMap_cons, ih, hkeys]

theorem map_text_namedDependencies : (w.namedDependencies fs settings).map NamedDependency.text =
    (w.units fs settings).flatMap fun u =>
      if settings.findsDependencies then u.namedDependencies.map NamedDependency.text else [] := by
  unfold namedDependencies
  split
  · exact List.map_flatMap
  · simp

theorem mem_namedDependencies : n ∈ w.namedDependencies fs settings ↔
    settings.findsDependencies = true ∧ ∃ u ∈ w.units fs settings, n ∈ u.namedDependencies := by
  unfold namedDependencies
  split
  · next hon => rw [List.mem_flatMap, and_iff_right hon]
  · next hoff => simp [hoff]

theorem mem_unbroken (hn : n ∈ w.namedDependencies fs settings) : n ∈ NamedDependency.unbroken := by
  obtain ⟨-, u, hu, hn⟩ := mem_namedDependencies.mp hn
  obtain ⟨path, -, hparsed⟩ := List.mem_filterMap.mp hu
  obtain ⟨source, -, hparse⟩ := parsed?_eq_some_iff.mp hparsed
  exact mem_unbroken_of_parse hparse hn

variable (fs settings w)

/-- The texts of the dependencies in a workspace are counted, each once. -/
theorem dependencies_analyze : ∃ d, (w.analyze fs settings).dependencies = some d ∧
    d.edges = ((w.namedDependencies fs settings).map NamedDependency.text).eraseDups.length := by
  refine ⟨_, rfl, ?_⟩
  rw [map_text_namedDependencies, units,
    show settings.findsDependencies = (w.settingsFor settings).findsDependencies from rfl,
    ← keys_analyzeFile, List.map_map]
  rfl

/-- Of the dependencies that are found, each counts once. -/
theorem edges_analyze : ∃ d, (w.analyze fs settings).dependencies = some d ∧
    d.edges = (w.namedDependencies fs settings).toFinset.card := by
  obtain ⟨d, hd, hedges⟩ := dependencies_analyze fs settings w
  refine ⟨d, hd, ?_⟩
  have hinj : Set.InjOn NamedDependency.text (w.namedDependencies fs settings).toFinset :=
    NamedDependency.text_injOn.mono fun n hn => mem_unbroken (List.mem_toFinset.mp hn)
  -- as many texts as dependencies, since full names hold no blanks
  rw [hedges, length_eraseDups, ← Finset.card_image_of_injOn hinj]
  congr 2
  ext text
  simp only [List.mem_toFinset, List.mem_map, Finset.mem_image]

end Workspace

/-- A report counts the dependencies that are found in the files of a workspace, by the full names
of the types, each once. They are those between two symbols of types of one file. If the two have
one full name, their dependency leads from this name to itself and is counted with the others; so
the count is that of the dependencies between different names as long as there is none of these. -/
theorem Workspace.dependencies_counted_by_name (fs : FileSystem) (settings : Settings)
    (w : Workspace) :
    let found := (w.namedDependencies fs settings).toFinset
    (∀ n, n ∈ found ↔ settings.findsDependencies = true ∧ ∃ u ∈ w.units fs settings,
      ∃ s ∈ (symbolIndex u).types, ∃ t ∈ (symbolIndex u).types, s.id ≠ t.id ∧
        s.fullName = n.source ∧ t.fullName = n.target ∧
          ⟨s.id, t.id, n.kind⟩ ∈ (dependencyGraph u (symbolIndex u)).edges) ∧
    ∃ d, (w.analyze fs settings).dependencies = some d ∧
      d.edges = (found.filter fun n => n.source ≠ n.target).card +
        (found.filter fun n => n.source = n.target).card ∧
      (d.edges = (found.filter fun n => n.source ≠ n.target).card ↔
        ∀ n ∈ found, n.source ≠ n.target) := by
  intro found
  obtain ⟨d, hd, hedges⟩ := edges_analyze fs settings w
  refine ⟨fun n => ?_, d, hd, ?_, ?_⟩
  · simp only [found, List.mem_toFinset, mem_namedDependencies,
      CompilationUnit.mem_namedDependencies]
  · rw [hedges, add_comm, ← Nat.cast_add, Finset.card_filter_add_card_filter_not]
  · rw [hedges, Int.natCast_inj, eq_comm, Finset.card_filter_eq_iff]

/-- A disk with a file in which two parts of a class have fields of this class. -/
def partialClassDisk : FileSystem where
  root := .directory [("ws", .directory [("A.cs", .file
    ("partial class A\x7bA x;\x7dpartial class A\x7bA y;\x7d".toList.map Lexer.ascii))])]
  current := "/ws"

/-- Names resolve to the first part. So the field of the second part makes the class depend on
itself, and this dependency is counted. -/
theorem Workspace.partialClass_loop_counted :
    let w := ofFile "/ws/A.cs"
    (load partialClassDisk true "A.cs").toOption = some w ∧
      ∃ d, (w.analyze partialClassDisk {}).dependencies = some d ∧ d.edges = 1 ∧
        ((w.namedDependencies partialClassDisk {}).toFinset.filter
          fun n => n.source ≠ n.target).card = 0 := by
  intro w
  have hnamed : w.namedDependencies partialClassDisk {} = [⟨"A", "A", Dependency.field⟩] := by
    delta partialClassDisk
    rw [Lexer.ascii_ofList]
    decide +kernel
  obtain ⟨d, hd, hedges⟩ := edges_analyze partialClassDisk {} w
  rw [hnamed] at hedges ⊢
  refine ⟨by decide +kernel, d, hd, ?_, ?_⟩
  · rw [hedges]
    rfl
  · rfl

end CSharpAudit
