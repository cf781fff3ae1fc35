import CSharpAudit.Files.Path
import CSharpAudit.Proofs.Globs.Stars
import CSharpAudit.Watch.State
import CSharpAudit.Workspace.Analysis
import Mathlib.Data.List.Basic

/-!
# Directories that are not watched

A directory on the way from the root of a workspace to a file that is analysed is watched, unless it
has one of the names that are always left out or an exclude describes it as seen from a place where
it does not exclude files. An exclude of the settings is matched against files as they are seen from
the root and from the directory of their project. Against directories it is matched as they are seen
from any directory above them.

A path that leads from the root along names of directories and files is clean, and its parts are the
names. As seen from a directory on the way, the rest of the names is left.

## Main definitions

* `Path.IsName` — a name of a file or directory
* `nestedWorkspace` — a workspace with a file in a directory that is not watched

## Main results

* `Path.parts_intercalate`, `Path.steps_ofSteps` — the parts of a path along names
* `Path.relative?_ofSteps` — a path as seen from a directory on the way
* `Watch.skipsDirectory_above_selected` — why a directory with a file that is analysed is left out
-/

/-! ### Paths along names -/

namespace CSharpAudit.Path

variable {n : String} {ns rs ts : List String}

/-- A name of a file or directory. -/
structure IsName (n : String) : Prop where
  ne_empty : n ≠ ""
  ne_point : n ≠ "."
  ne_points : n ≠ ".."
  no_slash : '/' ∉ n.toList

instance : DecidablePred IsName := fun n =>
  decidable_of_iff (n ≠ "" ∧ n ≠ "." ∧ n ≠ ".." ∧ '/' ∉ n.toList)
    ⟨fun ⟨h, h', h'', hslash⟩ => ⟨h, h', h'', hslash⟩,
      fun h => ⟨h.ne_empty, h.ne_point, h.ne_points, h.no_slash⟩⟩

/-- The parts of a path along names are the names. -/
theorem parts_intercalate (hns : ∀ n ∈ ns, IsName n) (hne : ns ≠ []) :
    parts ("/".intercalate ns) = ns := by
  rw [parts, Text.cutAt, String.toList_intercalate]
  have hslash : "/".toList = ['/'] := rfl
  rw [hslash, List.splitOn_intercalate]
  · simp [Function.comp_def]
  · intro l hl
    obtain ⟨n, hn, rfl⟩ := List.mem_map.mp hl
    exact (hns n hn).no_slash
  · simpa using hne

theorem intercalate_parts (path : String) : "/".intercalate (parts path) = path := by
  rw [← String.toList_inj, String.toList_intercalate, parts, Text.cutAt, List.map_map]
  simp [Function.comp_def, List.intercalate_splitOn]

theorem parts_append_slash (path path' : String) :
    parts (path ++ "/" ++ path') = parts path ++ parts path' := by
  simp only [parts, Text.cutAt, String.toList_append, ← List.map_append, List.append_assoc]
  exact congrArg _ (List.splitOn_append_cons_self _ _)

theorem intercalate_append (hns : ∀ n ∈ ns ++ ts, IsName n) (hne : ns ≠ []) (hts : ts ≠ []) :
    "/".intercalate (ns ++ ts) = "/".intercalate ns ++ "/" ++ "/".intercalate ts := by
  rw [← intercalate_parts ("/".intercalate ns ++ "/" ++ "/".intercalate ts), parts_append_slash,
    parts_intercalate (fun n hn => hns n (List.mem_append_left _ hn)) hne,
    parts_intercalate (fun n hn => hns n (List.mem_append_right _ hn)) hts]

theorem intercalate_ne_empty (hns : ∀ n ∈ ns, IsName n) (hne : ns ≠ []) :
    "/".intercalate ns ≠ "" := by
  intro hempty
  have hparts := parts_intercalate hns hne
  rw [hempty] at hparts
  have hmem : "" ∈ ns := hparts ▸ List.mem_singleton_self ""
  exact (hns "" hmem).ne_empty rfl

theorem foldl_step {before : List String} (hns : ∀ n ∈ ns, IsName n) :
    ns.foldl (step true) before = ns.reverse ++ before := by
  induction ns generalizing before with
  | nil => rfl
  | cons n ns ih =>
    have hn := hns n List.mem_cons_self
    have hstep : step true before n = n :: before := by
      simp [step, hn.ne_empty, hn.ne_point, hn.ne_points]
    rw [List.foldl_cons, hstep, ih fun n hn => hns n (List.mem_cons_of_mem _ hn)]
    simp

theorem isAbsolute_ofSteps (ns : List String) : isAbsolute (ofSteps true ns) = true := by
  simp [isAbsolute, ofSteps, String.toList_append]

/-- The names of a path that starts at the root. -/
theorem steps_ofSteps (hns : ∀ n ∈ ns, IsName n) : steps (ofSteps true ns) = ns := by
  have hparts : parts (ofSteps true ns) = "" :: parts ("/".intercalate ns) :=
    parts_append_slash "" _
  rw [steps, isAbsolute_ofSteps, hparts, List.foldl_cons]
  cases ns with
  | nil => rfl
  | cons n ns =>
    rw [parts_intercalate hns (List.cons_ne_nil _ _), foldl_step hns]
    simp [step]

theorem dropCommon_append (rs ts : List String) : dropCommon rs (rs ++ ts) = ([], ts) := by
  induction rs with
  | nil => cases ts <;> rfl
  | cons r rs ih => simp [dropCommon, ih]

/-- A path as seen from a directory on the way. -/
theorem relative?_ofSteps (hns : ∀ n ∈ rs ++ ts, IsName n) (hts : ts ≠ []) :
    relative? (ofSteps true rs) (ofSteps true (rs ++ ts)) = some ("/".intercalate ts) := by
  have hrs : ∀ n ∈ rs, IsName n := fun n hn => hns n (List.mem_append_left _ hn)
  rw [relative?, isAbsolute_ofSteps, isAbsolute_ofSteps, steps_ofSteps hrs, steps_ofSteps hns,
    dropCommon_append]
  obtain ⟨t, ts, rfl⟩ := List.exists_cons_of_ne_nil hts
  rfl

/-- A path along names does not lead above its start. -/
theorem not_above_intercalate (hns : ∀ n ∈ ns, IsName n) (hne : ns ≠ []) :
    "/".intercalate ns ≠ ".." ∧ ("/".intercalate ns).startsWith "../" = false := by
  obtain ⟨n, ns, rfl⟩ := List.exists_cons_of_ne_nil hne
  have hparts := parts_intercalate hns hne
  have hn := (hns n List.mem_cons_self).ne_points
  constructor
  · intro heq
    rw [heq] at hparts
    exact hn (List.cons.inj (hparts.symm.trans (by decide : parts ".." = [".."]))).1
  · by_contra hstarts
    rw [Bool.not_eq_false, String.startsWith_string_iff] at hstarts
    obtain ⟨rest, hrest⟩ := hstarts
    -- the first part would be two points, which is no name
    have hpath : "/".intercalate (n :: ns) = ".." ++ "/" ++ String.ofList rest := by
      rw [← String.toList_inj, ← hrest]
      simp [String.toList_append]
    rw [hpath, parts_append_slash] at hparts
    exact hn (List.cons.inj (hparts.symm.trans
      (by rfl : parts ".." ++ parts (String.ofList rest) = ".." :: parts (String.ofList rest)))).1

end CSharpAudit.Path

/-! ### Directories -/

namespace CSharpAudit

variable {root before tail inner outer ns : List String} {dir : String} {f : SourceFile}

open CSharpAudit.Path (IsName ofSteps)

namespace Watch

theorem excludedDirectory?_eq_some {pattern : String} (h : excludedDirectory? pattern = some dir) :
    pattern = dir ++ "/**" := by
  unfold excludedDirectory? at h
  split at h
  · rename_i hends
    obtain ⟨l, hl⟩ := String.Slice.endsWith_string_iff.mp hends
    obtain rfl := Option.some.inj h
    have hslice : pattern.toList = l ++ "/**".toList := by
      rw [hl, String.copy_toSlice]
    rw [← String.toList_inj, String.toList_append]
    refine hslice.trans (congrArg (· ++ _) ?_)
    trans (pattern.dropEnd 3).copy.toList
    · rw [String.toList_copy_dropEnd, hslice, List.length_append]
      exact (List.take_left' (by simp)).symm
    · rfl
  · cases h

/-- A directory that the patterns exclude is described by one of them as seen from some directory
above it. -/
theorem exists_of_excludesDirectory {patterns : List String}
    (hplain : ∀ dir, dir ++ "/**" ∈ patterns → Glob.Plain dir.toList) (hns : ∀ n ∈ ns, IsName n)
    (hne : ns ≠ []) (h : excludesDirectory patterns (ofSteps true ns) = true) :
    ∃ dir before tail, dir ++ "/**" ∈ patterns ∧ ns = before ++ tail ∧ tail ≠ [] ∧
      Glob.describes false dir ("/".intercalate tail) = true := by
  have hplace : (if (ofSteps true ns).startsWith "/" then ((ofSteps true ns).drop 1).toString
      else ofSteps true ns) = "/".intercalate ns := by
    have hrooted : ofSteps true ns = "/" ++ "/".intercalate ns := rfl
    rw [hrooted, if_pos (String.startsWith_string_iff.mpr ⟨_, String.toList_append.symm⟩),
      ← String.toList_inj]
    exact String.toList_copy_drop.trans (by rw [String.toList_append]; rfl)
  rw [excludesDirectory, hplace, List.any_eq_true] at h
  obtain ⟨dir, hdir, hdescribes⟩ := h
  obtain ⟨pattern, hpattern, hcovers⟩ := List.mem_filterMap.mp hdir
  obtain rfl := excludedDirectory?_eq_some hcovers
  -- Where the pattern is that of the whole place, nothing is above; else a part of the place is
  -- left.
  rcases Glob.exists_describes_of_deep false (hplain dir hpattern).1 hdescribes with
    hnow | ⟨above, below, hpath, hlater⟩
  · exact ⟨dir, [], ns, hpattern, rfl, hne, hnow⟩
  · have hparts := Path.parts_intercalate hns hne
    rw [hpath, Path.parts_append_slash] at hparts
    refine ⟨dir, Path.parts above, Path.parts below, hpattern, hparts.symm, ?_, ?_⟩
    · simp [Path.parts, Text.cutAt, List.splitOn_ne_nil]
    · rwa [Path.intercalate_parts]

end Watch

namespace SourceFile

/-- A file below its project or the root is known to patterns by the path from there. -/
theorem mem_candidates {workspaceRoot : String} (hnames : ∀ n ∈ before ++ tail, IsName n)
    (htail : tail ≠ []) (hpath : f.path = ofSteps true (before ++ tail))
    (hbase : ofSteps true before = f.directory ∨ ofSteps true before = workspaceRoot) :
    "/".intercalate tail ∈ f.candidates workspaceRoot := by
  refine List.mem_filterMap.mpr ⟨ofSteps true before, ?_, ?_⟩
  · rcases hbase with h | h <;> simp [h]
  · obtain ⟨hpoints, habove⟩ :=
      Path.not_above_intercalate (fun n hn => hnames n (List.mem_append_right _ hn)) htail
    have hne : (ofSteps true before).isEmpty = false := by
      simp [ofSteps]
    rw [hne, hpath, Path.relative?_ofSteps hnames htail]
    simp [Option.filter_some, hpoints, habove]

/-- An exclude that describes a directory above a file, as seen from the root or from the directory
of its project, describes the file. -/
theorem describedBy_of_directory {workspaceRoot : String} {patterns : List String}
    (hdir : dir ++ "/**" ∈ patterns) (hplain : Glob.Plain dir.toList)
    (hnames : ∀ n ∈ before ++ (tail ++ outer), IsName n) (htail : tail ≠ []) (houter : outer ≠ [])
    (hpath : f.path = ofSteps true (before ++ (tail ++ outer)))
    (hbase : ofSteps true before = f.directory ∨ ofSteps true before = workspaceRoot)
    (hdescribes : Glob.describes false dir ("/".intercalate tail) = true) :
    f.describedBy workspaceRoot patterns = true := by
  have hbelow : ∀ n ∈ tail ++ outer, IsName n := fun n hn => hnames n (List.mem_append_right _ hn)
  have hknown : "/".intercalate (tail ++ outer) ∈ f.candidates workspaceRoot :=
    mem_candidates hnames (by simp [htail]) hpath hbase
  have houter' : "/".intercalate outer ≠ "" :=
    Path.intercalate_ne_empty (fun n hn => hbelow n (List.mem_append_right _ hn)) houter
  refine List.any_eq_true.mpr ⟨_, hdir, List.any_eq_true.mpr ⟨_, hknown, ?_⟩⟩
  rw [Path.intercalate_append hbelow htail houter]
  exact Glob.describes_below hplain houter' hdescribes

end SourceFile

theorem Workspace.not_describedBy_of_selected {w : Workspace} {settings : WorkspaceSettings}
    (hwf : ∀ p ∈ settings.included ++ settings.excluded, Glob.wellFormed p = true)
    (hf : f ∈ (w.selected settings).1) : f.describedBy w.root settings.excluded = false := by
  have hfaults : (settings.included ++ settings.excluded).filter (!Glob.wellFormed ·) = [] :=
    List.filter_eq_nil_iff.mpr fun p hp => by simp [hwf p hp]
  simp only [selected, hfaults, List.map_nil, List.isEmpty_nil, if_true, List.mem_filter,
    Bool.and_eq_true, Bool.not_eq_true'] at hf
  exact hf.2.2

/-- A directory strictly below the root, on the way to a file that the settings choose, is left out
only if it has one of the names that are always left out or if an exclude describes it as seen from
another place than the root and the directory of the project. -/
theorem Watch.skipsDirectory_above_selected (w : Workspace) (settings : WorkspaceSettings)
    (f : SourceFile) (root inner outer : List String)
    (hnames : ∀ n ∈ root ++ inner ++ outer, IsName n) (hroot : w.root = ofSteps true root)
    (hpath : f.path = ofSteps true (root ++ inner ++ outer)) (hinner : inner ≠ [])
    (houter : outer ≠ []) (hf : f ∈ (w.selected settings).1)
    (hwf : ∀ p ∈ settings.included ++ settings.excluded, Glob.wellFormed p = true)
    (hplain : ∀ dir, dir ++ "/**" ∈ settings.excluded → Glob.Plain dir.toList)
    (hskip : skipsDirectory settings.excluded (ofSteps true (root ++ inner)) = true) :
    isSkippedDirectory (Path.base (ofSteps true (root ++ inner))) = true ∨
      ∃ dir before tail, dir ++ "/**" ∈ settings.excluded ∧ root ++ inner = before ++ tail ∧
        tail ≠ [] ∧ Glob.describes false dir ("/".intercalate tail) = true ∧
        before ≠ root ∧ ofSteps true before ≠ f.directory := by
  rw [skipsDirectory, Bool.or_eq_true] at hskip
  refine hskip.imp_right fun hexcluded => ?_
  have habove : ∀ n ∈ root ++ inner, IsName n := fun n hn => hnames n (List.mem_append_left _ hn)
  obtain ⟨dir, before, tail, hdir, hsplit, htail, hdescribes⟩ :=
    exists_of_excludesDirectory hplain habove (by simp [hinner]) hexcluded
  have hkept := Workspace.not_describedBy_of_selected hwf hf
  -- seen from the root or the project, the exclude would describe the file as well
  have hseen (hbase : ofSteps true before = f.directory ∨ ofSteps true before = w.root) :
      False := by
    rw [hsplit, List.append_assoc] at hnames hpath
    rw [SourceFile.describedBy_of_directory hdir (hplain dir hdir) hnames htail houter hpath hbase
      hdescribes] at hkept
    cases hkept
  exact ⟨dir, before, tail, hdir, hsplit, htail, hdescribes,
    fun hbefore => hseen (.inr (by rw [hbefore, hroot])), fun hbase => hseen (.inl hbase)⟩

/-- A workspace with one project, whose only file lies two directories below it. -/
def nestedWorkspace : Workspace where
  root := "/ws"
  projects := [{ name := "App"
                 path := "/ws/App.csproj"
                 directory := "/ws"
                 files := [.code "/ws/src/gen/A.cs"] }]

/-- The directory of the file is left out for an exclude that describes it as seen from the
directory above, where there is neither the root nor a project. -/
theorem Watch.nestedWorkspace_skips :
    let settings : WorkspaceSettings := { excluded := ["gen/**"] }
    isSkippedDirectory (Path.base (ofSteps true ["ws", "src", "gen"])) = true ∨
      ∃ dir before tail, dir ++ "/**" ∈ settings.excluded ∧ ["ws", "src", "gen"] = before ++ tail ∧
        tail ≠ [] ∧ Glob.describes false dir ("/".intercalate tail) = true ∧
        before ≠ ["ws"] ∧ ofSteps true before ≠ "/ws" := by
  intro settings
  have hplain (dir : String) (hdir : dir ++ "/**" ∈ settings.excluded) : Glob.Plain dir.toList := by
    have hgen : dir ++ "/**" = "gen" ++ "/**" := List.mem_singleton.mp hdir
    obtain rfl : dir = "gen" := by
      rw [← String.toList_inj, String.toList_append, String.toList_append] at hgen
      exact String.toList_inj.mp (List.append_cancel_right hgen)
    exact ⟨by decide, by decide⟩
  exact Watch.skipsDirectory_above_selected nestedWorkspace settings ⟨"/ws/src/gen/A.cs", "/ws"⟩
    ["ws"] ["src", "gen"] ["A.cs"] (by decide) (by decide) (by decide) (by decide) (by decide)
    (by decide +kernel) (by decide +kernel) hplain (by decide +kernel)

/-- A file is analysed, but its directory is not watched. -/
theorem Watch.nestedWorkspace_not_watched :
    let settings : WorkspaceSettings := { excluded := ["gen/**"] }
    nestedWorkspace.selected settings = ([⟨"/ws/src/gen/A.cs", "/ws"⟩], []) ∧
      Watch.skipsDirectory settings.excluded "/ws/src/gen" = true := by
  decide +kernel

end CSharpAudit
