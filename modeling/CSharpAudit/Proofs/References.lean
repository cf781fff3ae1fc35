import CSharpAudit.Workspace.Load
import Mathlib.Data.Fintype.BigOperators
import Mathlib.Data.Fintype.Option
import Mathlib.Logic.Relation

/-!
# Following references

The projects that are tried are those that can be reached from the ones asked for. A project is
tried once. If it cannot be read, this is told where it is tried first: it ends the load if the
project was asked for and is noted in the project that names it otherwise. So whether a directory
can be loaded depends on which of its projects are visited before others that they lead to.

## Main definitions

* `ProjectSource.Names`, `ProjectSource.Leads` — which projects are named, and which are reached
* `ProjectSource.Broken` — a project that cannot be read
* `ProjectSource.Explored` — what is known of the projects tried so far

## Main results

* `ProjectSource.explored_reach` — following references tries what can be reached
* `ProjectSource.mem_tried_iff` — the projects that are tried
* `ProjectSource.exists_error_iff` — when a project that was asked for cannot be loaded
* `Workspace.directory_order_matters_iff` — when the order of visiting does not matter
-/

namespace CSharpAudit

open Relation (ReflTransGen)

namespace ProjectSource

variable {source : ProjectSource} {fuel : Nat} {seen seen' seen'' paths paths' : List String}
  {p q : String}

/-- A project names another one that is there, and its references are followed. -/
def Names (source : ProjectSource) (p q : String) : Prop :=
  source.follow = true ∧ ∃ project, source.read p = .ok project ∧ q ∈ project.projectReferences ∧
    source.present q = true

/-- A project is reached from another one along references. -/
def Leads (source : ProjectSource) : String → String → Prop := ReflTransGen source.Names

/-- A project that cannot be read. -/
def Broken (source : ProjectSource) (p : String) : Prop := (source.read p).isOk = false

theorem Leads.refl (p : String) : source.Leads p p := ReflTransGen.refl

theorem Names.not_broken (h : source.Names p q) : ¬source.Broken p := by
  obtain ⟨-, project, hread, -⟩ := h
  simp [Broken, hread, Except.isOk, Except.toBool]

/-- A project that cannot be read leads to no other one. -/
theorem Broken.eq_of_leads (hp : source.Broken p) (h : source.Leads p q) : p = q := by
  rcases h.cases_head with heq | ⟨_, hnames, -⟩
  · exact heq
  · exact absurd hp hnames.not_broken

/-! ### Which projects are tried -/

/-- What is known when the projects `seen'` have been tried, those in `seen` before and the others
on the way from `starts`. -/
structure Explored (source : ProjectSource) (starts seen seen' : List String) : Prop where
  subset : seen ⊆ seen'
  starts_subset : starts ⊆ seen'
  reached : ∀ q ∈ seen', q ∈ seen ∨ ∃ p ∈ starts, source.Leads p q
  closed : ∀ p ∈ seen', p ∈ seen ∨ ∀ q, source.Names p q → q ∈ seen'

theorem Explored.nil (seen : List String) : source.Explored [] seen seen where
  subset := List.Subset.refl _
  starts_subset := List.nil_subset _
  reached _ h := .inl h
  closed _ h := .inl h

/-- What was tried before is known from before. -/
theorem Explored.tried (h : p ∈ seen) : source.Explored [p] seen seen where
  subset := List.Subset.refl _
  starts_subset := by simpa using h
  reached _ h := .inl h
  closed _ h := .inl h

theorem Explored.append (h : source.Explored paths seen seen')
    (h' : source.Explored paths' seen' seen'') : source.Explored (paths ++ paths') seen seen'' where
  subset := List.Subset.trans h.subset h'.subset
  starts_subset := List.append_subset.mpr
    ⟨List.Subset.trans h.starts_subset h'.subset, h'.starts_subset⟩
  reached q hq := by
    rcases h'.reached q hq with hq | ⟨p, hp, hleads⟩
    · exact (h.reached q hq).imp_right fun ⟨p, hp, hleads⟩ =>
        ⟨p, List.mem_append_left _ hp, hleads⟩
    · exact .inr ⟨p, List.mem_append_right _ hp, hleads⟩
  closed p hp := by
    rcases h'.closed p hp with hp | hclosed
    · exact (h.closed p hp).imp_right fun hclosed q hq => h'.subset (hclosed q hq)
    · exact .inr hclosed

/-- A project whose references are not followed, or which has none, is tried alone. -/
theorem Explored.single (h : ∀ q, ¬source.Names p q) :
    source.Explored [p] seen (p :: seen) where
  subset := List.subset_cons_self _ _
  starts_subset := by simp
  reached q hq := by
    rcases List.mem_cons.mp hq with rfl | hq
    · exact .inr ⟨q, by simp, .refl q⟩
    · exact .inl hq
  closed q hq := by
    rcases List.mem_cons.mp hq with rfl | hq
    · exact .inr fun r hr => absurd hr (h r)
    · exact .inl hq

/-- A project is tried before those that it names. -/
theorem Explored.head (named : List String) (hnamed : ∀ q, source.Names p q ↔ q ∈ named)
    (h : source.Explored named (p :: seen) seen') : source.Explored [p] seen seen' where
  subset := List.Subset.trans (List.subset_cons_self _ _) h.subset
  starts_subset := by simpa using h.subset List.mem_cons_self
  reached q hq := by
    rcases h.reached q hq with hq | ⟨r, hr, hleads⟩
    · rcases List.mem_cons.mp hq with rfl | hq
      · exact .inr ⟨q, by simp, .refl q⟩
      · exact .inl hq
    · exact .inr ⟨p, by simp, .head ((hnamed r).mpr hr) hleads⟩
  closed q hq := by
    rcases h.closed q hq with hq | hclosed
    · rcases List.mem_cons.mp hq with rfl | hq
      · exact .inr fun r hr => h.starts_subset ((hnamed r).mp hr)
      · exact .inl hq
    · exact .inr hclosed

/-- Fewer than `fuel` projects can be read that have not been tried. -/
def Enough (source : ProjectSource) (fuel : Nat) (seen : List String) : Prop :=
  ∀ paths : List String, paths.Nodup → (∀ p ∈ paths, ¬source.Broken p ∧ p ∉ seen) →
    paths.length < fuel

theorem Enough.pos (h : source.Enough fuel seen) : 0 < fuel := h [] .nil (by simp)

theorem Enough.mono (h : source.Enough fuel seen) (hsub : seen ⊆ seen') :
    source.Enough fuel seen' := fun paths hnodup hpaths =>
  h paths hnodup fun p hp => ⟨(hpaths p hp).1, fun hseen => (hpaths p hp).2 (hsub hseen)⟩

theorem Enough.cons (h : source.Enough (fuel + 1) seen) (hp : ¬source.Broken p) (hseen : p ∉ seen) :
    source.Enough fuel (p :: seen) := fun paths hnodup hpaths => by
  have hnew : p ∉ paths := fun hmem => (hpaths p hmem).2 List.mem_cons_self
  have hlt := h (p :: paths) (List.nodup_cons.mpr ⟨hnew, hnodup⟩) fun q hq => by
    rcases List.mem_cons.mp hq with rfl | hq
    · exact ⟨hp, hseen⟩
    · exact ⟨(hpaths q hq).1, fun hmem => (hpaths q hq).2 (List.mem_cons_of_mem _ hmem)⟩
  exact Nat.lt_of_succ_lt_succ hlt

theorem explored_reachAll {visit : List String → String → Reached}
    (hvisit : ∀ seen p, source.Enough fuel seen → source.Explored [p] seen (visit seen p).seen)
    (hfuel : source.Enough fuel seen) (paths : List String) :
    source.Explored paths seen (reachAll visit seen paths).1 := by
  induction paths generalizing seen with
  | nil => exact .nil seen
  | cons p paths ih =>
    have hp := hvisit seen p hfuel
    exact hp.append (ih (hfuel.mono hp.subset))

/-- Following references tries what can be reached and has not been tried. -/
theorem explored_reach (hfuel : source.Enough fuel seen) (p : String) :
    source.Explored [p] seen (reach source fuel seen p).seen := by
  -- a project that is followed can be read and has not been tried, so one less is left for the rest
  induction fuel generalizing seen p with
  | zero => exact absurd hfuel.pos (Nat.lt_irrefl 0)
  | succ fuel ih =>
    rw [reach]
    split
    · rename_i hseen
      exact .tried (List.contains_iff_mem.mp hseen)
    rename_i hseen
    dsimp only
    split
    · rename_i e hread
      refine .single fun q hnames => hnames.not_broken ?_
      simp [Broken, hread, Except.isOk, Except.toBool]
    · rename_i project hread
      split
      · rename_i hfollow
        exact .single fun q hnames => by simp [hnames.1] at hfollow
      · rename_i hfollow
        have hbroken : ¬source.Broken p := by
          simp [Broken, hread, Except.isOk, Except.toBool]
        have hnew : p ∉ seen := fun h => hseen (List.contains_iff_mem.mpr h)
        refine .head (project.projectReferences.filter source.present) (fun q => ?_)
          (explored_reachAll (fun seen q h => ih h q) (hfuel.cons hbroken hnew) _)
        simp only [Names, hread, Except.ok.injEq, exists_eq_left', List.mem_filter]
        simp only [Bool.not_eq_true, Bool.not_eq_false'] at hfollow
        simp [hfollow]

/-- The projects that are tried are those that can be reached. -/
theorem mem_tried_iff (hfuel : source.Enough fuel []) :
    q ∈ (reachAll (reach source fuel) [] paths).1 ↔ ∃ p ∈ paths, source.Leads p q := by
  have h : source.Explored paths [] (reachAll (reach source fuel) [] paths).1 :=
    explored_reachAll (fun seen p h => explored_reach h p) hfuel paths
  constructor
  · intro hq
    exact (h.reached q hq).resolve_left List.not_mem_nil
  · rintro ⟨p, hp, hleads⟩
    -- what has been tried is closed under the references that are followed
    induction hleads with
    | refl => exact h.starts_subset hp
    | tail _ hnames ih => exact (h.closed _ ih).resolve_left List.not_mem_nil _ hnames

/-! ### Which faults end a load -/

/-- A fault is told of a project that cannot be read where it is tried first. -/
theorem isSome_error_reach (hfuel : 0 < fuel) :
    (reach source fuel seen p).error.isSome = true ↔ p ∉ seen ∧ source.Broken p := by
  obtain ⟨fuel, rfl⟩ := Nat.exists_eq_add_one_of_ne_zero (Nat.ne_of_gt hfuel)
  rw [reach]
  split
  · rename_i hseen
    simp [List.contains_iff_mem.mp hseen]
  rename_i hseen
  have hnew : p ∉ seen := fun h => hseen (List.contains_iff_mem.mpr h)
  dsimp only
  split
  · rename_i e hread
    simp [hnew, Broken, hread, Except.isOk, Except.toBool]
  · rename_i project hread
    have hbroken : ¬source.Broken p := by simp [Broken, hread, Except.isOk, Except.toBool]
    split <;> simp [hbroken]

/-- Each project that was asked for is visited with knowledge of those before. -/
theorem mem_reachAll_iff {visit : List String → String → Reached} {r : Reached} :
    r ∈ (reachAll visit seen paths).2 ↔ ∃ before q after, paths = before ++ q :: after ∧
      r = visit (reachAll visit seen before).1 q := by
  induction paths generalizing seen with
  | nil => simp [reachAll]
  | cons p paths ih =>
    rw [reachAll, List.mem_cons, ih]
    constructor
    · rintro (rfl | ⟨before, q, after, rfl, rfl⟩)
      · exact ⟨[], p, paths, rfl, rfl⟩
      · exact ⟨p :: before, q, after, rfl, rfl⟩
    · rintro ⟨before, q, after, hpaths, rfl⟩
      cases before with
      | nil =>
        obtain ⟨rfl, -⟩ := List.cons.inj hpaths
        exact .inl rfl
      | cons p' before =>
        obtain ⟨rfl, hbehind⟩ := List.cons.inj hpaths
        exact .inr ⟨before, q, after, hbehind, rfl⟩

/-- Visiting some projects fails: one of them cannot be read, and none of those before it leads to
it. -/
def Fails (source : ProjectSource) (paths : List String) : Prop :=
  ∃ before q after, paths = before ++ q :: after ∧ source.Broken q ∧
    ∀ p ∈ before, ¬source.Leads p q

theorem exists_error_iff (hfuel : source.Enough fuel []) :
    (∃ r ∈ (reachAll (reach source fuel) [] paths).2, r.error.isSome = true) ↔
      source.Fails paths := by
  simp only [mem_reachAll_iff]
  constructor
  · rintro ⟨_, ⟨before, q, after, rfl, rfl⟩, herror⟩
    obtain ⟨hnew, hbroken⟩ := (isSome_error_reach hfuel.pos).mp herror
    rw [mem_tried_iff hfuel] at hnew
    exact ⟨before, q, after, rfl, hbroken, fun p hp hleads => hnew ⟨p, hp, hleads⟩⟩
  · rintro ⟨before, q, after, rfl, hbroken, hunreached⟩
    refine ⟨_, ⟨before, q, after, rfl, rfl⟩, (isSome_error_reach hfuel.pos).mpr ⟨?_, hbroken⟩⟩
    rw [mem_tried_iff hfuel]
    rintro ⟨p, hp, hleads⟩
    exact hunreached p hp hleads

/-! ### Orders of visiting -/

/-- A visit of a project that cannot be read fails, whatever the order, if none that can be read
leads to it. -/
theorem fails_of_unreached (hq : q ∈ paths) (hbroken : source.Broken q)
    (hunreached : ∀ p ∈ paths, ¬source.Broken p → ¬source.Leads p q) : source.Fails paths := by
  -- at its first place in the order, for it may stand there more than once
  obtain ⟨before, after, rfl, hfirst⟩ := List.eq_append_cons_of_mem hq
  refine ⟨before, q, after, rfl, hbroken, fun p hp hleads => ?_⟩
  by_cases hp' : source.Broken p
  · exact hfirst (hp'.eq_of_leads hleads ▸ hp)
  · exact hunreached p (List.mem_append_left _ hp) hp' hleads

/-- A visit succeeds that begins with all projects that can be read, if they lead to the others. -/
theorem not_fails_append (readable broken : List String)
    (hreadable : ∀ p ∈ readable, ¬source.Broken p)
    (hreached : ∀ q ∈ broken, ∃ p ∈ readable, source.Leads p q) :
    ¬source.Fails (readable ++ broken) := by
  rintro ⟨before, q, after, hpaths, hbroken, hunreached⟩
  have hq : q ∈ broken := by
    have hmem : q ∈ readable ++ broken := hpaths ▸ List.mem_append_right _ List.mem_cons_self
    exact (List.mem_append.mp hmem).resolve_left fun h => hreadable q h hbroken
  -- what fails cannot be read, so all that can be stands before it
  have hbefore : readable ⊆ before := by
    rcases List.append_eq_append_iff.mp hpaths with ⟨rest, rfl, -⟩ | ⟨rest, rfl, hrest⟩
    · exact List.subset_append_left _ _
    · cases rest with
      | nil => simp
      | cons p rest =>
        obtain ⟨rfl, -⟩ := List.cons.inj hrest
        exact absurd hbroken (hreadable q (by simp))
  obtain ⟨p, hp, hleads⟩ := hreached q hq
  exact hunreached p (hbefore hp) hleads

/-- It does not matter in which order some projects are visited if and only if all of them can be
read, or one cannot that none of the readable ones leads to. -/
theorem fails_perm_iff (listed : List String) :
    (∀ order order' : List String, order.Perm listed → order'.Perm listed →
      (source.Fails order ↔ source.Fails order')) ↔
    (∀ q ∈ listed, ¬source.Broken q) ∨
      ∃ q ∈ listed, source.Broken q ∧ ∀ p ∈ listed, ¬source.Broken p → ¬source.Leads p q := by
  constructor
  · intro hsame
    by_contra! hmatters
    obtain ⟨⟨b, hb, hbroken⟩, hreached⟩ := hmatters
    -- one order begins with a project that cannot be read, another one with all that can be
    have hfails : source.Fails (b :: listed.erase b) :=
      ⟨[], b, _, rfl, hbroken, by simp⟩
    let readable (p : String) : Bool := (source.read p).isOk
    refine not_fails_append (listed.filter readable) (listed.filter (!readable ·)) (fun p hp => ?_)
      (fun q hq => ?_)
      ((hsame _ _ (List.perm_cons_erase hb).symm
        (List.filter_append_perm readable listed)).mp hfails)
    · simpa [Broken, readable] using (List.mem_filter.mp hp).2
    · obtain ⟨hq, hunread⟩ := List.mem_filter.mp hq
      obtain ⟨p, hp, hread, hleads⟩ := hreached q hq (by simpa [Broken, readable] using hunread)
      exact ⟨p, List.mem_filter.mpr ⟨hp, by simpa [Broken] using hread⟩, hleads⟩
  · rintro (hall | ⟨q, hq, hbroken, hunreached⟩) order order' horder horder'
    · have hnever {order : List String} (h : order.Perm listed) : ¬source.Fails order := by
        rintro ⟨before, q, after, rfl, hbroken, -⟩
        exact hall q (h.mem_iff.mp (by simp)) hbroken
      exact iff_of_false (hnever horder) (hnever horder')
    · have halways {order : List String} (h : order.Perm listed) : source.Fails order :=
        fails_of_unreached (h.mem_iff.mpr hq) hbroken fun p hp => hunreached p (h.mem_iff.mp hp)
      exact iff_of_true (halways horder) (halways horder')

end ProjectSource

/-! ### Projects on a disk -/

/-- There are no more texts of at most `n` bytes than ways to give each of `n` bytes one of 256
values or to leave it out. -/
theorem length_le_of_short {paths : List String} {n : Nat} (hnodup : paths.Nodup)
    (hshort : ∀ p ∈ paths, p.utf8ByteSize ≤ n) : paths.length ≤ Nat.pow 257 n := by
  let byteAt (p : String) (i : Fin n) : Option (Fin 256) :=
    p.toByteArray.data[i.val]?.map (·.toFin)
  have hinj : ∀ p ∈ paths, ∀ q ∈ paths, byteAt p = byteAt q → p = q := by
    intro p hp q hq heq
    refine String.toByteArray_inj.mp (ByteArray.ext (Array.ext_getElem? fun i => ?_))
    by_cases hi : i < n
    · exact Option.map_injective (fun _ _ => UInt8.toFin_inj.mp) (congrFun heq ⟨i, hi⟩)
    · -- behind `n` bytes both texts have ended
      have hend {p : String} (hp : p ∈ paths) : p.toByteArray.data[i]? = none :=
        Array.getElem?_eq_none (Nat.le_trans (hshort p hp) (Nat.le_of_not_lt hi))
      rw [hend hp, hend hq]
  have hcard : Fintype.card (Fin n → Option (Fin 256)) = Nat.pow 257 n := by simp
  rw [← hcard, ← List.length_map byteAt]
  exact (hnodup.map_on hinj).length_le_card

namespace FileSystem

/-- What can be read has a short path. -/
theorem utf8ByteSize_le_of_read {fs : FileSystem} {path : String} {bytes : List UInt8}
    (h : fs.read path = .ok bytes) : path.utf8ByteSize ≤ maxPath := by
  by_contra hlong
  have htrail : ∃ e, fs.trail true path = .error e := by
    unfold trail
    split
    · exact ⟨_, rfl⟩
    split
    · exact ⟨_, rfl⟩
    · exact ⟨_, if_pos (Nat.lt_of_not_le hlong)⟩
  obtain ⟨e, htrail⟩ := htrail
  simp [read, lookup, htrail, bind, Except.bind] at h

end FileSystem

namespace Workspace

variable {fs : FileSystem} {follow : Bool} {dir : String}

theorem enough_maxDepth (fs : FileSystem) (follow : Bool) :
    (projectSource fs follow).Enough maxDepth [] := by
  intro paths hnodup hpaths
  rw [maxDepth]
  refine Nat.lt_add_one_of_le (length_le_of_short hnodup fun p hp => ?_)
  have hread : ((projectSource fs follow).read p).isOk = true := by
    simpa [ProjectSource.Broken] using (hpaths p hp).1
  cases hbytes : fs.read p with
  | ok bytes => exact FileSystem.utf8ByteSize_le_of_read hbytes
  | error e =>
    simp only [projectSource, readProject, hbytes] at hread
    split at hread <;> cases hread

theorem isOk_requireAll {rs : List Reached} :
    (requireAll rs).isOk = false ↔ ∃ r ∈ rs, r.error.isSome = true := by
  rw [← List.findSome?_isSome_iff, requireAll]
  cases rs.findSome? (·.error) <;> simp [Except.isOk, Except.toBool]

theorem isOk_reachProjects (paths : List String) :
    (requireAll (reachProjects fs follow paths)).isOk = false ↔
      (projectSource fs follow).Fails paths :=
  isOk_requireAll.trans (ProjectSource.exists_error_iff (enough_maxDepth fs follow))

/-- The project files below a directory. -/
def projectsBelow (fs : FileSystem) (dir : String) : List String :=
  (fs.filesBelow isSkippedDirectory dir).filter
    fun f => Text.lowered (Path.extension f) == ".csproj"

theorem isOk_ofDirectory : (ofDirectory fs follow dir).isOk =
    (requireAll (reachProjects fs follow (projectsBelow fs dir))).isOk := by
  unfold ofDirectory
  dsimp only
  split
  · rename_i hnone
    rw [projectsBelow, List.isEmpty_iff.mp hnone]
    rfl
  · rw [projectsBelow]
    cases requireAll _ <;> rfl

/-- A directory can be loaded unless one of its projects cannot be read and none of those visited
before leads to it, in whatever order they are visited. The order does not matter if and only if all
projects can be read, or one cannot that none of the readable ones leads to. -/
theorem directory_order_matters_iff (fs : FileSystem) (dir : String) :
    let source := projectSource fs true
    let listed := projectsBelow fs dir
    ((ofDirectory fs true dir).isOk = false ↔ source.Fails listed) ∧
    (∀ order : List String, order.Perm listed →
      ((requireAll (reachProjects fs true order)).isOk = false ↔ source.Fails order)) ∧
    ((∀ order order' : List String, order.Perm listed → order'.Perm listed →
      (requireAll (reachProjects fs true order)).isOk =
        (requireAll (reachProjects fs true order')).isOk) ↔
      (∀ q ∈ listed, ¬source.Broken q) ∨
        ∃ q ∈ listed, source.Broken q ∧ ∀ p ∈ listed, ¬source.Broken p → ¬source.Leads p q) := by
  intro source listed
  refine ⟨?_, fun order _ => isOk_reachProjects order, ?_⟩
  · rw [isOk_ofDirectory]
    exact isOk_reachProjects listed
  · rw [← ProjectSource.fails_perm_iff]
    refine forall₄_congr fun order order' _ _ => ?_
    rw [← isOk_reachProjects, ← isOk_reachProjects]
    cases (requireAll (reachProjects fs true order)).isOk <;>
      cases (requireAll (reachProjects fs true order')).isOk <;> decide

/-- A directory with a project that names one that is not well formed. -/
def brokenReferenceDisk : FileSystem where
  root :=
    let text (s : String) := FileTree.file (s.toList.map Lexer.ascii)
    .directory [("ws", .directory [
      ("App.csproj", text ("<Project><ItemGroup><ProjectReference Include=\"Lib.csproj\"/>" ++
        "</ItemGroup></Project>")),
      ("Lib.csproj", text "<Project>")])]
  current := "/ws"

/-- The directory can be loaded as long as the project is visited first that names the other one. -/
theorem brokenReferenceDisk_order_matters :
    projectsBelow brokenReferenceDisk "/ws" = ["/ws/App.csproj", "/ws/Lib.csproj"] ∧
      (ofDirectory brokenReferenceDisk true "/ws").isOk = true ∧
      (requireAll (reachProjects brokenReferenceDisk true
        ["/ws/Lib.csproj", "/ws/App.csproj"])).isOk = false := by
  delta brokenReferenceDisk
  dsimp only
  rw [Lexer.ascii_ofList_append, Lexer.ascii_ofList]
  decide +kernel

end Workspace

end CSharpAudit
