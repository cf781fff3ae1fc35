import CSharpAudit.Proofs.Coverage
import CSharpAudit.Proofs.Grammar.Placement
import CSharpAudit.Proofs.Merging
import CSharpAudit.Proofs.Parsing
import CSharpAudit.Rules.ControlFlow

/-!
# Where control flow is reported

The control flow of a file is kept by the full names of members. Overloads, the parts of a partial
type and the accessors of a property share an entry, which keeps the place where the first of the
declarations starts. A rule that walks over the file recognises the member by its name and by this
place. No other member of the file starts there, so each entry is found at one node, and at one
only.

## Main definitions

* `CompilationUnit.flowEntries` — the bodies of a file under the names of their members
* `CompilationUnit.exceeding` — the nodes at which a control flow is found that exceeds a threshold

## Main results

* `placed_of_parse` — the members of a parsed file are placed
* `CompilationUnit.exceeding_perm` — the nodes are those of the names that exceed the threshold
* `CompilationUnit.pairwise_exceeding` — the names at these nodes stand at different places
-/

namespace CSharpAudit

variable {source : List UInt8} {u : CompilationUnit Node} {d : Declared} {c c' : Cursor}

/-! ### Placed files -/

theorem Layouts.placed_unitOfTokens {ω : Type} (L : Layouts ω) (w : ω)
    (h : Grammar.unitOfTokens (L.source w) (L.tokens w) (L.eof w) = .ok u) :
    Node.Placed 0 (L.source w).length (Node.unit u).children := by
  have : Nonempty ω := ⟨w⟩
  have hdepth : L.size < L.size + 1 + 0 := Nat.lt_succ_self L.size
  obtain ⟨hmember, hnamespace⟩ := L.places_rules hdepth
  obtain ⟨v, k, rfl, hv⟩ := exists_of_unitOfTokens
    (placed_unit hmember hnamespace (good_rules hdepth) (Nat.zero_le 1)) h
  exact (hv w).mono (Nat.le_refl 0) (L.behind_le_length w k)

/-- The members of a parsed file are placed in its text. -/
theorem placed_of_parse (h : parse source = .ok u) :
    Node.Placed 0 source.length (Node.unit u).children := by
  obtain ⟨tokens, nullable, v, hlex, hv, rfl⟩ := exists_unitOfTokens_of_parse h
  -- that the file enables nullable references changes none of its nodes
  have hplaced : Node.Placed 0 source.length (Node.unit v).children :=
    (Layouts.ofLex hlex).placed_unitOfTokens () hv
  exact hplaced

/-- What is declared at a visited node is declared in the tree, if a walk goes on only at nodes that
hold declarations. -/
theorem Node.Visited.bodied_subset {σ : Type} {enter : Visit σ → Option σ} {v w : Visit σ}
    (henter : ∀ w below, enter w = some below → w.node.holdsDeclarations = true)
    (h : Visited enter v w) : w.node.bodied ⊆ v.node.bodied := by
  induction h with
  | root => exact List.Subset.refl _
  | @child w below i c hw hbelow hc ih =>
    refine List.Subset.trans (fun n hn => ?_) ih
    rw [bodied_of_holds (henter _ _ hbelow)]
    exact List.mem_flatMap.mpr ⟨c, List.mem_of_getElem? hc, hn⟩

namespace CompilationUnit

theorem mem_bodied_of_declared (hd : d ∈ u.declarations) (hbodies : d.node.bodies ≠ []) :
    d.node ∈ (Node.unit u).bodied := by
  obtain ⟨w, hw, hsome⟩ := List.mem_filterMap.mp hd
  rw [Option.ite_none_right_eq_some] at hsome
  obtain rfl := Option.some.inj hsome.2
  have hsubset := (Node.mem_visits_iff.mp hw).bodied_subset fun w below h => by
    rw [Option.ite_none_right_eq_some, Bool.and_eq_true_iff] at h
    exact h.1.1
  refine hsubset ?_
  rw [Node.bodied_of_bodies hbodies]
  exact List.mem_singleton.mpr rfl

/-! ### Cursors at members -/

theorem eq_of_address_eq (hc : c ∈ u.cursors) (hc' : c' ∈ u.cursors)
    (h : c.address = c'.address) : c = c' :=
  List.inj_on_of_nodup_map nodup_cursors hc hc' h

/-- A member starts where the cursor at it says. -/
theorem memberStarts_eq_map_cursors : (Node.unit u).memberStarts =
    (u.cursors.filter (·.node.isMember)).map (·.node.span.start) := by
  have hnodes : u.cursors.map (·.node) = (Node.unit u).nodes := by
    rw [cursors, List.map_map]
    exact Node.map_node_visits (.unit u) ({} : Surroundings) []
  rw [Node.memberStarts, ← hnodes, List.filter_map, List.map_map]
  rfl

/-- Where a declaration with a body starts, there is one member only. -/
theorem eq_of_start_eq {lo hi : Nat} {n : Node} (hu : Node.Placed lo hi (Node.unit u).children)
    (hn : n ∈ (Node.unit u).bodied) (hc : c ∈ u.cursors) (hc' : c' ∈ u.cursors)
    (hmember : c.node.isMember = true) (hmember' : c'.node.isMember = true)
    (hstart : c.node.span.start = n.span.start) (hstart' : c'.node.span.start = n.span.start) :
    c = c' := by
  by_contra hne
  have hpair : [c, c'].Subperm (u.cursors.filter (·.node.isMember)) := by
    refine List.subperm_of_subset (by simpa using hne) fun a ha => ?_
    rcases List.mem_pair.mp ha with rfl | rfl
    · exact List.mem_filter.mpr ⟨hc, hmember⟩
    · exact List.mem_filter.mpr ⟨hc', hmember'⟩
  have hcount : (Node.unit u).memberStarts.count n.span.start ≤ 1 := by
    rw [Node.memberStarts_of_not_isMember rfl]
    exact hu.single n (Node.bodied_of_holds (n := .unit u) rfl ▸ hn)
  have htwo := hpair.countP_le fun a => a.node.span.start == n.span.start
  rw [memberStarts_eq_map_cursors, List.count_eq_countP, List.countP_map] at hcount
  simp [hstart, hstart'] at htwo
  exact absurd (Nat.le_trans htwo hcount) (by decide)

/-- A cursor that belongs to its own node stands at a member. -/
theorem isMember_of_isOwnMember (hc : c ∈ u.cursors) (h : Rules.isOwnMember c = true) :
    c.node.isMember = true := by
  obtain ⟨hdescribes, -, hnamed⟩ := describes_of_mem hc
  obtain ⟨⟨address, n⟩, hsome, haddress⟩ := Option.map_eq_some_iff.mp (eq_of_beq h)
  obtain rfl : address = c.address := haddress
  obtain ⟨o, ho, hoaddress, rfl, -⟩ := hnamed _ n hsome
  obtain rfl := eq_of_address_eq ho hc hoaddress
  rw [hdescribes.tracks.memberNode_eq] at hsome
  have hmember := List.find?_some hsome
  exact hmember

end CompilationUnit

/-! ### Entries -/

namespace FlowIndex

variable {index : FlowIndex} {name k : String} {flow f : MemberFlow}

theorem get?_eq_some_iff (hnodup : (index.map (·.1)).Nodup) :
    index.get? k = some f ↔ (k, f) ∈ index := by
  induction index with
  | nil => simp [get?]
  | cons e index ih =>
    obtain ⟨hnew, hnodup⟩ := List.nodup_cons.mp hnodup
    rw [get?, List.find?_cons]
    by_cases hname : e.1 = k
    · subst hname
      have hout : (e.1, f) ∉ index := fun h => hnew (List.mem_map.mpr ⟨_, h, rfl⟩)
      simp [hout, Prod.ext_iff, eq_comm]
    · have hne : (k, f) ≠ e := fun h => hname (congrArg Prod.fst h).symm
      have hskip : (e.1 == k) = false := beq_eq_false_iff_ne.mpr hname
      simpa [hskip, hne, get?] using ih hnodup

/-- When a body has been recorded, an entry keeps the place that it had, or it has that of the
body. -/
theorem start_of_mem_record (h : (k, f) ∈ record index name flow) :
    (∃ g, (k, g) ∈ index ∧ f.start = g.start) ∨ k = name ∧ f = flow := by
  unfold record at h
  split at h
  · obtain ⟨e, he, heq⟩ := List.mem_map.mp h
    split at heq
    · obtain ⟨rfl, rfl⟩ := Prod.mk.inj heq
      exact .inl ⟨e.2, he, rfl⟩
    · obtain rfl := heq
      exact .inl ⟨f, he, rfl⟩
  · rcases List.mem_append.mp h with h | h
    · exact .inl ⟨f, h, rfl⟩
    · exact .inr (Prod.mk.inj (List.mem_singleton.mp h))

/-- An entry has the place of one of the bodies that are recorded under its name. -/
theorem start_of_mem_foldl_record (entries : List (String × MemberFlow))
    (h : (k, f) ∈ entries.foldl (fun index e => record index e.1 e.2) index) :
    ∃ g, (k, g) ∈ index ++ entries ∧ f.start = g.start := by
  induction entries generalizing index with
  | nil => exact ⟨f, by simpa using h, rfl⟩
  | cons e entries ih =>
    obtain ⟨g, hg, hstart⟩ := ih h
    rcases List.mem_append.mp hg with hg | hg
    · rcases start_of_mem_record hg with ⟨g', hg', hstart'⟩ | ⟨rfl, rfl⟩
      · exact ⟨g', List.mem_append_left _ hg', hstart.trans hstart'⟩
      · exact ⟨e.2, List.mem_append_right _ List.mem_cons_self, hstart⟩
    · exact ⟨g, List.mem_append_right _ (List.mem_cons_of_mem e hg), hstart⟩

end FlowIndex

namespace CompilationUnit

/-- The control flow of all bodies of a file, under the names of their members. -/
def flowEntries (u : CompilationUnit Node) : List (String × MemberFlow) :=
  u.declarations.flatMap fun d => d.node.bodies.map fun body =>
    (d.path.declName d.node, {
      complexity := body.complexity, nesting := body.nesting
      start := d.node.span.start, stop := d.node.span.stop })

theorem flowIndex_eq : flowIndex u =
    u.flowEntries.foldl (fun index e => FlowIndex.record index e.1 e.2) [] := by
  rw [flowEntries, List.foldl_flatMap]
  simp only [List.foldl_map]
  rfl

theorem nodup_flowIndex : ((flowIndex u).map (·.1)).Nodup := by
  rw [flowIndex_eq]
  exact FlowIndex.nodup_foldl_record u.flowEntries List.nodup_nil

variable {k : String} {f : MemberFlow}

/-- An entry has the place of a declaration of its name that has a body. -/
theorem exists_declared_of_mem (h : (k, f) ∈ flowIndex u) : ∃ d ∈ u.declarations,
    d.node.bodies ≠ [] ∧ d.path.declName d.node = k ∧ f.start = d.node.span.start := by
  rw [flowIndex_eq] at h
  obtain ⟨g, hg, hstart⟩ := FlowIndex.start_of_mem_foldl_record u.flowEntries h
  obtain ⟨d, hd, hg⟩ := List.mem_flatMap.mp hg
  obtain ⟨body, hbody, heq⟩ := List.mem_map.mp hg
  obtain ⟨rfl, rfl⟩ := Prod.mk.inj heq
  exact ⟨d, hd, List.ne_nil_of_mem hbody, rfl, hstart⟩

/-! ### Entries found again -/

section Found

variable {s : Session} (hs : s.artifacts.flows = some (flowIndex u))

include hs in
/-- The control flow of a member is found at a cursor at the member, if the entry has its place. -/
theorem memberFlow?_eq_some_iff : Rules.memberFlow? s c = some f ↔
    Rules.isOwnMember c = true ∧ (c.member, f) ∈ flowIndex u ∧ f.start = c.node.span.start := by
  rw [Rules.memberFlow?, hs, Option.bind_some, ← FlowIndex.get?_eq_some_iff nodup_flowIndex]
  cases Rules.isOwnMember c <;> simp [Option.filter_eq_some_iff]

include hs in
/-- Every entry is found again. -/
theorem exists_cursor_of_flow (h : (k, f) ∈ flowIndex u) :
    ∃ c ∈ u.cursors, c.member = k ∧ Rules.memberFlow? s c = some f := by
  obtain ⟨d, hd, hbodies, rfl, hstart⟩ := exists_declared_of_mem h
  obtain ⟨c, hc, haddress, hnode, -, hown⟩ := exists_cursor_of_declared hd
  obtain ⟨hmemberNode, hmember⟩ := hown (Node.isMember_of_bodies hbodies)
  refine ⟨c, hc, hmember, (memberFlow?_eq_some_iff hs).mpr ⟨?_, hmember ▸ h, ?_⟩⟩
  · rw [Rules.isOwnMember, hmemberNode, haddress]
    exact BEq.rfl
  · rw [hstart, hnode]

variable {lo hi : Nat} (hu : Node.Placed lo hi (Node.unit u).children)

include hs hu in
/-- Entries are found at declarations with a body. -/
theorem mem_bodied_of_memberFlow? (hc : c ∈ u.cursors) (h : Rules.memberFlow? s c = some f) :
    c.node ∈ (Node.unit u).bodied := by
  obtain ⟨hown, hmem, hstart⟩ := (memberFlow?_eq_some_iff hs).mp h
  obtain ⟨d, hd, hbodies, -, hdstart⟩ := exists_declared_of_mem hmem
  obtain ⟨e, he, -, hnode, -⟩ := exists_cursor_of_declared hd
  have hbodied := mem_bodied_of_declared hd hbodies
  have hsame : c = e := by
    refine eq_of_start_eq hu hbodied hc he (isMember_of_isOwnMember hc hown) ?_ ?_ ?_
    · exact hnode ▸ Node.isMember_of_bodies hbodies
    · omega
    · rw [hnode]
  rw [hsame, hnode]
  exact hbodied

include hs hu in
/-- Two nodes at which entries are found do not start at one place. -/
theorem eq_of_memberFlow?_of_start_eq {f' : MemberFlow} (hc : c ∈ u.cursors) (hc' : c' ∈ u.cursors)
    (h : Rules.memberFlow? s c = some f) (h' : Rules.memberFlow? s c' = some f')
    (hstart : c.node.span.start = c'.node.span.start) : c = c' := by
  obtain ⟨hown, -⟩ := (memberFlow?_eq_some_iff hs).mp h
  obtain ⟨hown', -⟩ := (memberFlow?_eq_some_iff hs).mp h'
  exact eq_of_start_eq hu (mem_bodied_of_memberFlow? hs hu hc' h') hc hc'
    (isMember_of_isOwnMember hc hown) (isMember_of_isOwnMember hc' hown') hstart rfl

/-- The cursors at which a control flow is found that passes a test. -/
def exceeding (u : CompilationUnit Node) (s : Session) (exceeds : MemberFlow → Bool) :
    List Cursor :=
  u.cursors.filter fun c => (Rules.memberFlow? s c).any exceeds

variable {exceeds : MemberFlow → Bool}

theorem mem_exceeding : c ∈ u.exceeding s exceeds ↔
    c ∈ u.cursors ∧ ∃ f, Rules.memberFlow? s c = some f ∧ exceeds f = true := by
  rw [exceeding, List.mem_filter, Option.any_eq_true]

theorem nodup_exceeding : (u.exceeding s exceeds).Nodup := nodup_cursors.of_map.filter _

include hs hu in
/-- A control flow that passes a test is found once for each name that has one. -/
theorem exceeding_perm : ((u.exceeding s exceeds).map (·.member)).Perm
    (FlowIndex.named exceeds (flowIndex u)) := by
  have hnames : (FlowIndex.named exceeds (flowIndex u)).Nodup :=
    nodup_flowIndex.sublist (List.filter_sublist.map _)
  have hnodup : ((u.exceeding s exceeds).map (·.member)).Nodup := by
    refine nodup_exceeding.map_on fun c hc c' hc' hmember => ?_
    obtain ⟨hc, f, hf, -⟩ := mem_exceeding.mp hc
    obtain ⟨hc', f', hf', -⟩ := mem_exceeding.mp hc'
    obtain ⟨-, hmem, hstart⟩ := (memberFlow?_eq_some_iff hs).mp hf
    obtain ⟨-, hmem', hstart'⟩ := (memberFlow?_eq_some_iff hs).mp hf'
    -- the two have one entry, so they start at one place
    obtain rfl : f = f' := by
      rw [← FlowIndex.get?_eq_some_iff nodup_flowIndex] at hmem hmem'
      rw [hmember] at hmem
      exact Option.some.inj (hmem.symm.trans hmem')
    exact eq_of_memberFlow?_of_start_eq hs hu hc hc' hf hf' (by omega)
  refine (List.perm_ext_iff_of_nodup hnodup hnames).mpr fun k => ?_
  rw [List.mem_map, FlowIndex.mem_named]
  constructor
  · rintro ⟨c, hc, rfl⟩
    obtain ⟨-, f, hf, hexceeds⟩ := mem_exceeding.mp hc
    exact ⟨f, ((memberFlow?_eq_some_iff hs).mp hf).2.1, hexceeds⟩
  · rintro ⟨f, hf, hexceeds⟩
    obtain ⟨c, hc, hmember, hfound⟩ := exists_cursor_of_flow hs hf
    exact ⟨c, mem_exceeding.mpr ⟨hc, f, hfound, hexceeds⟩, hmember⟩

include hs hu in
/-- The names of the members at which a control flow is found stand at different places of the
text. -/
theorem pairwise_exceeding : (u.exceeding s exceeds).Pairwise fun c c' =>
    c.node.nameSpan.start < hi ∧ c'.node.nameSpan.start < hi ∧
      c.node.nameSpan.start ≠ c'.node.nameSpan.start := by
  have hchildren : (Node.unit u).bodied = (Node.unit u).children.flatMap Node.bodied :=
    Node.bodied_of_holds rfl
  refine nodup_exceeding.pairwise_of_forall_ne fun c hc c' hc' hne => ?_
  obtain ⟨hc, f, hf, -⟩ := mem_exceeding.mp hc
  obtain ⟨hc', f', hf', -⟩ := mem_exceeding.mp hc'
  have hbodied := hchildren ▸ mem_bodied_of_memberFlow? hs hu hc hf
  have hbodied' := hchildren ▸ mem_bodied_of_memberFlow? hs hu hc' hf'
  refine ⟨(hu.named _ hbodied).2, (hu.named _ hbodied').2, fun hname => hne ?_⟩
  have hnode : c.node = c'.node := List.inj_on_of_nodup_map hu.nodup hbodied hbodied' hname
  exact eq_of_memberFlow?_of_start_eq hs hu hc hc' hf hf' (by rw [hnode])

end Found

end CompilationUnit

end CSharpAudit
